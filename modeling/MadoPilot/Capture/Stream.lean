import MadoPilot.Capture.Frame

/-!
# Publication: what `prepare` decides and what a commit installs

The authoritative state of one capture stream and the rules every publication passes before
anything is committed.  `prepare` reads the state and changes nothing; `install` is what the commit
writes under the stream mutex.

* `advance_eq_ok` : the three ways the cursor moves before a frame is stamped;
* `prepare_eq_ok` : everything a publication that passes has been checked for, and what it resolved
  to.
-/

namespace MadoPilot.Capture

open MadoPilot.Core MadoPilot.Lib

/-- How a published frame relates to the one before it. -/
inductive Continuity where
  | continuous | geometryChanged | discontinuous
  deriving DecidableEq, Repr

structure Publication where
  capturedAt : ℕ
  descriptor : FrameDescriptor
  placement : Option TargetPlacement
  pixels : List UInt8
  continuity : Continuity
  deriving DecidableEq

/-- One frame an adapter is asking the stream to publish, as owned storage. -/
structure StoragePublication where
  capturedAt : ℕ
  placement : Option TargetPlacement
  storage : FrameStorage
  continuity : Continuity
  deriving DecidableEq

/-- What `publish_recoverable` and `publish_storage_with` are called with. -/
inductive Request where
  | bytes (publication : Publication)
  | storage (publication : StoragePublication)
  deriving DecidableEq

namespace Request

def descriptor : Request → FrameDescriptor
  | bytes p => p.descriptor
  | storage p => p.storage.descriptor

def placement : Request → Option TargetPlacement
  | bytes p => p.placement
  | storage p => p.placement

def continuity : Request → Continuity
  | bytes p => p.continuity
  | storage p => p.continuity

def capturedAt : Request → ℕ
  | bytes p => p.capturedAt
  | storage p => p.capturedAt

/-- The length to check, while the caller still owns loose bytes. -/
def pixelLen : Request → Option ℕ
  | bytes p => some p.pixels.length
  | storage _ => none

def intoStorage : Request → FrameStorage
  | bytes p => .cpu p.descriptor p.pixels
  | storage p => p.storage

end Request

structure Inner where
  cursor : StreamCursor
  geometry : ℕ
  latest : Option Frame
  lifecycle : Lifecycle
  waiters : ℕ
  terminal : Option CaptureFault
  deriving DecidableEq

structure StreamState where
  inner : Inner
  coversTarget : Bool
  pendingDrops : ℕ
  publishedAny : Bool
  acceptingDrops : Bool
  deriving DecidableEq

/-- A stream at epoch zero with nothing published. -/
def StreamState.build (stream : StreamId) (coversTarget : Bool) : StreamState where
  inner := ⟨.new stream, 0, none, .opened, 0, none⟩
  coversTarget := coversTarget
  pendingDrops := 0
  publishedAny := false
  acceptingDrops := true

/-- The identity and geometry one publication resolved to, before it commits. -/
structure Prepared where
  cursor : StreamCursor
  geometry : ℕ
  stamp : FrameStamp
  transform : TransformSnapshot
  consumedDrops : ℕ
  deriving DecidableEq

section Prepare

variable (round : ℚ → Option ℚ)

/-- The refusals `prepare` makes before it looks at the current frame. -/
def refusal (inner : Inner) (descriptor : FrameDescriptor) (pixelLen : Option ℕ) : Option Error :=
  match inner.terminal with
  | some terminal => some terminal.toError
  | none =>
    if inner.lifecycle ≠ .opened then some CaptureFault.sessionClosed.toError
    else
      match pixelLen with
      | some len =>
        if len ≠ descriptor.byteLen then some CaptureFault.byteLengthMismatch.toError else none
      | none => none

/-- The extent or the pixel format differs from the current frame's. -/
def reshaped (current : Option Frame) (descriptor : FrameDescriptor) : Bool :=
  current.any fun frame =>
    frame.descriptor.extent ≠ descriptor.extent || frame.descriptor.format ≠ descriptor.format

def replacedTransform (current : Option Frame) (placement : Option TargetPlacement) : Bool :=
  current.any fun frame => frame.transform.target ≠ placement

/-- The continuity the stream enforces, whatever the adapter declared. -/
def enforced (current : Option Frame) (descriptor : FrameDescriptor)
    (placement : Option TargetPlacement) (declared : Continuity) : Continuity :=
  if reshaped current descriptor then .discontinuous
  else if replacedTransform current placement && declared = .continuous then .geometryChanged
  else declared

def nextGeometry (inner : Inner) (continuity : Continuity) : Option ℕ :=
  if continuity ≠ .continuous then nextRevision inner.geometry else some inner.geometry

/-- The cursor the next frame is stamped with, and the drops its gap exposes. -/
def advance (inner : Inner) (continuity : Continuity) (pendingDrops : ℕ) :
    Except IdentityFault (StreamCursor × ℕ) :=
  if continuity = .discontinuous ∧ inner.latest.isSome then
    inner.cursor.beginEpoch.map fun cursor => (cursor, 0)
  else if inner.latest.isSome then
    (inner.cursor.skip pendingDrops).map fun cursor => (cursor, pendingDrops)
  else .ok (inner.cursor, 0)

def snapshot (coversTarget : Bool) (placement : Option TargetPlacement) (geometry : ℕ)
    (extent : PixelExtent) : Except CaptureFault TransformSnapshot :=
  match placement, coversTarget with
  | some placement, _ =>
    (TransformSnapshot.withTarget round geometry extent placement).mapError
      fun _ => .inconsistentDescriptor
  | none, true => .ok (.withTargetExtent geometry extent)
  | none, false => .ok (.frameOnly geometry extent)

/-- Applies every publication rule against `inner` without committing anything. -/
def prepare (inner : Inner) (coversTarget : Bool) (descriptor : FrameDescriptor)
    (placement : Option TargetPlacement) (declared : Continuity) (pixelLen : Option ℕ)
    (pendingDrops : ℕ) : Except Error Prepared :=
  match refusal inner descriptor pixelLen with
  | some error => .error error
  | none =>
    let continuity := enforced inner.latest descriptor placement declared
    match nextGeometry inner continuity with
    | none => .error ⟨.limitExceeded, "geometry revisions exhausted"⟩
    | some geometry =>
      match advance inner continuity pendingDrops with
      | .error fault => .error fault.toError
      | .ok (cursor, consumedDrops) =>
        match cursor.publish geometry with
        | .error fault => .error fault.toError
        | .ok (stamp, cursor) =>
          match snapshot round coversTarget placement geometry descriptor.extent with
          | .error fault => .error fault.toError
          | .ok transform =>
            match Frame.validate stamp descriptor transform with
            | .error fault => .error fault.toError
            | .ok () => .ok ⟨cursor, geometry, stamp, transform, consumedDrops⟩

/-- `prepare` as the publication entry points call it. -/
def Request.prepare (r : Request) (s : StreamState) : Except Error Prepared :=
  Capture.prepare round s.inner s.coversTarget r.descriptor r.placement r.continuity r.pixelLen
    s.pendingDrops

end Prepare

def Prepared.frame (p : Prepared) (r : Request) : Frame :=
  ⟨p.stamp, r.capturedAt, r.descriptor, p.transform, r.intoStorage⟩

/-- What a commit writes under the mutex, once the frame's correlated metadata is ready. -/
def Inner.install (inner : Inner) (p : Prepared) (frame : Frame) : Inner :=
  { inner with cursor := p.cursor, geometry := p.geometry, latest := some frame }

/-! ### What a publication that passes has been checked for -/

section Spec

variable {round : ℚ → Option ℚ} {inner : Inner} {covers : Bool} {descriptor : FrameDescriptor}
  {placement : Option TargetPlacement} {declared : Continuity} {len : Option ℕ} {drops : ℕ}
  {p : Prepared}

theorem refusal_eq_none (h : refusal inner descriptor len = none) :
    inner.terminal = none ∧ inner.lifecycle = .opened ∧ ∀ n, len = some n → n = descriptor.byteLen := by
  unfold refusal at h
  cases ht : inner.terminal with
  | some f => simp [ht] at h
  | none =>
    by_cases hl : inner.lifecycle = .opened
    · refine ⟨rfl, hl, fun n hn => ?_⟩
      by_contra hne
      simp [ht, hl, hn, hne] at h
    · simp [ht, hl] at h

theorem nextGeometry_eq_some {continuity : Continuity} {geometry : ℕ}
    (h : nextGeometry inner continuity = some geometry) :
    geometry = if continuity = .continuous then inner.geometry else inner.geometry + 1 := by
  unfold nextGeometry nextRevision at h
  by_cases hc : continuity = .continuous
  · simpa [hc, eq_comm] using h
  · rw [if_pos hc] at h
    rw [if_neg hc]
    exact (checkedAdd_eq_some.1 h).1

/-- The first frame takes the cursor as it is, a discontinuity opens the next epoch, and every other
publication skips the drops it was given. -/
theorem advance_eq_ok {continuity : Continuity} {cursor : StreamCursor} {consumed : ℕ}
    (h : advance inner continuity drops = .ok (cursor, consumed)) :
    (inner.latest = none ∧ cursor = inner.cursor ∧ consumed = 0) ∨
      (inner.latest.isSome ∧ continuity = .discontinuous ∧ consumed = 0 ∧
        cursor = { inner.cursor with epoch := inner.cursor.epoch + 1, nextSequence := some 0 }) ∨
      (inner.latest.isSome ∧ continuity ≠ .discontinuous ∧ consumed = drops ∧
        cursor.stream = inner.cursor.stream ∧ cursor.epoch = inner.cursor.epoch ∧
        cursor.nextSequence = inner.cursor.nextSequence.map (· + drops)) := by
  unfold advance at h
  split_ifs at h with h₁ h₂
  · cases hb : inner.cursor.beginEpoch with
    | error f => simp [hb, Except.map] at h
    | ok c =>
      obtain ⟨-, rfl⟩ := StreamCursor.beginEpoch_eq_ok.1 hb
      simp only [hb, Except.map, Except.ok.injEq, Prod.mk.injEq] at h
      exact Or.inr (Or.inl ⟨h₁.2, h₁.1, h.2.symm, h.1.symm⟩)
  · cases hb : inner.cursor.skip drops with
    | error f => simp [hb, Except.map] at h
    | ok c =>
      simp only [hb, Except.map, Except.ok.injEq, Prod.mk.injEq] at h
      obtain ⟨rfl, rfl⟩ := h
      exact Or.inr (Or.inr ⟨h₂, fun hc => h₁ ⟨hc, h₂⟩, rfl, StreamCursor.skip_eq_ok hb⟩)
  · simp only [Except.ok.injEq, Prod.mk.injEq] at h
    exact Or.inl ⟨by simpa using h₂, h.1.symm, h.2.symm⟩

theorem snapshot_eq_ok {geometry : ℕ} {extent : PixelExtent} {transform : TransformSnapshot}
    (h : snapshot round covers placement geometry extent = .ok transform) :
    transform = ⟨geometry, extent, placement.isSome || covers, placement⟩ := by
  unfold snapshot at h
  cases placement with
  | some q =>
    by_cases hq : q.covers round extent
    · simp only [TransformSnapshot.withTarget, hq, if_true, Except.mapError, Except.ok.injEq] at h
      simp [← h]
    · simp [TransformSnapshot.withTarget, hq, Except.mapError] at h
  | none => cases covers <;> simp_all [TransformSnapshot.withTargetExtent, TransformSnapshot.frameOnly]

/-- **What `prepare` decides.**  A publication that passes was made on an open stream, and resolved
to the revision, the cursor and the snapshot its rules determine. -/
theorem prepare_eq_ok
    (h : prepare round inner covers descriptor placement declared len drops = .ok p) :
    inner.terminal = none ∧ inner.lifecycle = .opened ∧
      nextGeometry inner (enforced inner.latest descriptor placement declared) = some p.geometry ∧
      (∃ cursor, advance inner (enforced inner.latest descriptor placement declared) drops =
        .ok (cursor, p.consumedDrops) ∧ cursor.publish p.geometry = .ok (p.stamp, p.cursor)) ∧
      p.transform = ⟨p.geometry, descriptor.extent, placement.isSome || covers, placement⟩ := by
  unfold prepare at h
  cases hr : refusal inner descriptor len with
  | some e => simp [hr] at h
  | none =>
    obtain ⟨hterm, hopen, -⟩ := refusal_eq_none hr
    simp only [hr] at h
    cases hg : nextGeometry inner (enforced inner.latest descriptor placement declared) with
    | none => simp [hg] at h
    | some geometry =>
      simp only [hg] at h
      cases ha : advance inner (enforced inner.latest descriptor placement declared) drops with
      | error f => simp [ha] at h
      | ok ca =>
        obtain ⟨cursor, consumed⟩ := ca
        simp only [ha] at h
        cases hp : cursor.publish geometry with
        | error f => simp [hp] at h
        | ok sc =>
          obtain ⟨stamp, cursor'⟩ := sc
          simp only [hp] at h
          cases hs : snapshot round covers placement geometry descriptor.extent with
          | error f => simp [hs] at h
          | ok transform =>
            simp only [hs] at h
            cases hv : Frame.validate stamp descriptor transform with
            | error f => simp [hv] at h
            | ok u =>
              simp only [hv, Except.ok.injEq] at h
              subst h
              exact ⟨hterm, hopen, rfl, ⟨cursor, rfl, hp⟩, snapshot_eq_ok hs⟩

end Spec

end MadoPilot.Capture
