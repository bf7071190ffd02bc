import MadoPilot.Capture.StreamMachine

/-!
# The three ways to publish

`publish`, `publish_recoverable` and `publish_storage_with` as functions of the stream, the
publication and what the commit hook writes.  All three decide with `prepare` and change the stream
only when it has passed.

* `prepare_isOk_iff` : the publications that pass;
* `refused_publication_atomic` is the result.
-/

namespace MadoPilot.Capture

open MadoPilot.Core MadoPilot.Lib

structure RefusedPublication where
  error : Error
  publication : Publication
  deriving DecidableEq

structure RefusedStorage where
  error : Error
  publication : StoragePublication
  deriving DecidableEq

def Publication.stored (p : Publication) (storage : FrameStorage) : StoragePublication :=
  ⟨p.capturedAt, p.placement, storage, p.continuity⟩

namespace StreamState

/-- `commit_with`, which runs the hook before it installs the frame; `m` is what the hook writes. -/
def commitWith {μ : Type} (s : StreamState) (p : Prepared) (frame : Frame) (hook : Frame → μ → μ)
    (m : μ) : StreamState × μ :=
  ({ s with
      inner := s.inner.install p frame
      pendingDrops := if p.consumedDrops > 0 then wrappingSub u64Max s.pendingDrops p.consumedDrops
        else s.pendingDrops
      publishedAny := true },
    hook frame m)

section Entry

variable (round : ℚ → Option ℚ) (s : StreamState)

def publishRecoverable (p : Publication) : Except RefusedPublication Frame × StreamState :=
  match (Request.bytes p).prepare round s with
  | .error error => (.error ⟨error, p⟩, s)
  | .ok prepared =>
    let frame := prepared.frame (.bytes p)
    (.ok frame, (s.commitWith prepared frame (fun _ m => m) ()).1)

def publish (p : Publication) : Except Error Frame × StreamState :=
  let r := s.publishRecoverable round p
  (r.1.mapError RefusedPublication.error, r.2)

def publishStorageWith {μ : Type} (p : StoragePublication) (hook : Frame → μ → μ) (m : μ) :
    Except RefusedStorage Frame × StreamState × μ :=
  match (Request.storage p).prepare round s with
  | .error error => (.error ⟨error, p⟩, s, m)
  | .ok prepared =>
    let frame := prepared.frame (.storage p)
    (.ok frame, s.commitWith prepared frame hook m)

/-- What identifies the frames of a stream: its cursor, revision, latest stamp and drop debt. -/
def identity : StreamCursor × ℕ × Option FrameStamp × ℕ :=
  (s.inner.cursor, s.inner.geometry, s.inner.latest.map Frame.stamp, s.pendingDrops)

end Entry

end StreamState

/-! ### Which publications pass -/

section Admissible

variable (round : ℚ → Option ℚ) (s : StreamState) (r : Request)

def Request.enforced : Continuity :=
  Capture.enforced s.inner.latest r.descriptor r.placement r.continuity

/-- Nothing stands against a request. -/
structure Request.Admissible : Prop where
  running : s.inner.terminal = none
  opened : s.inner.lifecycle = .opened
  length : ∀ len, r.pixelLen = some len → len = r.descriptor.byteLen
  revision : r.enforced s ≠ .continuous → s.inner.geometry < u64Max
  epoch : s.inner.latest.isSome → r.enforced s = .discontinuous → s.inner.cursor.epoch < u64Max
  sequence : ¬ (r.enforced s = .discontinuous ∧ s.inner.latest.isSome) →
    ∃ next, s.inner.cursor.nextSequence = some next ∧
      (s.inner.latest.isSome → 0 < s.pendingDrops → next + s.pendingDrops ≤ u64Max)
  placed : ∀ placement, r.placement = some placement → placement.covers round r.descriptor.extent

variable {round s r}

theorem refusal_eq_none_iff {inner : Inner} {descriptor : FrameDescriptor} {len : Option ℕ} :
    refusal inner descriptor len = none ↔
      inner.terminal = none ∧ inner.lifecycle = .opened ∧
        ∀ n, len = some n → n = descriptor.byteLen := by
  constructor
  · exact refusal_eq_none
  · rintro ⟨hterminal, hopened, hlen⟩
    unfold refusal
    rw [hterminal]
    dsimp only
    rw [if_neg (not_not.mpr hopened)]
    cases len with
    | none => rfl
    | some n => exact if_neg (not_not.mpr (hlen n rfl))

theorem nextGeometry_isSome {inner : Inner} {continuity : Continuity} :
    (∃ geometry, nextGeometry inner continuity = some geometry) ↔
      (continuity ≠ .continuous → inner.geometry < u64Max) := by
  unfold nextGeometry nextRevision
  by_cases hcontinuous : continuity = .continuous
  · simp [hcontinuous]
  · rw [if_pos hcontinuous]
    constructor
    · rintro ⟨geometry, hgeometry⟩ -
      have hbound := (checkedAdd_eq_some.mp hgeometry).2
      omega
    · intro hlt
      exact ⟨_, checkedAdd_eq_some.mpr ⟨rfl, hlt hcontinuous⟩⟩

theorem publish_of_next {cursor : StreamCursor} {next : ℕ} (h : cursor.nextSequence = some next)
    (geometry : ℕ) :
    cursor.publish geometry = .ok (⟨cursor.stream, cursor.epoch, next, geometry⟩,
      { cursor with nextSequence := checkedAdd u64Max next 1 }) := by
  unfold StreamCursor.publish
  rw [h]

theorem next_of_publish {cursor cursor' : StreamCursor} {geometry : ℕ} {stamp : FrameStamp}
    (h : cursor.publish geometry = .ok (stamp, cursor')) :
    ∃ next, cursor.nextSequence = some next := by
  unfold StreamCursor.publish at h
  split at h
  · cases h
  · rename_i next hnext
    exact ⟨next, hnext⟩

theorem advance_isOk {inner : Inner} {continuity : Continuity} {drops : ℕ} :
    (∃ cursor consumed next, advance inner continuity drops = .ok (cursor, consumed) ∧
      cursor.nextSequence = some next) ↔
      (inner.latest.isSome → continuity = .discontinuous → inner.cursor.epoch < u64Max) ∧
      (¬ (continuity = .discontinuous ∧ inner.latest.isSome) →
        ∃ next, inner.cursor.nextSequence = some next ∧
          (inner.latest.isSome → 0 < drops → next + drops ≤ u64Max)) := by
  unfold advance
  by_cases hepoch : continuity = .discontinuous ∧ inner.latest.isSome = true
  · rw [if_pos hepoch]
    unfold StreamCursor.beginEpoch
    by_cases hlt : inner.cursor.epoch < u64Max
    · rw [checkedAdd_eq_some.mpr ⟨rfl, hlt⟩]
      exact iff_of_true ⟨_, _, 0, rfl, rfl⟩ ⟨fun _ _ => hlt, fun h => absurd hepoch h⟩
    · rw [checkedAdd_eq_none.mpr (by omega)]
      refine iff_of_false ?_ fun h => hlt (h.1 hepoch.2 hepoch.1)
      rintro ⟨cursor, consumed, next, hadvance, -⟩
      cases hadvance
  · have hfirst : inner.latest.isSome → continuity = .discontinuous →
        inner.cursor.epoch < u64Max := fun hlatest hcontinuity =>
      absurd ⟨hcontinuity, hlatest⟩ hepoch
    rw [if_neg hepoch, and_iff_right hfirst, imp_iff_right hepoch]
    by_cases hlatest : inner.latest.isSome = true
    · rw [if_pos hlatest]
      unfold StreamCursor.skip
      by_cases hdrops : drops = 0
      · rw [if_pos hdrops]
        constructor
        · rintro ⟨cursor, consumed, next, hadvance, hnext⟩
          obtain ⟨rfl, -⟩ := Prod.mk.inj (Except.ok.inj hadvance)
          exact ⟨next, hnext, fun _ hpos => by omega⟩
        · rintro ⟨next, hnext, -⟩
          exact ⟨_, _, next, rfl, hnext⟩
      · rw [if_neg hdrops]
        cases inner.cursor.nextSequence with
        | none =>
          refine iff_of_false ?_ (by rintro ⟨next, hsome, -⟩; cases hsome)
          rintro ⟨cursor, consumed, next, hadvance, -⟩
          cases hadvance
        | some next =>
          dsimp only
          by_cases hle : next + drops ≤ u64Max
          · rw [checkedAdd_eq_some.mpr ⟨rfl, hle⟩]
            exact iff_of_true ⟨_, _, _, rfl, rfl⟩ ⟨next, rfl, fun _ _ => hle⟩
          · rw [checkedAdd_eq_none.mpr (by omega)]
            refine iff_of_false ?_ ?_
            · rintro ⟨cursor, consumed, _, hadvance, -⟩
              cases hadvance
            · rintro ⟨other, hsome, hbound⟩
              obtain rfl := Option.some.inj hsome
              exact hle (hbound hlatest (by omega))
    · rw [if_neg hlatest]
      constructor
      · rintro ⟨cursor, consumed, next, hadvance, hnext⟩
        obtain ⟨rfl, -⟩ := Prod.mk.inj (Except.ok.inj hadvance)
        exact ⟨next, hnext, fun h => absurd h hlatest⟩
      · rintro ⟨next, hnext, -⟩
        exact ⟨_, _, next, rfl, hnext⟩

theorem snapshot_isOk (covers : Bool) {placement : Option TargetPlacement} (geometry : ℕ)
    {extent : PixelExtent} :
    (∃ transform, snapshot round covers placement geometry extent = .ok transform) ↔
      ∀ q, placement = some q → q.covers round extent = true := by
  unfold snapshot
  cases placement with
  | none =>
    refine iff_of_true ?_ (by rintro q hq; cases hq)
    cases covers
    · exact ⟨_, rfl⟩
    · exact ⟨_, rfl⟩
  | some q =>
    dsimp only
    unfold TransformSnapshot.withTarget
    by_cases hcovers : q.covers round extent = true
    · rw [if_pos hcovers]
      refine iff_of_true ⟨_, rfl⟩ fun other hother => ?_
      obtain rfl := Option.some.inj hother
      exact hcovers
    · rw [if_neg hcovers]
      refine iff_of_false ?_ fun h => hcovers (h q rfl)
      rintro ⟨transform, htransform⟩
      cases htransform

theorem prepare_isOk_iff : (∃ p, r.prepare round s = .ok p) ↔ r.Admissible round s := by
  unfold Request.prepare prepare
  constructor
  · rintro ⟨p, h⟩
    cases hrefusal : refusal s.inner r.descriptor r.pixelLen with
    | some error =>
      rw [hrefusal] at h
      cases h
    | none =>
      obtain ⟨hrunning, hopened, hlength⟩ := refusal_eq_none hrefusal
      rw [hrefusal] at h
      dsimp only at h
      split at h
      · cases h
      · rename_i geometry hgeometry
        split at h
        · cases h
        · rename_i cursor consumed hadvance
          split at h
          · cases h
          · rename_i stamp cursor' hpublish
            split at h
            · cases h
            · rename_i transform hsnapshot
              obtain ⟨next, hnext⟩ := next_of_publish hpublish
              obtain ⟨hepoch, hsequence⟩ := advance_isOk.mp ⟨_, _, next, hadvance, hnext⟩
              exact ⟨hrunning, hopened, hlength, nextGeometry_isSome.mp ⟨_, hgeometry⟩, hepoch,
                hsequence, (snapshot_isOk _ _).mp ⟨_, hsnapshot⟩⟩
  · intro h
    obtain ⟨geometry, hgeometry⟩ := nextGeometry_isSome.mpr h.revision
    obtain ⟨cursor, consumed, next, hadvance, hnext⟩ := advance_isOk.mpr ⟨h.epoch, h.sequence⟩
    obtain ⟨transform, hsnapshot⟩ :=
      (snapshot_isOk s.coversTarget geometry).mpr h.placed
    have hvalid : Frame.validate ⟨cursor.stream, cursor.epoch, next, geometry⟩ r.descriptor
        transform = .ok () := by
      rw [snapshot_eq_ok hsnapshot]
      unfold Frame.validate
      simp
    rw [refusal_eq_none_iff.mpr ⟨h.running, h.opened, h.length⟩]
    unfold Request.enforced at *
    dsimp only
    rw [hgeometry]
    dsimp only
    rw [hadvance]
    dsimp only
    rw [publish_of_next hnext]
    dsimp only
    rw [hsnapshot]
    dsimp only
    rw [hvalid]
    exact ⟨_, rfl⟩

end Admissible

/-! ### The entry points -/

namespace StreamState

variable {round : ℚ → Option ℚ} {s s' : StreamState} {μ : Type}

theorem publishRecoverable_refused {p : Publication} {refusal : RefusedPublication}
    (h : s.publishRecoverable round p = (.error refusal, s')) :
    (Request.bytes p).prepare round s = .error refusal.error ∧ refusal.publication = p ∧ s' = s := by
  unfold publishRecoverable at h
  split at h
  · rename_i error herror
    obtain ⟨hrefusal, rfl⟩ := Prod.mk.inj h
    obtain rfl := Except.error.inj hrefusal
    exact ⟨herror, rfl, rfl⟩
  · cases (Prod.mk.inj h).1

theorem publishStorageWith_refused {p : StoragePublication} {hook : Frame → μ → μ} {m m' : μ}
    {refusal : RefusedStorage} (h : s.publishStorageWith round p hook m = (.error refusal, s', m')) :
    (Request.storage p).prepare round s = .error refusal.error ∧ refusal.publication = p ∧
      s' = s ∧ m' = m := by
  unfold publishStorageWith at h
  split at h
  · rename_i error herror
    obtain ⟨hrefusal, hrest⟩ := Prod.mk.inj h
    obtain ⟨rfl, rfl⟩ := Prod.mk.inj hrest
    obtain rfl := Except.error.inj hrefusal
    exact ⟨herror, rfl, rfl, rfl⟩
  · cases (Prod.mk.inj h).1

theorem publish_refused {p : Publication} {error : Error}
    (h : s.publish round p = (.error error, s')) :
    s.publishRecoverable round p = (.error ⟨error, p⟩, s') := by
  unfold publish at h
  obtain ⟨hresult, rfl⟩ := Prod.mk.inj h
  unfold publishRecoverable at hresult ⊢
  split at hresult
  · rename_i other herror
    obtain rfl := Except.error.inj hresult
    rfl
  · cases hresult

theorem prepare_stored {p : Publication} {storage : FrameStorage}
    (hdescriptor : storage.descriptor = p.descriptor)
    (hlength : p.pixels.length = p.descriptor.byteLen) :
    (Request.storage (p.stored storage)).prepare round s =
      (Request.bytes p).prepare round s := by
  have hrefusal : refusal s.inner p.descriptor (some p.pixels.length) =
      refusal s.inner p.descriptor none := by
    unfold refusal
    dsimp only
    rw [if_neg (not_not.mpr hlength)]
  have hsame : (Request.storage (p.stored storage)).descriptor = (Request.bytes p).descriptor :=
    hdescriptor
  unfold Request.prepare prepare
  rw [hsame]
  have hstored : (Request.storage (p.stored storage)).pixelLen = none := rfl
  have hbytes : (Request.bytes p).pixelLen = some p.pixels.length := rfl
  rw [hstored, hbytes]
  dsimp only [Request.descriptor]
  rw [hrefusal]
  rfl

end StreamState

theorem Act.refused_same {round : ℚ → Option ℚ} {τ : Type} {t : τ} {s s' : Shared τ} {pc pc' : Pc}
    {r : Request} {error : Error} (h : Act round t s pc (.refused r error) s' pc') :
    s' = s ∧ pc' = pc ∧ r.prepare round s.state = .error error := by
  cases h with
  | publish h =>
    cases h with
    | refuse _ hprepare => exact ⟨rfl, rfl, hprepare⟩
  | drop h => cases h
  | close h => cases h
  | frame h => cases h

open StreamState in
/-- **Refused publications are atomic.**  A publication is refused exactly when one of the conditions
of `Request.Admissible` fails; the stream is then as before, the caller has its publication back and
the hook has not run.  In a run of any number of threads the step that refuses leaves the whole world
as it is.  The three entry points give equal inputs the same outcome, the same stamp and the same
cursor, revision, latest stamp and drop debt. -/
theorem refused_publication_atomic (round : ℚ → Option ℚ) (s : StreamState) {μ : Type}
    (hook : Frame → μ → μ) (m : μ) :
    (∀ r : Request, (∃ error, r.prepare round s = .error error) ↔ ¬ r.Admissible round s) ∧
    (∀ p refusal s', s.publishRecoverable round p = (.error refusal, s') →
      ¬ (Request.bytes p).Admissible round s ∧ refusal.publication = p ∧ s' = s) ∧
    (∀ p error s', s.publish round p = (.error error, s') →
      ¬ (Request.bytes p).Admissible round s ∧ s' = s) ∧
    (∀ p refusal s' m', s.publishStorageWith round p hook m = (.error refusal, s', m') →
      ¬ (Request.storage p).Admissible round s ∧ refusal.publication = p ∧ s' = s ∧ m' = m) ∧
    (∀ (τ : Type) [DecidableEq τ] stream covers (w w' : StreamWorld τ) t r error,
      (streamSystem round τ stream covers).step w (t, .refused r error) w' → w' = w) ∧
    (∀ p, s.publish round p =
      ((s.publishRecoverable round p).1.mapError RefusedPublication.error,
        (s.publishRecoverable round p).2)) ∧
    (∀ p storage, storage.descriptor = p.descriptor → p.pixels.length = p.descriptor.byteLen →
      (s.publishStorageWith round (p.stored storage) hook m).1.mapError RefusedStorage.error =
        (s.publish round p).1.map ({ · with storage := storage }) ∧
      (s.publishStorageWith round (p.stored storage) hook m).2.1.identity =
        (s.publish round p).2.identity) := by
  have hrefused : ∀ r : Request, (∃ error, r.prepare round s = .error error) ↔
      ¬ r.Admissible round s := by
    intro r
    rw [← prepare_isOk_iff]
    cases r.prepare round s with
    | error error => exact iff_of_true ⟨error, rfl⟩ (by rintro ⟨p, hp⟩; cases hp)
    | ok p => exact iff_of_false (by rintro ⟨error, he⟩; cases he) fun h => h ⟨p, rfl⟩
  refine ⟨hrefused, ?_, ?_, ?_, ?_, fun _ => rfl, ?_⟩
  · intro p refusal s' h
    obtain ⟨hprepare, hsame⟩ := publishRecoverable_refused h
    exact ⟨(hrefused _).mp ⟨_, hprepare⟩, hsame⟩
  · intro p error s' h
    obtain ⟨hprepare, -, hsame⟩ := publishRecoverable_refused (publish_refused h)
    exact ⟨(hrefused _).mp ⟨_, hprepare⟩, hsame⟩
  · intro p refusal s' m' h
    obtain ⟨hprepare, hsame⟩ := publishStorageWith_refused h
    exact ⟨(hrefused _).mp ⟨_, hprepare⟩, hsame⟩
  · rintro τ _ stream covers w w' t r error ⟨shared, pc, hact, rfl⟩
    obtain ⟨hshared, hpc, -⟩ := hact.refused_same
    rw [hshared, hpc]
    exact w.move_self t
  · intro p storage hdescriptor hlength
    unfold publish publishStorageWith publishRecoverable
    rw [prepare_stored hdescriptor hlength]
    cases (Request.bytes p).prepare round s with
    | error error => exact ⟨rfl, rfl⟩
    | ok prepared =>
      refine ⟨?_, rfl⟩
      show Except.ok _ = Except.ok _
      unfold Prepared.frame
      simp only [Request.descriptor, Publication.stored, hdescriptor]
      rfl

def onePixel : Publication :=
  ⟨0, ⟨⟨1, 1⟩, .rgba8, 4, pixel_nonempty, pixel_row, pixel_len⟩, none, [1, 2, 3, 4], .continuous⟩

def closingStream : StreamState :=
  { StreamState.build ⟨firstOrdinal, firstOrdinal⟩ true with
    inner := ⟨.new ⟨firstOrdinal, firstOrdinal⟩, 7, none, .closing, 0, none⟩
    pendingDrops := 3 }

theorem refused_publication_atomic_sample :
    (closingStream.publishRecoverable some onePixel).1 =
      .error ⟨CaptureFault.sessionClosed.toError, onePixel⟩ ∧
    ¬ (Request.bytes onePixel).Admissible some closingStream ∧
    (closingStream.publishStorageWith some (onePixel.stored (.adapter onePixel.descriptor 5))
        List.cons []).2.1.identity =
      (closingStream.publish some onePixel).2.identity := by
  obtain ⟨-, hbytes, -, -, -, -, hequal⟩ :=
    refused_publication_atomic some closingStream List.cons []
  have hrefused : closingStream.publishRecoverable some onePixel =
      (.error ⟨CaptureFault.sessionClosed.toError, onePixel⟩, closingStream) := rfl
  obtain ⟨hadmissible, -, -⟩ := hbytes _ _ _ hrefused
  obtain ⟨-, hidentity⟩ := hequal onePixel (.adapter onePixel.descriptor 5) rfl (by decide)
  exact ⟨congrArg Prod.fst hrefused, hadmissible, hidentity⟩

end MadoPilot.Capture
