import Mathlib.Data.Rat.Floor
import MadoPilot.Capture.Publish
import MadoPilot.Capture.Region
import MadoPilot.Core.Operation
import MadoPilot.Platform.GeometryLedger
import MadoPilot.Platform.MacosReconfigure

/-!
# Publication of a macOS session

A staged sample is committed under the transition lock, so the samples of a session are observed one
after the other.  The session remembers two extents: the one of the last sample, which the next has to
repeat before it is published, and the one of the last published frame, which the continuity is decided
against.

A sample's coordinates are `f64` values that nothing has checked; `round` is what the hardware makes of
an exact result, as for the placements.  What the reconfiguration requests answer comes with the sample.

* `captureEquivalentTo_iff` : when two looks at a target's bounds count as the same;
* `processFrame_observes` : what the observation of a sample does;
* `commitStagedFrame_cases` : a sample that fails ends the stream.
-/

namespace MadoPilot.Platform.MacosPublication

open MadoPilot.Core MadoPilot.Capture MadoPilot.Lib
open MadoPilot.Platform.MacosReconfigure (TargetKind FrameInfo surfaceRequest ReconfigurePublication)

/-! ### Coordinates -/

/-- An `f64`; the zeros are one number. -/
inductive F64 where
  | finite (value : ℚ)
  | infinite (negative : Bool)
  | nan
  deriving DecidableEq

namespace F64

/-- `==` -/
def same (a b : F64) : Bool := a != .nan && a == b

def rounded (negative : Bool) : Option ℚ → F64
  | some value => .finite value
  | none => .infinite negative

section Arithmetic

variable (round : ℚ → Option ℚ)

def sub : F64 → F64 → F64
  | .finite a, .finite b => rounded (decide (a < b)) (round (a - b))
  | .finite _, .infinite negative => .infinite !negative
  | .infinite negative, .finite _ => .infinite negative
  | .infinite negative, .infinite other => if negative = other then .nan else .infinite negative
  | _, _ => .nan

def mul : F64 → F64 → F64
  | .finite a, .finite b => rounded (decide (a * b < 0)) (round (a * b))
  | .finite a, .infinite negative | .infinite negative, .finite a =>
    if a = 0 then .nan else .infinite (negative != decide (a < 0))
  | .infinite negative, .infinite other => .infinite (negative != other)
  | _, _ => .nan

def quotient (pixels : ℕ) (scale : ℚ) : F64 := rounded false (round (pixels / scale))

end Arithmetic

def abs : F64 → F64
  | .finite value => .finite |value|
  | .infinite _ => .infinite false
  | .nan => .nan

/-- `x >= bound` -/
def atLeast (bound : ℚ) : F64 → Bool
  | .finite value => decide (bound ≤ value)
  | .infinite negative => !negative
  | .nan => false

/-- `f64::round`, half way cases away from zero. -/
def nearest (value : ℚ) : ℤ := if 0 ≤ value then ⌊value + 1 / 2⌋ else -⌊-value + 1 / 2⌋

end F64

def newScale : F64 → F64 → Except GeometryFault Scale
  | .finite x, .finite y =>
    if h : 0 < x ∧ 0 < y then .ok ⟨x, y, h.1, h.2⟩ else .error .negativeSize
  | _, _ => .error .notFinite

def newPlacement (origin size : F64 × F64) (scale : Scale) : Except GeometryFault TargetPlacement :=
  match origin, size with
  | (.finite x, .finite y), (.finite width, .finite height) =>
    if h : 0 < width ∧ 0 < height then .ok ⟨(x, y), (width, height), scale, scale, h.1, h.2⟩
    else .error .negativeSize
  | _, _ => .error .notFinite

section Points

variable (round : ℚ → Option ℚ)

def logicalSize (scale : Scale) (extent : PixelExtent) : F64 × F64 :=
  (F64.quotient round extent.width scale.x, F64.quotient round extent.height scale.y)

def placementFromPoints (origin size : F64 × F64) (scale : F64) (extent : PixelExtent) :
    Except GeometryFault TargetPlacement := do
  let scale ← newScale scale scale
  let logical := logicalSize round scale extent
  if (F64.sub round logical.1 size.1).abs.atLeast 1 || (F64.sub round logical.2 size.2).abs.atLeast 1 then
    .error .spaceMismatch
  else newPlacement origin logical scale

/-- The points scale to exactly as many pixels, to the nearest one. -/
def scalesTo (points : F64) (scale : ℚ) (pixels : ℕ) : Bool :=
  match F64.mul round points (.finite scale) with
  | .finite product => decide (1 ≤ product ∧ F64.nearest product = pixels)
  | _ => false

def windowPlacementFromPoints (origin size : F64 × F64) (scale : F64) (extent : PixelExtent) :
    Except GeometryFault TargetPlacement := do
  let scale ← newScale scale scale
  let placement ← newPlacement origin size scale
  if scalesTo round size.1 scale.x extent.width && scalesTo round size.2 scale.y extent.height then
    .ok placement
  else .error .spaceMismatch

end Points

/-! ### Samples -/

structure Sample extends FrameInfo where
  pixelFormat : UInt32
  screenRectFlag : Bool
  displayTimeNanos : ℕ
  scaleFactor : F64
  backingScaleFactor : F64
  screenOrigin : F64 × F64
  screenSize : F64 × F64

namespace Sample

variable (info : Sample)

def screenRect : Option ((F64 × F64) × (F64 × F64)) :=
  if info.screenRectFlag then some (info.screenOrigin, info.screenSize) else none

def backingScale : Option F64 :=
  match info.backingScaleFactor with
  | .finite value => if 0 < value then some (.finite value) else none
  | _ => none

end Sample

/-- One target's live rectangle in the global point space, with its backing scale. -/
structure NativeBounds where
  origin : F64 × F64
  size : F64 × F64
  scale : F64
  deriving DecidableEq

section Native

variable (round : ℚ → Option ℚ)

def nativePixelsFromPoints (points scale : F64) : Option ℕ :=
  match scale with
  | .finite factor =>
    if 0 < factor then
      match F64.mul round points scale with
      | .finite product =>
        let pixels := F64.nearest product
        if pixels < 1 ∨ (FrameInfo.maxSurfaceExtent : ℤ) < pixels then none else some pixels.toNat
      | _ => none
    else none
  | _ => none

namespace NativeBounds

def pixelExtent (bounds : NativeBounds) : Option PixelExtent := do
  let width ← nativePixelsFromPoints round bounds.size.1 bounds.scale
  let height ← nativePixelsFromPoints round bounds.size.2 bounds.scale
  return ⟨width, height⟩

def captureEquivalentTo (bounds other : NativeBounds) : Bool :=
  (bounds.origin.1.same other.origin.1 && bounds.origin.2.same other.origin.2) &&
    bounds.scale.same other.scale &&
    (bounds.pixelExtent round).any fun extent =>
      (other.pixelExtent round).any fun otherExtent => extent = otherExtent

end NativeBounds

def Sample.nativeBounds (info : Sample) : Option NativeBounds := do
  let (origin, size) ← info.screenRect
  let scale ← info.backingScale
  return ⟨origin, size, scale⟩

def framePlacement (info : Sample) : Except CaptureFault TargetPlacement :=
  match info.extent, info.screenRect with
  | some extent, some (origin, size) =>
    (placementFromPoints round origin size info.scaleFactor extent).mapError
      fun _ => .inconsistentDescriptor
  | _, _ => .error .inconsistentDescriptor

/-- The points are so many pixels, to the nearest one and within the limit. -/
def Scaled (points : F64) (factor : ℚ) (pixels : ℕ) : Prop :=
  ∃ product, F64.mul round points (.finite factor) = .finite product ∧ F64.nearest product = pixels ∧
    1 ≤ pixels ∧ pixels ≤ FrameInfo.maxSurfaceExtent

section Equivalence

variable {round} {bounds other : NativeBounds} {points scale : F64} {pixels : ℕ} {extent : PixelExtent}

theorem F64.same_iff {a b : F64} : a.same b = true ↔ a ≠ .nan ∧ a = b := by
  unfold F64.same
  rw [Bool.and_eq_true, bne_iff_ne, beq_iff_eq]

theorem nativePixelsFromPoints_eq_some : nativePixelsFromPoints round points scale = some pixels ↔
    ∃ factor, (scale = .finite factor ∧ 0 < factor) ∧ Scaled round points factor pixels := by
  have hfinite : ∀ factor, 0 < factor →
      (nativePixelsFromPoints round points (.finite factor) = some pixels ↔
        Scaled round points factor pixels) := by
    intro factor hpos
    unfold nativePixelsFromPoints Scaled
    dsimp only
    rw [if_pos hpos]
    cases hproduct : F64.mul round points (.finite factor) with
    | infinite negative => simp
    | nan => simp
    | finite product =>
      dsimp only
      simp only [F64.finite.injEq, exists_eq_left']
      split_ifs with hlimit
      · simp only [false_iff]
        omega
      · rw [Option.some.injEq]
        omega
  constructor
  · intro h
    cases scale with
    | infinite negative => cases h
    | nan => cases h
    | finite factor =>
      by_cases hpos : 0 < factor
      · exact ⟨factor, ⟨rfl, hpos⟩, (hfinite factor hpos).mp h⟩
      · unfold nativePixelsFromPoints at h
        dsimp only at h
        rw [if_neg hpos] at h
        cases h
  · rintro ⟨factor, ⟨rfl, hpos⟩, hscaled⟩
    exact (hfinite factor hpos).mpr hscaled

theorem pixelExtent_eq_some : bounds.pixelExtent round = some extent ↔
    nativePixelsFromPoints round bounds.size.1 bounds.scale = some extent.width ∧
      nativePixelsFromPoints round bounds.size.2 bounds.scale = some extent.height := by
  unfold NativeBounds.pixelExtent
  cases nativePixelsFromPoints round bounds.size.1 bounds.scale with
  | none => simp
  | some width =>
    cases nativePixelsFromPoints round bounds.size.2 bounds.scale with
    | none => simp
    | some height =>
      obtain ⟨w, h⟩ := extent
      simp

/-- **Two looks count as the same** where the origin and the scale are equal numbers and the rounded
extents are equal and within the limit; the sizes in points may differ. -/
theorem captureEquivalentTo_iff : bounds.captureEquivalentTo round other = true ↔
    (bounds.origin = other.origin ∧ bounds.origin.1 ≠ .nan ∧ bounds.origin.2 ≠ .nan) ∧
      ∃ factor, (bounds.scale = .finite factor ∧ other.scale = .finite factor ∧ 0 < factor) ∧
        ∃ extent : PixelExtent,
          (Scaled round bounds.size.1 factor extent.width ∧
            Scaled round bounds.size.2 factor extent.height) ∧
          Scaled round other.size.1 factor extent.width ∧
          Scaled round other.size.2 factor extent.height := by
  have hshared : ((bounds.pixelExtent round).any fun extent =>
      (other.pixelExtent round).any fun otherExtent => extent = otherExtent) = true ↔
      ∃ extent, bounds.pixelExtent round = some extent ∧ other.pixelExtent round = some extent := by
    cases bounds.pixelExtent round with
    | none => simp
    | some extent =>
      cases other.pixelExtent round with
      | none => simp
      | some otherExtent => simp [eq_comm]
  unfold NativeBounds.captureEquivalentTo
  rw [Bool.and_eq_true, Bool.and_eq_true, Bool.and_eq_true, hshared, F64.same_iff, F64.same_iff,
    F64.same_iff]
  simp only [pixelExtent_eq_some, nativePixelsFromPoints_eq_some]
  constructor
  · rintro ⟨⟨⟨⟨hx, hx'⟩, hy, hy'⟩, -, hscale⟩, extent, ⟨⟨factor, ⟨hfactor, hpos⟩, hwidth⟩,
      ⟨_, ⟨hsame, -⟩, hheight⟩⟩, ⟨_, ⟨hother, -⟩, hwidth'⟩, ⟨_, ⟨hother', -⟩, hheight'⟩⟩
    obtain rfl := F64.finite.inj (hfactor.symm.trans hsame)
    obtain rfl := F64.finite.inj ((hscale.symm.trans hfactor).symm.trans hother)
    obtain rfl := F64.finite.inj (hother.symm.trans hother')
    exact ⟨⟨Prod.ext hx' hy', hx, hy⟩, factor, ⟨hfactor, hother, hpos⟩, extent, ⟨hwidth, hheight⟩,
      hwidth', hheight'⟩
  · rintro ⟨⟨horigin, hx, hy⟩, factor, ⟨hfactor, hother, hpos⟩, extent, ⟨hwidth, hheight⟩, hwidth',
      hheight'⟩
    refine ⟨⟨⟨⟨hx, congrArg Prod.fst horigin⟩, hy, congrArg Prod.snd horigin⟩, ?_,
      hfactor.trans hother.symm⟩, extent, ?_, ?_⟩
    · rw [hfactor]
      exact F64.noConfusion
    · exact ⟨⟨factor, ⟨hfactor, hpos⟩, hwidth⟩, factor, ⟨hfactor, hpos⟩, hheight⟩
    · exact ⟨⟨factor, ⟨hother, hpos⟩, hwidth'⟩, factor, ⟨hother, hpos⟩, hheight'⟩

end Equivalence

/-! ### A required window -/

inductive WindowCaptureArea where
  | macosWindow | windowsExtendedFrame | windowsClient
  deriving DecidableEq

structure WindowGeometry where
  area : WindowCaptureArea
  placement : TargetPlacement
  extent : PixelExtent
  deriving DecidableEq

def validateRequiredWindow (required : Option WindowGeometry) (info : Sample) :
    Except CaptureFault Unit :=
  match required with
  | none => .ok ()
  | some required =>
    match info.screenRect, info.extent with
    | some (origin, size), some extent =>
      match windowPlacementFromPoints round origin size info.scaleFactor extent with
      | .error _ => .error .windowGeometryChanged
      | .ok placement =>
        if info.backingScale ≠ some (.finite required.placement.targetScale.x) ∨
            (⟨.macosWindow, placement, extent⟩ : WindowGeometry) ≠ required then
          .error .windowGeometryChanged
        else .ok ()
    | _, _ => .error .windowGeometryChanged

end Native

/-! ### The session -/

/-- What the stream last received from the session. -/
structure Published where
  extent : PixelExtent
  placement : TargetPlacement
  nativeBounds : NativeBounds
  deriving DecidableEq

/-- The extent and the surface of the last sample, and the last published frame. -/
structure TransitionState where
  extent : PixelExtent
  surface : PixelExtent
  published : Option Published
  deriving DecidableEq

structure SessionCore where
  targetKind : TargetKind
  requiredWindow : Option WindowGeometry
  clockAnchor : ℕ × ℕ

structure Session where
  transition : TransitionState
  state : StreamState
  geometry : GeometryLedger NativeBounds

structure PublishedFrame where
  frame : Frame
  placement : TargetPlacement
  nativeBounds : NativeBounds
  continuity : Continuity

/-- What becomes of a sample. -/
inductive Outcome where
  | failed (fault : CaptureFault)
  | dropped
  | published (frame : PublishedFrame)

/-- `try_record_drop`, whose answer no caller here reads. -/
def tryRecordDrop (s : StreamState) : StreamState :=
  if s.acceptingDrops = true ∧ s.publishedAny = true then
    { s with pendingDrops := (checkedAdd u64Max s.pendingDrops 1).getD s.pendingDrops }
  else s

def frameTime (anchor : ℕ × ℕ) (displayTimeNanos : ℕ) : ℕ :=
  if anchor.1 ≤ displayTimeNanos then
    (instantAdd anchor.2 (displayTimeNanos - anchor.1)).getD durationMax
  else anchor.2 - (anchor.1 - displayTimeNanos)

def pixelBgra8 : UInt32 := 0

def descriptorFromNative (pixelFormat : UInt32) (extent : PixelExtent) :
    Except CaptureFault FrameDescriptor :=
  if pixelFormat ≠ pixelBgra8 then .error .unsupportedFormat else FrameDescriptor.packed extent .bgra8

def targetFault : TargetKind → CaptureFault
  | .window => .captureItemClosed
  | .display => .displayDisconnected

def normalizeNativeFault (fault : CaptureFault) (kind : TargetKind) : CaptureFault :=
  match fault, kind with
  | .captureItemClosed, .display => .displayDisconnected
  | .displayDisconnected, .window => .captureItemClosed
  | .targetLost, kind => targetFault kind
  | fault, _ => fault

section Process

variable (round : ℚ → Option ℚ)

def continuityAgainst (published : Option Published) (extent : PixelExtent)
    (placement : TargetPlacement) (nativeBounds : NativeBounds) : Continuity :=
  match published with
  | none => .continuous
  | some last =>
    if last.extent ≠ extent then .discontinuous
    else if last.placement ≠ placement then .geometryChanged
    else if last.nativeBounds.captureEquivalentTo round nativeBounds = false then .geometryChanged
    else .continuous

/-- Whether the extent is the last sample's; otherwise it is remembered. -/
def extentReadyForPublication (transition : TransitionState) (extent : PixelExtent) :
    Bool × TransitionState :=
  if extent = transition.extent then (true, transition)
  else (false, { transition with extent := extent })

variable (core : SessionCore)

def requestReconfigure (s : Session) (answer : ReconfigurePublication) : Session :=
  if answer ≠ .published then { s with state := tryRecordDrop s.state } else s

/-- The part of `process_frame` that asks for another surface. -/
def requestSurface (s : Session) (info : Sample) (answer : ReconfigurePublication) : Session :=
  if core.requiredWindow = none ∧ (surfaceRequest core.targetKind info.toFrameInfo).isSome = true then
    requestReconfigure s answer
  else s

def publish (s : Session) (info : Sample) (handle : ℕ) (descriptor : FrameDescriptor)
    (placement : TargetPlacement) (nativeBounds : NativeBounds) (continuity : Continuity) :
    Outcome × Session :=
  let request : StoragePublication :=
    ⟨frameTime core.clockAnchor info.displayTimeNanos, some placement, .adapter descriptor handle,
      continuity⟩
  match s.state.publishStorageWith round request (fun frame ledger => ledger.publish frame nativeBounds)
      s.geometry with
  | (.error refused, state, geometry) =>
    (.failed (if refused.error.status = .closed then .sessionClosed else .sourceInvalid),
      { s with state := state, geometry := geometry })
  | (.ok frame, state, geometry) =>
    (.published ⟨frame, placement, nativeBounds, continuity⟩,
      ⟨{ s.transition with published := some ⟨descriptor.extent, placement, nativeBounds⟩ }, state,
        geometry⟩)

/-- The part of `process_frame` after the surface has been asked for. -/
def publishExtent (s : Session) (info : Sample) (handle : ℕ) (extent : PixelExtent)
    (placement : TargetPlacement) (nativeBounds : NativeBounds) : Outcome × Session :=
  match extentReadyForPublication s.transition extent with
  | (false, transition) => (.dropped, { s with transition := transition, state := tryRecordDrop s.state })
  | (true, transition) =>
    match descriptorFromNative info.pixelFormat extent with
    | .error fault => (.failed fault, { s with transition := transition })
    | .ok descriptor =>
      publish round core { s with transition := transition } info handle descriptor placement nativeBounds
        (continuityAgainst round transition.published extent placement nativeBounds)

def processFrame (s : Session) (info : Sample) (handle : ℕ) (answer : ReconfigurePublication) :
    Outcome × Session :=
  match validateRequiredWindow round core.requiredWindow info with
  | .error fault => (.failed fault, s)
  | .ok () =>
    match info.extent, info.nativeBounds, info.surfaceExtent with
    | some extent, some nativeBounds, some surface =>
      let s := { s with transition := { s.transition with surface := surface } }
      match framePlacement round info with
      | .error fault => (.failed fault, s)
      | .ok placement =>
        publishExtent round core (requestSurface core s info answer) info handle extent placement
          nativeBounds
    | _, _, _ => (.failed .inconsistentDescriptor, s)

def terminate (s : StreamState) (fault : CaptureFault) : StreamState :=
  { s with acceptingDrops := false, inner := s.inner.terminate fault }

def failNative (s : Session) (fault : CaptureFault) : Session :=
  { s with state := terminate s.state (normalizeNativeFault fault core.targetKind) }

def commitStagedFrame (s : Session) (info : Sample) (handle : ℕ) (answer : ReconfigurePublication) :
    Outcome × Session :=
  match processFrame round core s info handle answer with
  | (.failed fault, s) =>
    (.failed fault,
      if fault ≠ .sessionClosed ∨ s.state.inner.lifecycle = .opened then failNative core s fault else s)
  | (outcome, s) => (outcome, s)

end Process

/-! ### What an observation does -/

/-- Nothing that decides about publications has changed but the extent of the last sample. -/
structure Kept (extent : PixelExtent) (s s' : Session) : Prop where
  extent : s'.transition.extent = extent
  published : s'.transition.published = s.transition.published
  inner : s'.state.inner = s.state.inner
  covers : s'.state.coversTarget = s.state.coversTarget

section Observes

variable {round : ℚ → Option ℚ} {core : SessionCore}

theorem tryRecordDrop_inner (s : StreamState) :
    (tryRecordDrop s).inner = s.inner ∧ (tryRecordDrop s).coversTarget = s.coversTarget := by
  unfold tryRecordDrop
  split_ifs <;> exact ⟨rfl, rfl⟩

theorem requestSurface_kept (core : SessionCore) (s : Session) (info : Sample)
    (answer : ReconfigurePublication) :
    Kept s.transition.extent s (requestSurface core s info answer) := by
  unfold requestSurface requestReconfigure
  split_ifs
  · exact ⟨rfl, rfl, (tryRecordDrop_inner s.state).1, (tryRecordDrop_inner s.state).2⟩
  · exact ⟨rfl, rfl, rfl, rfl⟩
  · exact ⟨rfl, rfl, rfl, rfl⟩

theorem newDescriptor_eq_ok {extent : PixelExtent} {format : PixelFormat} {stride : ℕ}
    {descriptor : FrameDescriptor} (h : FrameDescriptor.new extent format stride = .ok descriptor) :
    descriptor.extent = extent ∧ descriptor.format = format := by
  unfold FrameDescriptor.new at h
  cases hrow : rowBytesOf extent.width format with
  | error fault =>
    rw [hrow] at h
    split_ifs at h
  | ok bytes =>
    rw [hrow] at h
    dsimp only at h
    split_ifs at h
    obtain rfl := Except.ok.inj h
    exact ⟨rfl, rfl⟩

theorem descriptorFromNative_eq_ok {pixelFormat : UInt32} {extent : PixelExtent}
    {descriptor : FrameDescriptor} (h : descriptorFromNative pixelFormat extent = .ok descriptor) :
    descriptor.extent = extent ∧ descriptor.format = .bgra8 := by
  unfold descriptorFromNative at h
  split_ifs at h
  unfold FrameDescriptor.packed at h
  obtain ⟨stride, -, hnew⟩ := bind_eq_ok.mp h
  exact newDescriptor_eq_ok hnew

def Sample.request (core : SessionCore) (info : Sample) (handle : ℕ) (descriptor : FrameDescriptor)
    (placement : TargetPlacement) (continuity : Continuity) : Request :=
  .storage ⟨frameTime core.clockAnchor info.displayTimeNanos, some placement,
    .adapter descriptor handle, continuity⟩

inductive Observes (round : ℚ → Option ℚ) (core : SessionCore) (s : Session) (info : Sample) (handle : ℕ) :
    Outcome → Session → Prop
  | fails (fault : CaptureFault) (s' : Session) : Kept s.transition.extent s s' →
      Observes round core s info handle (.failed fault) s'
  | drops (extent : PixelExtent) (s' : Session) : info.extent = some extent →
      extent ≠ s.transition.extent → Kept extent s s' → Observes round core s info handle .dropped s'
  | publishes (placement : TargetPlacement) (nativeBounds : NativeBounds) (continuity : Continuity)
      (descriptor : FrameDescriptor) (prepared : Prepared) (s' : Session) :
      info.extent = some s.transition.extent → framePlacement round info = .ok placement →
      info.nativeBounds = some nativeBounds →
      descriptor.extent = s.transition.extent → descriptor.format = .bgra8 →
      continuity = continuityAgainst round s.transition.published s.transition.extent placement
        nativeBounds →
      (∃ drops, Resolves round s.state.coversTarget s.state.inner drops
        (info.request core handle descriptor placement continuity) prepared) →
      s'.transition.extent = s.transition.extent →
      s'.transition.published = some ⟨s.transition.extent, placement, nativeBounds⟩ →
      s'.state.inner = s.state.inner.install prepared
        (prepared.frame (info.request core handle descriptor placement continuity)) →
      s'.state.coversTarget = s.state.coversTarget →
      Observes round core s info handle
        (.published ⟨prepared.frame (info.request core handle descriptor placement continuity), placement,
          nativeBounds, continuity⟩) s'

theorem publish_observes {s s₀ : Session} {info : Sample} {handle : ℕ} {descriptor : FrameDescriptor}
    {placement : TargetPlacement} {nativeBounds : NativeBounds} {continuity : Continuity}
    (hkept : Kept s₀.transition.extent s₀ s) (hextent : info.extent = some s₀.transition.extent)
    (hplacement : framePlacement round info = .ok placement)
    (hbounds : info.nativeBounds = some nativeBounds)
    (hdescriptor : descriptor.extent = s₀.transition.extent ∧ descriptor.format = .bgra8)
    (hcontinuity : continuity = continuityAgainst round s₀.transition.published s₀.transition.extent
      placement nativeBounds) :
    Observes round core s₀ info handle
      (publish round core s info handle descriptor placement nativeBounds continuity).1
      (publish round core s info handle descriptor placement nativeBounds continuity).2 := by
  unfold publish StreamState.publishStorageWith
  dsimp only
  cases hprepare : (Request.storage ⟨frameTime core.clockAnchor info.displayTimeNanos, some placement,
      .adapter descriptor handle, continuity⟩).prepare round s.state with
  | error error => exact .fails _ _ ⟨hkept.extent, hkept.published, hkept.inner, hkept.covers⟩
  | ok prepared =>
    have hresolves : Resolves round s₀.state.coversTarget s₀.state.inner s.state.pendingDrops
        (info.request core handle descriptor placement continuity) prepared := by
      rw [← hkept.inner, ← hkept.covers]
      exact hprepare
    refine .publishes placement nativeBounds continuity descriptor prepared _ hextent hplacement hbounds
      hdescriptor.1 hdescriptor.2 hcontinuity ⟨_, hresolves⟩ hkept.extent ?_ ?_ hkept.covers
    · show some (Published.mk descriptor.extent placement nativeBounds) = _
      rw [hdescriptor.1]
    · show s.state.inner.install prepared _ = _
      rw [hkept.inner]
      rfl

theorem processFrame_observes (s : Session) (info : Sample) (handle : ℕ)
    (answer : ReconfigurePublication) :
    Observes round core s info handle (processFrame round core s info handle answer).1
      (processFrame round core s info handle answer).2 := by
  have hsame : Kept s.transition.extent s s := ⟨rfl, rfl, rfl, rfl⟩
  unfold processFrame
  cases validateRequiredWindow round core.requiredWindow info with
  | error fault => exact .fails fault s hsame
  | ok =>
    dsimp only
    cases hextent : info.extent with
    | none => exact .fails _ s hsame
    | some extent =>
      cases hbounds : info.nativeBounds with
      | none => exact .fails _ s hsame
      | some nativeBounds =>
        cases info.surfaceExtent with
        | none => exact .fails _ s hsame
        | some surface =>
          dsimp only
          cases hplacement : framePlacement round info with
          | error fault => exact .fails fault _ ⟨rfl, rfl, rfl, rfl⟩
          | ok placement =>
            obtain ⟨hkextent, hkpublished, hkinner, hkcovers⟩ := requestSurface_kept core
              { s with transition := { s.transition with surface := surface } } info answer
            dsimp only
            generalize requestSurface core
              { s with transition := { s.transition with surface := surface } } info answer = s₁ at *
            have hkept : Kept s.transition.extent s s₁ := ⟨hkextent, hkpublished, hkinner, hkcovers⟩
            unfold publishExtent extentReadyForPublication
            by_cases hready : extent = s₁.transition.extent
            · rw [if_pos hready]
              dsimp only
              have hcurrent : extent = s.transition.extent := hready.trans hkextent
              cases hdescriptor : descriptorFromNative info.pixelFormat extent with
              | error fault => exact .fails fault _ hkept
              | ok descriptor =>
                obtain ⟨hextent', hformat⟩ := descriptorFromNative_eq_ok hdescriptor
                refine publish_observes hkept (hcurrent ▸ hextent) hplacement hbounds
                  ⟨hextent'.trans hcurrent, hformat⟩ ?_
                rw [hcurrent, hkpublished]
            · rw [if_neg hready]
              have hother : extent ≠ s.transition.extent := fun h => hready (h.trans hkextent.symm)
              obtain ⟨hinner, hcovers⟩ := tryRecordDrop_inner s₁.state
              exact .drops extent _ hextent hother
                ⟨rfl, hkpublished, hinner.trans hkinner, hcovers.trans hkcovers⟩

theorem terminate_not_live (s : StreamState) (fault : CaptureFault) : ¬ (terminate s fault).inner.Live := by
  intro h
  exact Lifecycle.beginClose_ne_opened _ h.1

theorem commitStagedFrame_cases (s : Session) (info : Sample) (handle : ℕ)
    (answer : ReconfigurePublication) :
    (∃ fault s', commitStagedFrame round core s info handle answer = (.failed fault, s') ∧
      ¬ s'.state.inner.Live ∧ s'.transition.published = s.transition.published ∧
      s'.state.inner.cursor = s.state.inner.cursor ∧ s'.state.coversTarget = s.state.coversTarget) ∨
    ((∀ fault, (commitStagedFrame round core s info handle answer).1 ≠ .failed fault) ∧
      Observes round core s info handle (commitStagedFrame round core s info handle answer).1
        (commitStagedFrame round core s info handle answer).2) := by
  have hobserves := @processFrame_observes round core s info handle answer
  unfold commitStagedFrame
  generalize processFrame round core s info handle answer = r at hobserves ⊢
  obtain ⟨outcome, s'⟩ := r
  dsimp only at hobserves
  cases outcome with
  | failed fault =>
    obtain ⟨hpublished, hinner, hcovers⟩ : s'.transition.published = s.transition.published ∧
        s'.state.inner = s.state.inner ∧ s'.state.coversTarget = s.state.coversTarget := by
      cases hobserves with
      | fails _ _ hkept => exact ⟨hkept.published, hkept.inner, hkept.covers⟩
    have hcursor : s'.state.inner.cursor = s.state.inner.cursor := congrArg Inner.cursor hinner
    refine Or.inl ⟨fault, _, rfl, ?_⟩
    split_ifs with hends
    · exact ⟨terminate_not_live _ _, hpublished, hcursor, hcovers⟩
    · exact ⟨fun hlive => hends (Or.inr hlive.1), hpublished, hcursor, hcovers⟩
  | dropped => exact Or.inr ⟨fun _ => nofun, hobserves⟩
  | published => exact Or.inr ⟨fun _ => nofun, hobserves⟩

end Observes

end MadoPilot.Platform.MacosPublication
