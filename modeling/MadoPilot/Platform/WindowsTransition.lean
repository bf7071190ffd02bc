import MadoPilot.Capture.Stream
import MadoPilot.Core.Operation
import MadoPilot.Lib.System

/-!
# Geometry transitions of a Windows session

`process_frame` runs under the transition lock, which it takes with `try_lock`, so the frames of one
session are observed one after the other.  What the native calls, the pools and the stream answer comes
with the frame.

* `processFrame_step` : what the observation of a frame does.
-/

namespace MadoPilot.Platform.WindowsTransition

open MadoPilot.Core MadoPilot.Capture MadoPilot.Lib

def i64Max : ℤ := 2 ^ 63 - 1

/-- `i64::saturating_add(1)` -/
def saturatingSucc (n : ℤ) : ℤ := min (n + 1) i64Max

/-- What of a placement has to be in the pixels: the origin and both scales. -/
def geometry (p : TargetPlacement) : (ℚ × ℚ) × Scale × Scale := (p.desktopOrigin, p.targetScale, p.desktopScale)

structure TransitionState where
  extent : PixelExtent
  placement : TargetPlacement
  pendingDiscontinuity : Bool
  pendingGeometryChange : Bool
  movementNotBefore : Option ℤ
  clockAnchor : ℤ × ℕ
  published : Bool
  deriving DecidableEq

/-- A frame of the native pool, with what is found out about it on the way. -/
structure NativeFrame where
  /-- Taking it from the pool and reading its size and its time. -/
  acquired : Except CaptureFault Unit
  extent : PixelExtent
  nativeTime : ℤ
  requiredGeometry : Except CaptureFault Unit
  /-- Validating the new surface, reserving it and recreating the pool. -/
  recreated : Except CaptureFault Unit
  currentPlacement : Except CaptureFault TargetPlacement
  observedNow : Option ℤ
  /-- The descriptor, the lease and the copy; `false` where one of them is refused for now. -/
  detached : Except CaptureFault Bool
  /-- `check_required_geometry`, once more before the publication. -/
  rechecked : Except CaptureFault Unit
  publication : Except CaptureFault Unit

/-- What becomes of a frame. -/
inductive Outcome where
  | failed (fault : CaptureFault)
  | recreated
  | fenced
  | dropped
  | published (capturedAt : ℕ) (placement : TargetPlacement) (continuity : Continuity)
  deriving DecidableEq

namespace TransitionState

def opened (extent : PixelExtent) (placement : TargetPlacement) (clockAnchor : ℤ × ℕ) :
    TransitionState :=
  ⟨extent, placement, false, false, none, clockAnchor, false⟩

def poolRecreated (s : TransitionState) (extent : PixelExtent) : TransitionState :=
  { s with extent := extent, pendingDiscontinuity := s.published }

def notBefore (nativeTime : ℤ) (observedNow : Option ℤ) : ℤ :=
  observedNow.getD (saturatingSucc nativeTime)

def acceptsFrameGeometry (s : TransitionState) (placement : TargetPlacement) (nativeTime : ℤ)
    (observedNow : Option ℤ) : Bool × TransitionState :=
  if s.published = true ∧ geometry placement ≠ geometry s.placement then
    let instant := notBefore nativeTime observedNow
    (false, { s with
      placement := placement
      pendingGeometryChange := true
      movementNotBefore := some ((s.movementNotBefore.map fun previous => max previous instant).getD
        instant) })
  else if (s.movementNotBefore.any fun fence => nativeTime < fence) then (false, s)
  else (true, { s with movementNotBefore := none })

def continuity (s : TransitionState) : Continuity :=
  if s.pendingDiscontinuity then .discontinuous
  else if s.pendingGeometryChange then .geometryChanged
  else .continuous

end TransitionState

def frameTime (anchor : ℤ × ℕ) (nativeTime : ℤ) : ℕ :=
  let ticks := nativeTime - anchor.1
  let nanos := ticks.natAbs * 100
  let elapsed := if nanos ≤ u64Max then nanos else durationMax
  if 0 ≤ ticks then (instantAdd anchor.2 elapsed).getD durationMax else anchor.2 - elapsed

def publicationPlacement (f : NativeFrame) : Except CaptureFault TargetPlacement :=
  match f.requiredGeometry with
  | .error fault => .error fault
  | .ok () => f.currentPlacement

/-- The part of `process_frame` behind the fence. -/
def publishFrame (s : TransitionState) (f : NativeFrame) (placement : TargetPlacement) :
    Outcome × TransitionState :=
  match f.detached with
  | .error fault => (.failed fault, s)
  | .ok false => (.dropped, s)
  | .ok true =>
    match f.rechecked with
    | .error fault => (.failed fault, s)
    | .ok () =>
      match f.publication with
      | .error fault => (.failed fault, s)
      | .ok () =>
        (.published (frameTime s.clockAnchor f.nativeTime) placement s.continuity,
          { s with
            placement := placement
            pendingDiscontinuity := false
            pendingGeometryChange := false
            published := true })

def processFrame (s : TransitionState) (f : NativeFrame) : Outcome × TransitionState :=
  match f.acquired with
  | .error fault => (.failed fault, s)
  | .ok () =>
    if f.extent ≠ s.extent then
      match f.requiredGeometry with
      | .error fault => (.failed fault, s)
      | .ok () =>
        match f.recreated with
        | .error fault => (.failed fault, s)
        | .ok () => (.recreated, s.poolRecreated f.extent)
    else
      match publicationPlacement f with
      | .error fault => (.failed fault, s)
      | .ok placement =>
        match s.acceptsFrameGeometry placement f.nativeTime f.observedNow with
        | (false, s) => (.fenced, s)
        | (true, s) => publishFrame s f placement

/-! ### What an observation does -/

namespace NativeFrame

/-- The instant that a change shown by the frame is observed at. -/
def instant (f : NativeFrame) : ℤ := TransitionState.notBefore f.nativeTime f.observedNow

/-- The geometry of the frame is compared, and its placement is `placement`. -/
def Shows (s : TransitionState) (f : NativeFrame) (placement : TargetPlacement) : Prop :=
  f.acquired = .ok () ∧ f.extent = s.extent ∧ publicationPlacement f = .ok placement

def Reveals (s : TransitionState) (f : NativeFrame) : Prop :=
  s.published = true ∧ ∃ placement, f.Shows s placement ∧ geometry placement ≠ geometry s.placement

def Passes (s : TransitionState) (f : NativeFrame) : Prop :=
  ∃ placement, f.Shows s placement ∧
    (s.published = true → geometry placement = geometry s.placement) ∧
    ∀ fence, s.movementNotBefore = some fence → fence ≤ f.nativeTime

def Publishes (s : TransitionState) (f : NativeFrame) : Prop :=
  ∃ capturedAt placement continuity,
    (processFrame s f).1 = .published capturedAt placement continuity

def Resizes (s : TransitionState) (f : NativeFrame) : Prop := (processFrame s f).1 = .recreated

end NativeFrame

open NativeFrame (Reveals Passes Publishes Resizes)

def TransitionState.revealed (s : TransitionState) (f : NativeFrame) (placement : TargetPlacement) :
    TransitionState :=
  { s with
    placement := placement
    pendingGeometryChange := true
    movementNotBefore :=
      some ((s.movementNotBefore.map fun previous => max previous f.instant).getD f.instant) }

/-- The state once a frame has been let through. -/
def TransitionState.passed (s : TransitionState) : TransitionState := { s with movementNotBefore := none }

def TransitionState.afterPublication (s : TransitionState) (placement : TargetPlacement) :
    TransitionState :=
  { s.passed with
    placement := placement
    pendingDiscontinuity := false
    pendingGeometryChange := false
    published := true }

/-- The ways an observation ends. -/
inductive Step (s : TransitionState) (f : NativeFrame) : Outcome → TransitionState → Prop
  | fails (fault : CaptureFault) : (∀ placement, ¬ f.Shows s placement) → Step s f (.failed fault) s
  | recreates : (∀ placement, ¬ f.Shows s placement) →
      Step s f .recreated (s.poolRecreated f.extent)
  | reveals (placement : TargetPlacement) : f.Shows s placement → s.published = true →
      geometry placement ≠ geometry s.placement → Step s f .fenced (s.revealed f placement)
  | holds (placement : TargetPlacement) (fence : ℤ) : f.Shows s placement →
      (s.published = true → geometry placement = geometry s.placement) →
      s.movementNotBefore = some fence → f.nativeTime < fence → Step s f .fenced s
  | passes (placement : TargetPlacement) (outcome : Outcome) : f.Shows s placement →
      (s.published = true → geometry placement = geometry s.placement) →
      (∀ fence, s.movementNotBefore = some fence → fence ≤ f.nativeTime) →
      (outcome = .dropped ∨ ∃ fault, outcome = .failed fault) → Step s f outcome s.passed
  | publishes (placement : TargetPlacement) : f.Shows s placement →
      (s.published = true → geometry placement = geometry s.placement) →
      (∀ fence, s.movementNotBefore = some fence → fence ≤ f.nativeTime) →
      Step s f (.published (frameTime s.clockAnchor f.nativeTime) placement s.continuity)
        (s.afterPublication placement)

theorem processFrame_step (s : TransitionState) (f : NativeFrame) :
    Step s f (processFrame s f).1 (processFrame s f).2 := by
  unfold processFrame
  cases hacquired : f.acquired with
  | error fault =>
    refine .fails fault fun placement hshows => ?_
    rw [hshows.1] at hacquired
    cases hacquired
  | ok =>
    by_cases hextent : f.extent ≠ s.extent
    · have hnone : ∀ placement, ¬ f.Shows s placement := fun _ hshows => hextent hshows.2.1
      simp only [if_pos hextent]
      cases f.requiredGeometry with
      | error fault => exact .fails fault hnone
      | ok =>
        cases f.recreated with
        | error fault => exact .fails fault hnone
        | ok => exact .recreates hnone
    · simp only [if_neg hextent]
      cases hplacement : publicationPlacement f with
      | error fault =>
        refine .fails fault fun placement hshows => ?_
        rw [hshows.2.2] at hplacement
        cases hplacement
      | ok placement =>
        have hshows : f.Shows s placement := ⟨hacquired, not_not.mp hextent, hplacement⟩
        by_cases hmoved : s.published = true ∧ geometry placement ≠ geometry s.placement
        · simp only [TransitionState.acceptsFrameGeometry, if_pos hmoved]
          exact .reveals placement hshows hmoved.1 hmoved.2
        · have hsame : s.published = true → geometry placement = geometry s.placement := by
            intro hpublished
            by_contra hne
            exact hmoved ⟨hpublished, hne⟩
          by_cases hfence : (s.movementNotBefore.any fun fence => decide (f.nativeTime < fence)) = true
          · simp only [TransitionState.acceptsFrameGeometry, if_neg hmoved, hfence, if_true]
            cases hsome : s.movementNotBefore with
            | none =>
              rw [hsome] at hfence
              cases hfence
            | some fence =>
              rw [hsome] at hfence
              exact .holds placement fence hshows hsame hsome (of_decide_eq_true hfence)
          · have hpast : ∀ fence, s.movementNotBefore = some fence → fence ≤ f.nativeTime := by
              intro fence hsome
              rw [hsome] at hfence
              simpa using hfence
            simp only [TransitionState.acceptsFrameGeometry, if_neg hmoved, hfence]
            unfold publishFrame
            cases f.detached with
            | error fault => exact .passes placement _ hshows hsame hpast (Or.inr ⟨fault, rfl⟩)
            | ok copied =>
              cases copied with
              | false => exact .passes placement _ hshows hsame hpast (Or.inl rfl)
              | true =>
                cases f.rechecked with
                | error fault => exact .passes placement _ hshows hsame hpast (Or.inr ⟨fault, rfl⟩)
                | ok =>
                  cases f.publication with
                  | error fault => exact .passes placement _ hshows hsame hpast (Or.inr ⟨fault, rfl⟩)
                  | ok => exact .publishes placement hshows hsame hpast

end MadoPilot.Platform.WindowsTransition
