import MadoPilot.Core.Identity
import MadoPilot.Core.Operation
import MadoPilot.Input.Event

/-!
# Sequences, policies, requests and the descriptor's checks
-/

namespace MadoPilot.Input

open MadoPilot.Core

def maxEvents : ℕ := 256

/-- An ordered, bounded run of input events, with what its constructor has checked. -/
structure InputSequence where
  events : List InputEvent
  nonempty : events ≠ []
  length_le : events.length ≤ maxEvents
  checked : ∀ event ∈ events, event.check = .ok ()

/-- `remove` of the last position that holds `x`. -/
def removeLast (held : List PressedState) (x : PressedState) : List PressedState :=
  (held.reverse.erase x).reverse

namespace InputSequence

variable (s : InputSequence)

def operationKinds : List InputOperationKind :=
  (s.events.filterMap InputEvent.operationKind).foldl
    (fun kinds kind => if kind ∈ kinds then kinds else kinds ++ [kind]) []

/-- What is still held after the first `submitted` events, last pressed first. -/
def heldAfter (submitted : ℕ) : List PressedState :=
  ((s.events.take submitted).foldl (fun held event =>
    let held := match event.presses with
      | some pressed => held ++ [pressed]
      | none => held
    match event.releases with
    | some released => removeLast held released
    | none => held) []).reverse

def possiblyHeldAfter (submitted : ℕ) (currentEventMayHaveEffect : Bool) : List PressedState :=
  let held := s.heldAfter submitted
  match s.events[submitted]?.bind InputEvent.presses with
  | some pressed => if currentEventMayHaveEffect ∧ pressed ∉ held then pressed :: held else held
  | none => held

end InputSequence

/-- Which input routes a controller may use, in the caller's own order. -/
structure DeliveryPlan where
  routes : List InputDelivery
  nonempty : routes ≠ []
  nodup : routes.Nodup

inductive FocusPolicy where
  | preserve | requireFocused | activateIfRequired
  deriving DecidableEq, Repr

/-- How a pointer position taken from a frame resolves at submission time. -/
inductive GeometryPolicy where
  | requireUnchanged | reprojectCurrent | useFrameSnapshot
  deriving DecidableEq, Repr

def GeometryPolicy.needsSourceFrame : GeometryPolicy → Bool
  | requireUnchanged | useFrameSnapshot => true
  | reprojectCurrent => false

/-- A geometry policy and the frame the coordinates it governs came from. -/
structure PointerGeometry where
  policy : GeometryPolicy
  source : Option FrameStamp
  deriving DecidableEq

def PointerGeometry.check (g : PointerGeometry) : Except InputFault Unit :=
  if g.policy.needsSourceFrame ∧ g.source = none then .error .missingCoordinateSource else .ok ()

/-- How much cleanup may do before it stops and reports what is still held. -/
structure CleanupBudget where
  maxEvents : ℕ
  maxDuration : ℕ
  deriving DecidableEq, Repr

namespace CleanupBudget

/-- The bounds of the contract: as many releases as a sequence has events, in 250 ms. -/
def contract : CleanupBudget := ⟨Input.maxEvents, 250 * 10 ^ 6⟩

/-- The context cleanup runs under: the request's clock, the budget's deadline, no cancellation. -/
def context {E : Type*} (b : CleanupBudget) (request : Context E) (e : E) : Context E × E :=
  let (started, e) := request.now e
  (⟨fun e => (false, e), instantAdd started b.maxDuration, request.now⟩, e)

end CleanupBudget

/-- One ask: deliver this sequence to this target under these policies. -/
structure InputRequest where
  target : TargetId
  sequence : InputSequence
  delivery : DeliveryPlan
  focus : FocusPolicy
  pointerGeometry : PointerGeometry
  cleanup : CleanupBudget

/-- The request against itself, before any target is consulted. -/
def InputRequest.check (r : InputRequest) : Except InputFault Unit :=
  if .pointer ∈ r.sequence.operationKinds then r.pointerGeometry.check else .ok ()

structure InputDescriptor where
  target : TargetId
  capability : InputCapability
  maxEvents : ℕ

namespace InputDescriptor

variable (d : InputDescriptor)

def validate (r : InputRequest) : Except InputFault Unit :=
  if r.target ≠ d.target then .error .foreignTarget
  else if d.maxEvents < r.sequence.events.length then .error .sequenceOutOfBounds
  else r.check

/-- The evidence that the pairs of `operations` with `route` share, on top of `evidence`. -/
def pairEvidence (r : InputRequest) (route : InputDelivery) :
    List InputOperationKind → Option SubmissionEvidence →
      Except InputFault (Option SubmissionEvidence)
  | [], evidence => .ok evidence
  | operation :: operations, evidence =>
    let pair := d.capability.pair operation route
    if ¬ pair.support.mayAttempt then .error .unsupportedCombination
    else
      match pair.evidence with
      | none => .error .unsupportedCombination
      | some pairEv =>
        if evidence.any (· ≠ pairEv) then .error .unsupportedCombination
        else if pair.focusRequired ∧ r.focus = .preserve then .error .focusRequired
        else pairEvidence r route operations (some pairEv)

/-- Every position of the sequence is in a space the pointer pair accepts. -/
def acceptsPositions (r : InputRequest) (route : InputDelivery) : Bool :=
  r.sequence.events.all fun event => match event with
    | .pointerMove position =>
      (d.capability.pair .pointer route).acceptsPointerSpace position.space
    | _ => true

/-- Evaluates one caller-selected route without native effect. -/
def preflightRoute (r : InputRequest) (route : InputDelivery) :
    Except InputFault SubmissionEvidence :=
  match d.validate r with
  | .error fault => .error fault
  | .ok () =>
    match d.pairEvidence r route r.sequence.operationKinds none with
    | .error fault => .error fault
    | .ok evidence =>
      if .pointer ∈ r.sequence.operationKinds ∧ ¬ d.acceptsPositions r route then
        .error .unsupportedCoordinate
      else
        let evidence := evidence.or (InputOperationKind.all.findSome? fun operation =>
          let pair := d.capability.pair operation route
          if pair.support.mayAttempt then pair.evidence else none)
        match evidence with
        | some evidence => .ok evidence
        | none => .error .unsupportedCombination

end InputDescriptor

end MadoPilot.Input
