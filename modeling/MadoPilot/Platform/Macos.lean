import MadoPilot.Platform.Delivery

/-!
# The macOS input controller
-/

namespace MadoPilot.Platform.Macos

open MadoPilot.Core MadoPilot.Input

/-- A synthesized text key-down whose matching key-up did not run. -/
structure PendingTextRelease where
  route : InputDelivery
  flags : UInt32
  deriving DecidableEq

/-- The part of the driver's state that the controller reads: the text release that is pending. -/
structure DriverState where
  pendingTextRelease : Option PendingTextRelease

structure SubmissionFailure where
  fault : InputFault
  currentEventMayHaveEffect : Bool
  invokedNativeUnits : ℕ

namespace SubmissionFailure

def beforeEvent (fault : InputFault) : SubmissionFailure := ⟨fault, false, 0⟩

end SubmissionFailure

instance : Failure SubmissionFailure where
  beforeEvent := .beforeEvent
  fault := SubmissionFailure.fault
  currentEventMayHaveEffect := SubmissionFailure.currentEventMayHaveEffect
  beforeEvent_fault _ := rfl
  beforeEvent_effect _ := rfl

structure InputDriver (E : Type*) where
  preflight : InputDelivery → FocusPolicy → Bool → E → Except InputFault Unit × E
  beginRoute : InputDelivery → DriverState → E → Except InputFault Unit × DriverState × E
  submit : InputDelivery → FocusPolicy → InputEvent → PointerGeometry → DriverState → E →
    Except SubmissionFailure Unit × DriverState × E
  release : InputDelivery → PressedState → DriverState → E →
    Except InputFault Unit × DriverState × E
  releasePending : InputDelivery → DriverState → E → Except InputFault Bool × DriverState × E

/-- A later route is left, or no event would reach the final authority check. -/
def requireEarlyAuthority (request : InputRequest) (index : ℕ) : Bool :=
  index + 1 < request.delivery.routes.length || !request.sequence.events.any (!·.isDelay)

/-- The refusals of a route that end the walk over the routes: a lost target on the process route
lets a later route be tried. -/
def stopsSelection (request : InputRequest) (index : ℕ) (route : InputDelivery)
    (fault : InputFault) : Bool :=
  let earlyProcessTargetLossAllowsFallback :=
    route = .processDirected && fault = .targetLost && index + 1 < request.delivery.routes.length
  match fault with
  | .cancelled | .deadlineExceeded | .targetLost | .controllerClosed =>
    !earlyProcessTargetLossAllowsFallback
  | _ => false

section Cleanup

variable {X : Type*}

/-- The loop of `run_cleanup` over the held states. -/
def releaseLoop (maxEvents : ℕ) (interruption : X → Option Interruption × X)
    (release : PressedState → X → Except InputFault Unit × X) :
    List PressedState → ℕ → X → (ℕ × Bool) × X
  | [], released, x => ((released, false), x)
  | pressed :: held, released, x =>
    if released ≥ maxEvents then ((released, true), x)
    else
      match interruption x with
      | (some _, x) => ((released, true), x)
      | (none, x) =>
        match release pressed x with
        | (.error _, x) => ((released, false), x)
        | (.ok (), x) => releaseLoop maxEvents interruption release held (released + 1) x

/-- The pending text release, then the loop over the held states. -/
def cleanupLoop (maxEvents : ℕ) (interruption : X → Option Interruption × X)
    (release : PressedState → X → Except InputFault Unit × X)
    (releasePending : X → Except InputFault Bool × X) (pending : Bool) (held : List PressedState)
    (x : X) : (ℕ × Bool) × X :=
  if pending then
    if 0 ≥ maxEvents then ((0, true), x)
    else
      match interruption x with
      | (some _, x) => ((0, true), x)
      | (none, x) =>
        match releasePending x with
        | (.ok true, x) => releaseLoop maxEvents interruption release held 1 x
        | (.ok false, x) => ((0, false), x)
        | (.error _, x) => ((0, false), x)
  else releaseLoop maxEvents interruption release held 0 x

end Cleanup

section Controller

variable {E : Type*} (d : InputDriver E) (c : Context E)

def runCleanup (request : InputRequest) (receipt : InputReceipt)
    (stopped : StoppedSubmission SubmissionFailure) (s : DriverState) (e : E) :
    InputReceipt × DriverState × E :=
  let held := request.sequence.possiblyHeldAfter stopped.submitted
    stopped.failure.currentEventMayHaveEffect
  let owed := s.pendingTextRelease.toList.length + held.length
  if owed = 0 then (receipt.withCleanup 0 0, s, e)
  else
    match request.cleanup.context c e with
    | (cleanup, e) =>
      match cleanupLoop request.cleanup.maxEvents (cleanupInterruption cleanup)
        (fun pressed x => d.release stopped.route pressed x.1 x.2)
        (fun x => d.releasePending stopped.route x.1 x.2) s.pendingTextRelease.isSome held
        (s, e) with
      | ((released, exhausted), s, e) =>
        (withCleanupResult receipt released owed exhausted, s, e)

/-- `preflight` and then `begin_route`; a refusal leaves a fresh state. -/
def probe (request : InputRequest) (index : ℕ) (route : InputDelivery) (s : DriverState) (e : E) :
    Except InputFault Unit × DriverState × E :=
  match d.preflight route request.focus (requireEarlyAuthority request index) e with
  | (.error fault, e) => (.error fault, ⟨none⟩, e)
  | (.ok (), e) =>
    match d.beginRoute route s e with
    | (.error fault, _, e) => (.error fault, ⟨none⟩, e)
    | (.ok (), s, e) => (.ok (), s, e)

def backend : Backend DriverState E SubmissionFailure where
  initial := ⟨none⟩
  probe := probe d
  stops := stopsSelection
  submit request route event s e := d.submit route request.focus event request.pointerGeometry s e
  runCleanup := runCleanup d c

/-- `execute_inner` of the macOS controller. -/
def execute (descriptor : InputDescriptor) (sleep : ℕ → E → E) (gate : E → Except Error Unit × E)
    (fuel : ℕ) (request : InputRequest) (e : E) : Option (Except Error InputReceipt × E) :=
  Platform.execute (backend d c) descriptor c sleep gate fuel request e

end Controller

end MadoPilot.Platform.Macos
