import MadoPilot.Platform.Delivery

/-!
# The Windows input controller
-/

namespace MadoPilot.Platform.Windows

open MadoPilot.Core MadoPilot.Input

/-- The part of the driver's state that the controller reads: the text unit whose release is
pending. -/
structure DriverState where
  pendingUnicode : Option UInt16

inductive PendingRelease where
  | unicode (unit : UInt16)
  | logical (pressed : PressedState)
  deriving DecidableEq

structure SubmissionFailure where
  fault : InputFault
  currentEventMayHaveEffect : Bool
  currentEventMayLeavePressedState : Bool

namespace SubmissionFailure

def beforeEvent (fault : InputFault) : SubmissionFailure := ⟨fault, false, false⟩

end SubmissionFailure

instance : Failure SubmissionFailure where
  beforeEvent := .beforeEvent
  fault := SubmissionFailure.fault
  currentEventMayHaveEffect := SubmissionFailure.currentEventMayHaveEffect
  beforeEvent_fault _ := rfl
  beforeEvent_effect _ := rfl

structure InputDriver (E : Type*) where
  preflight : InputDelivery → FocusPolicy → E → Except InputFault Unit × E
  submit : InputDelivery → FocusPolicy → InputEvent → PointerGeometry → DriverState → E →
    Except SubmissionFailure Unit × DriverState × E
  release : InputDelivery → PendingRelease → DriverState → E →
    Except InputFault Unit × DriverState × E

/-- The refusals of a route that end the walk over the routes. -/
def stopsSelection : InputFault → Bool
  | .cancelled | .deadlineExceeded | .targetLost | .controllerClosed => true
  | _ => false

section Cleanup

variable {X α : Type*}

/-- The loop of `run_cleanup` from the release number `attempted` on: how many were released, and
whether a bound stopped it. -/
def releaseLoop (maxEvents : ℕ) (interruption : X → Option Interruption × X)
    (release : α → X → Except InputFault Unit × X) :
    ℕ → List α → ℕ → X → (ℕ × Bool) × X
  | _, [], released, x => ((released, false), x)
  | attempted, pressed :: releases, released, x =>
    if attempted ≥ maxEvents then ((released, true), x)
    else
      match interruption x with
      | (some _, x) => ((released, true), x)
      | (none, x) =>
        match release pressed x with
        | (.ok (), x) =>
          releaseLoop maxEvents interruption release (attempted + 1) releases (released + 1) x
        | (.error .deadlineExceeded, x) => ((released, true), x)
        | (.error _, x) => ((released, false), x)

def cleanupLoop (maxEvents : ℕ) (interruption : X → Option Interruption × X)
    (release : PendingRelease → X → Except InputFault Unit × X) (pending : Option UInt16)
    (held : List PressedState) (x : X) : (ℕ × Bool) × X :=
  releaseLoop maxEvents interruption release 0
    ((pending.map PendingRelease.unicode).toList ++ held.map PendingRelease.logical) 0 x

end Cleanup

section Controller

variable {E : Type*} (d : InputDriver E) (c : Context E)

def runCleanup (request : InputRequest) (receipt : InputReceipt)
    (stopped : StoppedSubmission SubmissionFailure) (s : DriverState) (e : E) :
    InputReceipt × DriverState × E :=
  let held := request.sequence.possiblyHeldAfter stopped.submitted
    stopped.failure.currentEventMayLeavePressedState
  let owed := held.length + s.pendingUnicode.toList.length
  if owed = 0 then (receipt.withCleanup 0 0, s, e)
  else
    match request.cleanup.context c e with
    | (cleanup, e) =>
      match cleanupLoop request.cleanup.maxEvents (cleanupInterruption cleanup)
        (fun pressed x => d.release stopped.route pressed x.1 x.2) s.pendingUnicode held (s, e) with
      | ((released, exhausted), s, e) =>
        (withCleanupResult receipt released owed exhausted, s, e)

def backend : Backend DriverState E SubmissionFailure where
  initial := ⟨none⟩
  probe request _ route s e :=
    match d.preflight route request.focus e with
    | (result, e) => (result, s, e)
  stops _ _ _ fault := stopsSelection fault
  submit request route event s e := d.submit route request.focus event request.pointerGeometry s e
  runCleanup := runCleanup d c

/-- `execute` of the Windows controller. -/
def execute (descriptor : InputDescriptor) (sleep : ℕ → E → E) (gate : E → Except Error Unit × E)
    (fuel : ℕ) (request : InputRequest) (e : E) : Option (Except Error InputReceipt × E) :=
  Platform.execute (backend d c) descriptor c sleep gate fuel request e

end Controller

end MadoPilot.Platform.Windows
