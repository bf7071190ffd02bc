import MadoPilot.Input.Receipt

/-!
# The execute loop of an input controller

What the Windows and the macOS controller share: the wait of a delay event, the walk over the
caller's routes, the loop over the events, and the receipt of a sequence that stopped.  The native
driver, the clock, the cancellation token and the operating system's sleep are outside the
repository's reach: each call of them takes the environment and returns its answer with the
environment it leaves, so that a statement over every environment covers every behaviour of theirs.

The wait of a delay loops until the clock has reached its end, so it runs on fuel; `none` says that
the fuel did not last.
-/

namespace MadoPilot.Platform

open MadoPilot.Core MadoPilot.Input

/-- The longest single sleep of a delay: two milliseconds. -/
def delayPollInterval : ℕ := 2 * 10 ^ 6

section Wait

variable {E : Type*} (c : Context E) (sleep : ℕ → E → E)

/-- The loop of `wait_delay`. -/
def waitUntil (finish : ℕ) : ℕ → E → Option (Except InputFault Unit × E)
  | 0, _ => none
  | fuel + 1, e =>
    match c.interruption e with
    | (some i, e) => some (.error (.ofInterruption i), e)
    | (none, e) =>
      match c.now e with
      | (now, e) =>
        if finish ≤ now then
          match c.interruption e with
          | (some i, e) => some (.error (.ofInterruption i), e)
          | (none, e) => some (.ok (), e)
        else waitUntil finish fuel (sleep (min (finish - now) delayPollInterval) e)

def waitDelay (fuel delay : ℕ) (e : E) : Option (Except InputFault Unit × E) :=
  match c.interruption e with
  | (some i, e) => some (.error (.ofInterruption i), e)
  | (none, e) =>
    match c.now e with
    | (now, e) =>
      match instantAdd now delay with
      | none => some (.error .deadlineExceeded, e)
      | some finish => waitUntil c sleep finish fuel e

variable {c sleep} {finish fuel delay now : ℕ} {i : Interruption} {e e₁ e₂ : E}

lemma waitUntil_interrupted (hi : c.interruption e = (some i, e₁)) :
    waitUntil c sleep finish (fuel + 1) e = some (.error (.ofInterruption i), e₁) := by
  rw [waitUntil, hi]

lemma waitUntil_read (hi : c.interruption e = (none, e₁)) (hn : c.now e₁ = (now, e₂)) :
    waitUntil c sleep finish (fuel + 1) e =
      if finish ≤ now then
        match c.interruption e₂ with
        | (some i, e) => some (.error (.ofInterruption i), e)
        | (none, e) => some (.ok (), e)
      else waitUntil c sleep finish fuel (sleep (min (finish - now) delayPollInterval) e₂) := by
  simp only [waitUntil, hi, hn]

lemma waitDelay_interrupted (hi : c.interruption e = (some i, e₁)) :
    waitDelay c sleep fuel delay e = some (.error (.ofInterruption i), e₁) := by
  rw [waitDelay, hi]

lemma waitDelay_read (hi : c.interruption e = (none, e₁)) (hn : c.now e₁ = (now, e₂)) :
    waitDelay c sleep fuel delay e =
      match instantAdd now delay with
      | none => some (.error .deadlineExceeded, e₂)
      | some finish => waitUntil c sleep finish fuel e₂ := by
  simp only [waitDelay, hi, hn]

end Wait

/-- Why native submission stopped at one logical event, as each platform records it. -/
class Failure (F : Type*) where
  beforeEvent : InputFault → F
  fault : F → InputFault
  currentEventMayHaveEffect : F → Bool
  beforeEvent_fault : ∀ f, fault (beforeEvent f) = f
  beforeEvent_effect : ∀ f, currentEventMayHaveEffect (beforeEvent f) = false

structure StoppedSubmission (F : Type*) where
  route : InputDelivery
  evidence : SubmissionEvidence
  priorAttempts : List InputAttempt
  submitted : ℕ
  failure : F

section Loops

variable {S E F : Type*} [Failure F]

/-- One event: a wait, or a native submission unless the operation is interrupted. -/
def submitEvent (c : Context E) (sleep : ℕ → E → E)
    (submit : InputEvent → S → E → Except F Unit × S × E) (fuel : ℕ) (event : InputEvent) (s : S)
    (e : E) : Option (Except F Unit × S × E) :=
  match event with
  | .delay delay =>
    (waitDelay c sleep fuel delay e).map fun (result, e) => (result.mapError Failure.beforeEvent, s, e)
  | event =>
    match c.interruption e with
    | (some i, e) => some (.error (Failure.beforeEvent (.ofInterruption i)), s, e)
    | (none, e) => some (submit event s e)

section Native

variable {c : Context E} {sleep : ℕ → E → E} {submit : InputEvent → S → E → Except F Unit × S × E}
  {fuel : ℕ} {event : InputEvent} {s : S} {e e₁ : E} {i : Interruption}

lemma submitEvent_interrupted (hdelay : event.isDelay = false)
    (hi : c.interruption e = (some i, e₁)) :
    submitEvent c sleep submit fuel event s e =
      some (.error (Failure.beforeEvent (.ofInterruption i)), s, e₁) := by
  cases event with
  | delay delay => cases hdelay
  | _ => simp only [submitEvent, hi]

lemma submitEvent_native (hdelay : event.isDelay = false) (hi : c.interruption e = (none, e₁)) :
    submitEvent c sleep submit fuel event s e = some (submit event s e₁) := by
  cases event with
  | delay delay => cases hdelay
  | _ => simp only [submitEvent, hi]

end Native

/-- The loop over the events: how many were submitted, and the failure that stopped it. -/
def submitEvents (c : Context E) (sleep : ℕ → E → E)
    (submit : InputEvent → S → E → Except F Unit × S × E) (fuel : ℕ) :
    List InputEvent → ℕ → S → E → Option ((ℕ × Option F) × S × E)
  | [], submitted, s, e => some ((submitted, none), s, e)
  | event :: events, submitted, s, e =>
    match submitEvent c sleep submit fuel event s e with
    | none => none
    | some (.error failure, s, e) => some ((submitted, some failure), s, e)
    | some (.ok (), s, e) => submitEvents c sleep submit fuel events (submitted + 1) s e

/-- The walk over the caller's routes from the one at `index` on.  `probe` asks the driver, `stops`
says which of its refusals end the walk. -/
def selectRoute (target : TargetId) (preflightRoute : InputDelivery → Except InputFault SubmissionEvidence)
    (probe : ℕ → InputDelivery → S → E → Except InputFault Unit × S × E)
    (stops : ℕ → InputDelivery → InputFault → Bool) :
    ℕ → List InputDelivery → List InputAttempt → InputFault → S → E →
      Except InputReceipt (InputDelivery × SubmissionEvidence × List InputAttempt) × S × E
  | _, [], prior, last, s, e =>
    (.error ((InputReceipt.unexecuted target last).withPriorAttempts prior), s, e)
  | index, route :: routes, prior, _, s, e =>
    match preflightRoute route with
    | .error fault => selectRoute target preflightRoute probe stops (index + 1) routes
        (prior ++ [.refused route fault]) fault s e
    | .ok evidence =>
      match probe index route s e with
      | (.ok (), s, e) => (.ok (route, evidence, prior), s, e)
      | (.error fault, s, e) =>
        if stops index route fault then
          (.error ((InputReceipt.unexecuted target fault).withPriorAttempts
            (prior ++ [.refused route fault])), s, e)
        else selectRoute target preflightRoute probe stops (index + 1) routes
          (prior ++ [.refused route fault]) fault s e

def stoppedReceipt (target : TargetId)
    (runCleanup : InputReceipt → StoppedSubmission F → S → E → InputReceipt × S × E)
    (stopped : StoppedSubmission F) (s : S) (e : E) : InputReceipt × S × E :=
  if stopped.submitted = 0 ∧ Failure.currentEventMayHaveEffect stopped.failure = false then
    ((InputReceipt.unexecuted target (Failure.fault stopped.failure)).withPriorAttempts
      (stopped.priorAttempts ++ [.refused stopped.route (Failure.fault stopped.failure)]), s, e)
  else
    runCleanup ((InputReceipt.partialRun target stopped.route stopped.evidence stopped.submitted
      (Failure.currentEventMayHaveEffect stopped.failure)
      (Failure.fault stopped.failure)).withPriorAttempts stopped.priorAttempts) stopped s e

def withCleanupResult (receipt : InputReceipt) (released owed : ℕ) (exhausted : Bool) :
    InputReceipt :=
  if exhausted then receipt.withExhaustedCleanup released owed
  else receipt.withCleanup released owed

/-- An interruption of the cleanup context, read while the driver's state is at hand. -/
def cleanupInterruption (cleanup : Context E) (x : S × E) :
    Option Interruption × (S × E) :=
  match cleanup.interruption x.2 with
  | (i, e) => (i, (x.1, e))

/-- What one platform brings to the loop. -/
structure Backend (S E F : Type*) where
  /-- a fresh `DriverState` -/
  initial : S
  probe : InputRequest → ℕ → InputDelivery → S → E → Except InputFault Unit × S × E
  stops : InputRequest → ℕ → InputDelivery → InputFault → Bool
  submit : InputRequest → InputDelivery → InputEvent → S → E → Except F Unit × S × E
  runCleanup : InputRequest → InputReceipt → StoppedSubmission F → S → E → InputReceipt × S × E

/-- `execute`.  `gate` is what the admission gate answers; its guard is held to the end. -/
def execute (b : Backend S E F) (descriptor : InputDescriptor) (c : Context E) (sleep : ℕ → E → E)
    (gate : E → Except Error Unit × E) (fuel : ℕ) (request : InputRequest) (e : E) :
    Option (Except Error InputReceipt × E) :=
  match descriptor.validate request with
  | .error fault => some (.error fault.toError, e)
  | .ok () =>
    match gate e with
    | (.error error, e) => some (.error error, e)
    | (.ok (), e) =>
      match selectRoute request.target (descriptor.preflightRoute request) (b.probe request)
        (b.stops request) 0 request.delivery.routes [] .routeUnavailable b.initial e with
      | (.error receipt, _, e) => some (.ok receipt, e)
      | (.ok (route, evidence, prior), s, e) =>
        match submitEvents c sleep (b.submit request route) fuel request.sequence.events 0 s e with
        | none => none
        | some ((submitted, some failure), s, e) =>
          match stoppedReceipt request.target (b.runCleanup request)
            ⟨route, evidence, prior, submitted, failure⟩ s e with
          | (receipt, _, e) => some (.ok receipt, e)
        | some ((submitted, none), _, e) =>
          some (.ok ((InputReceipt.complete request.target route evidence submitted).withPriorAttempts
            prior), e)

end Loops

end MadoPilot.Platform
