import Mathlib.Data.List.Basic
import MadoPilot.Capture.Frame
import MadoPilot.Lib.Census
import MadoPilot.Lib.Mutex

/-!
# The native close of a Windows session

Threads call `close` on one `NativeSession`, the last owner drops it, and the workers of the teardown
executor run the jobs they are sent.  A step is one section under the runtime mutex, one consultation of
the caller's context, one access to a channel or one native call.  `start_native_close` keeps the
runtime mutex over several steps; nobody else is behind the close gate then.

`drop` has the session to itself: the model lets it hold the close gate.

* `Act.runtime` : who changes the runtime state, and how;
* `Act.recorded_stays` : a recorded result stays.
-/

namespace MadoPilot.Platform.WindowsClose

open MadoPilot.Core MadoPilot.Capture MadoPilot.Lib

structure RuntimeState where
  resources : Bool
  frameHandlerRemoved : Bool
  closeTask : Bool
  closeResult : Option (Option CaptureFault)
  closeFaultReported : Bool
  deriving DecidableEq

structure TeardownJob where
  removeFrameHandler : Bool
  drainCallbacks : Bool
  deriving DecidableEq

/-- What the parties share.  `calls` counts the closes that hold a reference, `alive` says that the
session has not been dropped.  The channel of the job has a message in `completion`, or a sender, or
neither.  `removed`, `quarantined` and `released` count what happened to the native objects. -/
structure Shared (τ : Type*) where
  runtime : RuntimeState
  gate : Option τ
  calls : ℕ
  alive : Bool
  queue : List TeardownJob
  completion : Option (Option CaptureFault)
  sender : Bool
  removed : ℕ
  quarantined : ℕ
  released : ℕ

inductive CloseError where
  | interrupted (i : Interruption)
  | refused (error : Error)
  | fault (fault : CaptureFault)

/-- Where a thread stands: in `close`, in `drop` (where the flag is set), or in `TeardownJob::run`.
`earlier` is the runtime state before the resources were taken for the job. -/
inductive Pc where
  | idle
  | gating
  | removing
  | removingNative
  | draining
  | admitting
  | starting (drop : Bool)
  | sending (drop : Bool) (earlier : RuntimeState)
  | restarting (earlier : RuntimeState)
  | resending (earlier : RuntimeState)
  | polling
  | checking
  | committing (result : Option CaptureFault)
  | settling (result : Option CaptureFault)
  | finishing
  | abandoning
  | working (job : TeardownJob)
  | workingDrain (drain : Bool)
  | workingClose
  | workingSend (fault : Option CaptureFault)

/-- What a step shows. -/
inductive Event where
  | silent
  | handlerRemoved
  | released
  | refused (error : Error)
  | returned (result : Except CloseError Unit)

section Acts

variable {τ : Type*}

/-- A close returns and lets go of the gate. -/
def Shared.leave (s : Shared τ) : Shared τ := { s with gate := none, calls := s.calls - 1 }

/-- The resources are taken for a job. -/
def Shared.take (s : Shared τ) : Shared τ :=
  { s with runtime := { s.runtime with resources := false } }

def jobOf (drop : Bool) (earlier : RuntimeState) : TeardownJob :=
  ⟨!earlier.frameHandlerRemoved, drop⟩

def Shared.sent (s : Shared τ) (job : TeardownJob) : Shared τ :=
  { s with
    runtime := { s.runtime with frameHandlerRemoved := true, closeTask := true }
    queue := s.queue ++ [job]
    sender := true }

/-- The job comes back, and its resources with it. -/
def Shared.restore (s : Shared τ) : Shared τ :=
  { s with runtime := { s.runtime with resources := true } }

def Shared.recordResult (s : Shared τ) (result : Option CaptureFault) : Shared τ :=
  { s with runtime := { s.runtime with closeTask := false, closeResult := some result } }

/-- Where a thread goes on once `start_native_close` is through. -/
def afterStart (drop : Bool) : Pc := if drop then .abandoning else .polling

/-- The steps of a thread.  Whenever the caller's context is consulted, any interruption may be found,
or none. -/
inductive Act (t : τ) : Shared τ → Pc → Event → Shared τ → Pc → Prop
  /-- `begin_close` and `stop_admission`. -/
  | call {s : Shared τ} : s.alive = true →
      Act t s .idle .silent { s with calls := s.calls + 1 } .gating
  | gateLate {s : Shared τ} (i : Interruption) :
      Act t s .gating (.returned (.error (.interrupted i))) { s with calls := s.calls - 1 } .idle
  | gate {s : Shared τ} : s.gate = none →
      Act t s .gating .silent { s with gate := some t } .removing
  | removedBefore {s : Shared τ} : s.runtime.frameHandlerRemoved = true →
      Act t s .removing .silent s .draining
  | marksRemoved {s : Shared τ} : s.runtime.frameHandlerRemoved = false →
      Act t s .removing .silent
        { s with runtime := { s.runtime with frameHandlerRemoved := true } }
        (if s.runtime.resources then .removingNative else .draining)
  | removes {s : Shared τ} :
      Act t s .removingNative .handlerRemoved { s with removed := s.removed + 1 } .draining
  | drains {s : Shared τ} : Act t s .draining .silent s .admitting
  | drainLate {s : Shared τ} (i : Interruption) :
      Act t s .draining (.returned (.error (.interrupted i))) s.leave .idle
  | admitLate {s : Shared τ} (i : Interruption) :
      Act t s .admitting (.returned (.error (.interrupted i))) s.leave .idle
  | admits {s : Shared τ} : Act t s .admitting .silent s (.starting false)
  | started {s : Shared τ} {drop : Bool} :
      s.runtime.closeTask = true ∨ s.runtime.closeResult ≠ none →
      Act t s (.starting drop) .silent s (afterStart drop)
  | nothingLeft {s : Shared τ} {drop : Bool} :
      s.runtime.closeTask = false → s.runtime.closeResult = none → s.runtime.resources = false →
      Act t s (.starting drop) .silent
        { s with runtime := { s.runtime with closeResult := some none } } (afterStart drop)
  | takes {s : Shared τ} {drop : Bool} :
      s.runtime.closeTask = false → s.runtime.closeResult = none → s.runtime.resources = true →
      Act t s (.starting drop) .silent s.take (.sending drop s.runtime)
  | sends {s : Shared τ} {drop : Bool} {earlier : RuntimeState} :
      Act t s (.sending drop earlier) .silent (s.sent (jobOf drop earlier)) (afterStart drop)
  /-- The queue is full, or disconnected. -/
  | unsent {s : Shared τ} {earlier : RuntimeState} :
      Act t s (.sending false earlier)
        (.returned (.error (.refused CaptureFault.sourceInvalid.toError))) s.restore.leave .idle
  | unsentDrop {s : Shared τ} {earlier : RuntimeState} :
      Act t s (.sending true earlier) (.refused CaptureFault.sourceInvalid.toError) s.restore
        .abandoning
  | disconnected {s : Shared τ} {earlier : RuntimeState} :
      Act t s (.sending false earlier) .silent s (.restarting earlier)
  /-- The executor is not replaced, for want of time or of a worker. -/
  | restartFails {s : Shared τ} {earlier : RuntimeState} (error : Error) :
      Act t s (.restarting earlier) (.returned (.error (.refused error))) s.restore.leave .idle
  | restarts {s : Shared τ} {earlier : RuntimeState} :
      Act t s (.restarting earlier) .silent s (.resending earlier)
  | resends {s : Shared τ} {earlier : RuntimeState} :
      Act t s (.resending earlier) .silent (s.sent (jobOf false earlier)) .polling
  | unsentAgain {s : Shared τ} {earlier : RuntimeState} :
      Act t s (.resending earlier)
        (.returned (.error (.refused CaptureFault.sourceInvalid.toError))) s.restore.leave .idle
  | recorded {s : Shared τ} {result : Option CaptureFault} : s.runtime.closeResult = some result →
      Act t s .polling .silent s (.committing result)
  | receives {s : Shared τ} {result : Option CaptureFault} :
      s.runtime.closeResult = none → s.runtime.closeTask = true → s.completion = some result →
      Act t s .polling .silent { s.recordResult result with completion := none } (.committing result)
  | empty {s : Shared τ} :
      s.runtime.closeResult = none → s.runtime.closeTask = true → s.completion = none →
      s.sender = true → Act t s .polling .silent s .checking
  | lost {s : Shared τ} :
      s.runtime.closeResult = none → s.runtime.closeTask = true → s.completion = none →
      s.sender = false →
      Act t s .polling .silent (s.recordResult (some .sourceInvalid)) (.committing (some .sourceInvalid))
  | untasked {s : Shared τ} : s.runtime.closeResult = none → s.runtime.closeTask = false →
      Act t s .polling .silent (s.recordResult none) (.committing none)
  | expires {s : Shared τ} (i : Interruption) :
      Act t s .checking (.returned (.error (.interrupted i))) s.leave .idle
  | again {s : Shared τ} : Act t s .checking .silent s .polling
  | commitLate {s : Shared τ} {result : Option CaptureFault} (i : Interruption) :
      Act t s (.committing result) (.returned (.error (.interrupted i))) s.leave .idle
  | commits {s : Shared τ} {result : Option CaptureFault} :
      Act t s (.committing result) .silent s (.settling result)
  | clean {s : Shared τ} : Act t s (.settling none) .silent s .finishing
  | toldBefore {s : Shared τ} {fault : CaptureFault} : s.runtime.closeFaultReported = true →
      Act t s (.settling (some fault)) .silent s .finishing
  | reports {s : Shared τ} {fault : CaptureFault} : s.runtime.closeFaultReported = false →
      Act t s (.settling (some fault)) (.returned (.error (.fault fault)))
        { s.leave with runtime := { s.runtime with closeFaultReported := true } } .idle
  /-- `StreamState::drain`. -/
  | finishLate {s : Shared τ} (i : Interruption) :
      Act t s .finishing (.returned (.error (.interrupted i))) s.leave .idle
  | finishes {s : Shared τ} : Act t s .finishing (.returned (.ok ())) s.leave .idle
  /-- The last reference goes, so no close is running. -/
  | drop {s : Shared τ} : s.alive = true → s.calls = 0 → s.gate = none →
      Act t s .idle .silent { s with alive := false, gate := some t } (.starting true)
  | abandons {s : Shared τ} :
      Act t s .abandoning .silent
        { s with
          runtime := { s.runtime with resources := false }
          gate := none
          quarantined := s.quarantined + if s.runtime.resources then 1 else 0 } .idle
  | work {s : Shared τ} {job : TeardownJob} {queue : List TeardownJob} : s.queue = job :: queue →
      Act t s .idle .silent { s with queue := queue } (.working job)
  | workRemoves {s : Shared τ} {drain : Bool} :
      Act t s (.working ⟨true, drain⟩) .handlerRemoved { s with removed := s.removed + 1 }
        (.workingDrain drain)
  | workSkips {s : Shared τ} {drain : Bool} :
      Act t s (.working ⟨false, drain⟩) .silent s (.workingDrain drain)
  | workDrains {s : Shared τ} {drain : Bool} : Act t s (.workingDrain drain) .silent s .workingClose
  /-- `close_native_resources` -/
  | workCloses {s : Shared τ} (fault : Option CaptureFault) :
      Act t s .workingClose .released { s with released := s.released + 1 } (.workingSend fault)
  | workSends {s : Shared τ} {fault : Option CaptureFault} :
      Act t s (.workingSend fault) .silent { s with completion := some fault, sender := false } .idle

end Acts

abbrev CloseWorld (τ : Type*) := World τ (Shared τ) Pc

/-- A session that has just been opened. -/
def CloseWorld.start (τ : Type*) : CloseWorld τ :=
  ⟨⟨⟨true, false, false, none, false⟩, none, 0, true, [], none, false, 0, 0, 0⟩, fun _ => .idle⟩

abbrev closeSystem (τ : Type*) [DecidableEq τ] : System (CloseWorld τ) (τ × Event) :=
  threads Act (CloseWorld.start τ)

/-! ### Places -/

namespace Pc

def gated : Pc → Bool
  | idle | gating | working _ | workingDrain _ | workingClose | workingSend _ => false
  | _ => true

def calling : Pc → Bool
  | idle | starting true | sending true _ | abandoning | working _ | workingDrain _ | workingClose
  | workingSend _ => false
  | _ => true

/-- The thread has the resources in a job. -/
def carries : Pc → Bool
  | sending .. | restarting _ | resending _ | working _ | workingDrain _ | workingClose => true
  | _ => false

/-- The thread works on a job that holds the resources. -/
def tears : Pc → Bool
  | working _ | workingDrain _ | workingClose => true
  | _ => false

def removes : Pc → Bool
  | removingNative => true
  | working job => job.removeFrameHandler
  | _ => false

end Pc

section Steps

variable {τ : Type*} {t : τ} {s s' : Shared τ} {pc pc' : Pc} {e : Event}

theorem Act.move (h : Act t s pc e s' pc') : Mutex.Move t s.gate pc.gated s'.gate pc'.gated := by
  cases h with
  | gate hfree | drop _ _ hfree =>
    rw [hfree]
    exact .lock
  | drainLate | admitLate | unsent | restartFails | unsentAgain | expires | commitLate | reports |
    finishLate | finishes | abandons => exact .unlock _
  | @marksRemoved hflag =>
    cases s.runtime.resources with
    | true => exact .stay ..
    | false => exact .stay ..
  | @started drop | @nothingLeft drop | @sends drop =>
    cases drop with
    | true => exact .stay ..
    | false => exact .stay ..
  | _ => exact .stay ..

theorem Act.runtime (h : Act t s pc e s' pc') (hout : pc.gated = false) : s'.runtime = s.runtime := by
  cases h with
  | call | gateLate | gate | drop | work | workRemoves | workSkips | workDrains | workCloses | workSends =>
    rfl
  | _ => cases hout

theorem Act.recorded_stays (h : Act t s pc e s' pc') {result : Option CaptureFault}
    (hresult : s.runtime.closeResult = some result) : s'.runtime.closeResult = some result := by
  cases h with
  | nothingLeft _ hnone | receives hnone | lost hnone | untasked hnone =>
    rw [hresult] at hnone
    cases hnone
  | _ => exact hresult

end Steps

end MadoPilot.Platform.WindowsClose
