import MadoPilot.Lib.SwapRemove
import MadoPilot.Lib.Threads
import MadoPilot.Input.Fault

/-!
# The admission gate

Any number of threads call `admit`, `begin_close` and `drain` on one `Admission`, and keep, pass on
and drop the guards they are given.  A step is one critical section or one consultation of the
caller's operation context.  Such a consultation runs the caller's own code, which may call the gate
again: a thread stands at a stack of points, one for each call it is inside.

The shared part keeps, for the statements, the guards that are alive.  A guard is alive from the
section that claims the gate, while `admit` has not returned it yet, to the section of its drop.
-/

namespace MadoPilot.Input

open MadoPilot.Core MadoPilot.Lib

/-- The part of the gate that its mutex guards. -/
structure AdmissionState (τ : Type*) where
  busy : Bool
  owner : Option τ
  waiters : ℕ
  pendingAdmissions : ℕ
  lifecycle : Lifecycle
  entering : List τ

namespace AdmissionState

variable {τ : Type*}

def new : AdmissionState τ := ⟨false, none, 0, 0, .opened, []⟩

variable [DecidableEq τ]

/-- The refusal of a thread that is entering, or acquired the guard that is alive. -/
def reentrant (s : AdmissionState τ) (t : τ) : Bool := s.owner = some t || t ∈ s.entering

/-- The section of `AdmissionEntry::unregister`; `none` where the source panics. -/
def unregister (s : AdmissionState τ) (t : τ) (blocksClose : Bool) : Option (AdmissionState τ) :=
  match s.entering.idxOf? t with
  | none => none
  | some index =>
    if blocksClose then
      if s.pendingAdmissions = 0 then none
      else some { s with
        entering := swapRemove s.entering index, pendingAdmissions := s.pendingAdmissions - 1 }
    else some { s with entering := swapRemove s.entering index }

end AdmissionState

/-- One guard: the thread that acquired it, and the thread that keeps it; none does while `admit`
has not returned it. -/
structure Guard (τ : Type*) where
  owner : τ
  keeper : Option τ
  deriving DecidableEq

/-- Where one call stands. -/
inductive Point where
  /-- `admit` before its first section -/
  | admitEntry
  /-- `Operation::admit` -/
  | admitContext
  | admitLoop (op : Operation)
  | admitWaiting (op : Operation)
  /-- `checkpoint` -/
  | admitWoken (op : Operation)
  /-- `commit`, with the guard alive -/
  | admitCommit (op : Operation)
  /-- the guard is dropped because `commit` failed -/
  | admitReleasing (i : Interruption)
  /-- the entry is dropped because `admit` failed -/
  | admitFailing (error : Error)
  | drainEntry
  | drainClose
  | drainContext
  | drainLoop (op : Operation)
  /-- `commit` on a closed gate, and before closing it -/
  | drainDone (op : Operation)
  | drainCommit (op : Operation)
  | drainFinal
  | drainWaiting (op : Operation)
  | drainWoken (op : Operation)
  /-- the entry is dropped -/
  | drainReturning (result : Except Error Unit)

namespace Point

/-- The caller's own code runs here. -/
def callsOut : Point → Bool
  | admitContext | admitWoken _ | admitCommit _ | drainContext | drainDone _ | drainCommit _
  | drainWoken _ => true
  | _ => false

end Point

/-- The thread runs its own code: between calls, or where its innermost call consults the context. -/
def runsOwnCode : List Point → Bool
  | [] => true
  | p :: _ => p.callsOut

/-- What a step makes observable. -/
inductive GateEvent where
  | silent
  | admitted
  | refused (error : Error)
  | drained (result : Except Error Unit)
  | closeBegun
  | dropped
  | moved
  | panicked

/-- What the threads share; `guards` is kept for the statements. -/
structure Gate (τ : Type*) where
  state : AdmissionState τ
  guards : List (Guard τ)

section Acts

variable {τ : Type*} [DecidableEq τ]

def Gate.release (s : Gate τ) (g : Guard τ) : Gate τ :=
  ⟨{ s.state with busy := false, owner := none }, s.guards.erase g⟩

/-- The section that claims a free gate, once the entry is unregistered. -/
def Gate.claim (s : Gate τ) (t : τ) (state : AdmissionState τ) : Gate τ :=
  ⟨{ state with busy := true, owner := some t }, ⟨t, none⟩ :: s.guards⟩

/-- A section that changes only the state under the mutex. -/
def Gate.set (s : Gate τ) (state : AdmissionState τ) : Gate τ := { s with state := state }

/-- The guard passes from the keeper `k` to the keeper `k'`. -/
def Gate.pass (s : Gate τ) (owner : τ) (k k' : Option τ) : Gate τ :=
  { s with guards := ⟨owner, k'⟩ :: s.guards.erase ⟨owner, k⟩ }

/-- The steps of `admit`. -/
inductive AdmitAct (t : τ) : Gate τ → List Point → GateEvent → Gate τ → List Point → Prop
  | call {s : Gate τ} {k : List Point} : runsOwnCode k = true →
      AdmitAct t s k .silent s (.admitEntry :: k)
  | reentered {s : Gate τ} {k : List Point} : s.state.reentrant t = true →
      AdmitAct t s (.admitEntry :: k) (.refused InputFault.submissionFailed.toError) s k
  | closed {s : Gate τ} {k : List Point} : s.state.reentrant t = false →
      s.state.lifecycle ≠ .opened →
      AdmitAct t s (.admitEntry :: k) (.refused InputFault.controllerClosed.toError) s k
  | register {s : Gate τ} {k : List Point} : s.state.reentrant t = false →
      s.state.lifecycle = .opened →
      AdmitAct t s (.admitEntry :: k) .silent
        (s.set { s.state with
          entering := s.state.entering ++ [t]
          pendingAdmissions := s.state.pendingAdmissions + 1 }) (.admitContext :: k)
  | contextRefused {s : Gate τ} {k : List Point} (seen : Option Interruption) {i : Interruption} :
      Operation.admitContext seen = .error i →
      AdmitAct t s (.admitContext :: k) .silent s (.admitFailing i.toError :: k)
  | contextAdmitted {s : Gate τ} {k : List Point} (seen : Option Interruption) {op : Operation} :
      Operation.admitContext seen = .ok op →
      AdmitAct t s (.admitContext :: k) .silent s (.admitLoop op :: k)
  | loopClosed {s : Gate τ} {k : List Point} {op : Operation} : s.state.lifecycle ≠ .opened →
      AdmitAct t s (.admitLoop op :: k) .silent s
        (.admitFailing InputFault.controllerClosed.toError :: k)
  | claim {s : Gate τ} {k : List Point} {op : Operation} {state : AdmissionState τ} :
      s.state.lifecycle = .opened → s.state.busy = false → s.state.unregister t true = some state →
      AdmitAct t s (.admitLoop op :: k) .silent (s.claim t state) (.admitCommit op :: k)
  | claimPanics {s : Gate τ} {k : List Point} {op : Operation} :
      s.state.lifecycle = .opened → s.state.busy = false → s.state.unregister t true = none →
      AdmitAct t s (.admitLoop op :: k) .panicked s k
  | waits {s : Gate τ} {k : List Point} {op : Operation} :
      s.state.lifecycle = .opened → s.state.busy = true →
      AdmitAct t s (.admitLoop op :: k) .silent
        (s.set { s.state with waiters := s.state.waiters + 1 }) (.admitWaiting op :: k)
  | wakes {s : Gate τ} {k : List Point} {op : Operation} :
      AdmitAct t s (.admitWaiting op :: k) .silent
        (s.set { s.state with waiters := s.state.waiters - 1 }) (.admitWoken op :: k)
  | expires {s : Gate τ} {k : List Point} {op op' : Operation} (seen : Option Interruption)
      {i : Interruption} : op.checkpoint seen = (.error i, op') →
      AdmitAct t s (.admitWoken op :: k) .silent s (.admitFailing i.toError :: k)
  | retries {s : Gate τ} {k : List Point} {op op' : Operation} (seen : Option Interruption) :
      op.checkpoint seen = (.ok (), op') →
      AdmitAct t s (.admitWoken op :: k) .silent s (.admitLoop op' :: k)
  | commits {s : Gate τ} {k : List Point} {op : Operation} (seen : Option Interruption) :
      op.commit seen () = .ok () →
      AdmitAct t s (.admitCommit op :: k) .admitted (s.pass t none (some t)) k
  | interrupted {s : Gate τ} {k : List Point} {op : Operation} (seen : Option Interruption)
      {i : Interruption} : op.commit seen () = .error i →
      AdmitAct t s (.admitCommit op :: k) .silent s (.admitReleasing i :: k)
  | releases {s : Gate τ} {k : List Point} {i : Interruption} :
      AdmitAct t s (.admitReleasing i :: k) (.refused i.toError) (s.release ⟨t, none⟩) k
  | fails {s : Gate τ} {k : List Point} {error : Error} {state : AdmissionState τ} :
      s.state.unregister t true = some state →
      AdmitAct t s (.admitFailing error :: k) (.refused error) (s.set state) k
  | failPanics {s : Gate τ} {k : List Point} {error : Error} :
      s.state.unregister t true = none →
      AdmitAct t s (.admitFailing error :: k) .panicked s k

inductive DrainAct (t : τ) : Gate τ → List Point → GateEvent → Gate τ → List Point → Prop
  | beginClose {s : Gate τ} {k : List Point} : runsOwnCode k = true →
      DrainAct t s k .closeBegun
        (s.set { s.state with lifecycle := s.state.lifecycle.beginClose }) k
  | call {s : Gate τ} {k : List Point} : runsOwnCode k = true →
      DrainAct t s k .silent s (.drainEntry :: k)
  | reentered {s : Gate τ} {k : List Point} : s.state.reentrant t = true →
      DrainAct t s (.drainEntry :: k) (.drained (.error InputFault.submissionFailed.toError)) s k
  | register {s : Gate τ} {k : List Point} : s.state.reentrant t = false →
      DrainAct t s (.drainEntry :: k) .silent
        (s.set { s.state with entering := s.state.entering ++ [t] }) (.drainClose :: k)
  | close {s : Gate τ} {k : List Point} :
      DrainAct t s (.drainClose :: k) .silent
        (s.set { s.state with lifecycle := s.state.lifecycle.beginClose }) (.drainContext :: k)
  | contextRefused {s : Gate τ} {k : List Point} (seen : Option Interruption) {i : Interruption} :
      Operation.admitContext seen = .error i →
      DrainAct t s (.drainContext :: k) .silent s (.drainReturning (.error i.toError) :: k)
  | contextAdmitted {s : Gate τ} {k : List Point} (seen : Option Interruption) {op : Operation} :
      Operation.admitContext seen = .ok op →
      DrainAct t s (.drainContext :: k) .silent s (.drainLoop op :: k)
  | seesClosed {s : Gate τ} {k : List Point} {op : Operation} : s.state.lifecycle = .closed →
      DrainAct t s (.drainLoop op :: k) .silent s (.drainDone op :: k)
  | seesIdle {s : Gate τ} {k : List Point} {op : Operation} : s.state.lifecycle ≠ .closed →
      s.state.busy = false → s.state.waiters = 0 → s.state.pendingAdmissions = 0 →
      DrainAct t s (.drainLoop op :: k) .silent s (.drainCommit op :: k)
  | waits {s : Gate τ} {k : List Point} {op : Operation} : s.state.lifecycle ≠ .closed →
      ¬ (s.state.busy = false ∧ s.state.waiters = 0 ∧ s.state.pendingAdmissions = 0) →
      DrainAct t s (.drainLoop op :: k) .silent s (.drainWaiting op :: k)
  | done {s : Gate τ} {k : List Point} {op : Operation} (seen : Option Interruption) :
      DrainAct t s (.drainDone op :: k) .silent s
        (.drainReturning ((op.commit seen ()).mapError Interruption.toError) :: k)
  | interrupted {s : Gate τ} {k : List Point} {op : Operation} (seen : Option Interruption)
      {i : Interruption} : op.commit seen () = .error i →
      DrainAct t s (.drainCommit op :: k) .silent s (.drainReturning (.error i.toError) :: k)
  | commits {s : Gate τ} {k : List Point} {op : Operation} (seen : Option Interruption) :
      op.commit seen () = .ok () →
      DrainAct t s (.drainCommit op :: k) .silent s (.drainFinal :: k)
  | final {s : Gate τ} {k : List Point} :
      DrainAct t s (.drainFinal :: k) .silent (s.set { s.state with lifecycle := .closed })
        (.drainReturning (.ok ()) :: k)
  | wakes {s : Gate τ} {k : List Point} {op : Operation} :
      DrainAct t s (.drainWaiting op :: k) .silent s (.drainWoken op :: k)
  | expires {s : Gate τ} {k : List Point} {op op' : Operation} (seen : Option Interruption)
      {i : Interruption} : op.checkpoint seen = (.error i, op') →
      DrainAct t s (.drainWoken op :: k) .silent s (.drainReturning (.error i.toError) :: k)
  | retries {s : Gate τ} {k : List Point} {op op' : Operation} (seen : Option Interruption) :
      op.checkpoint seen = (.ok (), op') →
      DrainAct t s (.drainWoken op :: k) .silent s (.drainLoop op' :: k)
  | returns {s : Gate τ} {k : List Point} {result : Except Error Unit} {state : AdmissionState τ} :
      s.state.unregister t false = some state →
      DrainAct t s (.drainReturning result :: k) (.drained result) (s.set state) k
  | returnPanics {s : Gate τ} {k : List Point} {result : Except Error Unit} :
      s.state.unregister t false = none →
      DrainAct t s (.drainReturning result :: k) .panicked s k

inductive GuardAct (t : τ) : Gate τ → List Point → GateEvent → Gate τ → List Point → Prop
  | drop {s : Gate τ} {k : List Point} {owner : τ} : runsOwnCode k = true →
      ⟨owner, some t⟩ ∈ s.guards → GuardAct t s k .dropped (s.release ⟨owner, some t⟩) k
  | move {s : Gate τ} {k : List Point} (owner u : τ) : runsOwnCode k = true →
      ⟨owner, some t⟩ ∈ s.guards → GuardAct t s k .moved (s.pass owner (some t) (some u)) k

/-- One step of the thread `t`. -/
inductive GateAct (t : τ) (s : Gate τ) (k : List Point) (e : GateEvent) (s' : Gate τ)
    (k' : List Point) : Prop
  | admission (h : AdmitAct t s k e s' k')
  | drain (h : DrainAct t s k e s' k')
  | guard (h : GuardAct t s k e s' k')

end Acts

abbrev GateWorld (τ : Type*) := World τ (Gate τ) (List Point)

def GateWorld.start (τ : Type*) : GateWorld τ := ⟨⟨.new, []⟩, fun _ => []⟩

abbrev gateSystem (τ : Type*) [DecidableEq τ] : System (GateWorld τ) (τ × GateEvent) :=
  threads GateAct (GateWorld.start τ)

end MadoPilot.Input
