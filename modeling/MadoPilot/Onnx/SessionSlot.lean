import MadoPilot.Lib.Threads
import MadoPilot.Onnx.Fault

/-!
# The session slot

The backend keeps its one session value in a slot.  A call of `try_with` moves the value out under the
mutex and runs its body on it with the mutex free; the drop handler of `RunningSession` moves the value
back, also while its thread unwinds.  `close` takes the value out for good.  A section under the mutex
is one step.

Who has the value is told by an abstract machine, `Custody`: the slot, one caller, or nobody any more.
-/

namespace MadoPilot.Onnx

open MadoPilot.Lib

variable {τ T : Type*}

/-! ### The slot -/

inductive BackendState (T : Type*) where
  | opened (value : T)
  | running
  | closed

structure SessionSlot (T : Type*) where
  state : BackendState T
  poisoned : Bool

namespace SessionSlot

def new (value : T) : SessionSlot T := ⟨.opened value, false⟩

/-- `RunningSession::admit`, and the slot after it.  `contended` is the answer of `try_lock` that
another thread has the mutex. -/
def admission (s : SessionSlot T) (contended : Bool) : Except OnnxBackendFault T × SessionSlot T :=
  if contended then (.error .busy, s)
  else if s.poisoned then (.error .nativeFailure, { s with state := .closed })
  else
    match s.state with
    | .opened value => (.ok value, { s with state := .running })
    | .running => (.error .busy, { s with state := .running })
    | .closed => (.error .closed, { s with state := .closed })

def close (s : SessionSlot T) (contended : Bool) :
    Except OnnxBackendFault (Option T) × SessionSlot T :=
  if contended then (.error .busy, s)
  else if s.poisoned then (.error .nativeFailure, { s with state := .closed })
  else
    match s.state with
    | .opened value => (.ok (some value), { s with state := .closed })
    | .running => (.error .busy, { s with state := .running })
    | .closed => (.ok none, { s with state := .closed })

/-- The drop of a `RunningSession` that has `value`, in a thread that is `panicking` or not. -/
def drop (s : SessionSlot T) (value : T) (panicking : Bool) : SessionSlot T :=
  { s with state := if panicking then .closed else .opened value }

end SessionSlot

/-! ### Callers -/

/-- Where a caller stands: in no call of its own, in the body of `try_with` with the value, or behind
the body, before the drop of the running session. -/
inductive Pc (T : Type*) where
  | idle
  | body (value : T)
  | dropping (value : T) (panicking : Bool)

/-- The caller has the session value. -/
def Pc.holds : Pc T → Bool
  | idle => false
  | body _ | dropping .. => true

inductive Event (T : Type*) where
  | admitted (value : T)
  | refused (fault : OnnxBackendFault)
  /-- The body is over; `panicking` is what `std::thread::panicking()` tells from then on. -/
  | finished (panicking : Bool)
  | restored (value : T)
  | destroyed (value : T)
  | closed (result : Except OnnxBackendFault (Option T))

/-- The steps of a caller.  A body may leave any value behind, and calls that a body makes itself are
those of another caller. -/
inductive Act : SessionSlot T → Pc T → Event T → SessionSlot T → Pc T → Prop
  | admits {s s' : SessionSlot T} {v : T} (contended : Bool) : s.admission contended = (.ok v, s') →
      Act s .idle (.admitted v) s' (.body v)
  | refuse {s s' : SessionSlot T} {fault : OnnxBackendFault} (contended : Bool) :
      s.admission contended = (.error fault, s') → Act s .idle (.refused fault) s' .idle
  | finish {s : SessionSlot T} {v : T} (v' : T) (panicking : Bool) :
      Act s (.body v) (.finished panicking) s (.dropping v' panicking)
  | restore {s : SessionSlot T} {v : T} :
      Act s (.dropping v false) (.restored v) (s.drop v false) .idle
  | destroy {s : SessionSlot T} {v : T} :
      Act s (.dropping v true) (.destroyed v) (s.drop v true) .idle
  | close {s s' : SessionSlot T} {result : Except OnnxBackendFault (Option T)} (contended : Bool) :
      s.close contended = (result, s') → Act s .idle (.closed result) s' .idle

abbrev SlotWorld (τ T : Type*) := World τ (SessionSlot T) (Pc T)

def SlotWorld.start (τ : Type*) (value : T) : SlotWorld τ T := ⟨.new value, fun _ => .idle⟩

abbrev slotSystem (τ : Type*) [DecidableEq τ] (value : T) : System (SlotWorld τ T) (τ × Event T) :=
  threads (fun _ => Act) (SlotWorld.start τ value)

/-! ### Custody -/

/-- Who has the session value: the slot, a caller, or nobody any more. -/
inductive Custody (τ T : Type*) where
  | slot (value : T)
  | caller (t : τ)
  | gone

def Event.moves : Event T → Bool
  | admitted _ | restored _ | destroyed _ | closed (.ok (some _)) => true
  | refused _ | finished _ | closed (.ok none) | closed (.error _) => false

namespace Custody

/-- How the value changes hands: the slot gives it to one admitted caller or to one close, and a caller
gives it back or destroys it. -/
inductive Step : Custody τ T → τ × Event T → Custody τ T → Prop
  | admitted (v : T) (t : τ) : Step (slot v) (t, .admitted v) (caller t)
  | released (v : T) (t : τ) : Step (slot v) (t, .closed (.ok (some v))) gone
  | restored (v : T) (t : τ) : Step (caller t) (t, .restored v) (slot v)
  | destroyed (v : T) (t : τ) : Step (caller t) (t, .destroyed v) gone
  | keep (c : Custody τ T) {t : τ} {e : Event T} : e.moves = false → Step c (t, e) c

/-- The machine as a system that starts with the value in the slot. -/
def machine (τ : Type*) (value : T) : System (Custody τ T) (τ × Event T) :=
  ⟨fun c => c = slot value, Step⟩

theorem Step.gone {c : Custody τ T} {label : τ × Event T} (h : Step gone label c) :
    c = .gone ∧ label.2.moves = false := by
  cases h with
  | keep _ hk => exact ⟨rfl, hk⟩

end Custody

end MadoPilot.Onnx
