import Mathlib.Algebra.Group.Nat.Defs
import MadoPilot.Lib.Counter

/-!
# Statuses, errors and operations

The public outcome statuses, the error that carries one, the two ways an operation is interrupted
and the object that arbitrates its single terminal outcome.  The caller supplies the clock and the
cancellation token, so what a consultation of the context answers is an argument here: `none` for
"go on", `some i` for the interruption that applies.
-/

namespace MadoPilot.Core

open MadoPilot.Lib

/-- The largest `u64`. -/
def u64Max : ℕ := 2 ^ 64 - 1

inductive Status where
  | invalidArgument | unsupported | cancelled | deadlineExceeded | closed | targetLost
  | limitExceeded | captureFailed | assetInvalid | visionFailed | inputFailed | internal
  deriving DecidableEq, Repr

structure Error where
  status : Status
  detail : String
  deriving DecidableEq, Repr

inductive Lifecycle where
  | opened | closing | closed
  deriving DecidableEq, Repr

namespace Lifecycle

/-- The position in the order `Open`, `Closing`, `Closed`. -/
def rank : Lifecycle → ℕ
  | opened => 0
  | closing => 1
  | closed => 2

theorem rank_le_two (l : Lifecycle) : l.rank ≤ 2 := by cases l <;> decide

theorem eq_closed_of_rank {l : Lifecycle} (h : 2 ≤ l.rank) : l = .closed := by
  cases l <;> simp_all [rank]

theorem ne_opened_iff_rank {l : Lifecycle} : l ≠ .opened ↔ 1 ≤ l.rank := by
  cases l <;> simp [rank]

/-- What `begin_close` does to the lifecycle: an open one starts closing, the others stay. -/
def beginClose : Lifecycle → Lifecycle
  | opened => closing
  | l => l

@[simp] theorem beginClose_ne_opened (l : Lifecycle) : l.beginClose ≠ .opened := by
  cases l <;> simp [beginClose]

@[simp] theorem beginClose_eq_closed {l : Lifecycle} : l.beginClose = .closed ↔ l = .closed := by
  cases l <;> simp [beginClose]

theorem rank_le_beginClose (l : Lifecycle) : l.rank ≤ l.beginClose.rank := by
  cases l <;> decide

end Lifecycle

/-- The two ways an operation ends without producing its result. -/
inductive Interruption where
  | cancelled | deadlineExceeded
  deriving DecidableEq, Repr

namespace Interruption

def status : Interruption → Status
  | cancelled => .cancelled
  | deadlineExceeded => .deadlineExceeded

def detail : Interruption → String
  | cancelled => "operation was cancelled"
  | deadlineExceeded => "operation deadline passed"

def toError (i : Interruption) : Error := ⟨i.status, i.detail⟩

end Interruption

/-- One attempt at an operation: the interruption it has latched, if any. -/
structure Operation where
  terminal : Option Interruption
  deriving DecidableEq, Repr

namespace Operation

def admitContext : Option Interruption → Except Interruption Operation
  | some i => .error i
  | none => .ok ⟨none⟩

/-- Checks the context between interruptible stages; the first interruption seen is latched. -/
def checkpoint (op : Operation) (seen : Option Interruption) : Except Interruption Unit × Operation :=
  match op.terminal with
  | some i => (.error i, op)
  | none =>
    match seen with
    | some i => (.error i, ⟨some i⟩)
    | none => (.ok (), op)

/-- Commits `value` as the operation's single successful outcome. -/
def commit {α : Type*} (op : Operation) (seen : Option Interruption) (value : α) :
    Except Interruption α :=
  match op.terminal with
  | some i => .error i
  | none =>
    match seen with
    | some i => .error i
    | none => .ok value

/-! ### What the answers say -/

section Answers

variable {op op' : Operation} {seen : Option Interruption} {i : Interruption} {α : Type*} {a b : α}

theorem admitContext_eq_error (h : admitContext seen = .error i) : seen = some i := by
  cases seen with
  | none => cases h
  | some j => exact congrArg some (Except.error.inj h)

theorem admitContext_eq_ok (h : admitContext seen = .ok op) : seen = none ∧ op.terminal = none := by
  cases seen with
  | some j => cases h
  | none => exact ⟨rfl, (Except.ok.inj h) ▸ rfl⟩

theorem commit_eq_ok (h : (op.commit seen a).mapError Interruption.toError = .ok b) :
    b = a ∧ seen = none := by
  unfold commit at h
  cases hterm : op.terminal with
  | some i =>
    rw [hterm] at h
    cases h
  | none =>
    rw [hterm] at h
    cases seen with
    | some i => cases h
    | none => exact ⟨(Except.ok.inj h).symm, rfl⟩

theorem seen_of_commit (hop : op.terminal = none) (h : op.commit seen a = .error i) :
    seen = some i := by
  unfold commit at h
  rw [hop] at h
  cases seen with
  | some j => exact congrArg some (Except.error.inj h)
  | none => cases h

theorem commit_eq_error {error : Error} (hop : op.terminal = none)
    (h : (op.commit seen a).mapError Interruption.toError = .error error) :
    ∃ i, seen = some i ∧ error = i.toError := by
  cases hc : op.commit seen a with
  | error i =>
    rw [hc] at h
    exact ⟨i, seen_of_commit hop hc, (Except.error.inj h).symm⟩
  | ok b =>
    rw [hc] at h
    cases h

theorem checkpoint_eq_error (hop : op.terminal = none) (h : op.checkpoint seen = (.error i, op')) :
    seen = some i := by
  unfold checkpoint at h
  rw [hop] at h
  cases seen with
  | some j => exact congrArg some (Except.error.inj (Prod.mk.inj h).1)
  | none => exact nomatch (Prod.mk.inj h).1

theorem checkpoint_eq_none (hop : op.terminal = none) (h : op.checkpoint seen = (.ok (), op')) :
    seen = none := by
  unfold checkpoint at h
  rw [hop] at h
  cases seen with
  | some j => cases (Prod.mk.inj h).1
  | none => rfl

theorem checkpoint_eq_ok (h : op.checkpoint seen = (.ok (), op')) : op' = op := by
  unfold checkpoint at h
  cases hterm : op.terminal with
  | some i =>
    rw [hterm] at h
    exact nomatch (Prod.mk.inj h).1
  | none =>
    rw [hterm] at h
    cases seen with
    | some i => exact nomatch (Prod.mk.inj h).1
    | none => exact (Prod.mk.inj h).2.symm

end Answers

end Operation

end MadoPilot.Core

/-! ### Operation contexts over a clock

The caller supplies the clock and the cancellation token of an operation context.  Both are read
through an environment `E` that every reading may move: a reading returns its answer and the
environment it leaves.  Instants and durations are nanoseconds.
-/

namespace MadoPilot.Core

open MadoPilot.Lib

/-- The largest `Duration`, in nanoseconds. -/
def durationMax : ℕ := u64Max * 10 ^ 9 + 999999999

/-- `MonotonicInstant::checked_add`. -/
def instantAdd (instant duration : ℕ) : Option ℕ := checkedAdd durationMax instant duration

/-- The clock, the cancellation token and the deadline of one operation. -/
structure Context (E : Type*) where
  cancelled : E → Bool × E
  deadline : Option ℕ
  now : E → ℕ × E

namespace Context

variable {E : Type*} (c : Context E)

def interruption (e : E) : Option Interruption × E :=
  match c.cancelled e with
  | (true, e) => (some .cancelled, e)
  | (false, e) =>
    match c.deadline with
    | none => (none, e)
    | some deadline =>
      let (now, e) := c.now e
      (if deadline ≤ now then some .deadlineExceeded else none, e)

end Context

end MadoPilot.Core
