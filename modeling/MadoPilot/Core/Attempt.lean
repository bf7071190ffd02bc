import MadoPilot.Core.Operation
import MadoPilot.Lib.Guarded

/-!
# Attempts that ask their context

Straight-line code under an operation: each look at the context is a question of a guarded
computation, and the operation latches the first interruption it sees.
-/

namespace MadoPilot.Core

open MadoPilot.Lib

/-- A computation under an operation context. -/
abbrev Attempted (ε α : Type) := Guarded Interruption ε α

namespace Operation

variable {ε α : Type}

/-- `admit(context)?`. -/
def admitted (error : Interruption → ε) : Attempted ε Operation :=
  .ask fun seen => .done ((admitContext seen).mapError error)

/-- `checkpoint()?`: an operation that has latched an interruption does not ask again.  What goes on
has latched nothing. -/
def check (op : Operation) (error : Interruption → ε) : Attempted ε PUnit :=
  match op.terminal with
  | some i => .fail (error i)
  | none => .check error

def committed (op : Operation) (error : Interruption → ε) (value : α) : Attempted ε α :=
  match op.terminal with
  | some i => .fail (error i)
  | none => .ask fun seen => .done ((op.commit seen value).mapError error)

section Quiet

variable {op : Operation} {error : Interruption → ε} {reports : ε → Prop} {value : α}

@[simp] theorem admitted_quiet : (admitted error).quiet = .ok ⟨none⟩ := rfl

theorem admitted_gives (h : (admitted error).Gives op) : op = ⟨none⟩ := by
  obtain ⟨answers, hrun⟩ := h
  change (admitContext (answers 0)).mapError error = .ok op at hrun
  cases hseen : answers 0 with
  | some i =>
    rw [hseen] at hrun
    cases hrun
  | none =>
    rw [hseen] at hrun
    exact (Except.ok.inj hrun).symm

theorem check_eq (h : op.terminal = none) : op.check error = .check error := by
  unfold check
  rw [h]

theorem committed_quiet (h : op.terminal = none) : (op.committed error value).quiet = .ok value := by
  unfold committed
  rw [h]
  show (op.commit none value).mapError error = .ok value
  unfold commit
  rw [h]
  rfl

theorem admitted_obeys (h : ∀ i, reports (error i)) : (admitted error).Obeys reports :=
  .ask (fun i => .done (h i)) (.done _)

theorem check_obeys (h : ∀ i, reports (error i)) : (op.check error).Obeys reports := by
  unfold check
  split
  · exact .fail _
  · exact .check h

theorem check_ends (h : ∀ i, reports (error i)) : (op.check error).Ends reports fun _ => True := by
  unfold check
  split
  · exact .error (h _)
  · refine .ask fun answer => ?_
    cases answer with
    | none => exact .ok trivial
    | some i => exact .error (h i)

theorem committed_obeys (h : ∀ i, reports (error i)) : (op.committed error value).Obeys reports := by
  unfold committed
  split
  · exact .fail _
  · rename_i hterm
    refine .ask (fun i => ?_) (.done _)
    unfold commit
    rw [hterm]
    exact .done (h i)

end Quiet

end Operation

end MadoPilot.Core
