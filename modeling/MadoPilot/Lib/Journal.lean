import Mathlib.Data.List.Chain
import Mathlib.Order.Basic

/-!
# Journals

A journal is the list of what a component has issued, newest first.  What each new record keeps with
the record before it is a chain; these rules turn a chain into statements about any two records, and
sum a quantity over the neighbouring pairs.
-/

namespace MadoPilot.Lib

variable {α κ ν : Type*}

theorem chain_pairwise {R : α → α → Prop} (htrans : ∀ a b c, R a b → R b c → R a c) {j : List α}
    (h : j.IsChain R) : j.Pairwise R :=
  haveI : IsTrans α R := ⟨htrans⟩
  List.isChain_iff_pairwise.1 h

/-- **A key that only grows, and that a change of the value moves, determines the value.**  When no
record has a smaller key than the one before it, and neighbours with one key have one value, any two
records with one key have one value. -/
theorem chain_determines [PartialOrder κ] (key : α → κ) (value : α → ν) {j : List α}
    (h : j.IsChain fun b a => key a ≤ key b ∧ (key a = key b → value a = value b)) :
    ∀ a ∈ j, ∀ b ∈ j, key a = key b → value a = value b := by
  have hpair : j.Pairwise fun b a => key a = key b → value a = value b := by
    refine (chain_pairwise (fun c b a hcb hba => ?_) h).imp fun hab => hab.2
    obtain ⟨hbc, vbc⟩ := hcb
    obtain ⟨hab, vab⟩ := hba
    refine ⟨hab.trans hbc, fun heq => ?_⟩
    -- the middle key is squeezed between the two equal ones
    have hb : key b = key c := le_antisymm hbc (heq ▸ hab)
    exact (vab (heq.trans hb.symm)).trans (vbc hb)
  have : Std.Symm fun b a => key a = key b → value a = value b :=
    ⟨fun _ _ hab heq => (hab heq.symm).symm⟩
  intro a ha b hb heq
  exact hpair.forall_of_forall (fun _ _ _ => rfl) hb ha heq

/-- What the newest of a journal's records adds over the one before it. -/
def stepCost (cost : α → α → ℕ) (b : α) : List α → ℕ
  | [] => 0
  | a :: _ => cost b a

/-- The sum of `cost` over the neighbouring pairs of a journal. -/
def totalCost (cost : α → α → ℕ) : List α → ℕ
  | [] => 0
  | b :: j => stepCost cost b j + totalCost cost j

end MadoPilot.Lib
