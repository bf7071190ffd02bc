import Mathlib.Data.List.Perm.Basic

/-!
# Removal by swapping with the last element

The constant-time removal of a growable array: the last element takes the place of the removed one.
The order changes, the elements that stay do not.
-/

namespace MadoPilot.Lib

variable {α : Type*}

/-- The list without its element at `i`, whose place the last element takes. -/
def swapRemove (l : List α) (i : ℕ) : List α :=
  match l.getLast? with
  | none => []
  | some x => (l.set i x).dropLast

theorem swapRemove_perm {l : List α} {i : ℕ} (h : i < l.length) :
    (swapRemove l i).Perm (l.eraseIdx i) := by
  obtain ⟨l, x, rfl⟩ : ∃ l' x, l = l' ++ [x] :=
    ⟨l.dropLast, l.getLast (by rintro rfl; simp at h), (List.dropLast_append_getLast _).symm⟩
  have hlast : (l ++ [x]).getLast? = some x := by simp
  rw [List.length_append, List.length_singleton] at h
  simp only [swapRemove, hlast]
  by_cases hi : i < l.length
  · rw [List.set_append_left _ _ hi, List.dropLast_concat, List.eraseIdx_append_of_lt_length hi]
    exact (List.set_perm_cons_eraseIdx hi x).trans (List.perm_append_singleton x _).symm
  · -- the removed element is the last one
    obtain rfl : i = l.length := by omega
    simp [List.eraseIdx_append_of_length_le]

theorem swapRemove_idxOf [DecidableEq α] {l : List α} {a : α} {i : ℕ} (h : l.idxOf? a = some i) :
    (swapRemove l i).Perm (l.erase a) := by
  obtain ⟨hlt, -⟩ := List.findIdx?_eq_some_iff_getElem.mp h
  rw [List.erase_eq_eraseIdx, h]
  exact swapRemove_perm hlt

end MadoPilot.Lib
