import Mathlib.Data.List.Basic

/-!
# Counting the entries of a table

A counter kept beside a table is right when it is the number of entries with a property.  The table
grows at its end and its entries are rewritten in place; the rules say what either does to the count,
as sums, so that `omega` can use them.
-/

namespace MadoPilot.Lib

variable {α : Type*} {l : List α} {i : ℕ} {a b : α} {p q : α → Bool}

/-- **Rewriting an entry** moves the count by what the entry counted before and counts now. -/
theorem countP_set_add (p : α → Bool) (h : l[i]? = some a) :
    (l.set i b).countP p + (p a).toNat = l.countP p + (p b).toNat := by
  induction l generalizing i with
  | nil => simp at h
  | cons c l ih =>
    cases i with
    | zero =>
      obtain rfl : c = a := by simpa using h
      simp only [List.set_cons_zero, List.countP_cons]
      cases p c <;> cases p b <;> simp
    | succ i =>
      have hl : (l.set i b).countP p + (p a).toNat = l.countP p + (p b).toNat := ih (by simpa using h)
      simp only [List.set_cons_succ, List.countP_cons]
      omega

theorem countP_eraseIdx_add (p : α → Bool) (h : l[i]? = some a) :
    (l.eraseIdx i).countP p + (p a).toNat = l.countP p := by
  induction l generalizing i with
  | nil => simp at h
  | cons c l ih =>
    cases i with
    | zero =>
      obtain rfl : c = a := by simpa using h
      rw [List.eraseIdx_cons_zero, List.countP_cons]
      cases p c <;> rfl
    | succ i =>
      have hl := ih (by simpa using h)
      rw [List.eraseIdx_cons_succ, List.countP_cons, List.countP_cons]
      omega

theorem countP_concat (p : α → Bool) (l : List α) (a : α) :
    (l ++ [a]).countP p = l.countP p + (p a).toNat := by
  rw [List.countP_append, List.countP_singleton]
  cases p a <;> rfl

theorem toNat_le_countP (p : α → Bool) (h : l[i]? = some a) : (p a).toNat ≤ l.countP p := by
  cases hp : p a with
  | false => exact Nat.zero_le _
  | true =>
    have hm : a ∈ l := List.mem_of_getElem? h
    exact List.countP_pos_iff.mpr ⟨a, hm, hp⟩

theorem of_getElem?_set {j : ℕ} {c : α} (h : (l.set i b)[j]? = some c) :
    j = i ∧ c = b ∨ j ≠ i ∧ l[j]? = some c := by
  rw [List.getElem?_set] at h
  split_ifs at h with hj hlt
  · exact Or.inl ⟨hj.symm, (Option.some.inj h).symm⟩
  · exact Or.inr ⟨fun e => hj e.symm, h⟩

theorem mem_eraseIdx_of_mem_set (h : b ∈ l.set i a) : b = a ∨ b ∈ l.eraseIdx i := by
  induction l generalizing i with
  | nil => simp at h
  | cons c l ih =>
    cases i with
    | zero =>
      rw [List.set_cons_zero, List.mem_cons] at h
      exact h
    | succ i =>
      rw [List.set_cons_succ, List.mem_cons] at h
      rw [List.eraseIdx_cons_succ, List.mem_cons]
      rcases h with rfl | h
      · exact Or.inr (Or.inl rfl)
      · rcases ih h with hb | hb
        · exact Or.inl hb
        · exact Or.inr (Or.inr hb)

theorem set_self (h : l[i]? = some a) : l.set i a = l := by
  obtain ⟨hi, rfl⟩ := List.getElem?_eq_some_iff.mp h
  exact List.set_getElem_self hi

theorem of_getElem?_concat {j : ℕ} {c : α} (h : (l ++ [a])[j]? = some c) :
    j = l.length ∧ c = a ∨ l[j]? = some c := by
  rcases Nat.lt_trichotomy j l.length with hj | hj | hj
  · rw [List.getElem?_append_left hj] at h
    exact Or.inr h
  · subst hj
    rw [List.getElem?_concat_length] at h
    exact Or.inl ⟨rfl, (Option.some.inj h).symm⟩
  · rw [List.getElem?_eq_none (by simp; omega)] at h
    cases h

end MadoPilot.Lib
