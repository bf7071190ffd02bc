import Mathlib.Algebra.BigOperators.Group.Finset.Basic
import Mathlib.Algebra.BigOperators.Group.List.Basic
import Mathlib.Algebra.Order.BigOperators.Group.Multiset
import Mathlib.Tactic.Abel

/-!
# Accounts that leases draw on

Accounts count what is used of them, up to a limit.  A lease draws an amount on one account and gives it
back when it ends; `owed` is what the leases that are out have drawn.

* `Move` : a lease begins, ends, or changes hands;
* `Balanced.move` : the accounts count what is owed, and stay within their limits;
* `sum_owed` : what is owed on all accounts of a family;
* `sum_map_set_add`, `sum_map_eraseIdx_add` : a sum over a table whose entries are rewritten or removed.
-/

namespace MadoPilot.Lib.Leases

/-! ### Sums over tables -/

section Tables

variable {α M : Type*} [AddCommMonoid M] (f : α → M)

theorem sum_map_set_add {l : List α} {i : ℕ} {a : α} (h : l[i]? = some a) (b : α) :
    ((l.set i b).map f).sum + f a = (l.map f).sum + f b := by
  induction l generalizing i with
  | nil => simp at h
  | cons c l ih =>
    cases i with
    | zero =>
      obtain rfl : c = a := by simpa using h
      simp only [List.set_cons_zero, List.map_cons, List.sum_cons]
      abel
    | succ i =>
      have hl := ih (by simpa using h)
      simp only [List.set_cons_succ, List.map_cons, List.sum_cons]
      rw [add_assoc, hl, add_assoc]

theorem sum_map_eraseIdx_add {l : List α} {i : ℕ} {a : α} (h : l[i]? = some a) :
    ((l.eraseIdx i).map f).sum + f a = (l.map f).sum := by
  induction l generalizing i with
  | nil => simp at h
  | cons c l ih =>
    cases i with
    | zero =>
      obtain rfl : c = a := by simpa using h
      simp only [List.eraseIdx_cons_zero, List.map_cons, List.sum_cons]
      abel
    | succ i =>
      have hl := ih (by simpa using h)
      simp only [List.eraseIdx_cons_succ, List.map_cons, List.sum_cons]
      rw [add_assoc, hl]

theorem sum_map_concat (l : List α) (a : α) : ((l ++ [a]).map f).sum = (l.map f).sum + f a := by
  rw [List.map_append, List.sum_append, List.map_singleton, List.sum_singleton]

end Tables

/-! ### Accounts -/

variable {κ : Type*} [DecidableEq κ]

def owed (leases : Multiset (κ × ℕ)) (k : κ) : ℕ := ((leases.filter (·.1 = k)).map (·.2)).sum

theorem owed_add (leases leases' : Multiset (κ × ℕ)) (k : κ) :
    owed (leases + leases') k = owed leases k + owed leases' k := by
  unfold owed
  rw [Multiset.filter_add, Multiset.map_add, Multiset.sum_add]

theorem owed_singleton (k k' : κ) (n : ℕ) : owed {(k', n)} k = if k' = k then n else 0 := by
  unfold owed
  rw [Multiset.filter_singleton]
  split <;> simp

inductive Move (limit used : κ → ℕ) (leases : Multiset (κ × ℕ)) :
    (κ → ℕ) → Multiset (κ × ℕ) → Prop
  | stay {leases' : Multiset (κ × ℕ)} : leases' = leases → Move limit used leases used leases'
  | reserve {leases' : Multiset (κ × ℕ)} (k : κ) (n : ℕ) :
      used k + n ≤ limit k → leases' = {(k, n)} + leases →
      Move limit used leases (Function.update used k (used k + n)) leases'
  | release {leases' : Multiset (κ × ℕ)} (k : κ) (n : ℕ) :
      leases = {(k, n)} + leases' →
      Move limit used leases (Function.update used k (used k - n)) leases'

structure Balanced (limit used : κ → ℕ) (leases : Multiset (κ × ℕ)) : Prop where
  counts : ∀ k, used k = owed leases k
  le : ∀ k, used k ≤ limit k

section Balanced

variable {limit used used' : κ → ℕ} {leases leases' : Multiset (κ × ℕ)} {k : κ} {n : ℕ}

theorem Balanced.drawn (h : Balanced limit used leases) (hl : leases = {(k, n)} + leases') :
    n ≤ used k := by
  rw [h.counts, hl, owed_add, owed_singleton, if_pos rfl]
  exact Nat.le_add_right _ _

theorem Balanced.move (h : Balanced limit used leases) (hm : Move limit used leases used' leases') :
    Balanced limit used' leases' := by
  cases hm with
  | stay heq =>
    subst heq
    exact h
  | reserve k n hle heq =>
    refine ⟨fun k' => ?_, fun k' => ?_⟩
    · rw [heq, owed_add, owed_singleton, ← h.counts k']
      by_cases hk : k' = k
      · subst hk
        rw [Function.update_self, if_pos rfl, Nat.add_comm]
      · rw [Function.update_of_ne hk, if_neg (Ne.symm hk), Nat.zero_add]
    · by_cases hk : k' = k
      · subst hk
        rw [Function.update_self]
        exact hle
      · rw [Function.update_of_ne hk]
        exact h.le k'
  | release k n heq =>
    have hused : ∀ k', used k' = (if k = k' then n else 0) + owed leases' k' := by
      intro k'
      rw [h.counts, heq, owed_add, owed_singleton]
    refine ⟨fun k' => ?_, fun k' => ?_⟩
    · by_cases hk : k' = k
      · subst hk
        rw [Function.update_self, hused k', if_pos rfl, Nat.add_sub_cancel_left]
      · rw [Function.update_of_ne hk, hused k', if_neg (Ne.symm hk), Nat.zero_add]
    · by_cases hk : k' = k
      · subst hk
        rw [Function.update_self]
        exact (Nat.sub_le _ _).trans (h.le k')
      · rw [Function.update_of_ne hk]
        exact h.le k'

end Balanced

/-! ### A family of accounts beside one more -/

section Family

variable {σ : Type*} [DecidableEq σ]

/-- What the leases have drawn on the accounts of the family together. -/
def owedByFamily (leases : Multiset (Option σ × ℕ)) : ℕ :=
  ((leases.filter (·.1.isSome)).map (·.2)).sum

omit [DecidableEq σ] in
theorem owedByFamily_add (leases leases' : Multiset (Option σ × ℕ)) :
    owedByFamily (leases + leases') = owedByFamily leases + owedByFamily leases' := by
  unfold owedByFamily
  rw [Multiset.filter_add, Multiset.map_add, Multiset.sum_add]

theorem sum_owed (leases : Multiset (Option σ × ℕ)) (S : Finset σ)
    (h : ∀ s ∉ S, owed leases (some s) = 0) :
    ∑ s ∈ S, owed leases (some s) = owedByFamily leases := by
  -- the accounts outside have nothing drawn on them, so more of them can be added
  obtain ⟨T, hST, hT⟩ : ∃ T : Finset σ, S ⊆ T ∧ ∀ x ∈ leases, ∀ s, x.1 = some s → s ∈ T := by
    refine ⟨S ∪ (leases.filterMap (·.1)).toFinset, Finset.subset_union_left, fun x hx s hs => ?_⟩
    refine Finset.mem_union_right _ (Multiset.mem_toFinset.mpr ?_)
    exact (Multiset.mem_filterMap _ _).mpr ⟨x, hx, hs⟩
  rw [Finset.sum_subset hST fun s _ hs => h s hs]
  clear h hST
  induction leases using Multiset.induction with
  | empty => exact Finset.sum_eq_zero fun _ _ => rfl
  | cons x leases ih =>
    obtain ⟨k, n⟩ := x
    have hrest := ih fun y hy => hT y (Multiset.mem_cons_of_mem hy)
    rw [← Multiset.singleton_add, owedByFamily_add, ← hrest]
    simp only [owed_add, owed_singleton]
    rw [Finset.sum_add_distrib]
    congr 1
    cases k with
    | none => exact Finset.sum_eq_zero fun s _ => if_neg nofun
    | some s =>
      have hs := hT (some s, n) (Multiset.mem_cons_self _ _) s rfl
      rw [Finset.sum_eq_single s]
      · rw [if_pos rfl]
        simp [owedByFamily, Multiset.filter_singleton]
      · intro s' _ hne
        exact if_neg fun heq => hne (Option.some.inj heq).symm
      · exact fun hns => absurd hs hns

end Family

end MadoPilot.Lib.Leases
