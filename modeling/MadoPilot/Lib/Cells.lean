import Mathlib.Algebra.BigOperators.Group.Finset.Basic
import Mathlib.Algebra.Order.BigOperators.Group.Finset
import Mathlib.Data.Fintype.BigOperators

/-!
# Cells

A fixed set of cells, each of which holds a value or nothing.  A cell is cleared or put into, and two
cells are exchanged; nothing here says what a value is, only what it weighs and by which key it is known.

* `load_clear`, `load_put`, `load_swap` : the weight of all that is held;
* `Distinct.clear`, `Distinct.put`, `Distinct.swap` : no two cells hold values of one key.
-/

namespace MadoPilot.Lib

abbrev Cells (ι α : Type*) := ι → Option α

namespace Cells

variable {ι α κ : Type*} [DecidableEq ι]

/-- The cells without what the cell `i` holds. -/
def clear (s : Cells ι α) (i : ι) : Cells ι α := Function.update s i none

def put (s : Cells ι α) (i : ι) (a : α) : Cells ι α := Function.update s i (some a)

def swap (s : Cells ι α) (i j : ι) : Cells ι α := fun k => s (Equiv.swap i j k)

omit [DecidableEq ι] in
/-- Some cell holds `a`. -/
def Holds (s : Cells ι α) (a : α) : Prop := ∃ i, s i = some a

def load [Fintype ι] (weight : α → ℕ) (s : Cells ι α) : ℕ := ∑ i, (s i).elim 0 weight

def occupied [Fintype ι] (s : Cells ι α) : ℕ := s.load fun _ => 1

def Distinct (key : α → κ) (s : Cells ι α) : Prop :=
  ∀ i j a b, s i = some a → s j = some b → key a = key b → i = j

variable {s : Cells ι α} {i j : ι} {a b : α}

/-! ### What is held -/

theorem clear_of_none (h : s i = none) : s.clear i = s := by
  unfold clear
  rw [← h, Function.update_eq_self]

theorem Holds.of_clear (h : (s.clear i).Holds a) : s.Holds a := by
  obtain ⟨j, hj⟩ := h
  unfold clear at hj
  by_cases hji : j = i
  · subst hji
    rw [Function.update_self] at hj
    cases hj
  · rw [Function.update_of_ne hji] at hj
    exact ⟨j, hj⟩

theorem Holds.of_put (h : (s.put i a).Holds b) : b = a ∨ s.Holds b := by
  obtain ⟨j, hj⟩ := h
  unfold put at hj
  by_cases hji : j = i
  · subst hji
    rw [Function.update_self] at hj
    exact Or.inl (Option.some.inj hj).symm
  · rw [Function.update_of_ne hji] at hj
    exact Or.inr ⟨j, hj⟩

theorem holds_swap : (s.swap i j).Holds a ↔ s.Holds a := by
  constructor
  · rintro ⟨k, hk⟩
    exact ⟨_, hk⟩
  · rintro ⟨k, hk⟩
    refine ⟨Equiv.swap i j k, ?_⟩
    unfold swap
    rwa [Equiv.swap_apply_self]

theorem swap_left : s.swap i j i = s j := by
  unfold swap
  rw [Equiv.swap_apply_left]

/-! ### The load -/

section Load

variable [Fintype ι] {weight : α → ℕ}

theorem load_update (x : Option α) :
    (load weight (Function.update s i x)) + (s i).elim 0 weight = load weight s + x.elim 0 weight := by
  have hrest : ∑ k ∈ Finset.univ.erase i, (Function.update s i x k).elim 0 weight =
      ∑ k ∈ Finset.univ.erase i, (s k).elim 0 weight := by
    refine Finset.sum_congr rfl fun k hk => ?_
    rw [Function.update_of_ne (Finset.ne_of_mem_erase hk)]
  have hafter := Finset.add_sum_erase Finset.univ (fun k => (Function.update s i x k).elim 0 weight)
    (Finset.mem_univ i)
  have hbefore := Finset.add_sum_erase Finset.univ (fun k => (s k).elim 0 weight) (Finset.mem_univ i)
  simp only [Function.update_self] at hafter
  unfold load
  omega

theorem load_clear (h : s i = some a) : (s.clear i).load weight + weight a = s.load weight := by
  have hupdate : load weight (s.clear i) + (s i).elim 0 weight = load weight s + 0 := load_update none
  rw [h] at hupdate
  exact hupdate

theorem load_put (h : s i = none) : (s.put i a).load weight = s.load weight + weight a := by
  have hupdate : load weight (s.put i a) + (s i).elim 0 weight = load weight s + weight a :=
    load_update (some a)
  rw [h] at hupdate
  exact hupdate

theorem load_swap : (s.swap i j).load weight = s.load weight :=
  Equiv.sum_comp (Equiv.swap i j) fun k => (s k).elim 0 weight

theorem le_load (h : s i = some a) : weight a ≤ s.load weight := by
  have hclear : load weight (s.clear i) + weight a = s.load weight := load_clear h
  omega

omit [DecidableEq ι] in
theorem exists_of_load_pos (h : 0 < s.load weight) : ∃ i a, s i = some a := by
  by_contra hnone
  have hempty : ∀ k, s k = none := by
    intro k
    cases hk : s k with
    | none => rfl
    | some a => exact absurd ⟨k, a, hk⟩ hnone
  have hzero : s.load weight = 0 := Finset.sum_eq_zero fun k _ => by rw [hempty k]; rfl
  omega

theorem occupied_pos (h : s i = some a) : 0 < s.occupied :=
  @le_load ι α _ s i a _ (fun _ => 1) h

omit [DecidableEq ι] in
theorem occupied_le : s.occupied ≤ Fintype.card ι := by
  have hle : ∑ k, (s k).elim 0 (fun _ => 1) ≤ ∑ _ : ι, 1 := by
    refine Finset.sum_le_sum fun k _ => ?_
    cases s k <;> simp
  rwa [← Finset.card_eq_sum_ones, Finset.card_univ] at hle

end Load

/-! ### Keys -/

section Keys

variable {key : α → κ}

theorem Distinct.clear (h : s.Distinct key) : (s.clear i).Distinct key := by
  intro j k a b hj hk hkey
  unfold Cells.clear at hj hk
  by_cases hji : j = i
  · subst hji
    rw [Function.update_self] at hj
    cases hj
  · by_cases hki : k = i
    · subst hki
      rw [Function.update_self] at hk
      cases hk
    · rw [Function.update_of_ne hji] at hj
      rw [Function.update_of_ne hki] at hk
      exact h j k a b hj hk hkey

theorem Distinct.swap (h : s.Distinct key) : (s.swap i j).Distinct key := by
  intro k l a b hk hl hkey
  exact (Equiv.swap i j).injective (h _ _ a b hk hl hkey)

theorem Distinct.put (h : s.Distinct key) (hfresh : ∀ b, s.Holds b → key b ≠ key a) :
    (s.put i a).Distinct key := by
  intro j k b c hj hk hkey
  unfold Cells.put at hj hk
  by_cases hji : j = i
  · by_cases hki : k = i
    · rw [hji, hki]
    · subst hji
      rw [Function.update_self] at hj
      rw [Function.update_of_ne hki] at hk
      obtain rfl := Option.some.inj hj
      exact absurd hkey.symm (hfresh c ⟨k, hk⟩)
  · rw [Function.update_of_ne hji] at hj
    by_cases hki : k = i
    · subst hki
      rw [Function.update_self] at hk
      obtain rfl := Option.some.inj hk
      exact absurd hkey (hfresh b ⟨j, hj⟩)
    · rw [Function.update_of_ne hki] at hk
      exact h j k b c hj hk hkey

end Keys

end Cells

end MadoPilot.Lib
