import Mathlib.Data.List.Count
import Mathlib.Data.Nat.Basic
import Mathlib.Logic.Function.Basic
import Mathlib.Tactic.Common

/-!
# Bounded counters

Addition on `{0, …, bound}` the three ways fixed-width code writes it: checked, saturating and
wrapping subtraction.  The rules turn each back into plain arithmetic where the bound is respected.
-/

namespace MadoPilot.Lib

def checkedAdd (bound a b : ℕ) : Option ℕ := if a + b ≤ bound then some (a + b) else none

def checkedMul (bound a b : ℕ) : Option ℕ := if a * b ≤ bound then some (a * b) else none

def saturatingAdd (bound a b : ℕ) : ℕ := min bound (a + b)

/-- The difference modulo `bound + 1`. -/
def wrappingSub (bound a b : ℕ) : ℕ := (a + (bound + 1) - b) % (bound + 1)

section

variable {bound a b c : ℕ}

theorem checkedAdd_eq_some : checkedAdd bound a b = some c ↔ c = a + b ∧ a + b ≤ bound := by
  unfold checkedAdd
  split_ifs with h
  · simp [h, eq_comm]
  · simp [h]

theorem checkedAdd_eq_none : checkedAdd bound a b = none ↔ bound < a + b := by
  unfold checkedAdd
  split_ifs with h
  · simp [h]
  · simpa using h

theorem checkedAdd_of_le (h : a + b ≤ bound) : checkedAdd bound a b = some (a + b) :=
  checkedAdd_eq_some.mpr ⟨rfl, h⟩

theorem checkedMul_eq_some : checkedMul bound a b = some c ↔ c = a * b ∧ a * b ≤ bound := by
  unfold checkedMul
  split_ifs with h
  · simp [h, eq_comm]
  · simp [h]

theorem checkedMul_of_le (h : a * b ≤ bound) : checkedMul bound a b = some (a * b) := if_pos h

theorem saturatingAdd_of_le (h : a + b ≤ bound) : saturatingAdd bound a b = a + b :=
  min_eq_right h

theorem wrappingSub_of_le (ha : a ≤ bound) (hb : b ≤ a) : wrappingSub bound a b = a - b := by
  unfold wrappingSub
  rw [show a + (bound + 1) - b = a - b + (bound + 1) by omega, Nat.add_mod_right,
    Nat.mod_eq_of_lt (by omega)]

end

end MadoPilot.Lib

/-! ### Saturating counts by kind

One counter for each kind of event, none of which passes a bound.  While no counter has reached the
bound, each event is counted.
-/

namespace MadoPilot.Lib

structure Counts (δ : Type*) (bound : ℕ) where
  get : δ → ℕ
  get_le : ∀ d, get d ≤ bound

namespace Counts

variable {δ : Type*} [DecidableEq δ] {bound : ℕ}

def zero : Counts δ bound := ⟨fun _ => 0, fun _ => Nat.zero_le _⟩

variable (c : Counts δ bound) (d e : δ) (ds : List δ)

def increment : Counts δ bound where
  get := Function.update c.get d (saturatingAdd bound (c.get d) 1)
  get_le e := by
    by_cases h : e = d
    · subst h
      rw [Function.update_self]
      exact Nat.min_le_left _ _
    · rw [Function.update_of_ne h]
      exact c.get_le e

def incrementAll : List δ → Counts δ bound
  | [] => c
  | d :: ds => (incrementAll ds).increment d

def Unsaturated : Prop := ∀ d, c.get d < bound

variable {c d e ds}

theorem increment_get :
    (c.increment d).get e = if e = d then min bound (c.get e + 1) else c.get e := by
  unfold increment saturatingAdd
  by_cases h : e = d
  · subst h
    simp
  · simp [h]

theorem incrementAll_get : (c.incrementAll ds).get e = min bound (c.get e + ds.count e) := by
  have hle := c.get_le e
  induction ds with
  | nil => simp [incrementAll, hle]
  | cons d ds ih =>
    rw [incrementAll, increment_get, ih, List.count_cons]
    by_cases h : e = d
    · subst h
      simp only [if_true, beq_self_eq_true]
      omega
    · have hne : (d == e) = false := beq_false_of_ne fun he => h he.symm
      simp [h, hne]

theorem incrementAll_append (ds es : List δ) :
    (c.incrementAll ds).incrementAll es = c.incrementAll (es ++ ds) := by
  induction es with
  | nil => rfl
  | cons e es ih =>
    rw [incrementAll, ih]
    rfl

theorem Unsaturated.get (h : (c.incrementAll ds).Unsaturated) :
    (c.incrementAll ds).get e = c.get e + ds.count e := by
  have hlt := h e
  rw [incrementAll_get] at hlt ⊢
  omega

theorem Unsaturated.before (h : (c.incrementAll ds).Unsaturated) : c.Unsaturated := by
  intro e
  have hlt := h e
  rw [h.get] at hlt
  omega

end Counts

end MadoPilot.Lib
