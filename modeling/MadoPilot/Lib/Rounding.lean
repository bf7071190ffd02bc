import Mathlib.Algebra.Order.Field.Power
import Mathlib.Algebra.Order.Field.Rat
import Mathlib.Data.Int.Log
import Mathlib.Data.Rat.Floor
import Mathlib.Tactic.Linarith
import Mathlib.Tactic.Positivity

/-!
# Rounding to a binary format

A binary format has a number of digits and a smallest exponent.  A number is rounded to the grid of
its binade, in whichever way multiples of the grid are chosen, as long as the choice is monotone and
leaves integers alone.

* `onGrid_pos_mono` : rounding is monotone, also from one binade to the next;
* `onGrid_nonneg`, `onGrid_int` : it keeps the sign, and integers that are on the grid.
-/

namespace MadoPilot.Lib

/-- A monotone choice of integers that leaves integers alone. -/
structure Rounding where
  toInt : ℚ → ℤ
  mono : ∀ x y, x ≤ y → toInt x ≤ toInt y
  toInt_int : ∀ n : ℤ, toInt n = n

namespace Rounding

variable (r : Rounding) (digits : ℕ) (low : ℤ)

def gridExponent (x : ℚ) : ℤ := max (Int.log 2 x + 1 - digits) low

/-- The number rounded to `digits` binary digits, with no exponent below `low`. -/
def onGrid (x : ℚ) : ℚ := r.toInt (x / 2 ^ gridExponent digits low x) * 2 ^ gridExponent digits low x

variable {r digits low} {x y : ℚ}

theorem onGrid_nonneg (h : 0 ≤ x) : 0 ≤ r.onGrid digits low x := by
  have hgrid : (0 : ℚ) < 2 ^ gridExponent digits low x := by positivity
  have hint : r.toInt ((0 : ℤ) : ℚ) ≤ r.toInt (x / 2 ^ gridExponent digits low x) := by
    refine r.mono _ _ ?_
    push_cast
    positivity
  rw [r.toInt_int] at hint
  have hcast : (0 : ℚ) ≤ r.toInt (x / 2 ^ gridExponent digits low x) := by exact_mod_cast hint
  unfold onGrid
  positivity

theorem onGrid_mono_of_eq (h : x ≤ y) (he : gridExponent digits low x = gridExponent digits low y) :
    r.onGrid digits low x ≤ r.onGrid digits low y := by
  have hgrid : (0 : ℚ) < 2 ^ gridExponent digits low y := by positivity
  unfold onGrid
  rw [he]
  have hint : r.toInt (x / 2 ^ gridExponent digits low y) ≤ r.toInt (y / 2 ^ gridExponent digits low y) :=
    r.mono _ _ (div_le_div_of_nonneg_right h hgrid.le)
  have hcast : (r.toInt (x / 2 ^ gridExponent digits low y) : ℚ) ≤
      r.toInt (y / 2 ^ gridExponent digits low y) := by exact_mod_cast hint
  exact mul_le_mul_of_nonneg_right hcast hgrid.le

theorem onGrid_int {n : ℤ} (he : gridExponent digits low n ≤ 0) : r.onGrid digits low n = n := by
  obtain ⟨k, hk⟩ : ∃ k : ℕ, gridExponent digits low n = -k :=
    ⟨(-gridExponent digits low (n : ℚ)).toNat, by omega⟩
  have hgrid : ((2 : ℚ) ^ gridExponent digits low n) ≠ 0 := zpow_ne_zero _ two_ne_zero
  have hquot : (n : ℚ) / 2 ^ gridExponent digits low n = ((n * 2 ^ k : ℤ) : ℚ) := by
    rw [hk, zpow_neg, zpow_natCast, div_inv_eq_mul]
    push_cast
    rfl
  unfold onGrid
  rw [hquot, r.toInt_int, ← hquot, div_mul_cancel₀ _ hgrid]

theorem zpow_eq_mul {e k : ℤ} (h : e ≤ k) : ∃ n : ℕ, (2 : ℚ) ^ k = ((2 ^ n : ℤ) : ℚ) * 2 ^ e := by
  obtain ⟨n, rfl⟩ : ∃ n : ℕ, k = e + n := ⟨(k - e).toNat, by omega⟩
  refine ⟨n, ?_⟩
  rw [zpow_add₀ two_ne_zero, zpow_natCast, mul_comm]
  push_cast
  rfl

theorem onGrid_le_zpow {k : ℤ} (hk : gridExponent digits low x ≤ k) (h : x ≤ 2 ^ k) :
    r.onGrid digits low x ≤ 2 ^ k := by
  have hgrid : (0 : ℚ) < 2 ^ gridExponent digits low x := by positivity
  obtain ⟨n, hpow⟩ := zpow_eq_mul hk
  have hle : x / 2 ^ gridExponent digits low x ≤ ((2 ^ n : ℤ) : ℚ) := by
    rw [div_le_iff₀ hgrid, ← hpow]
    exact h
  have hint := r.mono _ _ hle
  rw [r.toInt_int] at hint
  have hcast : (r.toInt (x / 2 ^ gridExponent digits low x) : ℚ) ≤ ((2 ^ n : ℤ) : ℚ) := by
    exact_mod_cast hint
  unfold onGrid
  rw [hpow]
  exact mul_le_mul_of_nonneg_right hcast hgrid.le

theorem zpow_le_onGrid {k : ℤ} (hk : gridExponent digits low x ≤ k) (h : 2 ^ k ≤ x) :
    2 ^ k ≤ r.onGrid digits low x := by
  have hgrid : (0 : ℚ) < 2 ^ gridExponent digits low x := by positivity
  obtain ⟨n, hpow⟩ := zpow_eq_mul hk
  have hle : ((2 ^ n : ℤ) : ℚ) ≤ x / 2 ^ gridExponent digits low x := by
    rw [le_div_iff₀ hgrid, ← hpow]
    exact h
  have hint := r.mono _ _ hle
  rw [r.toInt_int] at hint
  have hcast : ((2 ^ n : ℤ) : ℚ) ≤ r.toInt (x / 2 ^ gridExponent digits low x) := by
    exact_mod_cast hint
  unfold onGrid
  rw [hpow]
  exact mul_le_mul_of_nonneg_right hcast hgrid.le

theorem onGrid_pos_mono (hd : 0 < digits) (hx : 0 < x) (h : x ≤ y) :
    r.onGrid digits low x ≤ r.onGrid digits low y := by
  have hlog : Int.log 2 x ≤ Int.log 2 y := Int.log_mono_right hx h
  by_cases he : gridExponent digits low x = gridExponent digits low y
  · exact onGrid_mono_of_eq h he
  · have hy : (2 : ℚ) ^ Int.log 2 y ≤ y := by
      exact_mod_cast Int.zpow_log_le_self (b := 2) one_lt_two (hx.trans_le h)
    have hlt : x < (2 : ℚ) ^ (Int.log 2 x + 1) := by
      exact_mod_cast Int.lt_zpow_succ_log_self (b := 2) one_lt_two x
    have hgrids : Int.log 2 x < Int.log 2 y ∧ gridExponent digits low x ≤ Int.log 2 y ∧
        gridExponent digits low y ≤ Int.log 2 y := by
      unfold gridExponent at he ⊢
      omega
    have hbetween : x ≤ (2 : ℚ) ^ Int.log 2 y := by
      refine hlt.le.trans ?_
      exact zpow_le_zpow_right₀ one_le_two (by omega)
    exact (onGrid_le_zpow hgrids.2.1 hbetween).trans (zpow_le_onGrid hgrids.2.2 hy)

end Rounding

end MadoPilot.Lib
