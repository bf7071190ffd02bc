import MadoPilot.Lib.Rounding
import MadoPilot.Ocr.Candidate

/-!
# Arithmetic of doubles

The value of an `f64` operation is its exact value, rounded to the nearest multiple of the grid of its
binade, ties to the even one.

* `f64_mono`, `f64_nat` : rounding is monotone and leaves the integers below `2 ^ 53` alone;
* `scaled_le`, `le_scaled` : a factor up to one does not enlarge an integer, and one from one on does
  not diminish it.
-/

namespace MadoPilot.Onnx

open MadoPilot.Lib
open MadoPilot.Ocr (roundTiesEven)

/-- To the nearest multiple of the grid of an `f64`, ties to the even one; for values that are not
negative. -/
def f64 (x : ℚ) : ℚ :=
  let grid := 2 ^ Rounding.gridExponent 53 (-1074) x
  roundTiesEven (x / grid) * grid

/-- A result of `f64` arithmetic that has not overflowed. -/
def isFinite (x : ℚ) : Bool := decide (x < 2 ^ 1024)

def scaled (n : ℕ) (factor : ℚ) : ℚ := if factor < 0 then -f64 (n * -factor) else f64 (n * factor)

/-! ### Integers -/

theorem roundTiesEven_range {x : ℚ} {n : ℤ} (h₀ : 0 ≤ x) (h : x ≤ n) :
    0 ≤ roundTiesEven x ∧ roundTiesEven x ≤ n := by
  have hfloor : 0 ≤ x.floor := Rat.le_floor_iff.mpr (by exact_mod_cast h₀)
  have hbelow : x.floor ≤ n := by
    have hle : (x.floor : ℚ) ≤ n := (Rat.floor_le x).trans h
    exact_mod_cast hle
  have hup : ¬ x - x.floor < 1 / 2 → x.floor + 1 ≤ n := by
    intro hrest
    have hlt : (x.floor : ℚ) < n := by linarith
    have hlt' : x.floor < n := by exact_mod_cast hlt
    omega
  unfold roundTiesEven
  dsimp only
  split
  · exact ⟨hfloor, hbelow⟩
  · rename_i hrest
    have hn := hup hrest
    split
    · exact ⟨by omega, hn⟩
    · split
      · exact ⟨hfloor, hbelow⟩
      · exact ⟨by omega, hn⟩

theorem roundTiesEven_int (n : ℤ) : roundTiesEven n = n := by
  have hfloor : (n : ℚ).floor = n := Rat.floor_intCast n
  unfold roundTiesEven
  dsimp only
  rw [hfloor, sub_self, if_pos (by norm_num)]

theorem roundTiesEven_mono : ∀ x y, x ≤ y → roundTiesEven x ≤ roundTiesEven y := by
  intro x y h
  have hx := Rat.floor_le x
  have hy := Rat.lt_floor_add_one y
  push_cast at hy
  rcases lt_or_eq_of_le (Rat.floor_monotone h) with hlt | heq
  · have hup : roundTiesEven x ≤ x.floor + 1 := by
      unfold roundTiesEven
      dsimp only
      split_ifs <;> omega
    have hdown : y.floor ≤ roundTiesEven y := by
      unfold roundTiesEven
      dsimp only
      split_ifs <;> omega
    omega
  · unfold roundTiesEven
    dsimp only
    rw [heq]
    have hrest : x - y.floor ≤ y - y.floor := by linarith
    split_ifs <;> first | omega | linarith

def tiesEven : Rounding := ⟨roundTiesEven, roundTiesEven_mono, roundTiesEven_int⟩

theorem f64_mono {x y : ℚ} (hx : 0 < x) (h : x ≤ y) : f64 x ≤ f64 y :=
  @Rounding.onGrid_pos_mono tiesEven 53 (-1074) x y (by norm_num) hx h

theorem f64_nonneg {x : ℚ} (h : 0 ≤ x) : 0 ≤ f64 x :=
  @Rounding.onGrid_nonneg tiesEven 53 (-1074) x h

theorem f64_nat {n : ℕ} (h : n < 2 ^ 53) : f64 n = n := by
  have hgrid : Rounding.gridExponent 53 (-1074) ((n : ℤ) : ℚ) ≤ 0 := by
    unfold Rounding.gridExponent
    rw [Int.cast_natCast, Int.log_natCast]
    have hlog : Nat.log 2 n < 53 := Nat.log_lt_of_lt_pow' (by norm_num) h
    omega
  exact_mod_cast @Rounding.onGrid_int tiesEven 53 (-1074) n hgrid

theorem le_f64 {x : ℚ} (h : 2 ^ 53 ≤ x) : 2 ^ 53 ≤ f64 x := by
  have hpower : (2 : ℚ) ^ (53 : ℤ) ≤ f64 (2 ^ (53 : ℤ)) := by
    refine @Rounding.zpow_le_onGrid tiesEven 53 (-1074) _ 53 ?_ (le_refl _)
    unfold Rounding.gridExponent
    have hlog : Int.log 2 ((2 : ℚ) ^ (53 : ℤ)) = 53 := by
      exact_mod_cast @Int.log_zpow ℚ _ _ _ _ 2 one_lt_two 53
    rw [hlog]
    norm_num
  have hmono : f64 (2 ^ (53 : ℤ)) ≤ f64 x := f64_mono (by positivity) (by exact_mod_cast h)
  exact_mod_cast hpower.trans hmono

/-! ### Factors -/

theorem f64_mono' {x y : ℚ} (hx : 0 ≤ x) (h : x ≤ y) : f64 x ≤ f64 y := by
  rcases hx.eq_or_lt with rfl | hpos
  · have hzero : f64 0 = 0 := by exact_mod_cast f64_nat (show 0 < 2 ^ 53 by norm_num)
    rw [hzero]
    exact f64_nonneg h
  · exact f64_mono hpos h

theorem scaled_le {n : ℕ} {factor : ℚ} (hn : n < 2 ^ 53) (h : factor ≤ 1) : scaled n factor ≤ n := by
  have hn₀ : (0 : ℚ) ≤ n := Nat.cast_nonneg n
  unfold scaled
  split
  · rename_i hneg
    have hpos := f64_nonneg (mul_nonneg hn₀ (by linarith : 0 ≤ -factor))
    linarith
  · rename_i hneg
    have hfactor := not_lt.mp hneg
    have hle : (n : ℚ) * factor ≤ n := mul_le_of_le_one_right hn₀ h
    exact (f64_mono' (mul_nonneg hn₀ hfactor) hle).trans (f64_nat hn).le

theorem le_scaled {n : ℕ} {factor : ℚ} (hn : n < 2 ^ 53) (h : 1 ≤ factor) : n ≤ scaled n factor := by
  have hn₀ : (0 : ℚ) ≤ n := Nat.cast_nonneg n
  have hle : (n : ℚ) ≤ n * factor := le_mul_of_one_le_right hn₀ h
  unfold scaled
  rw [if_neg (by linarith)]
  exact (f64_nat hn).ge.trans (f64_mono' hn₀ hle)

end MadoPilot.Onnx
