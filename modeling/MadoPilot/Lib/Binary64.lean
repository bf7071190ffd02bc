import Mathlib.Algebra.Field.Rat
import Mathlib.Algebra.Ring.Nat
import Mathlib.Data.Int.Order.Basic
import Mathlib.Tactic.Common

/-!
# The order of the binary64 numbers

A binary64 number is known here by its sign and the other bits of its word.  These bits count the
finite numbers of one sign upwards from zero, so every comparison is one of integers: the numerical
one, for which the two zeros are one number and a NaN is unordered, and the total one, for which all
words differ.

* `lt_iff`, `le_iff` : the numerical comparisons, between numbers that are not NaN;
* `totalKey_injective` : the total order tells all words apart.
-/

namespace MadoPilot.Lib

structure Binary64 where
  negative : Bool
  magnitude : Fin (2 ^ 63)
  deriving DecidableEq

namespace Binary64

/-- The word of the infinities without its sign; what is above it is not a number. -/
def infinity : ℕ := 0x7FF0000000000000

def isNan (x : Binary64) : Bool := infinity < x.magnitude

def isFinite (x : Binary64) : Bool := x.magnitude < infinity

def key (x : Binary64) : ℤ := if x.negative then -(x.magnitude : ℤ) else x.magnitude

def totalKey (x : Binary64) : ℤ := if x.negative then -(x.magnitude : ℤ) - 1 else x.magnitude

def lt (x y : Binary64) : Bool := !x.isNan && !y.isNan && decide (x.key < y.key)

def le (x y : Binary64) : Bool := !x.isNan && !y.isNan && decide (x.key ≤ y.key)

def totalCmp (x y : Binary64) : Ordering := compare x.totalKey y.totalKey

theorem sign_pos : 0 < 2 ^ 63 := by decide

def ofBits (bits : ℕ) : Binary64 :=
  ⟨decide (bits / 2 ^ 63 % 2 = 1), ⟨bits % 2 ^ 63, Nat.mod_lt _ sign_pos⟩⟩

def toRat (x : Binary64) : ℚ :=
  let exponent : ℕ := x.magnitude.val / 2 ^ 52
  let fraction : ℕ := x.magnitude.val % 2 ^ 52
  let significand : ℕ := if exponent = 0 then fraction else 2 ^ 52 + fraction
  let size := (significand : ℚ) * 2 ^ max exponent 1 / 2 ^ 1075
  if x.negative then -size else size

def zero : Binary64 := ⟨false, 0⟩

def one : Binary64 := ⟨false, 0x3FF0000000000000⟩

def nan : Binary64 := ⟨false, 0x7FF8000000000000⟩

def negInfinity : Binary64 := ⟨true, 0x7FF0000000000000⟩

/-- `clamp`, between bounds that are numbers. -/
def clamp (low high x : Binary64) : Binary64 :=
  let x := if x.lt low then low else x
  if high.lt x then high else x

variable {x y : Binary64}

/-! ### The numerical order -/

theorem isNan_eq_false (h : x.isFinite = true) : x.isNan = false := by
  unfold isFinite at h
  unfold isNan
  simp only [decide_eq_true_eq, decide_eq_false_iff_not] at h ⊢
  omega

theorem lt_iff (hx : x.isNan = false) (hy : y.isNan = false) : x.lt y = true ↔ x.key < y.key := by
  unfold lt
  simp [hx, hy]

theorem le_iff (hx : x.isNan = false) (hy : y.isNan = false) : x.le y = true ↔ x.key ≤ y.key := by
  unfold le
  simp [hx, hy]

theorem lt_eq_false_iff (hx : x.isNan = false) (hy : y.isNan = false) :
    x.lt y = false ↔ y.key ≤ x.key := by
  rw [Bool.eq_false_iff, Ne, lt_iff hx hy, not_lt]

/-! ### The total order -/

theorem totalKey_injective (h : x.totalKey = y.totalKey) : x = y := by
  obtain ⟨sx, mx⟩ := x
  obtain ⟨sy, my⟩ := y
  unfold totalKey at h
  cases sx <;> cases sy <;> simp only [Bool.false_eq_true, if_true, if_false] at h
  · have hm : mx = my := Fin.ext (by omega)
    rw [hm]
  · omega
  · omega
  · have hm : mx = my := Fin.ext (by omega)
    rw [hm]

end Binary64

end MadoPilot.Lib
