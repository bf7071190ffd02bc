import Mathlib.Algebra.Order.Field.Basic
import Mathlib.Algebra.Order.Floor.Ring
import Mathlib.Tactic.Linarith

/-!
# Axes with an origin and a scale

Values on an axis are brought to a common line by an origin and a positive scale, and a stretch of the
line covers the unit cells that it overlaps.

* `Axis.back_project`, `Axis.project_back` : the two directions undo each other;
* `Axis.project_lt`, `Axis.project_le` : and keep the order;
* `overlaps_iff` : the cells of a stretch lie from the floor of its start to the ceiling of its end.
-/

namespace MadoPilot.Lib

variable {K : Type*}

/-- An axis: where it begins on the line, and how long its unit is there. -/
structure Axis (K : Type*) where
  origin : K
  scale : K

namespace Axis

section Field

variable [Field K] (a : Axis K)

def project (x : K) : K := (x - a.origin) * a.scale

def back (p : K) : K := p / a.scale + a.origin

variable {a} {x y : K} [LinearOrder K]

theorem back_project (h : 0 < a.scale) (x : K) : a.back (a.project x) = x := by
  unfold back project
  rw [mul_div_cancel_right₀ _ h.ne', sub_add_cancel]

theorem project_back (h : 0 < a.scale) (p : K) : a.project (a.back p) = p := by
  unfold back project
  rw [add_sub_cancel_right, div_mul_cancel₀ _ h.ne']

variable [IsStrictOrderedRing K]

theorem project_le (h : 0 < a.scale) : a.project x ≤ a.project y ↔ x ≤ y := by
  unfold project
  rw [mul_le_mul_iff_left₀ h, sub_le_sub_iff_right]

theorem project_lt (h : 0 < a.scale) : a.project x < a.project y ↔ x < y :=
  lt_iff_lt_of_le_iff_le (project_le h)

theorem back_le (h : 0 < a.scale) : a.back x ≤ a.back y ↔ x ≤ y := by
  rw [← project_le h, project_back h, project_back h]

theorem back_lt (h : 0 < a.scale) : a.back x < a.back y ↔ x < y :=
  lt_iff_lt_of_le_iff_le (back_le h)

end Field

end Axis

section Cells

variable [Ring K] [LinearOrder K] {start stop : K} {i : ℤ}

def Overlaps (start stop : K) (i : ℤ) : Prop := max start i < min stop (i + 1)

theorem not_overlaps (h : stop ≤ start) : ¬ Overlaps start stop i := by
  unfold Overlaps
  rw [max_lt_iff, lt_min_iff]
  rintro ⟨⟨hlt, -⟩, -⟩
  exact absurd hlt h.not_gt

variable [FloorRing K]

theorem floor_lt_ceil (h : start < stop) : ⌊start⌋ < ⌈stop⌉ := by
  rw [Int.lt_ceil]
  exact (Int.floor_le start).trans_lt h

theorem overlaps_iff [IsStrictOrderedRing K] (h : start < stop) :
    Overlaps start stop i ↔ ⌊start⌋ ≤ i ∧ i < ⌈stop⌉ := by
  unfold Overlaps
  rw [max_lt_iff, lt_min_iff, lt_min_iff, Int.lt_ceil, Int.floor_le_iff]
  constructor
  · rintro ⟨⟨-, hstart⟩, hstop, -⟩
    exact ⟨hstart, hstop⟩
  · rintro ⟨hstart, hstop⟩
    exact ⟨⟨h, hstart⟩, hstop, lt_add_one _⟩

end Cells

end MadoPilot.Lib
