import Mathlib.Data.Int.Basic
import MadoPilot.Core.Transform
import MadoPilot.Lib.Fallible

/-!
# Rectangles of pixels
-/

namespace MadoPilot.Core

/-- A half-open rectangle in discrete capture pixels. -/
structure PixelRect where
  left : Int32
  top : Int32
  right : Int32
  bottom : Int32
  columns : left ≤ right
  lines : top ≤ bottom
  deriving DecidableEq

namespace PixelRect

def new (left top right bottom : Int32) : Except GeometryFault PixelRect :=
  if h : left ≤ right ∧ top ≤ bottom then .ok ⟨left, top, right, bottom, h.1, h.2⟩
  else .error .negativeSize

variable (r : PixelRect)

def width : ℕ := (r.right.toInt - r.left.toInt).toNat

def height : ℕ := (r.bottom.toInt - r.top.toInt).toNat

def extent : PixelExtent := ⟨r.width, r.height⟩

def isEmpty : Bool := r.width == 0 || r.height == 0

def containsRect (other : PixelRect) : Bool :=
  decide (r.left ≤ other.left) && decide (r.top ≤ other.top) && decide (other.right ≤ r.right) &&
    decide (other.bottom ≤ r.bottom)

/-- The overlapping region. -/
def intersect (other : PixelRect) : Option PixelRect :=
  let left := if r.left ≤ other.left then other.left else r.left
  let top := if r.top ≤ other.top then other.top else r.top
  let right := if r.right ≤ other.right then r.right else other.right
  let bottom := if r.bottom ≤ other.bottom then r.bottom else other.bottom
  if right ≤ left ∨ bottom ≤ top then none else (new left top right bottom).toOption

variable {r} {other : PixelRect}

theorem toInt_columns (r : PixelRect) : r.left.toInt ≤ r.right.toInt := Int32.le_iff_toInt_le.mp r.columns

theorem toInt_lines (r : PixelRect) : r.top.toInt ≤ r.bottom.toInt := Int32.le_iff_toInt_le.mp r.lines

theorem isEmpty_eq_false : r.isEmpty = false ↔ 0 < r.width ∧ 0 < r.height := by
  unfold isEmpty
  rw [Bool.or_eq_false_iff, beq_eq_false_iff_ne, beq_eq_false_iff_ne]
  omega

theorem containsRect_iff : r.containsRect other = true ↔
    (r.left.toInt ≤ other.left.toInt ∧ r.top.toInt ≤ other.top.toInt) ∧
      other.right.toInt ≤ r.right.toInt ∧ other.bottom.toInt ≤ r.bottom.toInt := by
  unfold containsRect
  simp only [Bool.and_eq_true, decide_eq_true_eq, Int32.le_iff_toInt_le]
  tauto

end PixelRect

/-- The largest `i32`. -/
def i32Max : ℕ := 2147483647

/-- `i32::try_from` of an unsigned number. -/
def i32From (n : ℕ) : Except GeometryFault Int32 :=
  if n ≤ i32Max then .ok (Int32.ofNat n) else .error .extentOverflow

/-- The rectangle from the origin. -/
def PixelExtent.toRect (e : PixelExtent) : Except GeometryFault PixelRect := do
  let right ← i32From e.width
  let bottom ← i32From e.height
  PixelRect.new 0 0 right bottom

theorem i32From_eq_ok {n : ℕ} {x : Int32} (h : i32From n = .ok x) : x.toInt = n := by
  unfold i32From at h
  split_ifs at h with hn
  obtain rfl := Except.ok.inj h
  unfold i32Max at hn
  exact Int32.toInt_ofNat_of_lt (by omega)

theorem toRect_eq_ok {e : PixelExtent} {r : PixelRect} (h : e.toRect = .ok r) :
    r.left.toInt = 0 ∧ r.top.toInt = 0 ∧ r.right.toInt = e.width ∧ r.bottom.toInt = e.height := by
  obtain ⟨right, hright, h⟩ := Lib.bind_eq_ok.mp h
  obtain ⟨bottom, hbottom, h⟩ := Lib.bind_eq_ok.mp h
  unfold PixelRect.new at h
  split_ifs at h
  obtain rfl := Except.ok.inj h
  exact ⟨rfl, rfl, i32From_eq_ok hright, i32From_eq_ok hbottom⟩

end MadoPilot.Core
