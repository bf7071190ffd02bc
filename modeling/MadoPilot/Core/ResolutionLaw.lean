import Mathlib.Data.Rat.Floor
import MadoPilot.Core.ConversionLaw

/-!
# The pixels that a rectangle covers

A pixel is covered where its cell shares an area with the projected rectangle; outward rounding finds
these pixels, and a policy decides about those outside the frame.

* `intersect_has` : what two rectangles share;
* `resolveCapturePixels_rounded` : the rounded edges;
* `capture_pixels` : what a rectangle resolves to, and which fault comes first.
-/

namespace MadoPilot.Core

open MadoPilot.Lib

/-! ### Pixels -/

def PixelRect.Has (r : PixelRect) (i j : ℤ) : Prop :=
  (r.left.toInt ≤ i ∧ i < r.right.toInt) ∧ r.top.toInt ≤ j ∧ j < r.bottom.toInt

def PixelExtent.Has (e : PixelExtent) (i j : ℤ) : Prop := (0 ≤ i ∧ i < e.width) ∧ 0 ≤ j ∧ j < e.height

/-- The rectangle between two corners shares an area with the cell of the pixel. -/
def Touches (near far : ℚ × ℚ) (i j : ℤ) : Prop := Overlaps near.1 far.1 i ∧ Overlaps near.2 far.2 j

/-- The number is an `i32`. -/
def FitsI32 (z : ℤ) : Prop := Int32.minValue.toInt ≤ z ∧ z ≤ Int32.maxValue.toInt

def PixelExtent.Fits (e : PixelExtent) : Prop := e.width ≤ i32Max ∧ e.height ≤ i32Max

def EdgesFit (near far : ℚ × ℚ) : Prop :=
  (FitsI32 ⌊near.1⌋ ∧ FitsI32 ⌊near.2⌋) ∧ FitsI32 ⌈far.1⌉ ∧ FitsI32 ⌈far.2⌉

section Rounding

variable {z : ℤ} {x : ℚ} {p : Int32}

theorem integralToI32_fits (h : FitsI32 z) : ∃ p, integralToI32 z = .ok p ∧ p.toInt = z := by
  unfold integralToI32
  have hmin : Int32.minValue.toInt = -2 ^ 31 := by decide
  have hmax : Int32.maxValue.toInt = 2 ^ 31 - 1 := by decide
  obtain ⟨hlow, hhigh⟩ := h
  refine ⟨Int32.ofInt z, if_neg (by omega), ?_⟩
  rw [hmin] at hlow
  rw [hmax] at hhigh
  have hsize : Int32.size = 2 ^ 32 := rfl
  rw [Int32.toInt_ofInt, hsize, Int.bmod_eq_of_le] <;> omega

theorem integralToI32_overflow (h : ¬ FitsI32 z) : integralToI32 z = .error .extentOverflow := by
  unfold integralToI32
  unfold FitsI32 at h
  exact if_pos (by omega)

theorem ceil_eq (x : ℚ) : x.ceil = ⌈x⌉ := by
  rw [Rat.ceil_eq_neg_floor_neg]
  rfl

theorem floorToPixel_fits (h : FitsI32 ⌊x⌋) : ∃ p, floorToPixel x = .ok p ∧ p.toInt = ⌊x⌋ :=
  integralToI32_fits h

theorem ceilToPixel_fits (h : FitsI32 ⌈x⌉) : ∃ p, ceilToPixel x = .ok p ∧ p.toInt = ⌈x⌉ := by
  unfold ceilToPixel
  rw [ceil_eq]
  exact integralToI32_fits h

theorem floorToPixel_overflow (h : ¬ FitsI32 ⌊x⌋) : floorToPixel x = .error .extentOverflow :=
  integralToI32_overflow h

theorem ceilToPixel_overflow (h : ¬ FitsI32 ⌈x⌉) : ceilToPixel x = .error .extentOverflow := by
  unfold ceilToPixel
  rw [ceil_eq]
  exact integralToI32_overflow h

end Rounding

/-! ### Rectangles in a frame -/

section Frame

variable {r other s : PixelRect} {e : PixelExtent} {policy : ClipPolicy} {i j : ℤ}

theorem isEmpty_iff : r.isEmpty = true ↔ ∀ i j, ¬ r.Has i j := by
  have hcolumns := r.toInt_columns
  have hlines := r.toInt_lines
  constructor
  · intro h i j hhas
    rw [← Bool.not_eq_false, PixelRect.isEmpty_eq_false] at h
    unfold PixelRect.width PixelRect.height at h
    unfold PixelRect.Has at hhas
    omega
  · intro h
    by_contra hne
    rw [Bool.not_eq_true, PixelRect.isEmpty_eq_false] at hne
    refine h r.left.toInt r.top.toInt ?_
    unfold PixelRect.width PixelRect.height at hne
    unfold PixelRect.Has
    omega

theorem new_of_le {left top right bottom : Int32} (hcolumns : left.toInt ≤ right.toInt)
    (hlines : top.toInt ≤ bottom.toInt) : ∃ r, PixelRect.new left top right bottom = .ok r := by
  unfold PixelRect.new
  exact ⟨_, dif_pos ⟨Int32.le_iff_toInt_le.mpr hcolumns, Int32.le_iff_toInt_le.mpr hlines⟩⟩

theorem toInt_edges (a b : Int32) : (if a ≤ b then b else a).toInt = max a.toInt b.toInt ∧
    (if a ≤ b then a else b).toInt = min a.toInt b.toInt := by
  split_ifs with h
  · rw [Int32.le_iff_toInt_le] at h
    omega
  · rw [Int32.le_iff_toInt_le] at h
    omega

theorem intersect_has : (∀ s, r.intersect other = some s → ∀ i j, s.Has i j ↔ r.Has i j ∧ other.Has i j) ∧
    (r.intersect other = none → ∀ i j, ¬ (r.Has i j ∧ other.Has i j)) := by
  have hleft := (toInt_edges r.left other.left).1
  have htop := (toInt_edges r.top other.top).1
  have hright := (toInt_edges r.right other.right).2
  have hbottom := (toInt_edges r.bottom other.bottom).2
  unfold PixelRect.intersect
  dsimp only
  generalize (if r.left ≤ other.left then other.left else r.left) = left at hleft ⊢
  generalize (if r.top ≤ other.top then other.top else r.top) = top at htop ⊢
  generalize (if r.right ≤ other.right then r.right else other.right) = right at hright ⊢
  generalize (if r.bottom ≤ other.bottom then r.bottom else other.bottom) = bottom at hbottom ⊢
  refine ⟨fun s h i j => ?_, fun h i j => ?_⟩
  · rw [Option.ite_none_left_eq_some] at h
    obtain ⟨hl, ht, hr, hb⟩ := new_eq_ok (toOption_eq_some.mp h.2)
    unfold PixelRect.Has
    rw [hl, ht, hr, hb, hleft, htop, hright, hbottom]
    omega
  · rw [ite_eq_left_iff] at h
    unfold PixelRect.Has
    by_contra hshared
    have hroom : left.toInt < right.toInt ∧ top.toInt < bottom.toInt := by omega
    obtain ⟨s, hs⟩ := new_of_le hroom.1.le hroom.2.le
    have hnone := h (by rw [Int32.le_iff_toInt_le, Int32.le_iff_toInt_le]; omega)
    rw [hs] at hnone
    cases hnone

theorem intersect_not_empty (h : r.intersect other = some s) : s.isEmpty = false := by
  unfold PixelRect.intersect at h
  dsimp only at h
  rw [Option.ite_none_left_eq_some] at h
  obtain ⟨hroom, h⟩ := h
  obtain ⟨hl, ht, hr, hb⟩ := new_eq_ok (toOption_eq_some.mp h)
  rw [← hl, ← ht, ← hr, ← hb, Int32.le_iff_toInt_le, Int32.le_iff_toInt_le] at hroom
  rw [PixelRect.isEmpty_eq_false]
  unfold PixelRect.width PixelRect.height
  omega

theorem toRect_fits (h : e.Fits) : ∃ bounds, e.toRect = .ok bounds ∧ ∀ i j, bounds.Has i j ↔ e.Has i j := by
  have hok : ∃ bounds, e.toRect = .ok bounds := by
    unfold PixelExtent.toRect i32From
    rw [if_pos h.1, if_pos h.2]
    unfold PixelExtent.Fits i32Max at h
    refine new_of_le ?_ ?_
    · rw [Int32.toInt_ofNat_of_lt (by omega)]
      exact Int.natCast_nonneg _
    · rw [Int32.toInt_ofNat_of_lt (by omega)]
      exact Int.natCast_nonneg _
  obtain ⟨bounds, hbounds⟩ := hok
  obtain ⟨hleft, htop, hright, hbottom⟩ := toRect_eq_ok hbounds
  refine ⟨bounds, hbounds, fun i j => ?_⟩
  unfold PixelRect.Has PixelExtent.Has
  rw [hleft, htop, hright, hbottom]

theorem toRect_overflow (h : ¬ e.Fits) : e.toRect = .error .extentOverflow := by
  unfold PixelExtent.toRect i32From
  unfold PixelExtent.Fits at h
  by_cases hwidth : e.width ≤ i32Max
  · rw [if_pos hwidth, if_neg fun hheight => h ⟨hwidth, hheight⟩]
    rfl
  · rw [if_neg hwidth]
    rfl

theorem containsRect_has (hempty : r.isEmpty = false) :
    other.containsRect r = true ↔ ∀ i j, r.Has i j → other.Has i j := by
  rw [PixelRect.isEmpty_eq_false] at hempty
  unfold PixelRect.width PixelRect.height at hempty
  rw [PixelRect.containsRect_iff]
  unfold PixelRect.Has
  constructor
  · intro h i j hhas
    omega
  · intro h
    have hnear := h r.left.toInt r.top.toInt (by omega)
    have hfar := h (r.right.toInt - 1) (r.bottom.toInt - 1) (by omega)
    omega

theorem resolveAgainst_overflow (h : ¬ e.Fits) :
    r.resolveAgainst e policy = .error .extentOverflow := by
  unfold PixelRect.resolveAgainst
  rw [toRect_overflow h]
  rfl

theorem resolveAgainst_empty (h : e.Fits) (hempty : r.isEmpty = true) :
    r.resolveAgainst e policy = .error .emptyRegion := by
  obtain ⟨bounds, hbounds, -⟩ := toRect_fits h
  unfold PixelRect.resolveAgainst
  rw [hbounds, hempty]
  rfl

theorem resolveAgainst_reject (h : e.Fits) (hempty : r.isEmpty = false) :
    ((∀ i j, r.Has i j → e.Has i j) → r.resolveAgainst e .reject = .ok r) ∧
      ((¬ ∀ i j, r.Has i j → e.Has i j) → r.resolveAgainst e .reject = .error .outsideExtent) := by
  obtain ⟨bounds, hbounds, hhas⟩ := toRect_fits h
  have hcontains : bounds.containsRect r = true ↔ ∀ i j, r.Has i j → bounds.Has i j :=
    containsRect_has hempty
  simp only [hhas] at hcontains
  unfold PixelRect.resolveAgainst
  rw [hbounds, hempty]
  constructor
  · intro hin
    exact if_pos (hcontains.mpr hin)
  · intro hout
    exact if_neg fun hin => hout (hcontains.mp hin)

theorem resolveAgainst_clip (h : e.Fits) (hempty : r.isEmpty = false) :
    ((∀ i j, ¬ (r.Has i j ∧ e.Has i j)) → r.resolveAgainst e .clip = .error .outsideExtent) ∧
      ((∃ i j, r.Has i j ∧ e.Has i j) → ∃ s, r.resolveAgainst e .clip = .ok s ∧
        ∀ i j, s.Has i j ↔ r.Has i j ∧ e.Has i j) := by
  obtain ⟨bounds, hbounds, hhas⟩ := toRect_fits h
  obtain ⟨hsome, hnone⟩ := @intersect_has r bounds
  simp only [hhas] at hsome hnone
  have heq : r.resolveAgainst e .clip = (r.intersect bounds).elim (.error .outsideExtent) .ok := by
    unfold PixelRect.resolveAgainst
    rw [hbounds, hempty]
    cases hshared : r.intersect bounds <;> simp [bind, Except.bind, hshared]
  rw [heq]
  cases hshared : r.intersect bounds with
  | none => exact ⟨fun _ => rfl, fun ⟨i, j, hboth⟩ => absurd hboth (hnone hshared i j)⟩
  | some s =>
    refine ⟨fun hout => ?_, fun _ => ⟨s, rfl, hsome s hshared⟩⟩
    have hpixels := intersect_not_empty hshared
    rw [← Bool.not_eq_true, isEmpty_iff] at hpixels
    simp only [not_forall, not_not] at hpixels
    obtain ⟨i, j, hs⟩ := hpixels
    exact absurd ((hsome s hshared i j).mp hs) (hout i j)

end Frame

/-! ### Rounded edges -/

namespace TransformSnapshot

section Resolve

variable {t : TransformSnapshot} {r : Rect} {policy : ClipPolicy} {near far : ℚ × ℚ}

theorem isEmpty_eq_false : r.isEmpty = false ↔ r.left < r.right ∧ r.top < r.bottom := by
  unfold Rect.isEmpty
  rw [Bool.or_eq_false_iff, decide_eq_false_iff_not, decide_eq_false_iff_not, sub_nonpos, sub_nonpos,
    not_le, not_le]

theorem projected_edges (hnear : t.projectToPixels r.space r.left r.top = .ok near)
    (hfar : t.projectToPixels r.space r.right r.bottom = .ok far) :
    (near.1 ≤ far.1 ∧ near.2 ≤ far.2) ∧ (near.1 < far.1 ↔ r.left < r.right) ∧
      (near.2 < far.2 ↔ r.top < r.bottom) := by
  obtain ⟨hr, rfl⟩ := supports_of_projectToPixels hnear
  obtain ⟨-, rfl⟩ := supports_of_projectToPixels hfar
  obtain ⟨hscale, hscale'⟩ := axes_pos hr
  exact ⟨⟨(Axis.project_le hscale).mpr r.columns, (Axis.project_le hscale').mpr r.lines⟩,
    Axis.project_lt hscale, Axis.project_lt hscale'⟩

theorem touches_corners (hnear : t.projectToPixels r.space r.left r.top = .ok near)
    (hfar : t.projectToPixels r.space r.right r.bottom = .ok far) (hempty : r.isEmpty = false) :
    Touches near far ⌊near.1⌋ ⌊near.2⌋ ∧ Touches near far (⌈far.1⌉ - 1) (⌈far.2⌉ - 1) := by
  obtain ⟨-, hwide, htall⟩ := projected_edges hnear hfar
  rw [isEmpty_eq_false, ← hwide, ← htall] at hempty
  have hspan := floor_lt_ceil hempty.1
  have hspan' := floor_lt_ceil hempty.2
  unfold Touches
  rw [overlaps_iff hempty.1, overlaps_iff hempty.2, overlaps_iff hempty.1, overlaps_iff hempty.2]
  omega

theorem edgesFit_of_inside (hnear : t.projectToPixels r.space r.left r.top = .ok near)
    (hfar : t.projectToPixels r.space r.right r.bottom = .ok far) (hempty : r.isEmpty = false)
    (hfits : t.frameExtent.Fits) (h : ∀ i j, Touches near far i j → t.frameExtent.Has i j) :
    EdgesFit near far := by
  obtain ⟨hfirst, hlast⟩ := touches_corners hnear hfar hempty
  have hin := h _ _ hfirst
  have hin' := h _ _ hlast
  have hmin : Int32.minValue.toInt = -2 ^ 31 := by decide
  have hmax : Int32.maxValue.toInt = 2 ^ 31 - 1 := by decide
  unfold PixelExtent.Fits i32Max at hfits
  unfold PixelExtent.Has at hin hin'
  unfold EdgesFit FitsI32
  rw [hmin, hmax]
  omega

theorem resolveCapturePixels_unsupported (h : t.supports r.space = false) :
    t.resolveCapturePixels r policy = .error .conversionUnsupported := by
  unfold resolveCapturePixels
  rw [projectToPixels_unsupported h]
  rfl

theorem resolveCapturePixels_overflow (hnear : t.projectToPixels r.space r.left r.top = .ok near)
    (hfar : t.projectToPixels r.space r.right r.bottom = .ok far) (h : ¬ EdgesFit near far) :
    t.resolveCapturePixels r policy = .error .extentOverflow := by
  unfold resolveCapturePixels
  rw [hnear, hfar]
  show (floorToPixel near.1 >>= _) = _
  by_cases hleft : FitsI32 ⌊near.1⌋
  · obtain ⟨left, hl, -⟩ := floorToPixel_fits hleft
    rw [hl]
    show (floorToPixel near.2 >>= _) = _
    by_cases htop : FitsI32 ⌊near.2⌋
    · obtain ⟨top, ht, -⟩ := floorToPixel_fits htop
      rw [ht]
      show (ceilToPixel far.1 >>= _) = _
      by_cases hright : FitsI32 ⌈far.1⌉
      · obtain ⟨right, hr, -⟩ := ceilToPixel_fits hright
        rw [hr]
        show (ceilToPixel far.2 >>= _) = _
        rw [ceilToPixel_overflow fun hbottom => h ⟨⟨hleft, htop⟩, hright, hbottom⟩]
        rfl
      · rw [ceilToPixel_overflow hright]
        rfl
    · rw [floorToPixel_overflow htop]
      rfl
  · rw [floorToPixel_overflow hleft]
    rfl

theorem resolveCapturePixels_rounded (hnear : t.projectToPixels r.space r.left r.top = .ok near)
    (hfar : t.projectToPixels r.space r.right r.bottom = .ok far) (h : EdgesFit near far) :
    ∃ resolved : PixelRect, t.resolveCapturePixels r policy = resolved.resolveAgainst t.frameExtent policy ∧
      resolved.isEmpty = r.isEmpty ∧ ∀ i j, resolved.Has i j ↔ Touches near far i j := by
  obtain ⟨⟨hleft, htop⟩, hright, hbottom⟩ := h
  obtain ⟨left, hl, hleftInt⟩ := floorToPixel_fits hleft
  obtain ⟨top, ht, htopInt⟩ := floorToPixel_fits htop
  obtain ⟨right, hr, hrightInt⟩ := ceilToPixel_fits hright
  obtain ⟨bottom, hb, hbottomInt⟩ := ceilToPixel_fits hbottom
  obtain ⟨⟨hcolumns, hlines⟩, hwide, htall⟩ := projected_edges hnear hfar
  have hrightEdge : (if 0 < r.right - r.left then right else left).toInt =
      if near.1 < far.1 then ⌈far.1⌉ else ⌊near.1⌋ := by
    rw [apply_ite Int32.toInt, hrightInt, hleftInt]
    simp only [sub_pos, hwide]
  have hbottomEdge : (if 0 < r.bottom - r.top then bottom else top).toInt =
      if near.2 < far.2 then ⌈far.2⌉ else ⌊near.2⌋ := by
    rw [apply_ite Int32.toInt, hbottomInt, htopInt]
    simp only [sub_pos, htall]
  obtain ⟨hspan, hspan'⟩ := And.intro (@floor_lt_ceil ℚ _ _ near.1 far.1 _)
    (@floor_lt_ceil ℚ _ _ near.2 far.2 _)
  obtain ⟨resolved, hresolved⟩ := @new_of_le left top
    (if 0 < r.right - r.left then right else left) (if 0 < r.bottom - r.top then bottom else top)
    (by rw [hrightEdge, hleftInt]; split_ifs with hlt; exacts [(hspan hlt).le, le_rfl])
    (by rw [hbottomEdge, htopInt]; split_ifs with hlt; exacts [(hspan' hlt).le, le_rfl])
  obtain ⟨hresolvedLeft, hresolvedTop, hresolvedRight, hresolvedBottom⟩ := new_eq_ok hresolved
  have hhas : ∀ i j, resolved.Has i j ↔ Touches near far i j := by
    intro i j
    unfold PixelRect.Has Touches
    rw [hresolvedLeft, hresolvedTop, hresolvedRight, hresolvedBottom, hleftInt, htopInt, hrightEdge,
      hbottomEdge]
    -- an axis that is not spanned has no pixel, and nothing overlaps it
    by_cases hx : near.1 < far.1
    · rw [if_pos hx, overlaps_iff hx]
      by_cases hy : near.2 < far.2
      · rw [if_pos hy, overlaps_iff hy]
      · rw [if_neg hy]
        have hnone := @not_overlaps ℚ _ _ near.2 far.2 j (not_lt.mp hy)
        constructor
        · rintro ⟨-, hlow, hhigh⟩
          omega
        · exact fun htouch => absurd htouch.2 hnone
    · rw [if_neg hx]
      have hnone := @not_overlaps ℚ _ _ near.1 far.1 i (not_lt.mp hx)
      constructor
      · rintro ⟨⟨hlow, hhigh⟩, -⟩
        omega
      · exact fun htouch => absurd htouch.1 hnone
  refine ⟨resolved, ?_, ?_, hhas⟩
  · unfold resolveCapturePixels
    rw [hnear, hfar]
    show (floorToPixel near.1 >>= _) = _
    rw [hl]
    show (floorToPixel near.2 >>= _) = _
    rw [ht]
    show (ceilToPixel far.1 >>= _) = _
    rw [hr]
    show (ceilToPixel far.2 >>= _) = _
    rw [hb]
    show (PixelRect.new _ _ _ _ >>= _) = _
    rw [hresolved]
    rfl
  · rw [Bool.eq_iff_iff, isEmpty_iff, ← Bool.not_eq_false, isEmpty_eq_false, ← hwide, ← htall]
    constructor
    · intro hnone hboth
      refine hnone ⌊near.1⌋ ⌊near.2⌋ ((hhas _ _).mpr ⟨?_, ?_⟩)
      · exact (overlaps_iff hboth.1).mpr ⟨le_rfl, hspan hboth.1⟩
      · exact (overlaps_iff hboth.2).mpr ⟨le_rfl, hspan' hboth.2⟩
    · intro hspans i j hpixel
      obtain ⟨hover, hover'⟩ := (hhas i j).mp hpixel
      refine hspans ⟨?_, ?_⟩
      · by_contra hx
        exact not_overlaps (not_lt.mp hx) hover
      · by_contra hy
        exact not_overlaps (not_lt.mp hy) hover'

theorem resolveCapturePixels_extent (hnear : t.projectToPixels r.space r.left r.top = .ok near)
    (hfar : t.projectToPixels r.space r.right r.bottom = .ok far)
    (h : ¬ (EdgesFit near far ∧ t.frameExtent.Fits)) :
    t.resolveCapturePixels r policy = .error .extentOverflow := by
  by_cases hedges : EdgesFit near far
  · obtain ⟨resolved, heq, -, -⟩ := @resolveCapturePixels_rounded t r policy near far hnear hfar hedges
    rw [heq]
    exact resolveAgainst_overflow fun hfits => h ⟨hedges, hfits⟩
  · exact resolveCapturePixels_overflow hnear hfar hedges

theorem resolveCapturePixels_empty (hnear : t.projectToPixels r.space r.left r.top = .ok near)
    (hfar : t.projectToPixels r.space r.right r.bottom = .ok far) (hedges : EdgesFit near far)
    (hfits : t.frameExtent.Fits) (hempty : r.isEmpty = true) :
    t.resolveCapturePixels r policy = .error .emptyRegion := by
  obtain ⟨resolved, heq, hsame, -⟩ := @resolveCapturePixels_rounded t r policy near far hnear hfar hedges
  rw [heq]
  exact resolveAgainst_empty hfits (hsame.trans hempty)

theorem resolveCapturePixels_policy (hnear : t.projectToPixels r.space r.left r.top = .ok near)
    (hfar : t.projectToPixels r.space r.right r.bottom = .ok far) (hedges : EdgesFit near far)
    (hfits : t.frameExtent.Fits) (hempty : r.isEmpty = false) :
    (((∀ i j, Touches near far i j → t.frameExtent.Has i j) →
        ∃ s, t.resolveCapturePixels r .reject = .ok s ∧ ∀ i j, s.Has i j ↔ Touches near far i j) ∧
      ((¬ ∀ i j, Touches near far i j → t.frameExtent.Has i j) →
        t.resolveCapturePixels r .reject = .error .outsideExtent)) ∧
      ((∃ i j, Touches near far i j ∧ t.frameExtent.Has i j) →
        ∃ s, t.resolveCapturePixels r .clip = .ok s ∧
          ∀ i j, s.Has i j ↔ Touches near far i j ∧ t.frameExtent.Has i j) ∧
      ((∀ i j, ¬ (Touches near far i j ∧ t.frameExtent.Has i j)) →
        t.resolveCapturePixels r .clip = .error .outsideExtent) := by
  obtain ⟨rejected, hreject, hsame, hhas⟩ :=
    @resolveCapturePixels_rounded t r .reject near far hnear hfar hedges
  obtain ⟨clipped, hclip, hsame', hhas'⟩ :=
    @resolveCapturePixels_rounded t r .clip near far hnear hfar hedges
  obtain ⟨hinside, houtside⟩ := resolveAgainst_reject hfits (hsame.trans hempty)
  obtain ⟨hnothing, hshared⟩ := resolveAgainst_clip hfits (hsame'.trans hempty)
  simp only [hhas] at hinside houtside
  simp only [hhas'] at hnothing hshared
  rw [hreject, hclip]
  exact ⟨⟨fun hin => ⟨rejected, hinside hin, hhas⟩, houtside⟩, hshared, hnothing⟩

theorem resolveCapturePixels_gives {s : PixelRect}
    (hnear : t.projectToPixels r.space r.left r.top = .ok near)
    (hfar : t.projectToPixels r.space r.right r.bottom = .ok far)
    (h : t.resolveCapturePixels r policy = .ok s) :
    (s.isEmpty = false ∧ r.isEmpty = false) ∧
      (∀ i j, s.Has i j ↔ Touches near far i j ∧ t.frameExtent.Has i j) ∧
      (policy = .reject → ∀ i j, Touches near far i j → t.frameExtent.Has i j) := by
  by_cases hrange : EdgesFit near far ∧ t.frameExtent.Fits
  · cases hempty : r.isEmpty with
    | true =>
      rw [resolveCapturePixels_empty hnear hfar hrange.1 hrange.2 hempty] at h
      cases h
    | false =>
      obtain ⟨⟨hin, hout⟩, hshared, hnothing⟩ :=
        resolveCapturePixels_policy hnear hfar hrange.1 hrange.2 hempty
      have hpixel : ∀ i j, s.Has i j → s.isEmpty = false := by
        intro i j hs
        rw [← Bool.not_eq_true, isEmpty_iff]
        exact fun hnone => hnone i j hs
      cases policy with
      | reject =>
        by_cases hall : ∀ i j, Touches near far i j → t.frameExtent.Has i j
        · obtain ⟨s', hs', hhas⟩ := hin hall
          obtain rfl := Except.ok.inj (hs'.symm.trans h)
          have hfirst := (touches_corners hnear hfar hempty).1
          refine ⟨⟨hpixel _ _ ((hhas _ _).mpr hfirst), rfl⟩, fun i j => ?_, fun _ => hall⟩
          rw [hhas]
          exact ⟨fun htouch => ⟨htouch, hall i j htouch⟩, fun hboth => hboth.1⟩
        · rw [hout hall] at h
          cases h
      | clip =>
        by_cases hsome : ∃ i j, Touches near far i j ∧ t.frameExtent.Has i j
        · obtain ⟨s', hs', hhas⟩ := hshared hsome
          obtain rfl := Except.ok.inj (hs'.symm.trans h)
          obtain ⟨i, j, hboth⟩ := hsome
          refine ⟨⟨hpixel i j ((hhas i j).mpr hboth), rfl⟩, hhas, fun hpolicy => ?_⟩
          cases hpolicy
        · rw [hnothing fun i j hboth => hsome ⟨i, j, hboth⟩] at h
          cases h
  · rw [resolveCapturePixels_extent hnear hfar hrange] at h
    cases h

end Resolve

/-- **The pixels that a rectangle resolves to.**  Clipping gives the touched pixels of the frame;
rejecting gives the touched pixels, and only where all of them lie in the frame.  An unsupported space
is reported before edges out of range, these before an empty request, and that before pixels outside. -/
theorem capture_pixels (t : TransformSnapshot) (r : Rect) :
    ((t.supports r.space = true ↔ ∃ near far, t.projectToPixels r.space r.left r.top = .ok near ∧
        t.projectToPixels r.space r.right r.bottom = .ok far) ∧
      ∀ policy, (t.supports r.space = false →
          t.resolveCapturePixels r policy = .error .conversionUnsupported) ∧
        ∀ s, t.resolveCapturePixels r policy = .ok s →
          (s.isEmpty = false ∧ ∀ i j, s.Has i j → t.frameExtent.Has i j) ∧ r.isEmpty = false) ∧
    ∀ near far, t.projectToPixels r.space r.left r.top = .ok near →
      t.projectToPixels r.space r.right r.bottom = .ok far →
      (∀ policy, (¬ (EdgesFit near far ∧ t.frameExtent.Fits) →
          t.resolveCapturePixels r policy = .error .extentOverflow) ∧
        (EdgesFit near far ∧ t.frameExtent.Fits → r.isEmpty = true →
          t.resolveCapturePixels r policy = .error .emptyRegion)) ∧
      (∀ s, t.resolveCapturePixels r .clip = .ok s → ∀ i j, t.frameExtent.Has i j →
        (s.Has i j ↔ Touches near far i j)) ∧
      (∀ s, t.resolveCapturePixels r .reject = .ok s → ∀ i j, s.Has i j ↔ Touches near far i j) ∧
      (t.frameExtent.Fits → r.isEmpty = false → ((∃ s, t.resolveCapturePixels r .reject = .ok s) ↔
        ∀ i j, Touches near far i j → t.frameExtent.Has i j)) ∧
      (EdgesFit near far ∧ t.frameExtent.Fits → r.isEmpty = false →
        (t.resolveCapturePixels r .reject = .error .outsideExtent ↔
          ¬ ∀ i j, Touches near far i j → t.frameExtent.Has i j) ∧
        ((∃ s, t.resolveCapturePixels r .clip = .ok s) ↔
          ∃ i j, Touches near far i j ∧ t.frameExtent.Has i j) ∧
        (t.resolveCapturePixels r .clip = .error .outsideExtent ↔
          ∀ i j, ¬ (Touches near far i j ∧ t.frameExtent.Has i j))) := by
  refine ⟨⟨⟨fun h => ?_, ?_⟩, fun policy => ⟨resolveCapturePixels_unsupported, fun s h => ?_⟩⟩,
    fun near far hnear hfar => ⟨fun policy => ⟨resolveCapturePixels_extent hnear hfar,
      fun hrange => resolveCapturePixels_empty hnear hfar hrange.1 hrange.2⟩, fun s h i j hin => ?_,
      fun s h i j => ?_, fun hfits hempty => ?_, fun hrange hempty => ?_⟩⟩
  · exact ⟨_, _, projectToPixels_eq h _ _, projectToPixels_eq h _ _⟩
  · rintro ⟨near, far, hnear, -⟩
    exact (supports_of_projectToPixels hnear).1
  · cases hr : t.supports r.space with
    | false =>
      rw [resolveCapturePixels_unsupported hr] at h
      cases h
    | true =>
      obtain ⟨⟨hs, hempty⟩, hhas, -⟩ :=
        resolveCapturePixels_gives (projectToPixels_eq hr _ _) (projectToPixels_eq hr _ _) h
      exact ⟨⟨hs, fun i j hpixel => ((hhas i j).mp hpixel).2⟩, hempty⟩
  · obtain ⟨-, hhas, -⟩ := resolveCapturePixels_gives hnear hfar h
    rw [hhas]
    exact and_iff_left hin
  · obtain ⟨-, hhas, hall⟩ := resolveCapturePixels_gives hnear hfar h
    rw [hhas]
    exact and_iff_left_of_imp (hall rfl i j)
  · constructor
    · rintro ⟨s, hs⟩
      exact (resolveCapturePixels_gives hnear hfar hs).2.2 rfl
    · intro hall
      have hedges := edgesFit_of_inside hnear hfar hempty hfits hall
      obtain ⟨⟨hin, -⟩, -⟩ := resolveCapturePixels_policy hnear hfar hedges hfits hempty
      obtain ⟨s, hs, -⟩ := hin hall
      exact ⟨s, hs⟩
  · obtain ⟨⟨hin, hout⟩, hshared, hnothing⟩ :=
      resolveCapturePixels_policy hnear hfar hrange.1 hrange.2 hempty
    refine ⟨⟨fun h hall => ?_, hout⟩, ⟨fun ⟨s, hs⟩ => ?_, fun hsome => ?_⟩,
      fun h i j hboth => ?_, hnothing⟩
    · obtain ⟨s, hs, -⟩ := hin hall
      rw [hs] at h
      cases h
    · by_contra hnone
      rw [hnothing fun i j hboth => hnone ⟨i, j, hboth⟩] at hs
      cases hs
    · obtain ⟨s, hs, -⟩ := hshared hsome
      exact ⟨s, hs⟩
    · obtain ⟨s, hs, -⟩ := hshared ⟨i, j, hboth⟩
      rw [hs] at h
      cases h

/-- A sliver of one column and two lines. -/
theorem capture_pixels_sample :
    let t := frameOnly 1 ⟨4, 4⟩
    let r : Rect := ⟨.capturePixels, 5 / 2, 1, 13 / 5, 3, by decide +kernel, by decide, by decide⟩
    ∃ s, t.resolveCapturePixels r .reject = .ok s ∧
      ∀ i j, s.Has i j ↔ Touches (5 / 2, 1) (13 / 5, 3) i j := by
  intro t r
  have h : t.resolveCapturePixels r .reject = .ok ⟨2, 1, 3, 3, by decide, by decide⟩ := by
    decide +kernel
  exact ⟨_, h, ((capture_pixels t r).2 (5 / 2, 1) (13 / 5, 3) rfl rfl).2.2.1 _ h⟩

/-- An empty request touches no pixel, so none outside the frame, and is refused. -/
theorem empty_request_refused : ∃ (t : TransformSnapshot) (r : Rect) (near far : ℚ × ℚ),
    (t.projectToPixels r.space r.left r.top = .ok near ∧
      t.projectToPixels r.space r.right r.bottom = .ok far) ∧
      (∀ i j, Touches near far i j → t.frameExtent.Has i j) ∧
      ¬ ∃ s, t.resolveCapturePixels r .reject = .ok s := by
  refine ⟨frameOnly 1 ⟨4, 4⟩, ⟨.capturePixels, 1, 0, 1, 2, by decide, by decide, by decide⟩, (1, 0), (1, 2),
    ⟨rfl, rfl⟩, fun i j htouch => ?_, ?_⟩
  · exact absurd htouch.1 (not_overlaps le_rfl)
  · rintro ⟨s, hs⟩
    have hempty : (frameOnly 1 ⟨4, 4⟩).resolveCapturePixels
        ⟨.capturePixels, 1, 0, 1, 2, by decide, by decide, by decide⟩ .reject = .error .emptyRegion := by
      decide +kernel
    rw [hempty] at hs
    cases hs

end TransformSnapshot

end MadoPilot.Core
