import MadoPilot.Core.Projection
import MadoPilot.Lib.Axes

/-!
# What conversions keep

Every space of a snapshot is a pair of axes with a positive scale, and a conversion goes through the
line of the capture pixels: so conversions undo each other, compose, and keep the order of edges.

* `axes` : the two axes of a space;
* `convertPoint_convertPoint`, `convertRect_corners` : two conversions are one, and a rectangle is
  converted corner by corner;
* `conversion_groupoid` : points and rectangles between all spaces.
-/

namespace MadoPilot.Core

open MadoPilot.Lib

def Rect.near (r : Rect) : Point := ⟨r.space, r.left, r.top⟩

def Rect.far (r : Rect) : Point := ⟨r.space, r.right, r.bottom⟩

namespace TransformSnapshot

variable (t : TransformSnapshot)

/-! ### Axes -/

def axes : CoordinateSpace → Axis ℚ × Axis ℚ
  | .capturePixels => (⟨0, 1⟩, ⟨0, 1⟩)
  | .frameNormalized | .targetNormalized =>
    (⟨0, t.frameExtent.width⟩, ⟨0, t.frameExtent.height⟩)
  | .targetLogical =>
    match t.target with
    | some placement => (⟨0, placement.targetScale.x⟩, ⟨0, placement.targetScale.y⟩)
    | none => (⟨0, 1⟩, ⟨0, 1⟩)
  | .desktopLogical =>
    match t.target with
    | some placement => (⟨placement.desktopOrigin.1, placement.desktopScale.x⟩,
        ⟨placement.desktopOrigin.2, placement.desktopScale.y⟩)
    | none => (⟨0, 1⟩, ⟨0, 1⟩)

variable {t} {space : CoordinateSpace}

theorem extent_pos (h : t.supports space = true) :
    0 < t.frameExtent.width ∧ 0 < t.frameExtent.height := by
  have hempty : t.frameExtent.isEmpty = false := by
    cases space <;> simp_all [supports]
  unfold PixelExtent.isEmpty at hempty
  rw [Bool.or_eq_false_iff, beq_eq_false_iff_ne, beq_eq_false_iff_ne] at hempty
  omega

theorem axes_pos (h : t.supports space = true) :
    0 < (t.axes space).1.scale ∧ 0 < (t.axes space).2.scale := by
  obtain ⟨hwidth, hheight⟩ := extent_pos h
  cases space with
  | capturePixels => exact ⟨one_pos, one_pos⟩
  | frameNormalized | targetNormalized => exact ⟨Nat.cast_pos.mpr hwidth, Nat.cast_pos.mpr hheight⟩
  | targetLogical =>
    unfold axes
    cases t.target with
    | none => exact ⟨one_pos, one_pos⟩
    | some placement => exact ⟨placement.targetScale.x_pos, placement.targetScale.y_pos⟩
  | desktopLogical =>
    unfold axes
    cases t.target with
    | none => exact ⟨one_pos, one_pos⟩
    | some placement => exact ⟨placement.desktopScale.x_pos, placement.desktopScale.y_pos⟩

theorem target_isSome (h : t.supports space = true)
    (hspace : space = .targetLogical ∨ space = .desktopLogical) : ∃ placement, t.target = some placement := by
  refine Option.isSome_iff_exists.mp ?_
  rcases hspace with rfl | rfl
  · exact (Bool.and_eq_true _ _ ▸ h : _ ∧ _).1
  · exact (Bool.and_eq_true _ _ ▸ h : _ ∧ _).1

theorem projectToPixels_eq (h : t.supports space = true) (x y : ℚ) : t.projectToPixels space x y =
    .ok ((t.axes space).1.project x, (t.axes space).2.project y) := by
  unfold projectToPixels
  rw [h, if_neg (by simp)]
  cases space with
  | capturePixels => simp [axes, Axis.project]
  | frameNormalized | targetNormalized => simp [axes, Axis.project]
  | targetLogical =>
    obtain ⟨placement, htarget⟩ := target_isSome h (Or.inl rfl)
    simp [axes, Axis.project, TransformSnapshot.placement, htarget]
    rfl
  | desktopLogical =>
    obtain ⟨placement, htarget⟩ := target_isSome h (Or.inr rfl)
    simp [axes, Axis.project, TransformSnapshot.placement, htarget]
    rfl

theorem projectFromPixels_eq (h : t.supports space = true) (x y : ℚ) :
    t.projectFromPixels space x y = .ok ((t.axes space).1.back x, (t.axes space).2.back y) := by
  unfold projectFromPixels
  rw [h, if_neg (by simp)]
  cases space with
  | capturePixels => simp [axes, Axis.back]
  | frameNormalized | targetNormalized => simp [axes, Axis.back]
  | targetLogical =>
    obtain ⟨placement, htarget⟩ := target_isSome h (Or.inl rfl)
    simp [axes, Axis.back, TransformSnapshot.placement, htarget]
    rfl
  | desktopLogical =>
    obtain ⟨placement, htarget⟩ := target_isSome h (Or.inr rfl)
    simp [axes, Axis.back, TransformSnapshot.placement, htarget]
    rfl

theorem projectToPixels_unsupported (h : t.supports space = false) (x y : ℚ) :
    t.projectToPixels space x y = .error .conversionUnsupported := by
  unfold projectToPixels
  rw [h]
  rfl

theorem projectFromPixels_unsupported (h : t.supports space = false) (x y : ℚ) :
    t.projectFromPixels space x y = .error .conversionUnsupported := by
  unfold projectFromPixels
  rw [h]
  rfl

theorem supports_of_projectToPixels {x y : ℚ} {p : ℚ × ℚ} (h : t.projectToPixels space x y = .ok p) :
    t.supports space = true ∧ p = ((t.axes space).1.project x, (t.axes space).2.project y) := by
  cases hs : t.supports space with
  | false =>
    rw [projectToPixels_unsupported hs] at h
    cases h
  | true =>
    rw [projectToPixels_eq hs] at h
    exact ⟨rfl, (Except.ok.inj h).symm⟩

theorem supports_of_projectFromPixels {x y : ℚ} {p : ℚ × ℚ}
    (h : t.projectFromPixels space x y = .ok p) :
    t.supports space = true ∧ p = ((t.axes space).1.back x, (t.axes space).2.back y) := by
  cases hs : t.supports space with
  | false =>
    rw [projectFromPixels_unsupported hs] at h
    cases h
  | true =>
    rw [projectFromPixels_eq hs] at h
    exact ⟨rfl, (Except.ok.inj h).symm⟩

/-! ### Points -/

section Points

variable {p q : Point} {space' : CoordinateSpace}

def onPixels (t : TransformSnapshot) (p : Point) : ℚ × ℚ :=
  ((t.axes p.space).1.project p.x, (t.axes p.space).2.project p.y)

theorem pointNew_eq_ok {x y : ℚ} (h : Point.new space x y = .ok p) : p = ⟨space, x, y⟩ := by
  unfold Point.new at h
  split at h
  · cases h
  · exact (Except.ok.inj h).symm

theorem convertPoint_eq (h : t.supports p.space = true) (hspace : t.supports space = true) :
    t.convertPoint p space =
      Point.new space ((t.axes space).1.back (t.onPixels p).1) ((t.axes space).2.back (t.onPixels p).2) := by
  unfold convertPoint
  rw [projectToPixels_eq h]
  show (t.projectFromPixels space _ _ >>= _) = _
  rw [projectFromPixels_eq hspace]
  rfl

theorem convertPoint_eq_ok (h : t.convertPoint p space = .ok q) :
    t.supports p.space = true ∧ t.supports space = true ∧ q.space = space ∧
      q.x = (t.axes space).1.back (t.onPixels p).1 ∧ q.y = (t.axes space).2.back (t.onPixels p).2 := by
  obtain ⟨_, hto, h⟩ := bind_eq_ok.mp h
  obtain ⟨_, hfrom, h⟩ := bind_eq_ok.mp h
  obtain ⟨hp, rfl⟩ := supports_of_projectToPixels hto
  obtain ⟨hspace, rfl⟩ := supports_of_projectFromPixels hfrom
  obtain rfl := pointNew_eq_ok h
  exact ⟨hp, hspace, rfl, rfl, rfl⟩

theorem onPixels_convertPoint (h : t.convertPoint p space = .ok q) : t.onPixels q = t.onPixels p := by
  obtain ⟨-, hspace, rfl, hx, hy⟩ := convertPoint_eq_ok h
  obtain ⟨hscale, hscale'⟩ := axes_pos hspace
  show ((t.axes q.space).1.project q.x, (t.axes q.space).2.project q.y) = t.onPixels p
  rw [hx, hy, Axis.project_back hscale, Axis.project_back hscale']

theorem convertPoint_convertPoint (h : t.convertPoint p space = .ok q) (space' : CoordinateSpace) :
    t.convertPoint q space' = t.convertPoint p space' := by
  obtain ⟨hp, hspace, hq, -, -⟩ := convertPoint_eq_ok h
  rw [← hq] at hspace
  cases hs : t.supports space' with
  | true => rw [convertPoint_eq hspace hs, convertPoint_eq hp hs, onPixels_convertPoint h]
  | false =>
    have hfails : ∀ p : Point, t.supports p.space = true →
        t.convertPoint p space' = .error .conversionUnsupported := by
      intro p hp
      unfold convertPoint
      rw [projectToPixels_eq hp]
      show (t.projectFromPixels space' _ _ >>= _) = _
      rw [projectFromPixels_unsupported hs]
      rfl
    rw [hfails q hspace, hfails p hp]

theorem convertPoint_self (h : t.convertPoint p p.space = .ok q) : q = p := by
  obtain ⟨hp, -, hspace, hx, hy⟩ := convertPoint_eq_ok h
  obtain ⟨hscale, hscale'⟩ := axes_pos hp
  unfold onPixels at hx hy
  rw [Axis.back_project hscale] at hx
  rw [Axis.back_project hscale'] at hy
  cases p
  cases q
  simp_all

end Points

/-! ### Rectangles -/

section Rects

variable {r r' : Rect}

theorem rectNew_eq_ok {left top right bottom : ℚ} (h : Rect.new space left top right bottom = .ok r) :
    r.space = space ∧ r.left = left ∧ r.top = top ∧ r.right = right ∧ r.bottom = bottom := by
  unfold Rect.new at h
  split at h
  · split at h
    · obtain rfl := Except.ok.inj h
      exact ⟨rfl, rfl, rfl, rfl, rfl⟩
    · cases h
  · cases h

theorem rectNew_self (r : Rect) : Rect.new r.space r.left r.top r.right r.bottom = .ok r := by
  unfold Rect.new
  rw [dif_pos ⟨r.columns, r.lines⟩, dif_pos r.unit]

theorem pointNew_corners (r : Rect) :
    Point.new r.space r.left r.top = .ok r.near ∧ Point.new r.space r.right r.bottom = .ok r.far := by
  have hunit := r.unit
  unfold Point.new
  cases hnormalized : r.space.isNormalized with
  | false => exact ⟨rfl, rfl⟩
  | true =>
    have hall := hunit hnormalized
    simp only [Bool.and_eq_true] at hall
    obtain ⟨⟨⟨hleft, htop⟩, hright⟩, hbottom⟩ := hall
    rw [hleft, htop, hright, hbottom]
    exact ⟨rfl, rfl⟩

theorem convertRect_eq_ok (h : t.convertRect r space = .ok r') :
    t.supports r.space = true ∧ t.supports space = true ∧ r'.space = space ∧
      r'.left = (t.axes space).1.back (t.onPixels r.near).1 ∧
      r'.top = (t.axes space).2.back (t.onPixels r.near).2 ∧
      r'.right = (t.axes space).1.back (t.onPixels r.far).1 ∧
      r'.bottom = (t.axes space).2.back (t.onPixels r.far).2 := by
  obtain ⟨_, hnear, h⟩ := bind_eq_ok.mp h
  obtain ⟨_, hfar, h⟩ := bind_eq_ok.mp h
  obtain ⟨_, hnear', h⟩ := bind_eq_ok.mp h
  obtain ⟨_, hfar', h⟩ := bind_eq_ok.mp h
  obtain ⟨hr, rfl⟩ := supports_of_projectToPixels hnear
  obtain ⟨-, rfl⟩ := supports_of_projectToPixels hfar
  obtain ⟨hspace, rfl⟩ := supports_of_projectFromPixels hnear'
  obtain ⟨-, rfl⟩ := supports_of_projectFromPixels hfar'
  obtain ⟨heq, hleft, htop, hright, hbottom⟩ := rectNew_eq_ok h
  exact ⟨hr, hspace, heq, hleft, htop, hright, hbottom⟩

theorem convertRect_eq (h : t.supports r.space = true) (hspace : t.supports space = true) :
    t.convertRect r space =
      Rect.new space ((t.axes space).1.back (t.onPixels r.near).1)
        ((t.axes space).2.back (t.onPixels r.near).2) ((t.axes space).1.back (t.onPixels r.far).1)
        ((t.axes space).2.back (t.onPixels r.far).2) := by
  unfold convertRect
  rw [projectToPixels_eq h, projectToPixels_eq h]
  show (t.projectFromPixels space _ _ >>= _) = _
  rw [projectFromPixels_eq hspace]
  show (t.projectFromPixels space _ _ >>= _) = _
  rw [projectFromPixels_eq hspace]
  rfl

theorem convertRect_corners : t.convertRect r space = .ok r' ↔ r'.space = space ∧
    t.convertPoint r.near space = .ok r'.near ∧ t.convertPoint r.far space = .ok r'.far := by
  constructor
  · intro h
    obtain ⟨hr, hspace, rfl, hleft, htop, hright, hbottom⟩ := convertRect_eq_ok h
    obtain ⟨hnear, hfar⟩ := pointNew_corners r'
    refine ⟨rfl, ?_, ?_⟩
    · rw [convertPoint_eq hr hspace, ← hleft, ← htop]
      exact hnear
    · rw [convertPoint_eq hr hspace, ← hright, ← hbottom]
      exact hfar
  · rintro ⟨rfl, hnear, hfar⟩
    obtain ⟨hr, hspace, -, hleft, htop⟩ := convertPoint_eq_ok hnear
    obtain ⟨-, -, -, hright, hbottom⟩ := convertPoint_eq_ok hfar
    rw [convertRect_eq hr hspace, ← hleft, ← htop, ← hright, ← hbottom]
    exact rectNew_self r'

theorem convertRect_edges (h : t.convertRect r space = .ok r') :
    (r'.left < r'.right ↔ r.left < r.right) ∧ (r'.top < r'.bottom ↔ r.top < r.bottom) := by
  obtain ⟨hr, hspace, -, hleft, htop, hright, hbottom⟩ := convertRect_eq_ok h
  obtain ⟨hscale, hscale'⟩ := axes_pos hspace
  obtain ⟨hown, hown'⟩ := axes_pos hr
  rw [hleft, htop, hright, hbottom, Axis.back_lt hscale, Axis.back_lt hscale']
  exact ⟨Axis.project_lt hown, Axis.project_lt hown'⟩

theorem convertRect_ordered (r : Rect) (space : CoordinateSpace) :
    t.convertRect r space ≠ .error .negativeSize := by
  cases hr : t.supports r.space with
  | false =>
    unfold convertRect
    rw [projectToPixels_unsupported hr]
    intro h
    cases h
  | true =>
    cases hspace : t.supports space with
    | false =>
      unfold convertRect
      rw [projectToPixels_eq hr, projectToPixels_eq hr]
      show (t.projectFromPixels space _ _ >>= _) ≠ _
      rw [projectFromPixels_unsupported hspace]
      intro h
      cases h
    | true =>
      obtain ⟨hscale, hscale'⟩ := axes_pos hspace
      obtain ⟨hown, hown'⟩ := axes_pos hr
      rw [convertRect_eq hr hspace]
      unfold Rect.new
      rw [dif_pos ⟨(Axis.back_le hscale).mpr ((Axis.project_le hown).mpr r.columns),
        (Axis.back_le hscale').mpr ((Axis.project_le hown').mpr r.lines)⟩]
      split
      · intro h
        cases h
      · intro h
        cases h

theorem resolve_convertRect (h : t.convertRect r space = .ok r') (policy : ClipPolicy) :
    t.resolveCapturePixels r' policy = t.resolveCapturePixels r policy := by
  obtain ⟨hr, hspace, rfl, -⟩ := convertRect_eq_ok h
  obtain ⟨-, hnear, hfar⟩ := convertRect_corners.mp h
  have hcorner : t.projectToPixels r'.space r'.left r'.top = t.projectToPixels r.space r.left r.top := by
    rw [projectToPixels_eq hspace, projectToPixels_eq hr]
    exact congrArg Except.ok (onPixels_convertPoint hnear)
  have hcorner' :
      t.projectToPixels r'.space r'.right r'.bottom = t.projectToPixels r.space r.right r.bottom := by
    rw [projectToPixels_eq hspace, projectToPixels_eq hr]
    exact congrArg Except.ok (onPixels_convertPoint hfar)
  obtain ⟨hcolumns, hlines⟩ := convertRect_edges h
  unfold resolveCapturePixels
  rw [hcorner, hcorner']
  simp only [sub_pos, hcolumns, hlines]

end Rects

/-- **Conversions are a groupoid.**  Two conversions in a row are one, a conversion and its way back
are none; rectangles are converted corner by corner, with their edges in order, and cover the same
pixels in every space. -/
theorem conversion_groupoid (t : TransformSnapshot) :
    (∀ (p q : Point) (b : CoordinateSpace), t.convertPoint p b = .ok q →
      (∀ p', t.convertPoint q p.space = .ok p' → p' = p) ∧
        ∀ c, t.convertPoint q c = t.convertPoint p c) ∧
    ∀ (r : Rect) (b : CoordinateSpace), t.convertRect r b ≠ .error .negativeSize ∧
      ∀ r', (t.convertRect r b = .ok r' ↔ r'.space = b ∧ t.convertPoint r.near b = .ok r'.near ∧
          t.convertPoint r.far b = .ok r'.far) ∧
        (t.convertRect r b = .ok r' →
          ((r'.left < r'.right ↔ r.left < r.right) ∧ (r'.top < r'.bottom ↔ r.top < r.bottom)) ∧
            ∀ policy, t.resolveCapturePixels r' policy = t.resolveCapturePixels r policy) := by
  refine ⟨fun p q b h => ⟨fun p' hback => ?_, convertPoint_convertPoint h⟩,
    fun r b => ⟨convertRect_ordered r b, fun r' => ⟨convertRect_corners, fun h => ?_⟩⟩⟩
  · rw [convertPoint_convertPoint h] at hback
    exact convertPoint_self hback
  · exact ⟨convertRect_edges h, resolve_convertRect h⟩

/-- The middle of a frame in capture pixels, normalized and back. -/
theorem conversion_groupoid_sample :
    let t := withTargetExtent 1 ⟨4, 4⟩
    t.convertPoint ⟨.capturePixels, 2, 1⟩ .frameNormalized = .ok ⟨.frameNormalized, 1 / 2, 1 / 4⟩ ∧
      t.convertPoint ⟨.frameNormalized, 1 / 2, 1 / 4⟩ .targetNormalized =
        t.convertPoint ⟨.capturePixels, 2, 1⟩ .targetNormalized := by
  have h : (withTargetExtent 1 ⟨4, 4⟩).convertPoint ⟨.capturePixels, 2, 1⟩ .frameNormalized =
      .ok ⟨.frameNormalized, 1 / 2, 1 / 4⟩ := by
    decide +kernel
  exact ⟨h, ((conversion_groupoid (withTargetExtent 1 ⟨4, 4⟩)).1 _ _ _ h).2 _⟩

end TransformSnapshot

end MadoPilot.Core
