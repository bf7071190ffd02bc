import MadoPilot.Core.Capability
import MadoPilot.Core.Geometry

/-!
# Conversions between coordinate spaces

A transform snapshot brings points into capture pixels and back, and resolves a rectangle to the
pixels it covers.  The arithmetic is exact: every coordinate is finite, and no conversion overflows.

* `TransformSnapshot.convertPoint`, `TransformSnapshot.resolveCapturePixels` : the two conversions;
* `resolveAgainst_eq_ok` : what is resolved against an extent has pixels and lies inside.
-/

namespace MadoPilot.Core

namespace GeometryFault

def status : GeometryFault → Status
  | conversionUnsupported => .unsupported
  | _ => .invalidArgument

def detail : GeometryFault → String
  | notFinite => "geometry contains a non-finite value"
  | negativeSize => "rectangle edges are inverted"
  | outOfNormalizedRange => "normalized geometry falls outside zero through one"
  | emptyRegion => "operation requires a non-empty region"
  | spaceMismatch => "geometry values use different coordinate spaces"
  | conversionUnsupported => "no authoritative transform represents the requested conversion"
  | outsideExtent => "region falls outside the destination extent and clipping was not permitted"
  | extentOverflow => "converted geometry exceeds the destination range"

def toError (f : GeometryFault) : Error := ⟨f.status, f.detail⟩

end GeometryFault

/-! ### Points and rectangles -/

/-- Values in the space are confined to `0.0..=1.0`. -/
def CoordinateSpace.isNormalized : CoordinateSpace → Bool
  | .frameNormalized | .targetNormalized => true
  | _ => false

def inUnitRange (value : ℚ) : Bool := decide (0 ≤ value ∧ value ≤ 1)

def Point.new (space : CoordinateSpace) (x y : ℚ) : Except GeometryFault Point :=
  if space.isNormalized && !(inUnitRange x && inUnitRange y) then .error .outOfNormalizedRange
  else .ok ⟨space, x, y⟩

structure Rect where
  space : CoordinateSpace
  left : ℚ
  top : ℚ
  right : ℚ
  bottom : ℚ
  columns : left ≤ right
  lines : top ≤ bottom
  unit : space.isNormalized = true →
    (inUnitRange left && inUnitRange top && inUnitRange right && inUnitRange bottom) = true
  deriving DecidableEq

namespace Rect

def new (space : CoordinateSpace) (left top right bottom : ℚ) : Except GeometryFault Rect :=
  if h : left ≤ right ∧ top ≤ bottom then
    if hunit : space.isNormalized = true →
        (inUnitRange left && inUnitRange top && inUnitRange right && inUnitRange bottom) = true then
      .ok ⟨space, left, top, right, bottom, h.1, h.2, hunit⟩
    else .error .outOfNormalizedRange
  else .error .negativeSize

variable (r : Rect)

def isEmpty : Bool := decide (r.right - r.left ≤ 0) || decide (r.bottom - r.top ≤ 0)

def requireNonEmpty : Except GeometryFault Rect := if r.isEmpty then .error .emptyRegion else .ok r

end Rect

/-- What to do when a converted region does not fit the destination extent. -/
inductive ClipPolicy where
  | reject | clip
  deriving DecidableEq, Repr

/-! ### Pixels -/

def integralToI32 (integral : ℤ) : Except GeometryFault Int32 :=
  if integral < Int32.minValue.toInt ∨ Int32.maxValue.toInt < integral then .error .extentOverflow
  else .ok (Int32.ofInt integral)

def floorToPixel (value : ℚ) : Except GeometryFault Int32 := integralToI32 value.floor

def ceilToPixel (value : ℚ) : Except GeometryFault Int32 := integralToI32 value.ceil

def PixelRect.resolveAgainst (r : PixelRect) (extent : PixelExtent) (policy : ClipPolicy) :
    Except GeometryFault PixelRect := do
  let bounds ← extent.toRect
  -- an empty region is refused under either policy
  if r.isEmpty then .error .emptyRegion
  else
    match policy with
    | .reject => if bounds.containsRect r then .ok r else .error .outsideExtent
    | .clip =>
      match r.intersect bounds with
      | some shared => .ok shared
      | none => .error .outsideExtent

namespace TransformSnapshot

variable (t : TransformSnapshot)

/-- The snapshot can convert between the space and capture pixels. -/
def supports : CoordinateSpace → Bool
  | .capturePixels | .frameNormalized => !t.frameExtent.isEmpty
  | .targetNormalized => t.coversTarget && !t.frameExtent.isEmpty
  | .targetLogical | .desktopLogical => t.target.isSome && !t.frameExtent.isEmpty

def placement : Except GeometryFault TargetPlacement :=
  match t.target with
  | some placement => .ok placement
  | none => .error .conversionUnsupported

def projectToPixels (space : CoordinateSpace) (x y : ℚ) : Except GeometryFault (ℚ × ℚ) :=
  if !t.supports space then .error .conversionUnsupported
  else
    match space with
    | .capturePixels => .ok (x, y)
    | .frameNormalized | .targetNormalized =>
      .ok (x * t.frameExtent.width, y * t.frameExtent.height)
    | .targetLogical => do
      let placement ← t.placement
      .ok (x * placement.targetScale.x, y * placement.targetScale.y)
    | .desktopLogical => do
      let placement ← t.placement
      .ok ((x - placement.desktopOrigin.1) * placement.desktopScale.x,
        (y - placement.desktopOrigin.2) * placement.desktopScale.y)

def projectFromPixels (space : CoordinateSpace) (x y : ℚ) : Except GeometryFault (ℚ × ℚ) :=
  if !t.supports space then .error .conversionUnsupported
  else
    match space with
    | .capturePixels => .ok (x, y)
    | .frameNormalized | .targetNormalized =>
      .ok (x / t.frameExtent.width, y / t.frameExtent.height)
    | .targetLogical => do
      let placement ← t.placement
      .ok (x / placement.targetScale.x, y / placement.targetScale.y)
    | .desktopLogical => do
      let placement ← t.placement
      .ok (x / placement.desktopScale.x + placement.desktopOrigin.1,
        y / placement.desktopScale.y + placement.desktopOrigin.2)

def convertPoint (p : Point) (space : CoordinateSpace) : Except GeometryFault Point := do
  let (pixelX, pixelY) ← t.projectToPixels p.space p.x p.y
  let (x, y) ← t.projectFromPixels space pixelX pixelY
  Point.new space x y

def convertRect (r : Rect) (space : CoordinateSpace) : Except GeometryFault Rect := do
  let (left, top) ← t.projectToPixels r.space r.left r.top
  let (right, bottom) ← t.projectToPixels r.space r.right r.bottom
  let (left, top) ← t.projectFromPixels space left top
  let (right, bottom) ← t.projectFromPixels space right bottom
  Rect.new space left top right bottom

/-- `resolve_capture_pixels`: an axis that the request does not span keeps its near edge. -/
def resolveCapturePixels (r : Rect) (policy : ClipPolicy) : Except GeometryFault PixelRect := do
  let (left, top) ← t.projectToPixels r.space r.left r.top
  let (right, bottom) ← t.projectToPixels r.space r.right r.bottom
  let left ← floorToPixel left
  let top ← floorToPixel top
  let right ← ceilToPixel right
  let bottom ← ceilToPixel bottom
  let resolved ← PixelRect.new left top (if 0 < r.right - r.left then right else left)
    (if 0 < r.bottom - r.top then bottom else top)
  resolved.resolveAgainst t.frameExtent policy

end TransformSnapshot

/-! ### What is resolved -/

def PixelRect.Placed (r : PixelRect) : Prop := 0 ≤ r.left.toInt ∧ 0 ≤ r.top.toInt

theorem new_eq_ok {left top right bottom : Int32} {r : PixelRect}
    (h : PixelRect.new left top right bottom = .ok r) :
    r.left = left ∧ r.top = top ∧ r.right = right ∧ r.bottom = bottom := by
  unfold PixelRect.new at h
  split at h
  · obtain rfl := Except.ok.inj h
    exact ⟨rfl, rfl, rfl, rfl⟩
  · cases h

theorem intersect_placed {r other shared : PixelRect} (h : r.intersect other = some shared)
    (hother : other.Placed) : shared.Placed := by
  have hedge : ∀ a b : Int32, 0 ≤ b.toInt → 0 ≤ (if a ≤ b then b else a).toInt := by
    intro a b hb
    split_ifs with hab
    · exact hb
    · rw [Int32.le_iff_toInt_le] at hab
      omega
  unfold PixelRect.intersect at h
  dsimp only at h
  rw [Option.ite_none_left_eq_some] at h
  obtain ⟨hleft, htop, -, -⟩ := new_eq_ok (Lib.toOption_eq_some.mp h.2)
  unfold PixelRect.Placed
  rw [hleft, htop]
  exact ⟨hedge _ _ hother.1, hedge _ _ hother.2⟩

theorem resolveAgainst_eq_ok {r r' : PixelRect} {extent : PixelExtent} {policy : ClipPolicy}
    (h : r.resolveAgainst extent policy = .ok r') : r'.Placed := by
  obtain ⟨bounds, hbounds, h⟩ := Lib.bind_eq_ok.mp h
  obtain ⟨hleft, htop, -, -⟩ := toRect_eq_ok hbounds
  have hplaced : bounds.Placed := ⟨hleft.ge, htop.ge⟩
  split at h
  · cases h
  · cases policy with
    | reject =>
      dsimp only at h
      split at h
      · rename_i hinside
        obtain rfl := Except.ok.inj h
        obtain ⟨⟨hcolumns, hlines⟩, -⟩ := PixelRect.containsRect_iff.mp hinside
        exact ⟨hplaced.1.trans hcolumns, hplaced.2.trans hlines⟩
      · cases h
    | clip =>
      dsimp only at h
      split at h
      · rename_i shared hshared
        obtain rfl := Except.ok.inj h
        exact intersect_placed hshared hplaced
      · cases h

theorem resolveCapturePixels_eq_ok {t : TransformSnapshot} {r : Rect} {policy : ClipPolicy}
    {resolved : PixelRect} (h : t.resolveCapturePixels r policy = .ok resolved) :
    resolved.Placed := by
  unfold TransformSnapshot.resolveCapturePixels at h
  obtain ⟨_, -, h⟩ := Lib.bind_eq_ok.mp h
  obtain ⟨_, -, h⟩ := Lib.bind_eq_ok.mp h
  obtain ⟨_, -, h⟩ := Lib.bind_eq_ok.mp h
  obtain ⟨_, -, h⟩ := Lib.bind_eq_ok.mp h
  obtain ⟨_, -, h⟩ := Lib.bind_eq_ok.mp h
  obtain ⟨_, -, h⟩ := Lib.bind_eq_ok.mp h
  obtain ⟨_, -, h⟩ := Lib.bind_eq_ok.mp h
  exact resolveAgainst_eq_ok h

end MadoPilot.Core
