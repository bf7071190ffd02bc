import Mathlib.Data.Rat.Defs
import Mathlib.Algebra.Order.Ring.Unbundled.Rat
import MadoPilot.Core.Operation

/-!
# Extents, placements and transform snapshots

The geometry that is authoritative when a frame is captured.  The source keeps scales, origins and
logical sizes in `f64` and refuses values that are not finite; a finite `f64` is kept here as the
rational it denotes, so that `==` on the source's values is equality.  What `f64` arithmetic does to
an exact result is the argument `round`: it returns the value the hardware rounds to, or `none` for
an overflow to infinity; `some` is exact arithmetic.
-/

namespace MadoPilot.Core

structure PixelExtent where
  width : ℕ
  height : ℕ
  deriving DecidableEq, Repr

namespace PixelExtent

def isEmpty (e : PixelExtent) : Bool := e.width == 0 || e.height == 0

end PixelExtent

/-- Capture pixels per logical unit, per axis. -/
structure Scale where
  x : ℚ
  y : ℚ
  x_pos : 0 < x
  y_pos : 0 < y
  deriving DecidableEq

/-- Where a frame sits relative to its target and desktop, and at what scales. -/
structure TargetPlacement where
  desktopOrigin : ℚ × ℚ
  logicalSize : ℚ × ℚ
  targetScale : Scale
  desktopScale : Scale
  width_pos : 0 < logicalSize.1
  height_pos : 0 < logicalSize.2
  deriving DecidableEq

/-- How far a scaled logical size may sit from the pixel extent it produced. -/
def coverageTolerancePixels : ℚ := 1 / 2

section Covers

variable (round : ℚ → Option ℚ)

/-- One axis of the coverage test; a product that overflowed fails it. -/
def coversAxis (scaledLogical : Option ℚ) (pixels : ℕ) : Bool :=
  match scaledLogical.bind fun s => round (s - pixels) with
  | some d => decide (|d| ≤ coverageTolerancePixels)
  | none => false

/-- Reports whether the placement's logical rectangle scales to `extent`. -/
def TargetPlacement.covers (p : TargetPlacement) (extent : PixelExtent) : Bool :=
  coversAxis round (round (p.logicalSize.1 * p.targetScale.x)) extent.width &&
    coversAxis round (round (p.logicalSize.2 * p.targetScale.y)) extent.height

end Covers

inductive GeometryFault where
  | notFinite | negativeSize | outOfNormalizedRange | emptyRegion | spaceMismatch
  | conversionUnsupported | outsideExtent | extentOverflow
  deriving DecidableEq, Repr

/-- The geometry that was authoritative when one frame was captured. -/
structure TransformSnapshot where
  geometry : ℕ
  frameExtent : PixelExtent
  coversTarget : Bool
  target : Option TargetPlacement
  deriving DecidableEq

namespace TransformSnapshot

def frameOnly (geometry : ℕ) (extent : PixelExtent) : TransformSnapshot :=
  ⟨geometry, extent, false, none⟩

def withTargetExtent (geometry : ℕ) (extent : PixelExtent) : TransformSnapshot :=
  ⟨geometry, extent, true, none⟩

def withTarget (round : ℚ → Option ℚ) (geometry : ℕ) (extent : PixelExtent)
    (placement : TargetPlacement) : Except GeometryFault TransformSnapshot :=
  if placement.covers round extent then .ok ⟨geometry, extent, true, some placement⟩
  else .error .spaceMismatch

end TransformSnapshot

end MadoPilot.Core
