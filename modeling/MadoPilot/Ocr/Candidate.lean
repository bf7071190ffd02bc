import MadoPilot.Core.Projection
import MadoPilot.Ocr.Normalization

/-!
# The candidates of a text backend

What a backend emits is not trusted: its coordinates and its confidence may be no numbers at all.  A
coordinate is kept here as the rational it denotes, and is `none` where it is not finite; the
arithmetic on finite coordinates is exact.

* `candidateInterestMembership` : the zones that the centroid of a candidate lies in, as bits;
* `normalizeConfidence`, `normalizeGeometry` : what a region reports of a candidate.
-/

namespace MadoPilot.Ocr

open MadoPilot.Core MadoPilot.Lib

/-- A number that a backend emits. -/
abbrev Coordinate := Option ℚ

/-- Four points, in the order around a quadrilateral. -/
structure Quad (α : Type*) where
  p0 : α
  p1 : α
  p2 : α
  p3 : α
  deriving DecidableEq

namespace Quad

variable {α β : Type*} (q : Quad α)

/-- The same quadrilateral, from the next point on. -/
def shifted : Quad α := ⟨q.p1, q.p2, q.p3, q.p0⟩

/-- The same quadrilateral, the other way around. -/
def reversed : Quad α := ⟨q.p3, q.p2, q.p1, q.p0⟩

def mapM {ε : Type*} (f : α → Except ε β) : Except ε (Quad β) := do
  let p0 ← f q.p0
  let p1 ← f q.p1
  let p2 ← f q.p2
  let p3 ← f q.p3
  .ok ⟨p0, p1, p2, p3⟩

end Quad

/-- One untrusted candidate; its points are relative to the origin of the effective source region. -/
structure BackendCandidate where
  text : ByteArray
  quadrilateral : Quad (Coordinate × Coordinate)
  confidence : Coordinate
  detectorOrder : UInt32

def checkedPoint (extent : PixelExtent) : Coordinate × Coordinate → Except OcrFault (ℚ × ℚ)
  | (some x, some y) =>
    if x < 0 ∨ y < 0 ∨ extent.width < x ∨ extent.height < y then .error .backendGeometryInvalid
    else .ok (x, y)
  | _ => .error .backendGeometryInvalid

/-! ### Zones -/

def maxOcrZones : ℕ := 16

/-- Interest rectangles in the order of the caller, relative to one mapped envelope. -/
structure BackendInterests where
  zones : List PixelRect
  count : 1 ≤ zones.length ∧ zones.length ≤ maxOcrZones
  deriving DecidableEq

def BackendInterests.new (zones : List PixelRect) : Except OcrFault BackendInterests :=
  if h : 1 ≤ zones.length ∧ zones.length ≤ maxOcrZones then .ok ⟨zones, h⟩
  else .error .zoneCountOutOfRange

/-- The mean of the midpoints of the two diagonals. -/
def centroid (q : Quad (ℚ × ℚ)) : ℚ × ℚ :=
  let diagonal0 := ((q.p0.1 + q.p2.1) * (1 / 2), (q.p0.2 + q.p2.2) * (1 / 2))
  let diagonal1 := ((q.p1.1 + q.p3.1) * (1 / 2), (q.p1.2 + q.p3.2) * (1 / 2))
  ((diagonal0.1 + diagonal1.1) * (1 / 2), (diagonal0.2 + diagonal1.2) * (1 / 2))

def holds (zone : PixelRect) (point : ℚ × ℚ) : Bool :=
  decide ((zone.left.toInt : ℚ) ≤ point.1) && decide (point.1 < zone.right.toInt) &&
    decide ((zone.top.toInt : ℚ) ≤ point.2) && decide (point.2 < zone.bottom.toInt)

def membershipStep (point : ℚ × ℚ) (membership : BitVec 16) (zone : PixelRect × ℕ) : BitVec 16 :=
  if holds zone.1 point then membership ||| 1#16 <<< zone.2 else membership

/-- The loop over the zones: the bit of each zone that holds the point. -/
def membershipOf (point : ℚ × ℚ) (zones : List PixelRect) : BitVec 16 :=
  zones.zipIdx.foldl (membershipStep point) 0#16

def candidateInterestMembership (quadrilateral : Quad (Coordinate × Coordinate))
    (sourceExtent : PixelExtent) (interests : BackendInterests) : Except OcrFault (BitVec 16) := do
  let points ← quadrilateral.mapM (checkedPoint sourceExtent)
  .ok (membershipOf (centroid points) interests.zones)

/-! ### Regions -/

def roundTiesEven (x : ℚ) : ℤ :=
  let rest := x - x.floor
  if rest < 1 / 2 then x.floor
  else if 1 / 2 < rest then x.floor + 1
  else if x.floor % 2 = 0 then x.floor else x.floor + 1

def normalizeConfidence : Coordinate → Except OcrFault ℚ
  | some value =>
    if 0 ≤ value ∧ value ≤ 1 then .ok (roundTiesEven (value * 100000) / 100000)
    else .error .backendConfidenceOutOfRange
  | none => .error .backendConfidenceOutOfRange

/-- The machine epsilon of an `f64`. -/
def f64Epsilon : ℚ := 1 / 4503599627370496

/-- Twice the signed area of three points that follow each other. -/
def cross (a b c : ℚ × ℚ) : ℚ := (b.1 - a.1) * (c.2 - b.2) - (b.2 - a.2) * (c.1 - b.1)

/-- The loop over the corners: each turns, and all the same way. -/
def checkTurns : List ℚ → ℚ → Except OcrFault PUnit
  | [], _ => .ok ⟨⟩
  | turn :: turns, direction =>
    if |turn| ≤ f64Epsilon then .error .backendGeometryInvalid
    else if direction = 0 then checkTurns turns turn
    else if decide (0 < turn) ≠ decide (0 < direction) then .error .backendGeometryInvalid
    else checkTurns turns direction

def validateRelativeQuad (points : Quad (Coordinate × Coordinate)) (region : PixelRect) :
    Except OcrFault (Quad (ℚ × ℚ)) := do
  let q ← points.mapM (checkedPoint region.extent)
  checkTurns [cross q.p0 q.p1 q.p2, cross q.p1 q.p2 q.p3, cross q.p2 q.p3 q.p0, cross q.p3 q.p0 q.p1] 0
  .ok q

def normalizeGeometry (points : Quad (Coordinate × Coordinate)) (region : PixelRect)
    (transform : TransformSnapshot) (outputSpace : CoordinateSpace) : Except Error (Quad Point) := do
  let q ← (validateRelativeQuad points region).mapError OcrFault.toError
  q.mapM fun p => do
    let capturePoint ← (Point.new .capturePixels (region.left.toInt + p.1) (region.top.toInt + p.2)).mapError
      GeometryFault.toError
    (transform.convertPoint capturePoint outputSpace).mapError GeometryFault.toError

structure RecognizedRegion where
  text : List Char
  geometry : Quad Point
  confidence : ℚ
  deriving DecidableEq

end MadoPilot.Ocr
