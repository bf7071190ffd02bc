import MadoPilot.Lib.Greedy
import MadoPilot.Ocr.Candidate

/-!
# The recognizer

A backend is given a sink, pushes candidates into it in any order, may go on after a refusal and
returns what it likes.  The sink keeps the first refusal; what it has kept is sorted by the detector's
order when the backend has returned, and with zones laid out group after group as indexes into the
regions that are owned once.

* `Backend` : what a backend does, as a tree of its pushes;
* `execute`, `scanZones` : the two ways to recognize;
* `OcrZoneScanResult.group` : one group of the result.
-/

namespace MadoPilot.Ocr

open MadoPilot.Core MadoPilot.Lib

def maxCandidates : ℕ := 1000

def maxZoneMemberships : ℕ := 16000

/-- What a backend does with its sink: each push learns what the sink answers. -/
inductive Backend where
  | returns (outcome : Except Error PUnit)
  | pushes (candidate : BackendCandidate) (next : Except Error PUnit → Backend)

structure Recognition where
  unicode : Unicode
  /-- the source region that the candidates are relative to -/
  region : PixelRect
  transform : TransformSnapshot
  outputSpace : CoordinateSpace

/-! ### Sinks -/

/-- A candidate that the sink has kept; one without text has no region. -/
structure NormalizedCandidate where
  detectorOrder : UInt32
  /-- the zones it belongs to; not used where there are none -/
  membership : BitVec 16
  region : Option RecognizedRegion
  deriving DecidableEq

structure Sink where
  submitted : ℕ
  candidates : List NormalizedCandidate
  fault : Option Error
  deriving DecidableEq

def Sink.new : Sink := ⟨0, [], none⟩

section Sinks

variable (r : Recognition)

def process (s : Sink) (c : BackendCandidate) : Attempted Error Sink := do
  .check Interruption.toError
  if s.submitted ≥ maxCandidates then .fail OcrFault.backendCandidateCountAboveCeiling.toError
  else do
    let confidence ← .lift ((normalizeConfidence c.confidence).mapError OcrFault.toError)
    let geometry ← .lift (normalizeGeometry c.quadrilateral r.region r.transform r.outputSpace)
    let text ← normalizeBackend r.unicode c.text
    -- the source counts a candidate before it looks at it; after a refusal the count is not read
    pure
      { s with
        submitted := s.submitted + 1
        candidates := s.candidates ++
          [⟨c.detectorOrder, 0#16, if text = [] then none else some ⟨text, geometry, confidence⟩⟩] }

/-- `GroupedNormalizer::process`. -/
def processGrouped (interests : BackendInterests) (s : Sink) (c : BackendCandidate) :
    Attempted Error Sink := do
  .check Interruption.toError
  if s.submitted ≥ maxCandidates then .fail OcrFault.backendCandidateCountAboveCeiling.toError
  else do
    let membership ← .lift
      ((candidateInterestMembership c.quadrilateral r.region.extent interests).mapError OcrFault.toError)
    let confidence ← .lift ((normalizeConfidence c.confidence).mapError OcrFault.toError)
    let geometry ← .lift (normalizeGeometry c.quadrilateral r.region r.transform r.outputSpace)
    let text ← normalizeBackend r.unicode c.text
    pure
      { s with
        submitted := s.submitted + 1
        candidates := s.candidates ++
          [⟨c.detectorOrder, membership,
            if membership = 0#16 ∨ text = [] then none else some ⟨text, geometry, confidence⟩⟩] }

/-- `push`: the sink keeps its first refusal and repeats it. -/
def push (process : Sink → BackendCandidate → Attempted Error Sink) (s : Sink)
    (c : BackendCandidate) : Attempted Error (Sink × Except Error PUnit) :=
  match s.fault with
  | some fault => pure (s, .error fault)
  | none => do
    let outcome ← (process s c).caught
    match outcome with
    | .ok s' => pure (s', .ok ⟨⟩)
    | .error fault => pure ({ s with fault := some fault }, .error fault)

def recognizeInto (process : Sink → BackendCandidate → Attempted Error Sink) :
    Backend → Sink → Attempted Error (Sink × Except Error PUnit)
  | .returns outcome, s => pure (s, outcome)
  | .pushes c next, s => do
    let (s', answer) ← push process s c
    recognizeInto process (next answer) s'

end Sinks

def Sink.sorted (s : Sink) : List NormalizedCandidate :=
  sortBy (fun a b => compare a.detectorOrder b.detectorOrder) s.candidates

/-- The test of `windows(2)`: two neighbours have one order. -/
def hasDuplicate : List NormalizedCandidate → Bool
  | a :: b :: rest => a.detectorOrder == b.detectorOrder || hasDuplicate (b :: rest)
  | _ => false

def Sink.finish (s : Sink) : Except Error (List RecognizedRegion) :=
  match s.fault with
  | some fault => .error fault
  | none =>
    if hasDuplicate s.sorted then .error OcrFault.backendOrderDuplicate.toError
    else .ok (s.sorted.filterMap NormalizedCandidate.region)

/-! ### Groups -/

/-- `u16::try_from` of an index or a length. -/
def u16From (n : ℕ) : Except Error ℕ :=
  if n < 2 ^ 16 then .ok n else .error OcrFault.zoneMembershipCountAboveCeiling.toError

def countOnes (membership : BitVec 16) : ℕ := (List.range 16).countP fun i => membership.getLsbD i

structure GroupedNormalization where
  candidates : List RecognizedRegion
  membershipIndexes : List ℕ
  groupOffsets : List ℕ
  deriving DecidableEq

def groupIndexes (groupBit : BitVec 16) : List (BitVec 16 × ℕ) → List ℕ → Except Error (List ℕ)
  | [], indexes => .ok indexes
  | (membership, candidate) :: rest, indexes =>
    if membership &&& groupBit ≠ 0#16 then do
      let index ← u16From candidate
      groupIndexes groupBit rest (indexes ++ [index])
    else groupIndexes groupBit rest indexes

def groupStep (memberships : List (BitVec 16)) (laid : List ℕ × List ℕ) (group : ℕ) :
    Attempted Error (List ℕ × List ℕ) := do
  .check Interruption.toError
  let indexes ← .lift (groupIndexes (1#16 <<< group) memberships.zipIdx laid.1)
  let offset ← .lift (u16From indexes.length)
  pure (indexes, laid.2.set (group + 1) offset)

def Sink.finishGrouped (s : Sink) (interests : BackendInterests) :
    Attempted Error GroupedNormalization :=
  match s.fault with
  | some fault => .fail fault
  | none => do
    .check Interruption.toError
    if hasDuplicate s.sorted then .fail OcrFault.backendOrderDuplicate.toError
    else
      let kept := s.sorted.filter fun c => c.region.isSome
      let memberships := kept.map NormalizedCandidate.membership
      if (memberships.map countOnes).sum > maxZoneMemberships then
        .fail OcrFault.zoneMembershipCountAboveCeiling.toError
      else do
        let groups := interests.zones.length
        let (indexes, offsets) ← (List.range groups).foldlM (groupStep memberships)
          ([], List.replicate (maxOcrZones + 1) 0)
        let finalOffset ← .lift (u16From indexes.length)
        pure
          { candidates := kept.filterMap NormalizedCandidate.region
            membershipIndexes := indexes
            groupOffsets := offsets.take (groups + 1) ++
              List.replicate (maxOcrZones + 1 - (groups + 1)) finalOffset }

/-! ### Results -/

/-- Indexing outside a slice. -/
inductive Panic where
  | outOfBounds
  deriving DecidableEq

structure OcrZoneGroup where
  candidates : List RecognizedRegion
  indexes : List ℕ

def OcrZoneGroup.iter (g : OcrZoneGroup) : Except Panic (List RecognizedRegion) :=
  g.indexes.mapM fun index =>
    match g.candidates[index]? with
    | some region => .ok region
    | none => .error .outOfBounds

structure OcrZoneScanResult where
  sourceEnvelope : PixelRect
  effectiveZones : List PixelRect
  outputSpace : CoordinateSpace
  candidates : List RecognizedRegion
  membershipIndexes : List ℕ
  groupOffsets : List ℕ

namespace OcrZoneScanResult

variable (result : OcrZoneScanResult)

def group (index : ℕ) : Except Panic (Option OcrZoneGroup) :=
  if result.effectiveZones.length ≤ index then .ok none
  else
    match result.groupOffsets[index]?, result.groupOffsets[index + 1]? with
    | some start, some stop =>
      if start ≤ stop ∧ stop ≤ result.membershipIndexes.length then
        .ok (some ⟨result.candidates, (result.membershipIndexes.take stop).drop start⟩)
      else .error .outOfBounds
    | _, _ => .error .outOfBounds

end OcrZoneScanResult

/-! ### Calls -/

inductive OcrRegion where
  | fullFrame
  | region (rect : Rect) (policy : ClipPolicy)

def resolveRegion (transform : TransformSnapshot) : OcrRegion → Except GeometryFault PixelRect
  | .fullFrame => transform.frameExtent.toRect
  | .region rect policy => do
    let _ ← rect.requireNonEmpty
    transform.resolveCapturePixels rect policy

structure OcrZone where
  rect : Rect
  policy : ClipPolicy
  deriving DecidableEq

structure ResolvedZones where
  effective : List PixelRect
  envelope : PixelRect
  relative : List PixelRect
  deriving DecidableEq

def envelopeOf (first : PixelRect) (zones : List PixelRect) : Except GeometryFault PixelRect :=
  PixelRect.new (zones.foldl (fun left zone => min left zone.left) first.left)
    (zones.foldl (fun top zone => min top zone.top) first.top)
    (zones.foldl (fun right zone => max right zone.right) first.right)
    (zones.foldl (fun bottom zone => max bottom zone.bottom) first.bottom)

def relativeTo (envelope zone : PixelRect) : Except GeometryFault PixelRect :=
  PixelRect.new (zone.left - envelope.left) (zone.top - envelope.top) (zone.right - envelope.left)
    (zone.bottom - envelope.top)

def resolveZone (transform : TransformSnapshot) (zone : OcrZone) : Except GeometryFault PixelRect := do
  let _ ← zone.rect.requireNonEmpty
  transform.resolveCapturePixels zone.rect zone.policy

def resolveZones (transform : TransformSnapshot) (zones : List OcrZone) :
    Except Error ResolvedZones :=
  if 1 ≤ zones.length ∧ zones.length ≤ maxOcrZones then do
    let effective ← (zones.mapM (resolveZone transform)).mapError GeometryFault.toError
    match effective with
    | [] => .error OcrFault.zoneCountOutOfRange.toError
    | first :: rest => do
      let envelope ← (envelopeOf first rest).mapError GeometryFault.toError
      let relative ← (effective.mapM (relativeTo envelope)).mapError GeometryFault.toError
      .ok ⟨effective, envelope, relative⟩
  else .error OcrFault.zoneCountOutOfRange.toError

def preflightOutput (transform : TransformSnapshot) (region : PixelRect)
    (outputSpace : CoordinateSpace) : Except Error PUnit :=
  if !transform.supports outputSpace then .error GeometryFault.conversionUnsupported.toError
  else do
    let origin ← (Point.new .capturePixels region.left.toInt region.top.toInt).mapError
      GeometryFault.toError
    let _ ← (transform.convertPoint origin outputSpace).mapError GeometryFault.toError
    .ok ⟨⟩

/-- One call, and what it meets: whether the request selects this backend, whether the source can be
mapped, and what the backend does. -/
structure OcrCall where
  unicode : Unicode
  transform : TransformSnapshot
  outputSpace : CoordinateSpace
  selection : Except Error PUnit
  map : PixelRect → Attempted Error PUnit
  backend : Backend

namespace OcrCall

variable (call : OcrCall)

def recognition (region : PixelRect) : Recognition :=
  ⟨call.unicode, region, call.transform, call.outputSpace⟩

def execute (region : PixelRect) : Attempted Error (List RecognizedRegion) := do
  let op ← Operation.admitted Interruption.toError
  let (sink, outcome) ← recognizeInto (process (call.recognition region)) call.backend .new
  op.check Interruption.toError
  let _ ← .lift outcome
  let regionsOutcome := sink.finish
  op.check Interruption.toError
  let regions ← .lift regionsOutcome
  op.committed Interruption.toError regions

/-- `prepare`: the region that is mapped. -/
def prepare (selection : OcrRegion) : Attempted Error PixelRect := do
  let op ← Operation.admitted Interruption.toError
  let _ ← .lift call.selection
  let region ← .lift ((resolveRegion call.transform selection).mapError GeometryFault.toError)
  let _ ← .lift (preflightOutput call.transform region call.outputSpace)
  let _ ← call.map region
  op.check Interruption.toError
  pure region

def recognize (selection : OcrRegion) : Attempted Error (List RecognizedRegion) := do
  let region ← call.prepare selection
  call.execute region

def scanZones (zones : List OcrZone) : Attempted Error OcrZoneScanResult :=
  if 1 ≤ zones.length ∧ zones.length ≤ maxOcrZones then do
    let op ← Operation.admitted Interruption.toError
    let _ ← .lift call.selection
    let resolved ← .lift (resolveZones call.transform zones)
    let _ ← .lift (preflightOutput call.transform resolved.envelope call.outputSpace)
    let _ ← call.map resolved.envelope
    op.check Interruption.toError
    let interests ← .lift ((BackendInterests.new resolved.relative).mapError OcrFault.toError)
    let (sink, outcome) ← recognizeInto
      (processGrouped (call.recognition resolved.envelope) interests) call.backend .new
    op.check Interruption.toError
    let _ ← .lift outcome
    let groupedOutcome ← (sink.finishGrouped interests).caught
    op.check Interruption.toError
    let grouped ← .lift groupedOutcome
    op.committed Interruption.toError
      { sourceEnvelope := resolved.envelope
        effectiveZones := resolved.effective
        outputSpace := call.outputSpace
        candidates := grouped.candidates
        membershipIndexes := grouped.membershipIndexes
        groupOffsets := grouped.groupOffsets }
  else .fail OcrFault.zoneCountOutOfRange.toError

end OcrCall

end MadoPilot.Ocr
