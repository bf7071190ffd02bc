import Mathlib.Data.List.Sort
import MadoPilot.Lib.Guarded
import MadoPilot.Onnx.Decode
import MadoPilot.Onnx.Double

/-!
# Recognition in batches

Detections are recognized in the order of their width to height ratios, a few at a time: the items of a
batch are padded to the width of the widest, and a batch grows while its output is expected to stay
within the budget.  The texts go back to the places of their detections.
-/

namespace MadoPilot.Onnx

open MadoPilot.Core MadoPilot.Lib
open MadoPilot.Capture (usizeMax)

def RECOGNITION_BATCH : ℕ := 6

def RECOGNIZER_HEIGHT : ℕ := 48

def RECOGNIZER_BASE_WIDTH : ℕ := 320

def MAX_RECOGNIZER_WIDTH : ℕ := 4096

/-! ### Ratios and widths -/

/-- `recognition_ratio` behind `crop_dimensions`: the width, the height, and whether the crop is
rotated. -/
def recognitionRatio (dimensions : ℕ × ℕ × Bool) : Except Stop ℚ :=
  let (width, height, rotate) := dimensions
  let ratio := if rotate then f64 (height / width) else f64 (width / height)
  if !isFinite ratio ∨ ratio ≤ 0 then .error (.fault .malformedOutput) else .ok ratio

def f64ToUsize (value : ℚ) : Except Stop ℕ :=
  if !isFinite value ∨ value < 0 ∨ 2 ^ 64 < value then .error (.fault .resourceLimit)
  else .ok (min usizeMax value.floor.toNat)

def recognizerWidthForRatio (ratio : ℚ) : Except Stop ℕ := do
  if !isFinite ratio ∨ ratio ≤ 0 then .error (.fault .malformedOutput)
  else
    let minimumRatio := f64 (RECOGNIZER_BASE_WIDTH / RECOGNIZER_HEIGHT)
    let width ← f64ToUsize (f64 (RECOGNIZER_HEIGHT * max ratio minimumRatio))
    if width = 0 ∨ MAX_RECOGNIZER_WIDTH < width then .error (.fault .resourceLimit) else .ok width

/-! ### Batches -/

/-- The inner loop of `recognition_batch_range`: the batch that begins at `start` and has come to `stop`
may take `room` more items. -/
def growBatch (order : List (ℕ × ℚ)) (start maxOutputBytes : ℕ) : ℕ → ℕ → Except Stop ℕ
  | 0, stop => .ok stop
  | room + 1, stop =>
    match order[stop]? with
    | none => .ok stop
    | some (_, ratio) => do
      let candidateWidth ← recognizerWidthForRatio ratio
      let candidateBytes ← estimatedRecognizerOutputBytes (stop - start + 1) candidateWidth
      if maxOutputBytes < candidateBytes then .ok stop
      else growBatch order start maxOutputBytes room (stop + 1)

def checkpoint : Guarded Interruption Stop PUnit :=
  .check fun i => .fault (.ofInterruption i)

def recognitionBatchRange (order : List (ℕ × ℚ)) (start maxOutputBytes : ℕ) :
    Guarded Interruption Stop (ℕ × ℕ) := do
  checkpoint
  if order.length ≤ start then .fail (.fault .resourceLimit)
  else
    let stop ← .lift (growBatch order start maxOutputBytes RECOGNITION_BATCH start)
    if stop = start then .fail (.fault .resourceLimit) else pure (start, stop)

/-- The loop over the batches; `body` is what is done with a batch, and `none` is a loop that is not
over after `fuel` batches. -/
def batchLoop {σ : Type} (order : List (ℕ × ℚ)) (maxOutputBytes : ℕ)
    (body : ℕ × ℕ → σ → Guarded Interruption Stop σ) :
    ℕ → ℕ → σ → Guarded Interruption Stop (Option σ)
  | fuel, start, acc =>
    if start < order.length then
      match fuel with
      | 0 => pure none
      | fuel + 1 => do
        let range ← recognitionBatchRange order start maxOutputBytes
        let acc ← body range acc
        batchLoop order maxOutputBytes body fuel range.2 acc
    else pure (some acc)

/-- The batches on their own, as if recognition had nothing to say. -/
def planBatches (order : List (ℕ × ℚ)) (maxOutputBytes : ℕ) :
    Guarded Interruption Stop (Option (List (ℕ × ℕ))) :=
  batchLoop order maxOutputBytes (fun range ranges => pure (ranges ++ [range])) order.length 0 []

/-! ### Recognition -/

/-- A detected quadrilateral and its place in the order of the detector. -/
structure Detection (Q : Type) where
  quad : Q
  order : ℕ
  deriving DecidableEq

structure OwnedCandidate (Q : Type) where
  text : String
  quadrilateral : Q
  confidence : ℚ
  order : ℕ
  deriving DecidableEq

variable {Q : Type}

def OwnedCandidate.new (detection : Detection Q) (decoded : DecodedText) : OwnedCandidate Q :=
  ⟨decoded.text, detection.quad, decoded.confidence, detection.order⟩

/-- The detections by their ratios; `cropDimensions` measures a quadrilateral. -/
def recognitionOrder (cropDimensions : Q → Except Stop (ℕ × ℕ × Bool))
    (detections : List (Detection Q)) : Except Stop (List (ℕ × ℚ)) := do
  let order ← detections.zipIdx.mapM fun (detection, index) => do
    let dimensions ← cropDimensions detection.quad
    let ratio ← recognitionRatio dimensions
    .ok (index, ratio)
  .ok (order.mergeSort fun left right => decide (left.2 ≤ right.2))

/-- The body of the loop: the batch is recognized and its texts are put in the places of their
detections.  `inference start quads` is what the session answers for the batch that begins at
`start`. -/
def recognizeBatch (detections : List (Detection Q))
    (inference : ℕ → List Q → Guarded Interruption Stop (List DecodedText)) (order : List (ℕ × ℚ))
    (range : ℕ × ℕ) (decoded : List (Option DecodedText)) :
    Guarded Interruption Stop (List (Option DecodedText)) := do
  let batch ← .lift (orPanic (Raster.slice order range.1 range.2))
  let quads ← .lift (batch.mapM fun item =>
    orPanic (detections[item.1]?.map fun detection => detection.quad))
  let batchOutput ← inference range.1 quads
  if batchOutput.length ≠ batch.length then .fail (.fault .malformedOutput)
  else
    .lift ((batch.zip batchOutput).foldlM (fun decoded (item, text) =>
      if item.1 < decoded.length then .ok (decoded.set item.1 (some text)) else .error .panicked)
      decoded)

/-- `recognize_with_pair` from the detections on. -/
def recognizeDetections (cropDimensions : Q → Except Stop (ℕ × ℕ × Bool))
    (inference : ℕ → List Q → Guarded Interruption Stop (List DecodedText)) (maxOutputBytes : ℕ)
    (detections : List (Detection Q)) : Guarded Interruption Stop (Option (List (OwnedCandidate Q))) := do
  if detections.isEmpty then pure (some [])
  else
    let order ← .lift (recognitionOrder cropDimensions detections)
    let result ← batchLoop order maxOutputBytes (recognizeBatch detections inference order) order.length 0
      (List.replicate detections.length none)
    match result with
    | none => pure none
    | some decoded => do
      let candidates ← .lift ((detections.zip decoded).mapM fun (detection, decoded) => do
        let decoded ← okOr decoded .malformedOutput
        .ok (OwnedCandidate.new detection decoded))
      pure (some candidates)

end MadoPilot.Onnx
