import MadoPilot.Capture.Frame
import MadoPilot.Onnx.Double
import MadoPilot.Onnx.Fault

/-!
# Detector plans

A profile of the catalog says how a source picture is resized for the detector: to a least short side,
within a rectangle and a tensor ceiling, or to a greatest long side.  `plan` chooses the size and checks
the tensor that it needs.
-/

namespace MadoPilot.Onnx

open MadoPilot.Lib
open MadoPilot.Capture (usizeMax)
open MadoPilot.Ocr (roundTiesEven)

def u32Max : ℕ := 2 ^ 32 - 1

def MAX_TENSOR_BYTES : ℕ := 256 * 1024 * 1024

/-! ### The catalog -/

inductive DetectorResize where
  | legacyShortSide | boundedRectangular | maxSide
  deriving DecidableEq

inductive PixelNormalization where
  | legacyDivide | multiplyMeanStd
  deriving DecidableEq

/-- The fields of the catalog's `DetectorDescriptor` that decide the preprocessing; a mean or a standard
deviation is `none` where it is not finite. -/
structure DetectorDescriptor where
  resize : DetectorResize
  side : ℕ
  multiple : ℕ
  minimumDimension : ℕ
  maxWidth : Option ℕ
  maxHeight : Option ℕ
  maxTensorBytes : Option ℕ
  normalization : PixelNormalization
  mean : Fin 3 → Option ℚ
  std : Fin 3 → Option ℚ

inductive DetectorNormalization where
  | legacyDivide
  | multiplyMeanStd (mean std : Fin 3 → Option ℚ)

inductive DetectorSampling where
  /-- Short-side expansion without a final ceiling. -/
  | shortSide
  /-- Rectangular fit followed by a conditional tensor ceiling. -/
  | boundedRectangular (maxWidth maxHeight maxTensorBytes : ℕ)
  /-- No-upscale long-side cap with an explicit post-rounding minimum. -/
  | maxSide (minimumDimension maxTensorBytes : ℕ)

structure PreprocessingDescriptor where
  sampling : DetectorSampling
  side : ℕ
  multiple : ℕ
  normalization : DetectorNormalization

def boundedTensor (bytes : ℕ) : Bool := decide (0 < bytes ∧ bytes ≤ MAX_TENSOR_BYTES)

/-- The resize settings of a catalog entry. -/
def samplingOf (detection : DetectorDescriptor) : Option DetectorSampling :=
  match detection.resize, detection.maxWidth, detection.maxHeight, detection.maxTensorBytes with
  | .legacyShortSide, none, none, none =>
    if detection.minimumDimension = 0 then some .shortSide else none
  | .boundedRectangular, some maxWidth, some maxHeight, some maxTensorBytes =>
    if detection.minimumDimension = 0 ∧ detection.multiple ≤ maxWidth ∧ detection.multiple ≤ maxHeight ∧
        boundedTensor maxTensorBytes then some (.boundedRectangular maxWidth maxHeight maxTensorBytes)
    else none
  | .maxSide, some maxWidth, some maxHeight, some maxTensorBytes =>
    if maxWidth = detection.side ∧ maxHeight = detection.side ∧ detection.side % detection.multiple = 0 ∧
        detection.multiple ≤ detection.minimumDimension ∧ detection.minimumDimension ≤ detection.side ∧
        boundedTensor maxTensorBytes then some (.maxSide detection.minimumDimension maxTensorBytes)
    else none
  | _, _, _, _ => none

def normalizationOf (detection : DetectorDescriptor) : Option DetectorNormalization :=
  match detection.normalization with
  | .legacyDivide =>
    if (∀ i, detection.mean i = some (1 / 2)) ∧ ∀ i, detection.std i = some (1 / 2) then some .legacyDivide
    else none
  | .multiplyMeanStd =>
    if (∀ i, (detection.mean i).isSome) ∧ ∀ i, (detection.std i).any fun std => decide (0 < std) then
      some (.multiplyMeanStd detection.mean detection.std)
    else none

def PreprocessingDescriptor.fromCatalog (detection : DetectorDescriptor) :
    Except Stop PreprocessingDescriptor := do
  if detection.side = 0 ∨ detection.multiple = 0 then .error (.fault .profileMismatch)
  else
    let sampling ← okOr (samplingOf detection) .profileMismatch
    let normalization ← okOr (normalizationOf detection) .profileMismatch
    .ok ⟨sampling, detection.side, detection.multiple, normalization⟩

/-! ### Rounding -/

def f64ToU32 (value : ℚ) : Except Stop ℕ :=
  if !isFinite value ∨ value < 0 ∨ u32Max < value then .error (.fault .resourceLimit)
  else .ok value.floor.toNat

def roundToMultiple (value multiple : ℕ) : Except Stop ℕ :=
  if multiple = 0 then .error (.fault .resourceLimit)
  else
    let rounded := roundTiesEven (f64 (value / multiple))
    let result := f64 (rounded * multiple)
    if !isFinite result ∨ result < multiple ∨ u32Max < result then .error (.fault .resourceLimit)
    else f64ToU32 result

def roundWithCeiling (value multiple ceiling : ℕ) : Except Stop ℕ := do
  let rounded ← roundToMultiple value multiple
  if rounded ≤ ceiling then .ok rounded
  else
    let bounded := ceiling - ceiling % multiple
    if bounded < multiple then .error (.fault .resourceLimit) else .ok bounded

def floorToMultiple (value multiple : ℕ) : Except Stop ℕ :=
  if multiple = 0 then .error (.fault .resourceLimit)
  else
    let bounded := value - value % multiple
    if bounded < multiple then .error (.fault .resourceLimit) else .ok bounded

def nearestMultipleAtLeast (value multiple minimum : ℕ) : Except Stop ℕ := do
  if multiple = 0 then .error (.fault .resourceLimit)
  else
    let rounded := f64 (roundTiesEven (f64 (value / multiple)) * multiple)
    let nearest ← f64ToU32 rounded
    .ok (max nearest minimum)

/-! ### Plans -/

/-- The floating scale factors: of a side to a side of the source, of a rectangle to the desired size,
and of the pixels that a tensor may have to those of a size. -/
structure Factors where
  ratio : ℕ → ℕ → ℚ
  fit : ℕ → ℕ → ℕ → ℕ → ℚ
  tensorFit : ℕ → ℕ → ℚ

def Factors.computed (sqrt : ℚ → ℚ) : Factors where
  ratio side source := f64 (side / source)
  fit maxWidth desiredWidth maxHeight desiredHeight :=
    min (f64 (maxWidth / desiredWidth)) (f64 (maxHeight / desiredHeight))
  tensorFit maxPixels pixels := sqrt (f64 (maxPixels / pixels))

structure DetectorPlan where
  sourceWidth : ℕ
  sourceHeight : ℕ
  finalWidth : ℕ
  finalHeight : ℕ
  forwardX : ℚ
  forwardY : ℚ
  inverseX : ℚ
  inverseY : ℚ
  tensorElements : ℕ
  tensorBytes : ℕ

def DetectorPlan.checked (sourceWidth sourceHeight finalWidth finalHeight : ℕ) : Except Stop DetectorPlan := do
  if sourceWidth = 0 ∨ sourceHeight = 0 ∨ finalWidth = 0 ∨ finalHeight = 0 then
    .error (.fault .invalidPixels)
  else
    let tensorElements ← okOr
      ((checkedMul usizeMax 3 finalWidth).bind fun elements => checkedMul usizeMax elements finalHeight)
      .resourceLimit
    let tensorBytes ← okOr (checkedMul usizeMax tensorElements 4) .resourceLimit
    if MAX_TENSOR_BYTES < tensorBytes then .error (.fault .resourceLimit)
    else
      let forwardX := f64 (finalWidth / sourceWidth)
      let forwardY := f64 (finalHeight / sourceHeight)
      let inverseX := f64 (sourceWidth / finalWidth)
      let inverseY := f64 (sourceHeight / finalHeight)
      if [forwardX, forwardY, inverseX, inverseY].any fun scale => !isFinite scale || decide (scale ≤ 0) then
        .error (.fault .resourceLimit)
      else
        .ok ⟨sourceWidth, sourceHeight, finalWidth, finalHeight, forwardX, forwardY, inverseX, inverseY,
          tensorElements, tensorBytes⟩

def fitWithTensorCeiling (factors : Factors) (width height multiple maxBytes : ℕ) : Except Stop (ℕ × ℕ) := do
  let maxPixels ← okOr (if maxBytes / 12 ≤ u32Max then some (maxBytes / 12) else none) .resourceLimit
  let pixels ← okOr (checkedMul u32Max width height) .resourceLimit
  if pixels ≤ maxPixels then .ok (width, height)
  else
    let fit := factors.tensorFit maxPixels pixels
    let scaledWidth ← f64ToU32 (scaled width fit)
    let scaledHeight ← f64ToU32 (scaled height fit)
    let boundedWidth ← floorToMultiple scaledWidth multiple
    let boundedHeight ← floorToMultiple scaledHeight multiple
    if (checkedMul u32Max boundedWidth boundedHeight).all fun pixels => decide (maxPixels < pixels) then
      .error (.fault .resourceLimit)
    else .ok (boundedWidth, boundedHeight)

namespace PreprocessingDescriptor

variable (d : PreprocessingDescriptor) (factors : Factors)

/-- The size that a least short side asks for. -/
def desiredSize (sourceWidth sourceHeight : ℕ) : Except Stop (ℕ × ℕ) := do
  let shortSide := min sourceWidth sourceHeight
  let ratio := if shortSide < d.side then factors.ratio d.side shortSide else 1
  let scaledWidth ← f64ToU32 (scaled sourceWidth ratio)
  let desiredWidth ← roundToMultiple scaledWidth d.multiple
  let scaledHeight ← f64ToU32 (scaled sourceHeight ratio)
  let desiredHeight ← roundToMultiple scaledHeight d.multiple
  .ok (desiredWidth, desiredHeight)

def boundedSize (desired : ℕ × ℕ) (bounds : Option (ℕ × ℕ × ℕ)) : Except Stop (ℕ × ℕ) :=
  match bounds with
  | none => .ok desired
  | some (maxWidth, maxHeight, maxTensorBytes) => do
    if maxWidth < desired.1 ∨ maxHeight < desired.2 then
      let fit := factors.fit maxWidth desired.1 maxHeight desired.2
      let scaledWidth ← f64ToU32 (scaled desired.1 fit)
      let width ← roundWithCeiling scaledWidth d.multiple maxWidth
      let scaledHeight ← f64ToU32 (scaled desired.2 fit)
      let height ← roundWithCeiling scaledHeight d.multiple maxHeight
      fitWithTensorCeiling factors width height d.multiple maxTensorBytes
    else .ok desired

def shortSidePlan (sourceWidth sourceHeight : ℕ) (bounds : Option (ℕ × ℕ × ℕ)) :
    Except Stop DetectorPlan := do
  let desired ← d.desiredSize factors sourceWidth sourceHeight
  let size ← d.boundedSize factors desired bounds
  DetectorPlan.checked sourceWidth sourceHeight size.1 size.2

def maxSidePlan (sourceWidth sourceHeight minimumDimension maxTensorBytes : ℕ) :
    Except Stop DetectorPlan := do
  let longSide := max sourceWidth sourceHeight
  let ratio := if d.side < longSide then factors.ratio d.side longSide else 1
  let scaledWidth ← f64ToU32 (scaled sourceWidth ratio)
  let finalWidth ← nearestMultipleAtLeast scaledWidth d.multiple minimumDimension
  let scaledHeight ← f64ToU32 (scaled sourceHeight ratio)
  let finalHeight ← nearestMultipleAtLeast scaledHeight d.multiple minimumDimension
  if d.side < finalWidth ∨ d.side < finalHeight then .error (.fault .resourceLimit)
  else
    let plan ← DetectorPlan.checked sourceWidth sourceHeight finalWidth finalHeight
    if maxTensorBytes < plan.tensorBytes then .error (.fault .resourceLimit) else .ok plan

def plan (sourceWidth sourceHeight : ℕ) : Except Stop DetectorPlan :=
  if sourceWidth = 0 ∨ sourceHeight = 0 then .error (.fault .invalidPixels)
  else
    match d.sampling with
    | .shortSide => d.shortSidePlan factors sourceWidth sourceHeight none
    | .boundedRectangular maxWidth maxHeight maxTensorBytes =>
      d.shortSidePlan factors sourceWidth sourceHeight (some (maxWidth, maxHeight, maxTensorBytes))
    | .maxSide minimumDimension maxTensorBytes =>
      d.maxSidePlan factors sourceWidth sourceHeight minimumDimension maxTensorBytes

end PreprocessingDescriptor

end MadoPilot.Onnx
