import MadoPilot.Capture.Frame
import MadoPilot.Lib.Raster
import MadoPilot.Ocr.Candidate
import MadoPilot.Onnx.Fault

/-!
# Greedy decoding

The recognizer scores, for every item of a batch and every time step, each class of the vocabulary.
`decode` takes the first best class of every step, drops the steps that repeat the one before, drops
the blank class, and writes the tokens of what remains.
-/

namespace MadoPilot.Onnx

open MadoPilot.Lib
open MadoPilot.Capture (usizeMax)
open MadoPilot.Ocr (roundTiesEven)

/-! ### The vocabulary -/

def ENTRIES : ℕ := 18708

def CLASSES : ℕ := ENTRIES + 2

/-- The entries that a verified vocabulary text is cut into; `Vocabulary::parse` refuses any other
number of them. -/
structure Vocabulary where
  entries : List String
  length_eq : entries.length = ENTRIES

/-- The text of a class: class 0 is the blank and the last class an appended space. -/
def Vocabulary.token (v : Vocabulary) (cls : ℕ) : Option String :=
  if cls = 0 then none
  else if cls ≤ ENTRIES then v.entries[cls - 1]?
  else if cls = CLASSES - 1 then some " "
  else none

/-! ### Checks -/

/-- A score of the output tensor: its value, or `none` where it is not finite. -/
abbrev Score := Option ℚ

structure DecodedText where
  text : String
  confidence : ℚ
  deriving DecidableEq

def recognizerOutputElements (batch timeSteps : ℕ) : Except Stop ℕ :=
  okOr ((checkedMul usizeMax batch timeSteps).bind fun value => checkedMul usizeMax value CLASSES)
    .resourceLimit

def recognizerOutputBytes (batch timeSteps : ℕ) : Except Stop ℕ := do
  let elements ← recognizerOutputElements batch timeSteps
  okOr (checkedMul usizeMax elements 4) .resourceLimit

def estimatedRecognizerOutputBytes (batch width : ℕ) : Except Stop ℕ :=
  recognizerOutputBytes batch ((width + 7) / 8)

/-- The checks at the head of `decode`: the batch size and the number of time steps. -/
def checkOutput (shape : List ℤ) (probabilities expectedBatch maxOutputBytes : ℕ) :
    Except Stop (ℕ × ℕ) :=
  match shape with
  | [batch, timeSteps, classes] => do
    if batch ≤ 0 ∨ timeSteps ≤ 0 ∨ classes ≤ 0 then .error (.fault .malformedOutput)
    else if batch.toNat ≠ expectedBatch ∨ classes.toNat ≠ CLASSES then .error (.fault .malformedOutput)
    else
      let elements ← recognizerOutputElements batch.toNat timeSteps.toNat
      let bytes ← recognizerOutputBytes batch.toNat timeSteps.toNat
      if elements ≠ probabilities ∨ maxOutputBytes < bytes then .error (.fault .resourceLimit)
      else .ok (batch.toNat, timeSteps.toNat)
  | _ => .error (.fault .malformedOutput)

/-! ### The loops -/

/-- The loop over the scores of a step, from the class `cls` on; a selected score of `none` is the
initial `NEG_INFINITY`. -/
def selectClass : List Score → ℕ → ℕ → Option ℚ → Except Stop (ℕ × Option ℚ)
  | [], _, selectedIndex, selectedScore => .ok (selectedIndex, selectedScore)
  | none :: _, _, _, _ => .error (.fault .malformedOutput)
  | some score :: scores, cls, selectedIndex, selectedScore =>
    if 0 ≤ score ∧ score ≤ 1 then
      if selectedScore.all (fun best => decide (best < score)) then
        selectClass scores (cls + 1) cls (some score)
      else selectClass scores (cls + 1) selectedIndex selectedScore
    else .error (.fault .malformedOutput)

def roundFive (value : ℚ) : ℚ := roundTiesEven (value * 100000) / 100000

/-- What the loop over the time steps carries. -/
structure Decoding where
  text : String
  previous : ℕ
  confidenceSum : ℚ
  confidenceCount : ℕ

def Decoding.start : Decoding := ⟨"", usizeMax, 0, 0⟩

/-- The end of a time step, with the class that it selects. -/
def Decoding.select (vocabulary : Vocabulary) (maxTextBytes : ℕ) (d : Decoding)
    (selected : ℕ × Option ℚ) : Except Stop Decoding := do
  if selected.1 = d.previous ∨ selected.1 = 0 then .ok { d with previous := selected.1 }
  else
    let token ← okOr (vocabulary.token selected.1) .malformedOutput
    if (checkedAdd usizeMax d.text.utf8ByteSize token.utf8ByteSize).all
        (fun length => decide (maxTextBytes < length)) then .error (.fault .resourceLimit)
    else
      .ok ⟨d.text ++ token, selected.1, d.confidenceSum + roundFive (selected.2.getD 0),
        d.confidenceCount + 1⟩

def Decoding.step (vocabulary : Vocabulary) (maxTextBytes : ℕ) (d : Decoding) (scores : List Score) :
    Except Stop Decoding := do
  let selected ← selectClass scores 0 0 none
  d.select vocabulary maxTextBytes selected

def Decoding.decoded (d : Decoding) : DecodedText :=
  ⟨d.text, if d.confidenceCount = 0 then 0 else roundFive (d.confidenceSum / d.confidenceCount)⟩

/-- `probabilities[offset..offset + classes]` for a time step of an item. -/
def stepScores (probabilities : List Score) (timeSteps batchIndex timeIndex : ℕ) :
    Except Stop (List Score) :=
  let offset := (batchIndex * timeSteps + timeIndex) * CLASSES
  orPanic (Raster.slice probabilities offset (offset + CLASSES))

def decodeItem (vocabulary : Vocabulary) (maxTextBytes : ℕ) (probabilities : List Score)
    (timeSteps batchIndex : ℕ) : Except Stop DecodedText := do
  let d ← (List.range timeSteps).foldlM (fun d timeIndex => do
    let scores ← stepScores probabilities timeSteps batchIndex timeIndex
    d.step vocabulary maxTextBytes scores) Decoding.start
  .ok d.decoded

def decode (shape : List ℤ) (probabilities : List Score) (vocabulary : Vocabulary)
    (expectedBatch maxTextBytes maxOutputBytes : ℕ) : Except Stop (List DecodedText) := do
  let (batch, timeSteps) ← checkOutput shape probabilities.length expectedBatch maxOutputBytes
  (List.range batch).mapM (decodeItem vocabulary maxTextBytes probabilities timeSteps)

end MadoPilot.Onnx
