import Mathlib.Algebra.Ring.Nat
import MadoPilot.Core.Attempt
import MadoPilot.Core.Operation
import MadoPilot.Lib.Trim

/-!
# Normalized text

Text is trimmed, brought into NFC and bounded, with a look at the operation at every character.  What
Unicode says, and the iterator that composes, are parameters; their laws are the facts that the
bound of the admitted text rests on.

A string is known here by its characters.

* `collectStep`, `collectBounded` : the collector, which holds the blanks inside the text back until
  more text follows, and stores no more than the ceiling;
* `normalizeLiteral`, `normalizeBackend` : the two entries.
-/

/-! ### Faults -/

namespace MadoPilot.Ocr

open MadoPilot.Core

/-- What can be wrong with a scan of zones and with what a backend emits. -/
inductive OcrFault where
  | zoneCountOutOfRange | zoneMembershipCountAboveCeiling | backendCandidateCountAboveCeiling
  | backendTextNotUtf8 | backendTextAboveCeiling | backendGeometryInvalid
  | backendConfidenceOutOfRange | backendOrderDuplicate
  deriving DecidableEq

namespace OcrFault

def status : OcrFault → Status
  | zoneCountOutOfRange => .invalidArgument
  | zoneMembershipCountAboveCeiling => .limitExceeded
  | backendCandidateCountAboveCeiling | backendTextNotUtf8 | backendTextAboveCeiling
  | backendGeometryInvalid | backendConfidenceOutOfRange | backendOrderDuplicate => .visionFailed

def detail : OcrFault → String
  | zoneCountOutOfRange => "OCR zone scan requires one through sixteen zones"
  | zoneMembershipCountAboveCeiling => "OCR zone memberships exceed the operation ceiling"
  | backendCandidateCountAboveCeiling => "OCR backend emitted too many candidates"
  | backendTextNotUtf8 => "OCR backend emitted malformed UTF-8 text"
  | backendTextAboveCeiling => "OCR backend text exceeds the byte ceiling"
  | backendGeometryInvalid => "OCR backend emitted invalid candidate geometry"
  | backendConfidenceOutOfRange => "OCR backend emitted confidence outside zero through one"
  | backendOrderDuplicate => "OCR backend emitted duplicate detector order"

def toError (f : OcrFault) : Error := ⟨f.status, f.detail⟩

end OcrFault

def Interrupts (e : Error) : Prop := e.status = .cancelled ∨ e.status = .deadlineExceeded

theorem toError_interrupts (i : Interruption) : Interrupts i.toError := by
  cases i
  · exact Or.inl rfl
  · exact Or.inr rfl

end MadoPilot.Ocr

namespace MadoPilot.Ocr

open MadoPilot.Core MadoPilot.Lib

def maxTextBytes : ℕ := 4 * 1024

def maxBackendTextBytes : ℕ := 16 * 1024

def canonicalDecompositionBound : ℕ := 4

def maxCanonicalScalars : ℕ := maxTextBytes * canonicalDecompositionBound

def byteLength (text : List Char) : ℕ := (text.map Char.utf8Size).sum

/-- The property `White_Space`. -/
def isWhitespace (ch : Char) : Bool :=
  (0x9 ≤ ch.toNat && ch.toNat ≤ 0xD) || ch.toNat == 0x20 || ch.toNat == 0x85 || ch.toNat == 0xA0 ||
    ch.toNat == 0x1680 || (0x2000 ≤ ch.toNat && ch.toNat ≤ 0x200A) || ch.toNat == 0x2028 ||
    ch.toNat == 0x2029 || ch.toNat == 0x202F || ch.toNat == 0x205F || ch.toNat == 0x3000

/-- The answer of the quick check. -/
inductive IsNormalized where
  | yes | no | maybe
  deriving DecidableEq

/-- Characters that are read one after the other; reading may look at the context. -/
inductive CharStream where
  | nil
  | cons (ch : Char) (rest : CharStream)
  | pull (next : Option Interruption → CharStream)

/-- What is read without an interruption. -/
def CharStream.quiet : CharStream → List Char
  | .nil => []
  | .cons ch rest => ch :: rest.quiet
  | .pull next => (next none).quiet

/-- What the code uses of Unicode, with the facts it relies on. -/
structure Unicode where
  /-- the canonical decomposition of a scalar -/
  decompose : Char → List Char
  nfc : List Char → List Char
  /-- the iterator that composes what it reads from a text, with a look at the context before each
  character -/
  nfcStream : List Char → CharStream
  quick : List Char → IsNormalized
  /-- every scalar decomposes to one to four scalars -/
  decompose_length : ∀ c, 1 ≤ (decompose c).length ∧ (decompose c).length ≤ canonicalDecompositionBound
  /-- NFC preserves the decomposition -/
  nfc_decompose : ∀ s, ((nfc s).flatMap decompose).Perm (s.flatMap decompose)
  /-- trimming before NFC equals trimming after NFC -/
  trim_nfc : ∀ s, trim isWhitespace (nfc s) = nfc (trim isWhitespace s)
  /-- NFC is a normal form -/
  nfc_nfc : ∀ s, nfc (nfc s) = nfc s
  quick_yes : ∀ s, quick s = .yes → nfc s = s
  nfcStream_quiet : ∀ s, (nfcStream s).quiet = nfc s

/-! ### The collector -/

/-- What the collector holds: the characters in its scratch and their bytes, those up to the last
that is not blank, and whether one did not fit. -/
structure Collected where
  scratch : List Char
  used : ℕ
  kept : List Char
  overflow : Bool

def Collected.start : Collected := ⟨[], 0, [], false⟩

/-- One character; `none` where the text is above the ceiling. -/
def collectStep (st : Collected) (ch : Char) : Option Collected :=
  let whitespace := isWhitespace ch
  if st.used = 0 && whitespace then some st
  else
    let stop := st.used + ch.utf8Size
    let st :=
      if !st.overflow && stop ≤ maxTextBytes then { st with scratch := st.scratch ++ [ch], used := stop }
      else { st with overflow := true }
    if !whitespace then
      if st.overflow then none else some { st with kept := st.scratch }
    else some st

section Attempt

variable (U : Unicode) (op : Operation) (aboveCeiling : Error)

/-- The loop of `collect_bounded`, from a read on; `seen` is the interruption that the source of the
stream has found. -/
def collectLoop : CharStream → Collected → Option Interruption →
    Attempted Error (Except Error (List Char) × Option Interruption)
  | .nil, st, seen => pure (.ok st.kept, seen)
  | .pull next, st, seen => .ask fun answer =>
    collectLoop (next answer) st (match answer with
      | some i => some i
      | none => seen)
  | .cons ch rest, st, seen => do
    op.check Interruption.toError
    match collectStep st ch with
    | none => pure (.error aboveCeiling, seen)
    | some st => do
      op.check Interruption.toError
      collectLoop rest st seen

def collectBounded (stream : CharStream) :
    Attempted Error (Except Error (List Char) × Option Interruption) := do
  op.check Interruption.toError
  collectLoop op aboveCeiling stream .start none

/-! ### Normalization -/

/-- One of the two loops of `trim_edges`. -/
def trimStart : List Char → Attempted Error (List Char)
  | [] => pure []
  | ch :: rest => do
    op.check Interruption.toError
    if !isWhitespace ch then pure (ch :: rest) else trimStart rest

def trimEdges (text : List Char) : Attempted Error (List Char) := do
  let text ← trimStart op text
  let back ← trimStart op text.reverse
  pure back.reverse

def preflight : List Char → ℕ → Attempted Error (Except Error Unit)
  | [], _ => pure (.ok ())
  | ch :: rest, decomposed => do
    op.check Interruption.toError
    let decomposed := decomposed + (U.decompose ch).length
    if decomposed ≤ maxCanonicalScalars then preflight rest decomposed
    else pure (.error aboveCeiling)

/-- An interruption that the source of the stream has found goes before the outcome. -/
def preferSeen : Except Error (List Char) × Option Interruption → Except Error (List Char)
  | (_, some i) => .error i.toError
  | (outcome, none) => outcome

def normalizeTrimmed (text : List Char) : Attempted Error (Except Error (List Char)) := do
  let admitted ← preflight U op aboveCeiling text 0
  op.check Interruption.toError
  match admitted with
  | .error e => pure (.error e)
  | .ok () =>
    if U.quick text = .yes then
      if byteLength text > maxTextBytes then pure (.error aboveCeiling) else pure (.ok text)
    else do
      let outcome ← collectBounded op aboveCeiling (U.nfcStream text)
      pure (preferSeen outcome)

end Attempt

def literalEmpty : Error := ⟨.invalidArgument, "OCR watch literal is empty after normalization"⟩

def literalAboveCeiling : Error :=
  ⟨.limitExceeded, "OCR watch literal exceeds the normalized byte ceiling"⟩

/-- What the literal is found to be, before the operation has the last word. -/
def literalOutcome (U : Unicode) (op : Operation) (text : List Char) :
    Attempted Error (Except Error (List Char)) := do
  let trimmed ← trimEdges op text
  if trimmed = [] then pure (.error literalEmpty)
  else normalizeTrimmed U op literalAboveCeiling trimmed

def normalizeLiteral (U : Unicode) (text : List Char) : Attempted Error (List Char) := do
  let op ← Operation.admitted Interruption.toError
  let outcome ← literalOutcome U op text
  op.check Interruption.toError
  let value ← Guarded.lift outcome
  op.committed Interruption.toError value

def normalizeBackend (U : Unicode) (raw : ByteArray) : Attempted Error (List Char) :=
  if raw.size > maxBackendTextBytes then .fail OcrFault.backendTextAboveCeiling.toError
  else
    match raw.utf8Decode? with
    | none => .fail OcrFault.backendTextNotUtf8.toError
    | some text => do
      let op ← Operation.admitted Interruption.toError
      let trimmed ← trimEdges op text.toList
      let outcome ← normalizeTrimmed U op OcrFault.backendTextAboveCeiling.toError trimmed
      op.check Interruption.toError
      let value ← Guarded.lift outcome
      op.committed Interruption.toError value

end MadoPilot.Ocr
