import MadoPilot.Core.Transform
import MadoPilot.Lib.Counter
import MadoPilot.Watch.Query

/-!
# The data of one OCR text query

What an OCR recognizer returns, the outcomes an OCR text query ends in and the data its mutex
protects.  A frame is known here by its stamp, a mapping by a number; a confidence is a finite `f64`,
kept as the rational it denotes.
-/

namespace MadoPilot.Watch

open MadoPilot.Core MadoPilot.Lib

/-! ### Work counters -/

/-- Work-lifecycle transitions; more than one may apply to one work item. -/
inductive OcrTextWorkDisposition where
  | admitted | skippedChange | deferredRate | coalesced | superseded | rejected | queueExpired
  | completed | failed
  deriving DecidableEq, Repr

abbrev OcrTextWorkCounts := Counts OcrTextWorkDisposition u64Max

def settledSources (w : OcrTextWorkCounts) : ℕ :=
  w.get .superseded + w.get .skippedChange + w.get .completed + w.get .failed

/-! ### Recognized text -/

structure RecognizedRegion where
  text : String
  confidence : ℚ
  deriving DecidableEq

/-- The outcome of recognizing one source frame region.  The backend is known by its name. -/
structure OcrResult where
  stamp : FrameStamp
  transform : TransformSnapshot
  effectiveRegion : PixelRect
  outputSpace : CoordinateSpace
  backend : String
  regions : List RecognizedRegion
  deriving DecidableEq

def maxCandidates : ℕ := 1000

def maxTextBytes : ℕ := 4 * 1024

/-! ### Outcomes -/

inductive OcrTextStabilityKind where
  | immediate | consecutive
  deriving DecidableEq, Repr

/-- A validated confirmation requirement. -/
structure OcrTextStability where
  kind : OcrTextStabilityKind
  observations : ℕ
  observations_pos : 0 < observations
  observations_le : observations ≤ u32Max
  deriving DecidableEq

structure OcrTextRetainedExtent where
  sourceBytes : ℕ
  textBytes : ℕ
  indexBytes : ℕ
  metadataBytes : ℕ
  deriving DecidableEq

structure OcrTextWatchResult where
  target : TargetId
  frame : FrameStamp
  result : OcrResult
  provider : String
  literal : String
  minimumConfidence : ℚ
  stability : OcrTextStability
  confirmedObservations : ℕ
  firstConfirmedFrame : FrameStamp
  satisfyingIndexes : List ℕ
  retention : OcrTextRetainedExtent
  deriving DecidableEq

inductive OcrTextOverload where
  | queueExpired
  deriving DecidableEq, Repr

/-- The single immutable winner of all query terminal authorities. -/
inductive OcrTextTerminalOutcome where
  | matched (result : OcrTextWatchResult)
  | cancelled | deadlineExceeded | sessionClosed | schedulerClosed | targetLost
  | overloaded (overload : OcrTextOverload)
  | failed (error : Error)
  deriving DecidableEq

namespace OcrTextTerminalOutcome

def isMatch : OcrTextTerminalOutcome → Bool
  | .matched _ => true
  | _ => false

def isOverloaded : OcrTextTerminalOutcome → Bool
  | .overloaded _ => true
  | _ => false

end OcrTextTerminalOutcome

def retentionLimit : Error := ⟨.limitExceeded, "OCR retained extent is not representable"⟩

def redactedFailure (error : Error) : OcrTextTerminalOutcome :=
  .failed ⟨error.status, "OCR text watch operation failed"⟩

def interrupted : Option Interruption → Option OcrTextTerminalOutcome
  | none => none
  | some .cancelled => some .cancelled
  | some .deadlineExceeded => some .deadlineExceeded

def sourceOutcome {R : Type} : TemplateTerminalOutcome R → OcrTextTerminalOutcome
  | .targetLost => .targetLost
  | .schedulerClosed => .schedulerClosed
  | .failed error => redactedFailure error
  | .cancelled => .cancelled
  | .deadlineExceeded => .deadlineExceeded
  | .matched _ | .sessionClosed | .overloaded _ => .sessionClosed

def captureOutcome (error : Error) : TemplateTerminalOutcome Unit :=
  match error.status with
  | .targetLost => .targetLost
  | .closed => .sessionClosed
  | .cancelled => .cancelled
  | .deadlineExceeded => .deadlineExceeded
  | _ => .failed error

/-- `refresh_interruption`: the token is read once more. -/
def refreshInterruption (authority : Option OcrTextTerminalOutcome)
    (interruption : Option Interruption) : Option OcrTextTerminalOutcome :=
  match authority with
  | none | some .cancelled | some .deadlineExceeded => (interrupted interruption).or authority
  | _ => authority

/-! ### The query -/

structure OcrExecution where
  generation : ℕ
  stamp : FrameStamp
  deriving DecidableEq

structure OcrWork where
  stamp : FrameStamp
  generation : ℕ
  deriving DecidableEq

structure OcrQueryData where
  terminal : Option OcrTextTerminalOutcome
  needsCurrent : Bool
  source : Option FrameStamp
  accepted : Option FrameStamp
  pending : Option PendingFrame
  rateEligibleAt : Option ℕ
  generation : ℕ
  execution : Option OcrExecution
  previousMapping : Option ℕ
  lastAdmitted : Option ℕ
  confirmed : ℕ
  firstConfirmed : Option FrameStamp
  effectiveRegion : Option PixelRect
  work : OcrTextWorkCounts

/-- The part of a query that no mutex protects.  The provider is known by its name. -/
structure OcrQueryShared where
  target : TargetId
  stream : StreamId
  rate : ℕ
  literal : String
  minimumConfidence : ℚ
  outputSpace : CoordinateSpace
  stability : OcrTextStability
  descriptor : String
  provider : String
  deriving DecidableEq

namespace OcrQueryData

def new : OcrQueryData where
  terminal := none
  needsCurrent := true
  source := none
  accepted := none
  pending := none
  rateEligibleAt := none
  generation := 0
  execution := none
  previousMapping := none
  lastAdmitted := none
  confirmed := 0
  firstConfirmed := none
  effectiveRegion := none
  work := .zero

variable (d : OcrQueryData)

/-- The number of sources the query has: a pending one and one under execution. -/
def held : ℕ := d.pending.toList.length + d.execution.toList.length

def executionCurrent (w : OcrWork) : Bool :=
  d.terminal.isNone && d.execution == some ⟨w.generation, w.stamp⟩

end OcrQueryData

end MadoPilot.Watch
