import Mathlib.Data.List.Infix
import MadoPilot.Capture.Frame
import MadoPilot.Watch.OcrQueryData

/-!
# What an OCR text query does under its mutex

One definition for each section of code that runs under the query's mutex, over the data it
protects, and `evaluate`, which runs under no lock.  What the section reads from elsewhere (a clock's
sample, an interruption, the authority of the session and the scheduler, what the host answers) is an
argument.
-/

namespace MadoPilot.Watch

open MadoPilot.Core MadoPilot.Lib
open MadoPilot.Capture (usizeMax)

/-- The fixed eligible residence, thirty seconds. -/
def eligibleQueueExpiry : ℕ := 30 * 10 ^ 9

/-- What `enqueue` made of a source. -/
inductive Enqueued where
  | ignored
  | refused (error : Error)
  | pending
  deriving DecidableEq

/-- What `admit_prepared` made of a prepared execution. -/
inductive Admission where
  | stale | skipped | admitted
  deriving DecidableEq

namespace OcrQueryData

variable (d : OcrQueryData)

/-! ### Terminal outcomes -/

def clearWork : OcrQueryData :=
  { d with
    pending := none
    execution := none
    previousMapping := none
    rateEligibleAt := none
    work := d.work.incrementAll (List.replicate d.held .superseded) }

/-- `clear_work` with the outcome that ends the query. -/
def finish (outcome : OcrTextTerminalOutcome) : OcrQueryData :=
  { d.clearWork with terminal := some outcome }

/-- `terminate`, after the authorities were read: whether this call committed. -/
def terminate (authority : Option OcrTextTerminalOutcome) (proposed : OcrTextTerminalOutcome) :
    OcrQueryData × Bool :=
  match d.terminal with
  | some _ => (d, false)
  | none =>
    (d.finish
      (match authority, proposed with
        | none, .cancelled | some .deadlineExceeded, .cancelled => .cancelled
        | some authority, _ => authority
        | none, proposed => proposed), true)

def expired (now : ℕ) : Bool :=
  d.pending.any fun pending => eligibleQueueExpiry < now - pending.eligibleSince

/-- The outcome that `sweep` finds due. -/
def due (q : OcrQueryShared) (authority : Option OcrTextTerminalOutcome) (now : ℕ)
    (sourceEnded : Bool) : Option OcrTextTerminalOutcome :=
  let exhausted := d.generation == u64Max && d.pending.isSome && d.execution.isNone
  let timingExhausted :=
    d.pending.isSome && d.lastAdmitted.any fun last => (instantAdd last q.rate).isNone
  authority.or <|
    (if d.expired now then some (.overloaded .queueExpired) else none).or <|
    (if exhausted then some (redactedFailure retentionLimit) else none).or <|
    (if timingExhausted then
      some (redactedFailure ⟨.invalidArgument, "OCR rate instant is not representable"⟩)
    else none).or <|
    if sourceEnded && d.pending.isNone && d.execution.isNone then some .sessionClosed else none

/-- `sweep`, after the authorities were read: whether it committed. -/
def sweep (q : OcrQueryShared) (authority : Option OcrTextTerminalOutcome) (now : ℕ)
    (sourceEnded : Bool) : OcrQueryData × Bool :=
  if d.terminal.isSome then (d, false)
  else
    match d.due q authority now sourceEnded with
    | none => (d, false)
    | some outcome =>
      let d := if d.expired now && outcome.isOverloaded then
          { d with work := d.work.increment .queueExpired } else d
      (d.finish outcome, true)

/-! ### Sources -/

/-- The sources that `enqueue` has seen already. -/
def considered (stamp : FrameStamp) : Bool :=
  d.terminal.isSome || d.source.any fun last => !isBefore last stamp

/-- The source is of another epoch or geometry than the last one. -/
def incompatible (stamp : FrameStamp) : Bool :=
  d.source.any fun last => last.epoch ≠ stamp.epoch || last.geometry ≠ stamp.geometry

/-- The part of `enqueue` that knows the source: an incompatible one ends the confirmation and the
execution. -/
def noteSource (stamp : FrameStamp) : OcrQueryData :=
  let d' := { d with needsCurrent := false, source := some stamp }
  if d.incompatible stamp then
    { d' with
      previousMapping := none
      confirmed := 0
      firstConfirmed := none
      accepted := none
      execution := none
      work := d.work.incrementAll (List.replicate d.execution.toList.length .superseded) }
  else d'

/-- The part of `enqueue` that replaces the pending source. -/
def replacePending (q : OcrQueryShared) (stamp : FrameStamp) (region : PixelRect) (now : ℕ) :
    OcrQueryData :=
  let rateAt := d.lastAdmitted.bind (instantAdd · q.rate)
  let eligible := rateAt.filter (now < ·)
  { d with
    effectiveRegion := some region
    pending :=
      some ⟨stamp, (d.pending.map PendingFrame.eligibleSince).getD (eligible.getD now)⟩
    rateEligibleAt := if d.pending.isNone then eligible else d.rateEligibleAt
    work := d.work.incrementAll
      (List.replicate d.pending.toList.length .superseded ++
        if d.pending.isNone && eligible.isSome then [.deferredRate] else []) }

/-- The section of `enqueue` after the authorities were read. -/
def enqueue (q : OcrQueryShared) (stamp : FrameStamp) (geometry : Except Error PixelRect)
    (now : ℕ) : OcrQueryData × Enqueued :=
  if d.terminal.isSome || q.stream ≠ stamp.stream ||
      d.source.any fun last => !isBefore last stamp then (d, .ignored)
  else
    match geometry with
    | .error error => (d.noteSource stamp, .refused error)
    | .ok region => ((d.noteSource stamp).replacePending q stamp region now, .pending)

/-! ### Executions -/

def claim (stamp : FrameStamp) (now : ℕ) (physical : Bool) (interruption : Option Interruption) :
    Option (OcrQueryData × OcrWork) :=
  if interruption.isSome || d.terminal.isSome || d.execution.isSome || physical ||
      d.pending.all (fun pending => pending.stamp ≠ stamp) ||
      d.rateEligibleAt.any (now < ·) then none
  else
    (checkedAdd u64Max d.generation 1).bind fun generation =>
      d.pending.map fun pending =>
        ({ d with
            pending := none
            generation := generation
            rateEligibleAt := none
            execution := some ⟨generation, pending.stamp⟩ },
          ⟨pending.stamp, generation⟩)

/-- The section of `admit_prepared` after the authorities were read. -/
def admitPrepared (q : OcrQueryShared) (w : OcrWork) (region : PixelRect) (mapping : Option ℕ)
    (unchanged : Bool) (now : ℕ) : OcrQueryData × Admission :=
  if !d.executionCurrent w then (d, .stale)
  else
    let d := { d with effectiveRegion := some region }
    if unchanged && d.confirmed == 0 then
      ({ d with
          execution := none
          previousMapping := mapping
          work := d.work.increment .skippedChange }, .skipped)
    else
      let d := { d with lastAdmitted := some now, work := d.work.increment .admitted }
      match instantAdd now q.rate, d.pending with
      | some eligible, some pending =>
        ({ d with
            pending := some { pending with eligibleSince := max pending.eligibleSince eligible }
            rateEligibleAt := some eligible
            work := d.work.increment .deferredRate }, .admitted)
      | _, _ => (d, .admitted)

/-- The authority that keeps `complete` from committing what was evaluated. -/
def refusal (authority : Option OcrTextTerminalOutcome) (capture : Option Error)
    (interruption : Option Interruption) : Option OcrTextTerminalOutcome :=
  let authority :=
    match authority with
    | none | some .cancelled | some .deadlineExceeded =>
      (capture.map fun error => sourceOutcome (captureOutcome error)).or authority
    | _ => authority
  refreshInterruption authority interruption

def observe (w : OcrWork) (mapping : Option ℕ) (positive : Bool) (confirmed : ℕ)
    (first : Option FrameStamp) : OcrQueryData :=
  { d with
    accepted := some w.stamp
    previousMapping := mapping
    confirmed := if positive then saturatingAdd u32Max confirmed 1 else 0
    firstConfirmed := if positive then first.or (some w.stamp) else none
    work := d.work.increment .completed }

/-- The last section of `complete`: whether it committed. -/
def complete (w : OcrWork) (mapping : Option ℕ) (confirmed : ℕ) (first : Option FrameStamp)
    (evaluated : Except Error (Bool × Option OcrTextWatchResult))
    (refusal : Option OcrTextTerminalOutcome) : OcrQueryData × Bool :=
  if !d.executionCurrent w then (d, false)
  else
    match refusal with
    | some outcome => (d.finish outcome, true)
    | none =>
      match evaluated with
      | .error error =>
        ({ d with execution := none, work := d.work.increment .failed }.finish
          (redactedFailure error), true)
      | .ok (positive, result) =>
        let d := { d.observe w mapping positive confirmed first with execution := none }
        match result with
        | some result => (d.finish (.matched result), true)
        | none => (d, false)

end OcrQueryData

/-! ### Evaluation -/

/-- What `evaluate` learns from elsewhere: the transform, the size and the region of the work's frame,
the interruption it finds before a region, the sizes the compiler lays a region and a result out in,
and whether the scheduler retains one more result. -/
structure EvaluateAnswers where
  transform : TransformSnapshot
  sourceBytes : ℕ
  region : Except Error PixelRect
  interruption : ℕ → Option Interruption
  regionSize : ℕ
  resultSize : ℕ
  retained : Except Error Unit

namespace OcrQueryShared

variable (q : OcrQueryShared)

/-- The region is confident enough and contains the literal. -/
def satisfies (r : RecognizedRegion) : Bool :=
  decide (q.minimumConfidence ≤ r.confidence) && decide (q.literal.toList <:+: r.text.toList)

/-- The loop of `evaluate` from `index` on: the bytes of text and the indexes of the satisfying
regions. -/
def scan (interruption : ℕ → Option Interruption) :
    List RecognizedRegion → ℕ → ℕ → List ℕ → Except Error (ℕ × List ℕ)
  | [], _, textBytes, indexes => .ok (textBytes, indexes)
  | r :: regions, index, textBytes, indexes =>
    match interruption index with
    | some i => .error i.toError
    | none =>
      if maxTextBytes < r.text.utf8ByteSize then .error retentionLimit
      else
        match checkedAdd usizeMax textBytes r.text.utf8ByteSize with
        | none => .error retentionLimit
        | some textBytes =>
          if q.satisfies r then
            if index < 2 ^ 16 then scan interruption regions (index + 1) textBytes (indexes ++ [index])
            else .error retentionLimit
          else scan interruption regions (index + 1) textBytes indexes

def extent (a : EvaluateAnswers) (regions textBytes satisfying : ℕ) :
    Except Error OcrTextRetainedExtent :=
  let indexBytes := satisfying * 2
  let metadataBytes := regions * a.regionSize + a.resultSize
  if indexBytes ≤ usizeMax ∧ metadataBytes ≤ usizeMax then
    .ok ⟨a.sourceBytes, textBytes, indexBytes, metadataBytes⟩
  else .error retentionLimit

/-- `evaluate`: whether the output shows the text, and the result once it is confirmed. -/
def evaluate (w : OcrWork) (output : OcrResult) (confirmed : ℕ) (first : Option FrameStamp)
    (a : EvaluateAnswers) : Except Error (Bool × Option OcrTextWatchResult) :=
  if output.stamp ≠ w.stamp ∨ output.transform ≠ a.transform ∨ output.backend ≠ q.descriptor ∨
      output.outputSpace ≠ q.outputSpace then
    .error ⟨.internal, "OCR source correlation failed"⟩
  else do
    let region ← a.region
    if output.effectiveRegion ≠ region then
      .error ⟨.internal, "OCR source correlation failed"⟩
    else if maxCandidates < output.regions.length then .error retentionLimit
    else do
      let (textBytes, indexes) ←
        q.scan a.interruption output.regions 0 q.literal.utf8ByteSize []
      if indexes = [] then .ok (false, none)
      else
        let confirmed := saturatingAdd u32Max confirmed 1
        if confirmed < q.stability.observations then .ok (true, none)
        else do
          let extent ← extent a output.regions.length textBytes indexes.length
          a.retained
          .ok (true, some
            { target := q.target
              frame := w.stamp
              result := output
              provider := q.provider
              literal := q.literal
              minimumConfidence := q.minimumConfidence
              stability := q.stability
              confirmedObservations := confirmed
              firstConfirmedFrame := first.getD w.stamp
              satisfyingIndexes := indexes
              retention := extent })

end OcrQueryShared

end MadoPilot.Watch
