import MadoPilot.Lib.Threads
import MadoPilot.Watch.OcrQuery

/-!
# Threads on one OCR text query

The session's acquisition thread calls `enqueue`, workers claim the pending source and take it through
`process_ocr`, and any thread calls `terminate` and `sweep`, ends the session or its source, or closes
the scheduler.  A step is one section under the locks, or the start of a call whose section comes
later; the interruption, the clock and what the host answers are part of the step's label.

The acquisition thread is one at a time (`publishing`), so that one publication is over before the next
begins.  Beside the query's data the threads share a book, which no code reads: the sources accepted as
pending, the outcomes stored, and the completed analyses between the incompatible sources.
-/

namespace MadoPilot.Watch

open MadoPilot.Core MadoPilot.Lib

/-! ### Data -/

/-- What the session and the scheduler have recorded of their end. -/
structure OcrGate where
  terminalAuthority : Option (TemplateTerminalOutcome Unit)
  sessionClosed : Bool
  sourceEnded : Bool
  schedulerClosed : Bool

namespace OcrGate

def new : OcrGate := ⟨none, false, false, false⟩

variable (g : OcrGate)

/-- The session or the scheduler has recorded an end that stops the query. -/
def sealed : Bool := g.terminalAuthority.isSome || g.sessionClosed || g.schedulerClosed

def authority (interruption : Option Interruption) : Option OcrTextTerminalOutcome :=
  (g.terminalAuthority.map sourceOutcome).or <|
    (if g.sessionClosed then some .sessionClosed else none).or <|
    (if g.schedulerClosed then some .schedulerClosed else none).or (interrupted interruption)

/-- What `WatchSession::close` records. -/
def close (outcome : TemplateTerminalOutcome Unit) : OcrGate :=
  if g.sessionClosed then g
  else { g with sessionClosed := true, terminalAuthority := g.terminalAuthority.or (some outcome) }

/-- What the acquisition thread records when its source ends; without an outcome the source ends
quietly. -/
def endSource (outcome : Option (TemplateTerminalOutcome Unit)) : OcrGate :=
  { g with sourceEnded := true, terminalAuthority := g.terminalAuthority.or outcome }

end OcrGate

/-- A completed analysis: its frame, and what the backend recognized there. -/
structure OcrAnalysis where
  frame : FrameStamp
  output : OcrResult

/-- What the query's history has been told: the sources accepted as pending, the outcomes stored, and
the completed analyses, with an entry `none` for each incompatible source. -/
structure OcrBook where
  accepted : List FrameStamp
  commits : List OcrTextTerminalOutcome
  observations : List (Option OcrAnalysis)

def OcrBook.new : OcrBook := ⟨[], [], []⟩

structure OcrDesk where
  data : OcrQueryData
  gate : OcrGate
  physical : Bool
  publishing : Bool
  book : OcrBook

namespace OcrDesk

def new : OcrDesk := ⟨.new, .new, false, false, .new⟩

variable (s : OcrDesk)

/-- New data, and the outcome it stores where the section committed one. -/
def write (r : OcrQueryData × Bool) : OcrDesk :=
  { s with
    data := r.1
    book := { s.book with
      commits := s.book.commits ++ if r.2 then r.1.terminal.toList else [] } }

end OcrDesk

/-- Where a thread stands.  `w` is the work of a worker whose lease it still has. -/
inductive OcrPlace where
  | idle
  | enqueuing (stamp : FrameStamp)
  | terminating (outcome : OcrTextTerminalOutcome)
  | publishTerminating (outcome : OcrTextTerminalOutcome)
  | workTerminating (w : OcrWork) (outcome : OcrTextTerminalOutcome)
  | claimed (w : OcrWork)
  | admitted (w : OcrWork)
  | completing (w : OcrWork) (mapping : Option ℕ) (output : Except Error OcrResult) (confirmed : ℕ)
    (first : Option FrameStamp) (evaluated : Except Error (Bool × Option OcrTextWatchResult))
  | dropping (w : OcrWork)

/-- The steps.  An `interruption` is what the token and the deadline answered, `again` what they
answered when they were read once more. -/
inductive OcrEvent where
  | callEnqueue (stamp : FrameStamp)
  | enqueue (geometry : Except Error PixelRect) (now : ℕ) (interruption : Option Interruption)
  | callTerminate (proposed : OcrTextTerminalOutcome)
  | terminate (interruption again : Option Interruption)
  | sweep (now : ℕ) (interruption again : Option Interruption)
  | claim (stamp : FrameStamp) (now : ℕ) (interruption : Option Interruption)
  | checkExecution
  | admitPrepared (region : PixelRect) (mapping : Option ℕ) (unchanged : Bool) (now : ℕ)
    (interruption again : Option Interruption)
  | callComplete (mapping : Option ℕ) (output : Except Error OcrResult) (answers : EvaluateAnswers)
  | complete (capture : Option Error) (interruption again : Option Interruption)
  | drop
  | closeSession (outcome : TemplateTerminalOutcome Unit)
  | endSource (outcome : Option (TemplateTerminalOutcome Unit))
  | closeScheduler

/-! ### Sections -/

namespace OcrDesk

variable (s : OcrDesk) (q : OcrQueryShared)

/-- The section of `terminate`. -/
def terminate (proposed : OcrTextTerminalOutcome) (interruption again : Option Interruption) :
    OcrDesk :=
  s.write (s.data.terminate (refreshInterruption (s.gate.authority interruption) again) proposed)

def sweep (now : ℕ) (interruption again : Option Interruption) : OcrDesk :=
  s.write (s.data.sweep q (refreshInterruption (s.gate.authority interruption) again) now
    s.gate.sourceEnded)

/-- What `enqueue` enters in the book. -/
def noteEnqueued (stamp : FrameStamp) (enqueued : Enqueued) : OcrBook :=
  { s.book with
    accepted := s.book.accepted ++ if enqueued = .pending then [stamp] else []
    observations := s.book.observations ++
      if enqueued ≠ .ignored ∧ s.data.incompatible stamp = true then [none] else [] }

/-- The section of `enqueue` where no authority ends the query, and where the thread stands then. -/
def enqueue (stamp : FrameStamp) (geometry : Except Error PixelRect) (now : ℕ) :
    OcrDesk × OcrPlace :=
  match s.data.enqueue q stamp geometry now with
  | (d, .refused error) =>
    ({ s with data := d, book := s.noteEnqueued stamp (.refused error) },
      .publishTerminating (redactedFailure error))
  | (d, enqueued) =>
    ({ s with data := d, publishing := false, book := s.noteEnqueued stamp enqueued }, .idle)

/-- The section of `claim`. -/
def claim (stamp : FrameStamp) (now : ℕ) (interruption : Option Interruption) : OcrDesk × OcrPlace :=
  match s.data.claim stamp now s.physical interruption with
  | some (d, w) => ({ s with data := d, physical := true }, .claimed w)
  | none => (s, .idle)

def admitPrepared (w : OcrWork) (region : PixelRect) (mapping : Option ℕ) (unchanged : Bool)
    (now : ℕ) (interruption again : Option Interruption) : OcrDesk × OcrPlace :=
  match s.gate.authority interruption with
  | some outcome => (s, .workTerminating w outcome)
  | none =>
    if !s.data.executionCurrent w then (s, .dropping w)
    else
      match interrupted again with
      | some outcome => (s, .workTerminating w outcome)
      | none =>
        match s.data.admitPrepared q w region mapping unchanged now with
        | (d, .admitted) => ({ s with data := d }, .admitted w)
        | (d, _) => ({ s with data := d }, .dropping w)

/-- The first section of `complete`, and the evaluation that follows it under no lock. -/
def callComplete (w : OcrWork) (mapping : Option ℕ) (output : Except Error OcrResult)
    (answers : EvaluateAnswers) : OcrPlace :=
  if !s.data.executionCurrent w then .dropping w
  else
    .completing w mapping output s.data.confirmed s.data.firstConfirmed
      (output.bind fun output =>
        q.evaluate w output s.data.confirmed s.data.firstConfirmed answers)

/-- What `complete` enters in the book. -/
def observation (w : OcrWork) (output : Except Error OcrResult)
    (evaluated : Except Error (Bool × Option OcrTextWatchResult))
    (refusal : Option OcrTextTerminalOutcome) : List (Option OcrAnalysis) :=
  if s.data.executionCurrent w && refusal.isNone then
    match output, evaluated with
    | .ok output, .ok _ => [some ⟨w.stamp, output⟩]
    | _, _ => []
  else []

/-- The last section of `complete`. -/
def complete (w : OcrWork) (mapping : Option ℕ) (output : Except Error OcrResult) (confirmed : ℕ)
    (first : Option FrameStamp) (evaluated : Except Error (Bool × Option OcrTextWatchResult))
    (capture : Option Error) (interruption again : Option Interruption) : OcrDesk :=
  let refusal := OcrQueryData.refusal (s.gate.authority interruption) capture again
  let s' := s.write (s.data.complete w mapping confirmed first evaluated refusal)
  { s' with
    book := { s'.book with
      observations := s.book.observations ++ s.observation w output evaluated refusal } }

end OcrDesk

/-! ### Steps -/

/-- One step of a thread that stands at a place: what it leaves and where it stands then. -/
def ocrStep (q : OcrQueryShared) {τ : Type*} (_ : τ) (s : OcrDesk) :
    OcrPlace → OcrEvent → Option (OcrDesk × OcrPlace)
  | .idle, .callEnqueue stamp =>
    if s.publishing then none
    else if s.data.considered stamp then some (s, .idle)
    else some ({ s with publishing := true }, .enqueuing stamp)
  | .enqueuing stamp, .enqueue geometry now interruption =>
    match s.gate.authority interruption with
    | some outcome => some (s, .publishTerminating outcome)
    | none => some (s.enqueue q stamp geometry now)
  | .idle, .callTerminate proposed =>
    -- no caller proposes a match
    if proposed.isMatch then none else some (s, .terminating proposed)
  | .terminating outcome, .terminate interruption again =>
    some (s.terminate outcome interruption again, .idle)
  | .publishTerminating outcome, .terminate interruption again =>
    some ({ s.terminate outcome interruption again with publishing := false }, .idle)
  | .workTerminating w outcome, .terminate interruption again =>
    some (s.terminate outcome interruption again, .dropping w)
  | .idle, .sweep now interruption again => some (s.sweep q now interruption again, .idle)
  | .claimed w, .sweep now interruption again => some (s.sweep q now interruption again, .claimed w)
  | .dropping w, .sweep now interruption again =>
    some (s.sweep q now interruption again, .dropping w)
  | .idle, .claim stamp now interruption => some (s.claim stamp now interruption)
  | .claimed w, .checkExecution =>
    some (s, if s.data.executionCurrent w then .claimed w else .dropping w)
  | .claimed w, .admitPrepared region mapping unchanged now interruption again =>
    some (s.admitPrepared q w region mapping unchanged now interruption again)
  | .claimed w, .callComplete mapping output answers =>
    -- preparation failed
    if output.isOk then none else some (s, s.callComplete q w mapping output answers)
  | .admitted w, .callComplete mapping output answers =>
    some (s, s.callComplete q w mapping output answers)
  | .completing w mapping output confirmed first evaluated, .complete capture interruption again =>
    some (s.complete w mapping output confirmed first evaluated capture interruption again, .dropping w)
  | .dropping _, .drop => some ({ s with physical := false }, .idle)
  | .idle, .closeSession outcome => some ({ s with gate := s.gate.close outcome }, .idle)
  | .idle, .endSource outcome => some ({ s with gate := s.gate.endSource outcome }, .idle)
  | .idle, .closeScheduler =>
    some ({ s with gate := { s.gate with schedulerClosed := true } }, .idle)
  | _, _ => none

abbrev OcrWorld (τ : Type*) := World τ OcrDesk OcrPlace

/-- A query before any call. -/
def OcrWorld.start (τ : Type*) : OcrWorld τ := ⟨.new, fun _ => .idle⟩

abbrev ocrSystem (τ : Type*) [DecidableEq τ] (q : OcrQueryShared) : System (OcrWorld τ) (τ × OcrEvent) :=
  threads (Performs (ocrStep q)) (OcrWorld.start τ)

end MadoPilot.Watch
