import MadoPilot.Lib.Barrier
import MadoPilot.Lib.Threads

/-!
# Dispatching template and OCR work

The workers of a scheduler take work with `next_dispatch`, which turns to `next_work` for a template
query, and run it with `process` and `process_ocr`.  They share the `DispatchState` under the
`admission` lock, which one dispatch takes and releases several times; publications, closing sessions
and cancelled queries come in between.

A step is one section under a lock, or one read of an atomic.  What a section learns from the queries
themselves (which of them are ready, whether one of them can still be claimed) is part of the step's
label, so that every state of the queries is covered; the candidates a worker collected before its
last section may be out of date.
-/

namespace MadoPilot.Watch

open MadoPilot.Lib

variable {τ : Type*}

/-! ### Data -/

structure DispatchState (τ : Type*) where
  templateMappings : ℕ
  ocrTurn : Bool
  ocrMapping : Bool
  ocrWorker : Option τ
  ocrQuery : Option ℕ
  ocrHighWater : ℕ
  nextOcr : Bool
  ocrReady : Bool
  ocrSessionCursor : ℕ

structure SessionGate where
  closed : Bool
  terminalAuthority : Bool
  ocrQueryCursor : ℕ

namespace SessionGate

def new : SessionGate := ⟨false, false, 0⟩

def ended (g : SessionGate) : Bool := g.closed || g.terminalAuthority

end SessionGate

structure WatchScheduler (τ : Type*) where
  admission : DispatchState τ
  closed : Bool
  ocrUsed : Bool
  publishing : ℕ
  publicationGeneration : ℕ
  mappingBarrier : Bool
  session : ℕ → SessionGate

/-- An OCR query found ready, with its session's cursor as it was read then. -/
structure OcrCandidate where
  session : ℕ
  query : ℕ
  cursor : ℕ

/-- What `next_work` learns of a template candidate under its last lock: its session, whether the
session is still there, whether the query's next generation is the one collected, and whether the
claim succeeds. -/
structure TemplateChoice where
  session : ℕ
  sessionGone : Bool
  sameGeneration : Bool
  claimed : Bool

/-- Where a thread stands: a worker inside `next_dispatch`, `next_work`, `process` or `process_ocr`,
or an acquisition thread inside `publish`. -/
inductive WorkerPlace where
  | idle
  | probing
  | preparing
  | positioning (publication : ℕ)
  | scanning (publication cursor : ℕ)
  | selecting (publication cursor : ℕ) (ocr : List OcrCandidate) (templateReady : Bool)
  | searching
  | choosing (publication : ℕ)
  | templateMapping
  | templateMapped
  | ocrMapping (c : OcrCandidate)
  | ocrMapped (c : OcrCandidate)
  | ocrLeft (c : OcrCandidate)
  | publishing
  | published

namespace WorkerPlace

/-- A template work item between its claim and its release. -/
def MapsTemplate : WorkerPlace → Prop
  | .templateMapping => True
  | _ => False

def MapsOcr : WorkerPlace → Prop
  | .ocrMapping _ => True
  | _ => False

/-- An OCR work item, from its claim until its lease is dropped. -/
def Leases : WorkerPlace → Prop
  | .ocrMapping _ | .ocrMapped _ => True
  | _ => False

end WorkerPlace

inductive DispatchEvent where
  | dispatch | probe | readPublication | readCursor
  | scan (ocr : List OcrCandidate) (templateReady : Bool)
  | select (granted : OcrCandidate → Bool)
  | search | choose (c : TemplateChoice) | exhaust | release | finish
  | prepared | drop | retire
  | publish | advance | publicationDone
  | useOcr | closeSession (s : ℕ) | endSession (s : ℕ) | closeScheduler

/-! ### Sections -/

namespace WatchScheduler

variable (s : WatchScheduler τ)

def new : WatchScheduler τ where
  admission :=
    { templateMappings := 0
      ocrTurn := false
      ocrMapping := false
      ocrWorker := none
      ocrQuery := none
      ocrHighWater := 0
      nextOcr := false
      ocrReady := false
      ocrSessionCursor := 0 }
  closed := false
  ocrUsed := false
  publishing := 0
  publicationGeneration := 0
  mappingBarrier := false
  session := fun _ => .new

def setSession [DecidableEq ℕ] (i : ℕ) (g : SessionGate) : WatchScheduler τ :=
  { s with session := Function.update s.session i g }

def setTurn (on : Bool) : WatchScheduler τ :=
  { s with admission := { s.admission with ocrTurn := on }, mappingBarrier := on }

def setReady (ready : Bool) : WatchScheduler τ :=
  { s with admission := { s.admission with ocrReady := ready } }

/-- The dispatch state after the claim of `c`. -/
def grant (worker : τ) (c : OcrCandidate) : WatchScheduler τ :=
  { s with
    admission :=
      { s.admission with
        ocrWorker := some worker
        ocrQuery := some c.query
        ocrMapping := true
        ocrTurn := false
        ocrHighWater := 1
        nextOcr := false
        ocrSessionCursor := c.session }
    session := Function.update s.session c.session
      { s.session c.session with ocrQueryCursor := c.query } }

/-- The last section of `next_dispatch` finds something changed since the scan. -/
def stale (publication cursor : ℕ) (ocr : List OcrCandidate) : Bool :=
  s.closed || s.publishing != 0 || s.publicationGeneration != publication ||
    s.admission.ocrSessionCursor != cursor ||
    ocr.any fun c => (s.session c.session).ocrQueryCursor != c.cursor

/-- The end of `next_dispatch`: the template class, unless the OCR class holds it back. -/
def conclude : WatchScheduler τ × WorkerPlace :=
  (s, if s.admission.ocrMapping || s.admission.ocrTurn then .idle else .searching)

/-- The turn is taken: the claim of the first candidate that grants one, once no template mapping is
outstanding. -/
def takeTurn (worker : τ) (ocr : List OcrCandidate) (granted : OcrCandidate → Bool) :
    WatchScheduler τ × WorkerPlace :=
  if s.admission.templateMappings ≠ 0 then (s.setTurn true, .idle)
  else
    match ocr.find? fun c => !(s.session c.session).ended && granted c with
    | some c => ((s.setTurn true).grant worker c, .ocrMapping c)
    | none => ((s.setReady false).setTurn false).conclude

/-- The last section of `next_dispatch`. -/
def select (worker : τ) (publication cursor : ℕ) (ocr : List OcrCandidate) (templateReady : Bool)
    (granted : OcrCandidate → Bool) : WatchScheduler τ × WorkerPlace :=
  if s.stale publication cursor ocr then (s, .idle)
  else if s.admission.ocrWorker.isSome then (s.setReady !ocr.isEmpty).conclude
  else if ocr.isEmpty then ((s.setReady false).setTurn false).conclude
  else if s.admission.ocrTurn || s.admission.nextOcr || !templateReady then
    (s.setReady true).takeTurn worker ocr granted
  else (s.setReady true).conclude

/-- The section of `next_work` on one candidate. -/
def choose (publication : ℕ) (c : TemplateChoice) : WatchScheduler τ × WorkerPlace :=
  if s.closed || s.publishing != 0 then (s, .idle)
  else if s.admission.ocrMapping || s.admission.ocrTurn then (s, .idle)
  else if s.admission.ocrWorker.isNone && s.admission.nextOcr && s.admission.ocrReady then (s, .idle)
  else if c.sessionGone || (s.session c.session).ended || !c.sameGeneration || !c.claimed then
    (s, .choosing publication)
  else if s.publishing != 0 || s.publicationGeneration != publication then
    -- the claims are released again
    (s, .idle)
  else
    ({ s with
        admission :=
          { s.admission with
            templateMappings := s.admission.templateMappings + 1
            nextOcr := true } },
      .templateMapping)

def release : WatchScheduler τ :=
  { s with
    admission := { s.admission with templateMappings := s.admission.templateMappings - 1 } }

/-- The section of `process_ocr` after preparation. -/
def prepared : WatchScheduler τ :=
  { s with admission := { s.admission with ocrMapping := false }, mappingBarrier := false }

/-- The section of the drop of an `OcrPhysicalLease`. -/
def drop : WatchScheduler τ :=
  { s with
    admission := { s.admission with ocrMapping := false, ocrQuery := none, ocrWorker := none }
    mappingBarrier := s.admission.ocrTurn }

end WatchScheduler

/-! ### Steps -/

/-- One step of a thread that stands at a place: what it leaves and where it stands then. -/
def dispatchStep (t : τ) (s : WatchScheduler τ) :
    WorkerPlace → DispatchEvent → Option (WatchScheduler τ × WorkerPlace)
  | .idle, .dispatch =>
    some (s, if !s.ocrUsed then .searching
      else if s.closed || s.publishing != 0 then .idle else .probing)
  | .probing, .probe =>
    some (s, match s.admission.ocrWorker with
      | some _ => if s.admission.ocrMapping then .idle else .searching
      | none => .preparing)
  | .preparing, .readPublication => some (s, .positioning s.publicationGeneration)
  | .positioning publication, .readCursor =>
    some (s, .scanning publication s.admission.ocrSessionCursor)
  | .scanning publication cursor, .scan ocr templateReady =>
    some (s, .selecting publication cursor ocr templateReady)
  | .selecting publication cursor ocr templateReady, .select granted =>
    some (s.select t publication cursor ocr templateReady granted)
  | .searching, .search =>
    some (s, if s.publishing != 0 then .idle else .choosing s.publicationGeneration)
  | .choosing publication, .choose c => some (s.choose publication c)
  | .choosing _, .exhaust => some (s, .idle)
  | .templateMapping, .release => some (s.release, .templateMapped)
  | .templateMapped, .finish => some (s, .idle)
  | .ocrMapping c, .prepared => some (s.prepared, .ocrMapped c)
  | .ocrMapping c, .drop => some (s.drop, .ocrLeft c)
  | .ocrMapped c, .drop => some (s.drop, .ocrLeft c)
  | .ocrLeft _, .retire => some (s, .idle)
  | .idle, .publish => some ({ s with publishing := s.publishing + 1 }, .publishing)
  | .publishing, .advance =>
    some ({ s with publicationGeneration := s.publicationGeneration + 1 }, .published)
  | .published, .publicationDone => some ({ s with publishing := s.publishing - 1 }, .idle)
  | .idle, .useOcr => some ({ s with ocrUsed := true }, .idle)
  | .idle, .closeSession i => some (s.setSession i { s.session i with closed := true }, .idle)
  | .idle, .endSession i =>
    some (s.setSession i { s.session i with terminalAuthority := true }, .idle)
  | .idle, .closeScheduler => some ({ s with closed := true }, .idle)
  | _, _ => none

abbrev DispatchWorld (τ : Type*) := World τ (WatchScheduler τ) WorkerPlace

def DispatchWorld.start (τ : Type*) : DispatchWorld τ := ⟨.new, fun _ => .idle⟩

/-- The threads of one scheduler. -/
abbrev dispatching (τ : Type*) [DecidableEq τ] : System (DispatchWorld τ) (τ × DispatchEvent) :=
  threads (Performs dispatchStep) (DispatchWorld.start τ)

end MadoPilot.Watch
