import MadoPilot.Watch.GatingSound
import MadoPilot.Watch.OcrQuery

/-!
# A text query that gates its executions

`process_ocr`: the one execution of an OCR text query, from its claim to its end.  It maps the claimed
frame, compares the mapping with the previous one, remembers it, and skips the frame or executes and
evaluates what was recognized.  Between any two of these the session may publish, the cache may serve
other queries and the query may be ended.  The query's authorities end it by an event of their own.
-/

namespace MadoPilot.Watch

open MadoPilot.Core MadoPilot.Lib MadoPilot.Capture

/-- What an execution reads that depends on its frame alone: the pixels, the region the request
resolves to, the bytes of the frame, and the text that the backend recognizes in a mapping. -/
structure OcrSight where
  frames : Frames
  resolve : FrameInstance → Except Error PixelRect
  sourceBytes : FrameInstance → ℕ
  recognize : CpuMapping.Content → Except Error (List RecognizedRegion)
  regionSize : ℕ
  resultSize : ℕ

/-- A prepared execution: the work and the mapping of its frame. -/
structure OcrPrepared (S : OcrSight) where
  work : OcrWork
  frame : FrameInstance
  region : PixelRect
  descriptor : FrameDescriptor
  stamped : S.frames.stamp frame = work.stamp
  resolved : S.resolve frame = .ok region

namespace OcrPrepared

variable {S : OcrSight} (p : OcrPrepared S)

def pixels : CpuMapping := S.frames.map p.frame p.region p.descriptor

def execute (q : OcrQueryShared) : Except Error OcrResult :=
  (S.recognize p.pixels.content).map fun regions =>
    ⟨p.pixels.stamp, p.pixels.transform, p.pixels.region, q.outputSpace, q.descriptor, regions⟩

/-- What evaluating learns from elsewhere: nothing interrupts it. -/
def answers (retained : Except Error Unit) : EvaluateAnswers where
  transform := S.frames.transform p.frame
  sourceBytes := S.sourceBytes p.frame
  region := S.resolve p.frame
  interruption := fun _ => none
  regionSize := S.regionSize
  resultSize := S.resultSize
  retained := retained

end OcrPrepared

/-- What the text analysis of a mapping finds: the regions, unless none satisfies the request. -/
def OcrSight.find (S : OcrSight) (q : OcrQueryShared) (content : CpuMapping.Content) :
    Except Error (ImmutableAnalysisResult (List RecognizedRegion)) := do
  let regions ← S.recognize content
  if maxCandidates < regions.length then .error retentionLimit
  else do
    let (_, indexes) ← q.scan (fun _ => none) regions 0 q.literal.utf8ByteSize []
    if indexes = [] then .ok .empty else .ok (.shared regions)

/-- How far the execution has come. -/
inductive OcrStage (S : OcrSight) where
  | idle
  | claimed (w : OcrWork)
  | prepared (p : OcrPrepared S)
  | compared (p : OcrPrepared S) (unchanged : Bool)
  | remembered (p : OcrPrepared S) (unchanged : Bool) (mapping : Option ℕ)
  | admitted (p : OcrPrepared S) (mapping : Option ℕ)
  | evaluated (w : OcrWork) (mapping : Option ℕ) (confirmed : ℕ) (first : Option FrameStamp)
    (evaluated : Except Error (Bool × Option OcrTextWatchResult))

structure OcrGating (S : OcrSight) where
  data : OcrQueryData
  cache : MappingCache
  stage : OcrStage S

/-- What may happen to the query or the cache; `closed` and `alive` as for a template query. -/
inductive OcrGatingEvent where
  | enqueue (stamp : FrameStamp) (geometry : Except Error PixelRect) (now : ℕ)
  | claim (stamp : FrameStamp) (now : ℕ) (interruption : Option Interruption)
  | prepare (i : FrameInstance) (region : PixelRect) (descriptor : FrameDescriptor)
  | fail (error : Error)
  | compare (alive : Bool)
  | retain (closed : Bool)
  | admitPrepared (now : ℕ)
  | evaluate (retained : Except Error Unit)
  | complete
  | remember (i : FrameInstance) (region : PixelRect) (descriptor : FrameDescriptor)
  | clear
  | terminate (outcome : OcrTextTerminalOutcome)

namespace OcrGating

/-- A query that has just started, before its first execution. -/
def new (S : OcrSight) : OcrGating S := ⟨.new, .new, .idle⟩

variable {S : OcrSight} (q : OcrQueryShared) (policy : ChangeDetectionPolicy) (g : OcrGating S)

/-- The worker has not come back from the last execution. -/
def physical : Bool :=
  match g.stage with
  | .idle => false
  | _ => true

def unchanged (alive : Bool) (p : OcrPrepared S) : Bool :=
  let previous :=
    if g.data.confirmed = 0 then g.data.previousMapping.bind (g.cache.upgrade alive) else none
  decide (policy ≠ .analysisAlways) && previous.any (unchangedPixels · p.pixels)

def retain (closed : Bool) (p : OcrPrepared S) : MappingCache × Option ℕ :=
  if policy ≠ .analysisAlways ∧ closed = false then g.cache.remember p.pixels else (g.cache, none)

/-- The first section of `complete`, and the evaluation. -/
def evaluate (w : OcrWork) (mapping : Option ℕ)
    (evaluated : ℕ → Option FrameStamp → Except Error (Bool × Option OcrTextWatchResult)) :
    OcrGating S :=
  if g.data.executionCurrent w then
    let confirmed := g.data.confirmed
    let first := g.data.firstConfirmed
    { g with stage := .evaluated w mapping confirmed first (evaluated confirmed first) }
  else { g with stage := .idle }

def step : OcrGatingEvent → OcrGating S
  | .enqueue stamp geometry now => { g with data := (g.data.enqueue q stamp geometry now).1 }
  | .claim stamp now interruption =>
    match g.data.claim stamp now g.physical interruption with
    | some (d, w) => { g with data := d, stage := .claimed w }
    | none => g
  | .prepare i region descriptor =>
    match g.stage with
    | .claimed w =>
      if h : S.frames.stamp i = w.stamp ∧ S.resolve i = .ok region then
        { g with stage := .prepared ⟨w, i, region, descriptor, h.1, h.2⟩ }
      else g
    | _ => g
  | .fail error =>
    match g.stage with
    | .claimed w => g.evaluate w none fun _ _ => .error error
    | .prepared p => g.evaluate p.work none fun _ _ => .error error
    | _ => g
  | .compare alive =>
    match g.stage with
    | .prepared p =>
      if g.data.executionCurrent p.work then
        { g with stage := .compared p (g.unchanged policy alive p) }
      else { g with stage := .idle }
    | _ => g
  | .retain closed =>
    match g.stage with
    | .compared p unchanged =>
      let r := g.retain policy closed p
      { g with cache := r.1, stage := .remembered p unchanged r.2 }
    | _ => g
  | .admitPrepared now =>
    match g.stage with
    | .remembered p unchanged mapping =>
      let r := g.data.admitPrepared q p.work p.region mapping unchanged now
      { g with data := r.1, stage := if r.2 = .admitted then .admitted p mapping else .idle }
    | _ => g
  | .evaluate retained =>
    match g.stage with
    | .admitted p mapping =>
      g.evaluate p.work mapping fun confirmed first =>
        (p.execute q).bind fun output =>
          q.evaluate p.work output confirmed first (p.answers retained)
    | _ => g
  | .complete =>
    match g.stage with
    | .evaluated w mapping confirmed first evaluated =>
      { g with
        data := (g.data.complete w mapping confirmed first evaluated none).1
        stage := .idle }
    | _ => g
  | .remember i region descriptor =>
    { g with cache := (g.cache.remember (S.frames.map i region descriptor)).1 }
  | .clear => { g with cache := g.cache.clear }
  | .terminate outcome => { g with data := (g.data.terminate none outcome).1 }

end OcrGating

end MadoPilot.Watch
