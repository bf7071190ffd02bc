import MadoPilot.Watch.MappingCache
import MadoPilot.Watch.QueryMachine

/-!
# A template query that gates its analyses

The frames one query claims, from the mapping to the end of the analysis: `process` maps the claimed
frame and remembers the mapping, `mapping_decision` compares it with the previous one, and
`finish_mapping` skips the frame or admits its analysis, which `complete` commits.  Between any two of
these the session may publish, the cache may serve other queries and the query may be ended.

A query admits one analysis at a time.  One that was displaced commits nothing when it completes, so
only the last one admitted is kept here.
-/

namespace MadoPilot.Watch

open MadoPilot.Core MadoPilot.Lib MadoPilot.Capture

variable {R : Type}

/-- What the search of a claimed frame covers; without a layout nothing had to be mapped. -/
structure MappedFrame where
  frame : FrameInstance
  searched : PixelRect
  layout : Option FrameDescriptor
  deriving DecidableEq

namespace MappedFrame

variable (F : Frames) (m : MappedFrame)

def pixels : Option CpuMapping := m.layout.map (F.map m.frame m.searched)

/-- The mapping as the query's sections see it. -/
def matched : MappedMatch := ⟨F.stamp m.frame, m.searched⟩

end MappedFrame

/-- `find_mapped`: an empty search finds nothing, another one what the backend finds in the pixels it
is shown.  The template is the query's own. -/
def findMapped (F : Frames) (backend : CpuMapping.Content → Except Error (ImmutableAnalysisResult R))
    (m : MappedFrame) : Except Error (ImmutableAnalysisResult R) :=
  match m.pixels F with
  | none => .ok .empty
  | some pixels => backend pixels.content

/-- A claimed frame with the reference to its remembered mapping. -/
structure ClaimedFrame where
  frame : MappedFrame
  mapping : Option ℕ
  deriving DecidableEq

structure Analysis where
  generation : ℕ
  claimed : ClaimedFrame
  deriving DecidableEq

/-- The query, the cache, the claimed frame with what was decided about it, and the analysis. -/
structure Gate (R : Type) where
  data : QueryData R
  cache : MappingCache
  claimed : Option ClaimedFrame
  decision : Option ChangeDecision
  analysing : Option Analysis

/-- What may happen to the query or the cache.  `shared` says that a query that shares the mapping
compares too, `closed` that the cache is closed, and `alive` that a mapping outlives its entry. -/
inductive GateEvent (R : Type) where
  | publish (stamp : FrameStamp) (now : ℕ) (barrier : Bool)
  | claim (stamp : FrameStamp)
  | map (m : MappedFrame) (shared closed : Bool)
  | decide (alive : Bool)
  | finish (now : ℕ)
  | complete (now : ℕ)
  | failMapping (stamp : FrameStamp) (error : Error)
  | releaseClaim (stamp : FrameStamp)
  | remember (i : FrameInstance) (region : PixelRect) (descriptor : FrameDescriptor)
  | clear
  | terminate (outcome : TemplateTerminalOutcome R)

namespace Gate

/-- A query that has just started, before the first mapping. -/
def new : Gate R := ⟨.new, .new, none, none, none⟩

variable (F : Frames) (backend : CpuMapping.Content → Except Error (ImmutableAnalysisResult R))
  (q : QueryShared) (policy : ChangeDetectionPolicy) (g : Gate R)

/-- What `process` does with the cache. -/
def rememberMapped (m : MappedFrame) (shared closed : Bool) : MappingCache × Option ℕ :=
  match m.pixels F with
  | none => (g.cache, none)
  | some pixels =>
    if (policy ≠ .analysisAlways || shared) && !closed then g.cache.remember pixels
    else (g.cache, none)

def mappingDecision (alive : Bool) (m : MappedFrame) : ChangeDecision :=
  if g.data.stability.observations ≠ 0 then .analysisRequired
  else
    match g.data.previousMapping.bind (g.cache.upgrade alive), m.pixels F with
    | some previous, some current => policy.compare previous current
    | _, _ => .analysisRequired

/-- What `finish_mapping` leaves. -/
def finished (c : ClaimedFrame) (r : QueryData R × MappingEnd) : Gate R :=
  let g := { g with claimed := none, decision := none }
  match r.2 with
  | .admitted generation => { g with data := r.1, analysing := some ⟨generation, c⟩ }
  | .unrepresentable => { g with data := (r.1.terminate (.failed unrepresentableError)).1 }
  | .exhausted => { g with data := (r.1.terminate (.failed exhaustedError)).1 }
  | .obsolete | .skipped | .deferred => { g with data := r.1 }

def step : GateEvent R → Gate R
  | .publish stamp now barrier => { g with data := g.data.enqueue q stamp now barrier }
  | .claim stamp =>
    let r := g.data.claim stamp
    if r.2 then { g with data := r.1, claimed := none, decision := none } else g
  | .map m shared closed =>
    if g.data.processing = some (F.stamp m.frame) then
      let r := g.rememberMapped F policy m shared closed
      { g with cache := r.1, claimed := some ⟨m, r.2⟩, decision := none }
    else g
  | .decide alive =>
    { g with decision := g.claimed.map fun c => g.mappingDecision F policy alive c.frame }
  | .finish now =>
    match g.claimed, g.decision with
    | some c, some decision =>
      g.finished c (g.data.finishMapping q (c.frame.matched F) c.mapping decision now)
    | _, _ => g
  | .complete now =>
    match g.analysing with
    | none => g
    | some a =>
      { g with
        data := (g.data.complete q a.generation (a.claimed.frame.matched F) a.claimed.mapping
          (findMapped F backend a.claimed.frame) now none).1
        analysing := none }
  | .failMapping stamp error => { g with data := (g.data.failMapping stamp error).1 }
  | .releaseClaim stamp => { g with data := g.data.releaseClaim stamp }
  | .remember i region descriptor =>
    { g with cache := (g.cache.remember (F.map i region descriptor)).1 }
  | .clear => { g with cache := g.cache.clear }
  | .terminate outcome => { g with data := (g.data.terminate outcome).1 }

end Gate

end MadoPilot.Watch
