import MadoPilot.Lib.Threads
import MadoPilot.Watch.Query

/-!
# Threads on one template query

Any number of threads call `enqueue`, `claim`, `release_claim`, `finish_mapping`, `complete`,
`fail_mapping`, `expire_if_current` and `terminate` on one query, in any order and with any
arguments.  A step is one section under the query's mutex, or the start of a call whose section
comes later.  What a call reads from elsewhere is part of the step's label, so that every answer of
the clock, the token, the session, the scheduler and the capture is covered.

Beside the query's data the threads share a book, which no code reads: the publications accepted,
the disposition counted for each of them, the outcomes committed and the hooks run.
-/

namespace MadoPilot.Watch

open MadoPilot.Core MadoPilot.Lib

variable {R : Type}

/-! ### The book -/

/-- What a section enters in the book: publications it accepts, publications it counts a
disposition for, and of these the ones that it counts and yet keeps. -/
structure Entry where
  accepted : List FrameStamp
  settled : List (FrameStamp × TemplateWorkDisposition)
  kept : List FrameStamp
  deriving DecidableEq

namespace Entry

def nothing : Entry := ⟨[], [], []⟩

/-- The disposition `d` for one publication. -/
def settle (stamp : FrameStamp) (d : TemplateWorkDisposition) : Entry := ⟨[], [(stamp, d)], []⟩

end Entry

def settleAll (stamps : List FrameStamp) (d : TemplateWorkDisposition) :
    List (FrameStamp × TemplateWorkDisposition) :=
  stamps.map (·, d)

namespace QueryData

variable (d : QueryData R)

/-- What `supersede_outstanding` counts. -/
def superseded : List FrameStamp :=
  (d.pendingStamp.or d.processing).toList ++ d.inFlight.stamps

def enqueueEntry (q : QueryShared) (stamp : FrameStamp) : Entry :=
  if d.accepts q stamp then
    ⟨[stamp], settleAll (d.pendingStamp.toList ++
      if d.incompatible stamp then d.inFlight.stamps else []) .superseded, []⟩
  else .nothing

def terminateEntry : Entry := ⟨[], settleAll d.superseded .superseded, []⟩

def expireEntry (stamp : FrameStamp) : Entry :=
  ⟨[], (stamp, .queueExpired) :: settleAll d.inFlight.stamps .superseded, []⟩

def failEntry (stamp : FrameStamp) : Entry :=
  ⟨[], settleAll d.inFlight.stamps .superseded ++ [(stamp, .failed)], []⟩

end QueryData

/-- A mapping that cannot be rated counts its publication as failed and keeps it pending. -/
def MappingEnd.entry (stamp : FrameStamp) : MappingEnd → Entry
  | skipped => .settle stamp .skippedChange
  | unrepresentable => ⟨[], [(stamp, .failed)], [stamp]⟩
  | obsolete | deferred | exhausted | admitted _ => .nothing

/-- `after` is what the section supersedes when it commits. -/
def Completion.entry (stamp : FrameStamp) (d : TemplateWorkDisposition) (after : List FrameStamp) :
    Completion → Entry
  | stale => .settle stamp .superseded
  | committed => ⟨[], (stamp, d) :: settleAll after .superseded, []⟩
  | progressed => .settle stamp d
  | returned | interrupted _ => .nothing

structure Desk (R : Type) where
  data : QueryData R
  accepted : List FrameStamp
  settled : List (FrameStamp × TemplateWorkDisposition)
  kept : List FrameStamp
  commits : List (TemplateTerminalOutcome R)
  hookRuns : ℕ

namespace Desk

/-- A query that has just started. -/
def new : Desk R := ⟨.new, [], [], [], [], 0⟩

variable (s : Desk R)

/-- A section that left `d`. -/
def write (d : QueryData R) (e : Entry) : Desk R :=
  { s with
    data := d
    accepted := s.accepted ++ e.accepted
    settled := s.settled ++ e.settled
    kept := s.kept ++ e.kept }

/-- A section that left `d` and may have stored a terminal outcome. -/
def writeTerminal (d : QueryData R) (e : Entry) (committed : Bool) : Desk R :=
  { s.write d (if committed then e else .nothing) with
    commits := if committed then s.commits ++ d.terminal.toList else s.commits }

end Desk

/-! ### Threads -/

/-- Where a thread stands. -/
inductive Pc (R : Type) where
  | idle
  /-- in `terminate`, before its section -/
  | terminating (outcome : TemplateTerminalOutcome R)
  /-- in `complete`, after its first look -/
  | completing (generation : ℕ) (mapped : MappedMatch) (mapping : Option ℕ)
      (result : Except Error (ImmutableAnalysisResult R)) (now : ℕ)
  /-- before `finish_source_end_if_idle` -/
  | sourceEnd
  /-- before `after_terminal_commit` -/
  | committed

/-- One step and what it reads from elsewhere.  An `authority` is the terminal outcome of the
session, or that of a closed session or scheduler. -/
inductive Event (R : Type) where
  | enqueue (stamp : FrameStamp) (now : ℕ) (barrier : Bool)
  | deferMappingBarrier
  | claim (stamp : FrameStamp)
  | releaseClaim (stamp : FrameStamp)
  | recordAdmitted
  | recordCoalesced
  | callTerminate (outcome : TemplateTerminalOutcome R)
  | terminate (authority : Option (TemplateTerminalOutcome R))
  | expireIfCurrent (candidate : CandidateSnapshot) (now expiry : ℕ)
      (interruption : Option Interruption) (authority : Option (TemplateTerminalOutcome R))
  | finishMapping (mapped : MappedMatch) (mapping : Option ℕ) (decision : ChangeDecision) (now : ℕ)
      (authority : Option (TemplateTerminalOutcome R))
  | callComplete (generation : ℕ) (mapped : MappedMatch) (mapping : Option ℕ)
      (result : Except Error (ImmutableAnalysisResult R)) (now : ℕ)
  | complete (refusal : Option (TemplateTerminalOutcome R)) (interruption : Option Interruption)
  | failMapping (stamp : FrameStamp) (error : Error) (interruption : Option Interruption)
      (authority : Option (TemplateTerminalOutcome R))
  | finishSourceEnd (ended : Bool)
  | afterTerminalCommit

/-- The failure of a mapping that cannot be rated. -/
def unrepresentableError : Error :=
  ⟨.invalidArgument, "template analysis interval is not representable in the query clock domain"⟩

/-- The failure of a query that has used every generation. -/
def exhaustedError : Error :=
  ⟨.limitExceeded, "template query analysis generation was exhausted"⟩

/-- Where `finish_mapping` goes after its section. -/
def MappingEnd.next : MappingEnd → Pc R
  | skipped => .sourceEnd
  | unrepresentable => .terminating (.failed unrepresentableError)
  | exhausted => .terminating (.failed exhaustedError)
  | obsolete | deferred | admitted _ => .idle

/-- Where `complete` goes after its section. -/
def Completion.next : Completion → Pc R
  | returned => .idle
  | interrupted i => .terminating (interruptionOutcome i)
  | committed => .committed
  | stale | progressed => .sourceEnd

def committedNext (committed : Bool) : Pc R := if committed then .committed else .idle

/-- The disposition that `complete` counts for its own analysis. -/
def completionDisposition {α : Type} : Except Error α → TemplateWorkDisposition
  | .ok _ => .completed
  | .error _ => .failed

/-- What `complete` supersedes when it commits: the slots without its own analysis. -/
def QueryData.supersededBy (d : QueryData R) (generation : ℕ) (stamp : FrameStamp) :
    List FrameStamp :=
  match d.inFlight.remove (generation, stamp) with
  | some inFlight => ({ d with inFlight := inFlight } : QueryData R).superseded
  | none => []

/-- One step of a thread that stands at a place: what it leaves and where it stands then. -/
def perform (q : QueryShared) (s : Desk R) : Pc R → Event R → Option (Desk R × Pc R)
  | .idle, .enqueue stamp now barrier =>
    some (s.write (s.data.enqueue q stamp now barrier) (s.data.enqueueEntry q stamp), .idle)
  | .idle, .deferMappingBarrier => some (s.write (s.data.applyMappingBarrier q).1 .nothing, .idle)
  | .idle, .claim stamp => some (s.write (s.data.claim stamp).1 .nothing, .idle)
  | .idle, .releaseClaim stamp => some (s.write (s.data.releaseClaim stamp) .nothing, .idle)
  | .idle, .recordAdmitted => some (s.write (s.data.recordDisposition .admitted).1 .nothing, .idle)
  | .idle, .recordCoalesced =>
    some (s.write (s.data.recordDisposition .coalesced).1 .nothing, .idle)
  | .idle, .callTerminate outcome => some (s, .terminating outcome)
  | .terminating outcome, .terminate authority =>
    let (d, committed) := s.data.terminate (authority.getD outcome)
    some (s.writeTerminal d s.data.terminateEntry committed, committedNext committed)
  | .idle, .expireIfCurrent candidate now expiry interruption authority =>
    match interruption, authority with
    | some i, _ => some (s, .terminating (interruptionOutcome i))
    | none, some outcome => some (s, .terminating outcome)
    | none, none =>
      let (d, committed) := s.data.expireIfCurrent candidate now expiry
      some (s.writeTerminal d (s.data.expireEntry candidate.stamp) committed,
        committedNext committed)
  | .idle, .finishMapping mapped mapping decision now authority =>
    match authority with
    | some outcome => some (s, .terminating outcome)
    | none =>
      let (d, mappingEnd) := s.data.finishMapping q mapped mapping decision now
      some (s.write d (mappingEnd.entry mapped.frame), mappingEnd.next)
  | .idle, .callComplete generation mapped mapping result now =>
    some (s, if s.data.wants generation mapped.frame
      then .completing generation mapped mapping result now else .idle)
  | .completing generation mapped mapping result now, .complete refusal interruption =>
    match refusal with
    | some outcome => some (s, .terminating outcome)
    | none =>
      let (d, completion) :=
        s.data.complete q generation mapped mapping result now interruption
      let entry := completion.entry mapped.frame (completionDisposition result)
        (s.data.supersededBy generation mapped.frame)
      some ({ s.write d entry with
        commits := if completion = .committed then s.commits ++ d.terminal.toList else s.commits },
        completion.next)
  | .idle, .failMapping stamp error interruption authority =>
    match interruption, authority with
    | some i, _ => some (s, .terminating (interruptionOutcome i))
    | none, some outcome => some (s, .terminating outcome)
    | none, none =>
      let (d, committed) := s.data.failMapping stamp error
      some (s.writeTerminal d (s.data.failEntry stamp) committed, committedNext committed)
  | .sourceEnd, .finishSourceEnd ended =>
    some (s, if ended && s.data.isIdle then .terminating .sessionClosed else .idle)
  | .committed, .afterTerminalCommit => some ({ s with hookRuns := s.hookRuns + 1 }, .idle)
  | _, _ => none

def QueryAct (q : QueryShared) {τ : Type*} (_ : τ) (s : Desk R) (pc : Pc R) (e : Event R)
    (s' : Desk R) (pc' : Pc R) : Prop :=
  perform q s pc e = some (s', pc')

abbrev QueryWorld (τ : Type*) (R : Type) := World τ (Desk R) (Pc R)

def QueryWorld.start (τ : Type*) (R : Type) : QueryWorld τ R := ⟨.new, fun _ => .idle⟩

abbrev querySystem (τ : Type*) [DecidableEq τ] (R : Type) (q : QueryShared) :
    System (QueryWorld τ R) (τ × Event R) :=
  threads (QueryAct q) (QueryWorld.start τ R)

section Play

variable {τ : Type*} [DecidableEq τ] (q : QueryShared)

def play : List (τ × Event R) → QueryWorld τ R → Option (QueryWorld τ R)
  | [], w => some w
  | (t, e) :: steps, w =>
    match perform q w.shared (w.pc t) e with
    | some (s, pc) => play steps (w.move t s pc)
    | none => none

theorem perform_steps {w : QueryWorld τ R} {t : τ} {e : Event R} {s : Desk R} {pc : Pc R}
    (h : perform q w.shared (w.pc t) e = some (s, pc)) :
    (querySystem τ R q).step w (t, e) (w.move t s pc) :=
  ⟨s, pc, h, rfl⟩

theorem play_leads {steps : List (τ × Event R)} {w w' : QueryWorld τ R}
    (h : play q steps w = some w') : (querySystem τ R q).Leads w w' := by
  induction steps generalizing w with
  | nil =>
    cases h
    exact .refl _
  | cons step steps ih =>
    obtain ⟨t, e⟩ := step
    rw [play] at h
    rcases hp : perform q w.shared (w.pc t) e with _ | ⟨s, pc⟩
    · rw [hp] at h
      cases h
    · rw [hp] at h
      exact .cons (perform_steps q hp) (ih h)

theorem play_reachable {steps : List (τ × Event R)} {w : QueryWorld τ R}
    (h : play q steps (.start τ R) = some w) : (querySystem τ R q).Reachable w :=
  ⟨_, rfl, play_leads q h⟩

/-- A query on the first stream of the first engine, with an analysis rate and no stability
requirement. -/
def plainQuery (minimumInterval : ℕ) : QueryShared :=
  ⟨"template", ⟨firstOrdinal, "provider", firstOrdinal⟩, ⟨firstOrdinal, firstOrdinal⟩, minimumInterval,
    .immediate⟩

def plainStamp (sequence : ℕ) : FrameStamp := ⟨⟨firstOrdinal, firstOrdinal⟩, 0, sequence, 0⟩

def plainMatch (sequence : ℕ) : MappedMatch := ⟨plainStamp sequence, ⟨0, 0, 1, 1⟩⟩

end Play

end MadoPilot.Watch
