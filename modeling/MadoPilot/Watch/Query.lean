import MadoPilot.Watch.QueryData

/-!
# What the query does under its mutex

One definition for each section of code that runs under the query's mutex, over the data it
protects.  What the section reads from elsewhere (a clock's sample, an interruption, the authority
of the session and the scheduler) is an argument.
-/

namespace MadoPilot.Watch

open MadoPilot.Core MadoPilot.Lib

variable {R : Type}

/-- What a mapping of a frame gives: the frame and the rectangle that was searched. -/
structure MappedMatch where
  frame : FrameStamp
  searched : PixelRect
  deriving DecidableEq

/-- What comparing a mapping with the previous one says. -/
inductive ChangeDecision where
  | unchanged | analysisRequired
  deriving DecidableEq, Repr

inductive ImmutableAnalysisResult (R : Type) where
  | empty
  | shared (result : R)
  deriving DecidableEq

/-- The pending publication as a dispatcher saw it. -/
structure CandidateSnapshot where
  stamp : FrameStamp
  eligibleSince : ℕ
  rateEligibleAt : Option ℕ
  deriving DecidableEq

/-- The largest `u32`. -/
def u32Max : ℕ := 2 ^ 32 - 1

/-- `b` is a later frame of the same stream. -/
def isBefore (a b : FrameStamp) : Bool :=
  match a.order b with
  | .ok .before => true
  | _ => false

namespace QueryData

variable (d : QueryData R)

def analysisCapacityReached : Bool := d.inFlight.first.isSome || d.inFlight.second.isSome

def queryFrame : Option FrameStamp :=
  d.terminalFrame.or (d.pendingStamp.or (d.processing.or (d.inFlight.latest.or d.lastFrame)))

def isIdle : Bool :=
  d.terminal.isNone && d.pending.isNone && d.processing.isNone && !d.analysisCapacityReached

/-- `supersede_outstanding`.  The source's `||` takes `processing` only when there was no pending
publication to take. -/
def supersedeOutstanding : QueryData R :=
  let pending := if d.pending.isSome || d.processing.isSome then 1 else 0
  { d with
    pending := none
    processing := if d.pending.isSome then d.processing else none
    inFlight := .empty
    work := d.work.incrementTimes .superseded (pending + d.inFlight.count) }

/-- `supersede_outstanding` with the outcome that ends the query and the frame it names. -/
def supersedeWith (outcome : TemplateTerminalOutcome R) (frame : Option FrameStamp) : QueryData R :=
  { d.supersedeOutstanding with terminal := some outcome, terminalFrame := frame }

/-- `terminate`, after the authorities were read: whether this call committed. -/
def terminate (outcome : TemplateTerminalOutcome R) : QueryData R × Bool :=
  match d.terminal with
  | some _ => (d, false)
  | none => (d.supersedeWith outcome d.queryFrame, true)

def recordDisposition (disposition : TemplateWorkDisposition) : QueryData R × Bool :=
  if d.terminal.isSome then (d, false)
  else ({ d with work := d.work.increment disposition }, true)

/-- `apply_mapping_barrier`: whether it deferred the pending publication. -/
def applyMappingBarrier (q : QueryShared) : QueryData R × Bool :=
  if d.terminal.isSome || d.pending.isNone then (d, false)
  else
    let d := { d with barrierDeferred := true }
    if q.minimumInterval = 0 then (d, false)
    else
      match d.lastAdmitted.bind (instantAdd · q.minimumInterval) with
      | none => (d, false)
      | some eligible =>
        match d.pending with
        | none => (d, false)
        | some pending =>
          if eligible ≤ pending.eligibleSince then (d, false)
          else
            ({ d with
              pending := some { pending with eligibleSince := eligible }
              rateEligibleAt := some eligible
              work := d.work.increment .deferredRate }, true)

/-- The publications that `enqueue` takes. -/
def accepts (q : QueryShared) (stamp : FrameStamp) : Bool :=
  d.terminal.isNone && stamp.stream = q.stream && d.sourceFrame.all (isBefore · stamp)

/-- The publication is of another epoch or geometry than the last one. -/
def incompatible (stamp : FrameStamp) : Bool :=
  d.sourceFrame.any fun last => last.epoch ≠ stamp.epoch || last.geometry ≠ stamp.geometry

/-- The part of `enqueue` before the barrier: the new publication displaces the pending one, and
the analyses of another epoch or geometry. -/
def replacePending (stamp : FrameStamp) (now : ℕ) (preserveAge : Bool) : QueryData R :=
  let displaced := if d.incompatible stamp then d.inFlight.count else 0
  let eligibleSince :=
    if preserveAge then (d.pending.map PendingFrame.eligibleSince).getD now else now
  { d with
    needsCurrent := false
    sourceFrame := some stamp
    previousMapping := if d.incompatible stamp then none else d.previousMapping
    stability := if d.incompatible stamp then .none else d.stability
    inFlight := if d.incompatible stamp then .empty else d.inFlight
    pending := some ⟨stamp, eligibleSince⟩
    work := d.work.incrementTimes .superseded (displaced + if d.pending.isSome then 1 else 0)
    rateEligibleAt := if preserveAge then d.rateEligibleAt else none }

def enqueue (q : QueryShared) (stamp : FrameStamp) (now : ℕ) (barrier : Bool) : QueryData R :=
  if d.accepts q stamp then
    let preserveAge := d.barrierDeferred || barrier
    let d := d.replacePending stamp now preserveAge
    if preserveAge then (d.applyMappingBarrier q).1 else d
  else d

/-- `claim`: whether the publication was claimed. -/
def claim (stamp : FrameStamp) : QueryData R × Bool :=
  if d.terminal.isSome || d.processing.isSome || d.analysisCapacityReached then (d, false)
  else
    match d.pending with
    | none => (d, false)
    | some pending =>
      if pending.stamp ≠ stamp then (d, false) else ({ d with processing := some stamp }, true)

def releaseClaim (stamp : FrameStamp) : QueryData R :=
  if d.processing = some stamp then { d with processing := none } else d

/-- The commit of `expire_if_current`, once neither interruption nor authority came first. -/
def expireIfCurrent (candidate : CandidateSnapshot) (now expiry : ℕ) : QueryData R × Bool :=
  let current := d.pending.any fun pending =>
    pending.stamp = candidate.stamp && pending.eligibleSince = candidate.eligibleSince
  if d.terminal.isSome || !current || d.processing = some candidate.stamp
      || d.rateEligibleAt ≠ candidate.rateEligibleAt
      || candidate.rateEligibleAt.any (now < ·)
      || now - max (candidate.rateEligibleAt.getD candidate.eligibleSince) candidate.eligibleSince
        ≤ expiry then (d, false)
  else
    ({ d with
      work := (d.work.increment .queueExpired).incrementTimes .superseded d.inFlight.count
      pending := none
      processing := none
      terminalFrame := some candidate.stamp
      inFlight := .empty
      terminal := some (.overloaded .queueExpired) }, true)

end QueryData

/-- How the section of `finish_mapping` ends; `unrepresentable` and `exhausted` go on to end the
query. -/
inductive MappingEnd where
  | obsolete | skipped | deferred | unrepresentable | exhausted
  | admitted (generation : ℕ)
  deriving DecidableEq

/-- How the section of `complete` ends. -/
inductive Completion where
  | returned | interrupted (i : Interruption) | stale | committed | progressed
  deriving DecidableEq

namespace QueryData

variable (d : QueryData R)

/-- `finish_mapping`, once no authority ended the query. -/
def finishMapping (q : QueryShared) (mapped : MappedMatch) (mapping : Option ℕ)
    (decision : ChangeDecision) (now : ℕ) : QueryData R × MappingEnd :=
  let stamp := mapped.frame
  if d.terminal.isSome || d.processing ≠ some stamp then (d, .obsolete)
  else if d.pendingStamp ≠ some stamp then ({ d with processing := none }, .obsolete)
  else
    let d := { d with effectiveRegion := some mapped.searched }
    if decision = .unchanged ∧ d.stability.observations = 0 then
      ({ d with
        pending := none
        processing := none
        lastFrame := some stamp
        previousMapping := mapping
        rateEligibleAt := none
        barrierDeferred := false
        work := d.work.increment .skippedChange }, .skipped)
    else if q.minimumInterval ≠ 0 ∧ d.lastAdmitted.any (now - · < q.minimumInterval) then
      match d.lastAdmitted.bind (instantAdd · q.minimumInterval) with
      | none => ({ d with processing := none, work := d.work.increment .failed }, .unrepresentable)
      | some eligible =>
        ({ d with
          work := if d.rateEligibleAt ≠ some eligible then d.work.increment .deferredRate else d.work
          rateEligibleAt := some eligible
          pending := d.pending.map ({ · with eligibleSince := eligible })
          processing := none }, .deferred)
    else
      match checkedAdd u64Max d.generation 1 with
      | none => (d, .exhausted)
      | some generation =>
        let d := { d with
          generation := generation
          lastAdmitted := some now
          rateEligibleAt := none
          barrierDeferred := false
          pending := none
          processing := none }
        match d.inFlight.insert (generation, stamp) with
        | none => (d, .obsolete)
        | some inFlight => ({ d with inFlight := inFlight }, .admitted generation)

/-- The first look of `complete`: the analysis is still wanted. -/
def wants (generation : ℕ) (stamp : FrameStamp) : Bool :=
  d.terminal.isNone && (generation, stamp) ∈ d.inFlight.toList

def observe (now : ℕ) : StabilityState :=
  let started := d.stability.started.getD now
  ⟨saturatingAdd u32Max d.stability.observations 1, some started, now - started⟩

/-- The requirement is met. -/
def stable (q : QueryShared) (s : StabilityState) : Bool :=
  match q.stability with
  | .immediate => true
  | .consecutive required => required ≤ s.observations
  | .duration required => required ≤ s.duration

/-- `complete`, once no authority ended the query.  `interruption` is read again here. -/
def complete (q : QueryShared) (generation : ℕ) (mapped : MappedMatch) (mapping : Option ℕ)
    (result : Except Error (ImmutableAnalysisResult R)) (now : ℕ)
    (interruption : Option Interruption) : QueryData R × Completion :=
  let stamp := mapped.frame
  match d.inFlight.remove (generation, stamp) with
  | none => (d, .returned)
  | some inFlight =>
    if d.terminal.isSome then (d, .returned)
    else
      match interruption with
      | some i => (d, .interrupted i)
      | none =>
        if generation ≠ d.generation then
          ({ d with inFlight := inFlight, work := d.work.increment .superseded }, .stale)
        else
          let d := { d with
            inFlight := inFlight
            lastFrame := some stamp
            effectiveRegion := some mapped.searched }
          match result with
          | .error error =>
            let d := { d with work := d.work.increment .failed }
            (d.supersedeWith (.failed error) (some stamp), .committed)
          | .ok result =>
            let d := { d with work := d.work.increment .completed, previousMapping := mapping }
            match result with
            | .empty => ({ d with stability := .none }, .progressed)
            | .shared result =>
              let d := { d with stability := d.observe now }
              if stable q d.stability then
                (d.supersedeWith (.matched ⟨q.template, q.target, stamp, result,
                  d.stability.observations, d.stability.duration⟩) (some stamp), .committed)
              else (d, .progressed)

/-- The commit of `fail_mapping`, once neither interruption nor authority came first. -/
def failMapping (stamp : FrameStamp) (error : Error) : QueryData R × Bool :=
  if d.terminal.isSome || d.processing ≠ some stamp || d.pendingStamp ≠ some stamp then
    (d.releaseClaim stamp, false)
  else
    ({ d with
      processing := none
      pending := none
      inFlight := .empty
      work := (d.work.incrementTimes .superseded d.inFlight.count).increment .failed
      terminal := some (.failed error)
      terminalFrame := some stamp }, true)

end QueryData

end MadoPilot.Watch
