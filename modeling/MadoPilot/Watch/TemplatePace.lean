import MadoPilot.Watch.OcrQuery
import MadoPilot.Watch.QueryMoves

/-!
# The pace of a template query, against a clock

A worker claims the pending publication, looks whether the operation is interrupted, compares pixels
and samples the clock; with that sample it enters `finish_mapping`.  Whoever finds the publication
waiting for long samples the clock and enters `expire_if_current`, which first asks whether the
operation is interrupted at that sample.  Here these orders stand beside the threads of the query:
every step is one of theirs, or leaves the query alone.

The clock never goes back.  A step carries the instant it is taken at, and what a thread reads of the
clock lies between its step before and this one.  A book keeps the instants of the admissions.

* `timedStep` : one step of a thread, with its duty and the instant of its last step;
* `timedSystem`, `timedStep_moves` : the runs, and what a step of one is.
-/

namespace MadoPilot.Watch

open MadoPilot.Core MadoPilot.Lib

variable {R : Type}

def TemplateTerminalOutcome.isOverloaded : TemplateTerminalOutcome R → Bool
  | overloaded _ => true
  | matched _ | cancelled | deadlineExceeded | sessionClosed | schedulerClosed | targetLost
  | failed _ => false

namespace TemplatePace

/-- What interrupts an operation at a sample of its clock: the token comes before the deadline. -/
def interruptionAt (cancelled : Bool) (deadline : Option ℕ) (now : ℕ) : Option Interruption :=
  if cancelled then some .cancelled
  else if deadline.any (· ≤ now) then some .deadlineExceeded
  else none

/-- What the threads share beside the query: its token and the clock. -/
structure TimedDesk (R : Type) where
  desk : Desk R
  clock : ℕ
  cancelled : Bool
  admissions : List ℕ

/-- What a thread is about, beside the section it is in. -/
inductive Duty where
  | free
  /-- in `process`, with a claim -/
  | claimed (stamp : FrameStamp)
  /-- the same, after it has found no interruption at an instant -/
  | checked (stamp : FrameStamp) (instant : ℕ)
  /-- in `expire_if_current`, after its look at the token and the deadline -/
  | expiring (candidate : CandidateSnapshot) (now : ℕ) (interruption : Option Interruption)
  deriving DecidableEq

namespace Duty

def claim : Duty → Option FrameStamp
  | claimed stamp | checked stamp _ => some stamp
  | free | expiring _ _ _ => none

/-- The same, of a thread that has found no interruption since. -/
def admissible : Duty → Option FrameStamp
  | checked stamp _ => some stamp
  | free | claimed _ | expiring _ _ _ => none

def check (instant : ℕ) : Duty → Duty
  | claimed stamp | checked stamp _ => checked stamp instant
  | free => free
  | expiring candidate now interruption => expiring candidate now interruption

theorem claim_check (duty : Duty) (instant : ℕ) : (duty.check instant).claim = duty.claim := by
  cases duty <;> rfl

end Duty

structure Thread (R : Type) where
  place : Pc R
  duty : Duty
  since : ℕ

inductive Deed (R : Type) where
  | cancel
  | check (now : ℕ)
  | callExpire (candidate : CandidateSnapshot) (now : ℕ)
  | query (e : Event R)

/-- A step, and the instant it is taken at. -/
structure Occurrence (R : Type) where
  clock : ℕ
  deed : Deed R

def Thread.Samples (p : Thread R) (clock now : ℕ) : Prop := p.since ≤ now ∧ now ≤ clock

instance (p : Thread R) (clock now : ℕ) : Decidable (p.Samples clock now) :=
  inferInstanceAs (Decidable (_ ∧ _))

namespace TimedDesk

variable (s : TimedDesk R)

/-- The thread's duty lets it take the step, and what it reads of the clock it reads now. -/
def permits (p : Thread R) (clock : ℕ) : Event R → Bool
  | .enqueue _ now _ => decide (p.duty = .free ∧ p.Samples clock now)
  | .callComplete _ _ _ _ now => decide (p.duty = .free ∧ p.Samples clock now)
  | .claim _ => decide (p.duty = .free)
  | .releaseClaim stamp => decide (p.duty.claim = some stamp) || s.desk.data.terminal.isSome
  | .failMapping stamp _ _ authority =>
    decide (p.duty.claim = some stamp) && !authority.any (·.isOverloaded)
  | .finishMapping mapped _ _ now authority =>
    decide (p.duty.admissible = some mapped.frame ∧ p.Samples clock now) &&
      !authority.any (·.isOverloaded)
  | .expireIfCurrent candidate now expiry interruption authority =>
    decide (p.duty = .expiring candidate now interruption ∧ expiry = eligibleQueueExpiry) &&
      !authority.any (·.isOverloaded)
  | .callTerminate outcome => !outcome.isOverloaded
  | .terminate authority => !authority.any (·.isOverloaded)
  | .complete refusal _ => !refusal.any (·.isOverloaded)
  | .deferMappingBarrier | .recordAdmitted | .recordCoalesced | .finishSourceEnd _
  | .afterTerminalCommit => true

def dutyAfter (p : Thread R) : Event R → Duty
  | .claim stamp => if (s.desk.data.claim stamp).2 then .claimed stamp else .free
  | .releaseClaim _ | .failMapping .. | .finishMapping .. | .expireIfCurrent .. => .free
  | .enqueue .. | .deferMappingBarrier | .recordAdmitted | .recordCoalesced | .callTerminate _
  | .terminate _ | .callComplete .. | .complete .. | .finishSourceEnd _ | .afterTerminalCommit =>
    p.duty

/-- The instant that a step of the query enters in the book. -/
def admitted (q : QueryShared) : Event R → List ℕ
  | .finishMapping mapped mapping decision now none =>
    match (s.desk.data.finishMapping q mapped mapping decision now).2 with
    | .admitted _ => [now]
    | _ => []
  | _ => []

/-- What a thread does at an instant: what it leaves, and where it stands then. -/
def act (q : QueryShared) (deadline : Option ℕ) (p : Thread R) (clock : ℕ) :
    Deed R → Option (TimedDesk R × Pc R × Duty)
  | .cancel => some ({ s with cancelled := true }, p.place, p.duty)
  | .check now =>
    match p.place with
    | .idle =>
      if p.Samples clock now then
        match interruptionAt s.cancelled deadline now with
        | some i => some (s, .terminating (interruptionOutcome i), .free)
        | none => some (s, .idle, p.duty.check now)
      else none
    | _ => none
  | .callExpire candidate now =>
    match p.place, p.duty with
    | .idle, .free =>
      if p.Samples clock now then
        some (s, .idle, .expiring candidate now (interruptionAt s.cancelled deadline now))
      else none
    | _, _ => none
  | .query e =>
    if s.permits p clock e then
      (perform q s.desk p.place e).map fun r =>
        ({ s with desk := r.1, admissions := s.admissions ++ s.admitted q e }, r.2, s.dutyAfter p e)
    else none

end TimedDesk

def timedStep (q : QueryShared) (deadline : Option ℕ) {τ : Type*} (_ : τ) (s : TimedDesk R)
    (p : Thread R) (o : Occurrence R) : Option (TimedDesk R × Thread R) :=
  if o.clock < s.clock then none
  else
    (s.act q deadline p o.clock o.deed).map fun r =>
      ({ r.1 with clock := o.clock }, ⟨r.2.1, r.2.2, o.clock⟩)

abbrev TimedWorld (τ : Type*) (R : Type) := World τ (TimedDesk R) (Thread R)

/-- A query before any call. -/
def TimedWorld.start (τ : Type*) (R : Type) : TimedWorld τ R :=
  ⟨⟨.new, 0, false, []⟩, fun _ => ⟨.idle, .free, 0⟩⟩

/-- The threads on one query whose operation has a deadline or none, against a clock. -/
abbrev timedSystem (τ : Type*) [DecidableEq τ] (R : Type) (q : QueryShared) (deadline : Option ℕ) :
    System (TimedWorld τ R) (τ × Occurrence R) :=
  threads (Performs (timedStep q deadline)) (TimedWorld.start τ R)

/-! ### What a step is -/

/-- What a step of a thread is: one of the query's, as the thread's duty permits, or one that leaves
the query alone. -/
inductive Moves (q : QueryShared) (deadline : Option ℕ) (s : TimedDesk R) (p : Thread R) (clock : ℕ)
    (s' : TimedDesk R) (p' : Thread R) : Deed R → Prop
  | query (e : Event R) (permits : s.permits p clock e = true)
    (step : perform q s.desk p.place e = some (s'.desk, p'.place))
    (book : s'.admissions = s.admissions ++ s.admitted q e) (token : s'.cancelled = s.cancelled)
    (duty : p'.duty = s.dutyAfter p e) : Moves q deadline s p clock s' p' (.query e)
  | cancels (alone : s'.desk = s.desk ∧ s'.admissions = s.admissions)
    (stands : p'.place = p.place ∧ p'.duty = p.duty) : Moves q deadline s p clock s' p' .cancel
  | finds (now : ℕ) (i : Interruption) (alone : s'.desk = s.desk ∧ s'.admissions = s.admissions)
    (found : interruptionAt s.cancelled deadline now = some i)
    (stands : p'.place = .terminating (interruptionOutcome i) ∧ p'.duty = .free) :
    Moves q deadline s p clock s' p' (.check now)
  | passes (now : ℕ) (alone : s'.desk = s.desk ∧ s'.admissions = s.admissions)
    (samples : p.Samples clock now) (clear : interruptionAt s.cancelled deadline now = none)
    (stands : p'.place = .idle ∧ p'.duty = p.duty.check now) :
    Moves q deadline s p clock s' p' (.check now)
  | calls (candidate : CandidateSnapshot) (now : ℕ)
    (alone : s'.desk = s.desk ∧ s'.admissions = s.admissions) (samples : p.Samples clock now)
    (stands : p'.place = .idle ∧
      p'.duty = .expiring candidate now (interruptionAt s.cancelled deadline now)) :
    Moves q deadline s p clock s' p' (.callExpire candidate now)

theorem timedStep_moves {q : QueryShared} {deadline : Option ℕ} {τ : Type*} {t : τ}
    {s s' : TimedDesk R} {p p' : Thread R} {o : Occurrence R}
    (h : timedStep q deadline t s p o = some (s', p')) :
    s.clock ≤ o.clock ∧ s'.clock = o.clock ∧ p'.since = o.clock ∧
      Moves q deadline s p o.clock s' p' o.deed := by
  unfold timedStep at h
  split at h
  · cases h
  rename_i hclock
  obtain ⟨⟨r, place, duty⟩, hact, h⟩ := Option.map_eq_some_iff.mp h
  obtain ⟨rfl, rfl⟩ := Prod.mk.inj h
  refine ⟨Nat.le_of_not_lt hclock, rfl, rfl, ?_⟩
  obtain ⟨clock, deed⟩ := o
  obtain ⟨place₀, duty₀, since⟩ := p
  unfold TimedDesk.act at hact
  cases deed with
  | cancel =>
    cases hact
    exact .cancels ⟨rfl, rfl⟩ ⟨rfl, rfl⟩
  | check now =>
    dsimp only at hact
    split at hact
    · split at hact
      · rename_i hsamples
        split at hact
        · rename_i i hfound
          cases hact
          exact .finds now i ⟨rfl, rfl⟩ hfound ⟨rfl, rfl⟩
        · rename_i hclear
          cases hact
          exact .passes now ⟨rfl, rfl⟩ hsamples hclear ⟨rfl, rfl⟩
      · cases hact
    · cases hact
  | callExpire candidate now =>
    dsimp only at hact
    split at hact
    · split at hact
      · rename_i hsamples
        cases hact
        exact .calls candidate now ⟨rfl, rfl⟩ hsamples ⟨rfl, rfl⟩
      · cases hact
    · cases hact
  | query e =>
    dsimp only at hact
    split at hact
    · rename_i hpermits
      obtain ⟨⟨desk, place'⟩, hstep, hr⟩ := Option.map_eq_some_iff.mp hact
      cases hr
      exact .query e hpermits hstep rfl rfl rfl
    · cases hact

end TemplatePace

end MadoPilot.Watch
