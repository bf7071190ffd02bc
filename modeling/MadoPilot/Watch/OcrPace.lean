import MadoPilot.Watch.OcrMachine

/-!
# The dispatch of an OCR text query, against a clock

A dispatcher does not claim what it found a moment ago without a fence: it takes the number of the last
publication, sweeps the query, looks whether it is ready, and claims only if no publication has begun
or ended meanwhile.  A worker whose analysis leaves the query open sweeps it before it gives its lease
back.  Here these orders stand beside the threads of the query: every step is one of theirs, or leaves
the query alone.

The clock never goes back.  A step carries the instant it is taken at, and what a thread reads of the
clock lies between its step before and this one.  A book keeps the instants of the admissions.

* `paceStep` : one step of a thread, with its duty and the instant of its last step;
* `paceSystem`, `pace_reachable` : the runs, each of them a run of the query's threads.
-/

namespace MadoPilot.Watch

open MadoPilot.Core MadoPilot.Lib

/-- The stamp that `ready` offers, after its sweep. -/
def OcrQueryData.ready (d : OcrQueryData) (physical : Bool) (now : ℕ) : Option FrameStamp :=
  if d.terminal.isSome || d.execution.isSome || physical || d.rateEligibleAt.any (now < ·) then none
  else d.pending.map PendingFrame.stamp

/-- What the threads share beside the query: the publications that are under way and those that have
ended, and the clock. -/
structure PaceDesk where
  desk : OcrDesk
  publishing : ℕ
  publicationGeneration : ℕ
  clock : ℕ
  admissions : List ℕ

/-- What a thread is about, beside the section it is in. -/
inductive OcrDuty where
  | free
  /-- in `publish` -/
  | publishing
  /-- in `next_dispatch`, which has found no publication under way, has taken the number of the last
  one, has swept the query, or has found it ready -/
  | probed
  | loaded (publication : ℕ)
  | swept (publication : ℕ)
  | offered (publication : ℕ) (stamp : FrameStamp) (now : ℕ)
  /-- at the end of `complete`, before its sweep -/
  | finishing
  deriving DecidableEq

structure PaceThread where
  place : OcrPlace
  duty : OcrDuty
  since : ℕ

inductive PaceAct where
  | beginPublish | endPublish
  | probe | load
  | offer (now : ℕ)
  | giveUp
  | query (e : OcrEvent)

/-- A step, and the instant it is taken at. -/
structure PaceEvent where
  clock : ℕ
  act : PaceAct

namespace PaceDesk

variable (s : PaceDesk)

/-- The thread's duty lets it take the step, which reads the clock since the step before. -/
def permits (p : PaceThread) (clock : ℕ) : OcrEvent → Bool
  | .callEnqueue _ => p.duty == .publishing
  | .enqueue _ now _ => p.duty == .publishing && decide (p.since ≤ now ∧ now ≤ clock)
  | .callTerminate proposed =>
    -- only a sweep finds a source expired
    p.duty == .free && !proposed.isOverloaded
  | .terminate _ _ => p.duty == .publishing || p.duty == .free
  | .sweep now _ _ =>
    decide (p.since ≤ now ∧ now ≤ clock) &&
      match p.duty with
      | .free | .loaded _ | .finishing => true
      | _ => false
  | .claim stamp now _ =>
    p.duty == .offered s.publicationGeneration stamp now && s.publishing == 0
  | .admitPrepared _ _ _ now _ _ => p.duty == .free && decide (p.since ≤ now ∧ now ≤ clock)
  | _ => p.duty == .free

def dutyAfter (p : PaceThread) (s' : OcrDesk) : OcrEvent → OcrDuty
  | .sweep _ _ _ =>
    match p.duty with
    | .loaded publication => .swept publication
    | .finishing => .free
    | duty => duty
  | .claim _ _ _ => .free
  | .complete _ _ _ =>
    match p.place with
    | .completing w .. =>
      if s.desk.data.executionCurrent w && s'.data.terminal.isNone then .finishing else .free
    | _ => .free
  | _ => p.duty

/-- The instant that a step of the query enters in the book. -/
def admitted : OcrEvent → OcrPlace → List ℕ
  | .admitPrepared _ _ _ now _ _, .admitted _ => [now]
  | _, _ => []

/-- What a thread does at an instant: what it leaves, and where it stands then. -/
def act (q : OcrQueryShared) {τ : Type*} (t : τ) (p : PaceThread) (clock : ℕ) :
    PaceAct → Option (PaceDesk × OcrPlace × OcrDuty)
  | .beginPublish =>
    match p.place, p.duty with
    | .idle, .free => some ({ s with publishing := s.publishing + 1 }, .idle, .publishing)
    | _, _ => none
  | .endPublish =>
    match p.place, p.duty with
    | .idle, .publishing =>
      some ({ s with
        publishing := s.publishing - 1
        publicationGeneration := s.publicationGeneration + 1 }, .idle, .free)
    | _, _ => none
  | .probe =>
    match p.place, p.duty with
    | .idle, .free => if s.publishing = 0 then some (s, .idle, .probed) else none
    | _, _ => none
  | .load =>
    match p.place, p.duty with
    | .idle, .probed => some (s, .idle, .loaded s.publicationGeneration)
    | _, _ => none
  | .offer now =>
    match p.place, p.duty with
    | .idle, .swept publication =>
      if p.since ≤ now ∧ now ≤ clock then
        (s.desk.data.ready s.desk.physical now).map fun stamp =>
          (s, .idle, .offered publication stamp now)
      else none
    | _, _ => none
  | .giveUp =>
    match p.place, p.duty with
    | .idle, .probed | .idle, .loaded _ | .idle, .swept _ | .idle, .offered _ _ _ =>
      some (s, .idle, .free)
    | _, _ => none
  | .query e =>
    if s.permits p clock e then
      (ocrStep q t s.desk p.place e).map fun r =>
        ({ s with desk := r.1, admissions := s.admissions ++ admitted e r.2 }, r.2,
          s.dutyAfter p r.1 e)
    else none

end PaceDesk

def paceStep (q : OcrQueryShared) {τ : Type*} (t : τ) (s : PaceDesk) (p : PaceThread)
    (e : PaceEvent) : Option (PaceDesk × PaceThread) :=
  if e.clock < s.clock then none
  else
    (s.act q t p e.clock e.act).map fun r =>
      ({ r.1 with clock := e.clock }, ⟨r.2.1, r.2.2, e.clock⟩)

abbrev PaceWorld (τ : Type*) := World τ PaceDesk PaceThread

/-- A query before any call. -/
def PaceWorld.start (τ : Type*) : PaceWorld τ :=
  ⟨⟨.new, 0, 0, 0, []⟩, fun _ => ⟨.idle, .free, 0⟩⟩

abbrev paceSystem (τ : Type*) [DecidableEq τ] (q : OcrQueryShared) :
    System (PaceWorld τ) (τ × PaceEvent) :=
  threads (Performs (paceStep q)) (PaceWorld.start τ)

/-! ### The threads of the query -/

/-- What a step of a thread is: one of the query's, as the thread's duty permits, or one that leaves
the query alone. -/
inductive PaceMoves (q : OcrQueryShared) {τ : Type*} (t : τ) (s : PaceDesk) (p : PaceThread)
    (clock : ℕ) (s' : PaceDesk) (p' : PaceThread) : PaceAct → Prop
  | query (e : OcrEvent) (permits : s.permits p clock e = true)
    (step : ocrStep q t s.desk p.place e = some (s'.desk, p'.place))
    (fence : s'.publishing = s.publishing ∧ s'.publicationGeneration = s.publicationGeneration)
    (admissions : s'.admissions = s.admissions ++ PaceDesk.admitted e p'.place)
    (duty : p'.duty = s.dutyAfter p s'.desk e) : PaceMoves q t s p clock s' p' (.query e)
  | begins (alone : s'.desk = s.desk ∧ p.place = .idle ∧ p'.place = .idle ∧
      s'.admissions = s.admissions)
    (duty : p.duty = .free ∧ p'.duty = .publishing)
    (fence : s'.publishing = s.publishing + 1 ∧
      s'.publicationGeneration = s.publicationGeneration) :
    PaceMoves q t s p clock s' p' .beginPublish
  | ends (alone : s'.desk = s.desk ∧ p.place = .idle ∧ p'.place = .idle ∧
      s'.admissions = s.admissions)
    (duty : p.duty = .publishing ∧ p'.duty = .free)
    (fence : s'.publishing = s.publishing - 1 ∧
      s'.publicationGeneration = s.publicationGeneration + 1) :
    PaceMoves q t s p clock s' p' .endPublish
  | offers (publication : ℕ) (stamp : FrameStamp) (now : ℕ)
    (alone : s'.desk = s.desk ∧ p.place = .idle ∧ p'.place = .idle ∧
      s'.admissions = s.admissions)
    (duty : p.duty = .swept publication ∧ p'.duty = .offered publication stamp now)
    (fence : s'.publishing = s.publishing ∧ s'.publicationGeneration = s.publicationGeneration)
    (reads : p.since ≤ now ∧ now ≤ clock)
    (ready : s.desk.data.ready s.desk.physical now = some stamp) :
    PaceMoves q t s p clock s' p' (.offer now)
  | turns {act : PaceAct} (alone : s'.desk = s.desk ∧ p.place = .idle ∧ p'.place = .idle ∧
      s'.admissions = s.admissions)
    (idle : p.duty ≠ .publishing ∧ p.duty ≠ .finishing)
    (duty : p'.duty = .free ∨ p'.duty = .probed ∨ p'.duty = .loaded s.publicationGeneration)
    (fence : s'.publishing = s.publishing ∧ s'.publicationGeneration = s.publicationGeneration) :
    PaceMoves q t s p clock s' p' act

section Refines

variable {q : OcrQueryShared} {τ : Type*} {t : τ} {s s' : PaceDesk} {p p' : PaceThread}
  {e : PaceEvent}

theorem paceStep_moves (h : paceStep q t s p e = some (s', p')) :
    s.clock ≤ e.clock ∧ s'.clock = e.clock ∧ p'.since = e.clock ∧
      PaceMoves q t s p e.clock s' p' e.act := by
  unfold paceStep at h
  split at h
  · cases h
  rename_i hclock
  obtain ⟨⟨r, place, duty⟩, hact, h⟩ := Option.map_eq_some_iff.mp h
  obtain ⟨rfl, rfl⟩ := Prod.mk.inj h
  refine ⟨Nat.le_of_not_lt hclock, rfl, rfl, ?_⟩
  obtain ⟨clock, act⟩ := e
  obtain ⟨place₀, duty₀, since⟩ := p
  unfold PaceDesk.act at hact
  cases act with
  | query e =>
    dsimp only at hact
    split at hact
    · rename_i hpermits
      obtain ⟨⟨desk, place'⟩, hstep, hr⟩ := Option.map_eq_some_iff.mp hact
      cases hr
      exact .query e hpermits hstep ⟨rfl, rfl⟩ rfl rfl
    · cases hact
  | beginPublish =>
    dsimp only at hact
    split at hact
    · cases hact
      exact .begins ⟨rfl, rfl, rfl, rfl⟩ ⟨rfl, rfl⟩ ⟨rfl, rfl⟩
    · cases hact
  | endPublish =>
    dsimp only at hact
    split at hact
    · cases hact
      exact .ends ⟨rfl, rfl, rfl, rfl⟩ ⟨rfl, rfl⟩ ⟨rfl, rfl⟩
    · cases hact
  | probe =>
    dsimp only at hact
    split at hact
    · split at hact
      · cases hact
        exact .turns ⟨rfl, rfl, rfl, rfl⟩ ⟨OcrDuty.noConfusion, OcrDuty.noConfusion⟩
          (Or.inr (Or.inl rfl)) ⟨rfl, rfl⟩
      · cases hact
    · cases hact
  | load =>
    dsimp only at hact
    split at hact
    · cases hact
      exact .turns ⟨rfl, rfl, rfl, rfl⟩ ⟨OcrDuty.noConfusion, OcrDuty.noConfusion⟩
        (Or.inr (Or.inr rfl)) ⟨rfl, rfl⟩
    · cases hact
  | offer now =>
    dsimp only at hact
    split at hact
    · split at hact
      · rename_i hreads
        obtain ⟨stamp, hready, hr⟩ := Option.map_eq_some_iff.mp hact
        cases hr
        exact .offers _ stamp now ⟨rfl, rfl, rfl, rfl⟩ ⟨rfl, rfl⟩ ⟨rfl, rfl⟩ hreads hready
      · cases hact
    · cases hact
  | giveUp =>
    dsimp only at hact
    split at hact
    · cases hact
      exact .turns ⟨rfl, rfl, rfl, rfl⟩ ⟨OcrDuty.noConfusion, OcrDuty.noConfusion⟩
        (Or.inl rfl) ⟨rfl, rfl⟩
    · cases hact
      exact .turns ⟨rfl, rfl, rfl, rfl⟩ ⟨OcrDuty.noConfusion, OcrDuty.noConfusion⟩
        (Or.inl rfl) ⟨rfl, rfl⟩
    · cases hact
      exact .turns ⟨rfl, rfl, rfl, rfl⟩ ⟨OcrDuty.noConfusion, OcrDuty.noConfusion⟩
        (Or.inl rfl) ⟨rfl, rfl⟩
    · cases hact
      exact .turns ⟨rfl, rfl, rfl, rfl⟩ ⟨OcrDuty.noConfusion, OcrDuty.noConfusion⟩
        (Or.inl rfl) ⟨rfl, rfl⟩
    · cases hact

end Refines

def queryWorld {τ : Type*} (w : PaceWorld τ) : OcrWorld τ :=
  ⟨w.shared.desk, fun t => (w.pc t).place⟩

theorem pace_reachable {τ : Type*} [DecidableEq τ] {q : OcrQueryShared} {w : PaceWorld τ}
    (h : (paceSystem τ q).Reachable w) : (ocrSystem τ q).Reachable (queryWorld w) := by
  have hstart : (ocrSystem τ q).Reachable (queryWorld (PaceWorld.start τ)) :=
    ⟨OcrWorld.start τ, rfl, .refl _⟩
  refine threads_invariant (P := fun w : PaceWorld τ => (ocrSystem τ q).Reachable (queryWorld w))
    hstart (fun w t e s' p' _ hw hact => ?_) h
  have hmove : queryWorld (w.move t s' p') = (queryWorld w).move t s'.desk p'.place := by
    unfold queryWorld World.move
    congr 1
    funext u
    by_cases hu : u = t
    · subst hu
      simp
    · simp [hu]
  have halone : s'.desk = w.shared.desk → p'.place = (w.pc t).place →
      (ocrSystem τ q).Reachable (queryWorld (w.move t s' p')) := by
    intro hdesk hplace
    rw [hmove, hdesk, hplace]
    exact (World.move_self (queryWorld w) t).symm ▸ hw
  obtain ⟨-, -, -, hmoves⟩ := paceStep_moves hact
  generalize e.act = act at hmoves
  cases hmoves with
  | query e' _ hstep =>
    have hquery : (ocrSystem τ q).step (queryWorld w) (t, e')
        ((queryWorld w).move t s'.desk p'.place) := ⟨s'.desk, p'.place, hstep, rfl⟩
    rw [hmove]
    exact hw.step hquery
  | begins alone => exact halone alone.1 (alone.2.2.1.trans alone.2.1.symm)
  | ends alone => exact halone alone.1 (alone.2.2.1.trans alone.2.1.symm)
  | offers _ _ _ alone => exact halone alone.1 (alone.2.2.1.trans alone.2.1.symm)
  | turns alone => exact halone alone.1 (alone.2.2.1.trans alone.2.1.symm)

end MadoPilot.Watch
