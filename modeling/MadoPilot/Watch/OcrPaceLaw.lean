import Mathlib.Data.List.Chain
import MadoPilot.Watch.OcrPaceMoves

/-!
# The pace of an OCR text query

Two admissions are never closer than the rate.  A claim sees to it by the instant from which the
pending source may be claimed, which is either written down or already past; where no such instant can
be written, the fence keeps every claim away until a sweep has ended the query.  The invariant says
who is still to make that sweep: a thread that is publishing, one that has published since, or the
worker of the last admission.

* `Paced` : the invariant;
* `recorded_rules`, `refused_rules`, `interruption_rules` : the order of the causes that a section
  reads;
* `ocr_pacing` : the pace, the residence of a waiting source, its expiry and the order of the causes.
-/

namespace MadoPilot.Watch

open MadoPilot.Core MadoPilot.Lib

/-! ### Duties -/

namespace OcrDuty

/-- The number of the last publication that the thread has taken. -/
def publication : OcrDuty → Option ℕ
  | .loaded g | .swept g | .offered g _ _ => some g
  | _ => none

def watches : OcrDuty → Option ℕ
  | .swept g | .offered g _ _ => some g
  | _ => none

theorem publication_of_watches {duty : OcrDuty} {g : ℕ} (h : duty.watches = some g) :
    duty.publication = some g := by
  cases duty <;> first | exact h | cases h

end OcrDuty

section Duties

variable {s : PaceDesk} (s' : OcrDesk) {p : PaceThread} {clock : ℕ} {e : OcrEvent}

theorem dutyAfter_calm (hcalm : e.calm = true) (h : s.permits p clock e = true) :
    p.duty ≠ .finishing ∧
      (s.dutyAfter p s' e = p.duty ∨ s.dutyAfter p s' e = .free ∧ p.duty ≠ .publishing) := by
  have hfree : p.duty = .free → p.duty ≠ .finishing := by
    intro hduty hfinishing
    rw [hduty] at hfinishing
    cases hfinishing
  have hpublishing : p.duty = .publishing → p.duty ≠ .finishing := by
    intro hduty hfinishing
    rw [hduty] at hfinishing
    cases hfinishing
  cases e with
  | callEnqueue stamp =>
    simp only [PaceDesk.permits, beq_iff_eq] at h
    exact ⟨hpublishing h, Or.inl rfl⟩
  | enqueue geometry now interruption =>
    simp only [PaceDesk.permits, Bool.and_eq_true, beq_iff_eq] at h
    exact ⟨hpublishing h.1, Or.inl rfl⟩
  | callTerminate proposed =>
    simp only [PaceDesk.permits, Bool.and_eq_true, beq_iff_eq] at h
    exact ⟨hfree h.1, Or.inl rfl⟩
  | terminate interruption again =>
    simp only [PaceDesk.permits, Bool.or_eq_true, beq_iff_eq] at h
    rcases h with h | h
    · exact ⟨hpublishing h, Or.inl rfl⟩
    · exact ⟨hfree h, Or.inl rfl⟩
  | sweep now interruption again => cases hcalm
  | claim stamp now interruption =>
    simp only [PaceDesk.permits, Bool.and_eq_true, beq_iff_eq] at h
    rw [h.1]
    exact ⟨OcrDuty.noConfusion, Or.inr ⟨rfl, OcrDuty.noConfusion⟩⟩
  | admitPrepared region mapping unchanged now interruption again =>
    simp only [PaceDesk.permits, Bool.and_eq_true, beq_iff_eq] at h
    exact ⟨hfree h.1, Or.inl rfl⟩
  | complete capture interruption again => cases hcalm
  | _ =>
    simp only [PaceDesk.permits, beq_iff_eq] at h
    exact ⟨hfree h, Or.inl rfl⟩

theorem dutyAfter_sweep {now : ℕ} {interruption again : Option Interruption}
    (h : s.permits p clock (.sweep now interruption again) = true) :
    (p.duty = .free ∧ s.dutyAfter p s' (.sweep now interruption again) = .free) ∨
      (∃ g, p.duty = .loaded g ∧ s.dutyAfter p s' (.sweep now interruption again) = .swept g) ∨
      p.duty = .finishing ∧ s.dutyAfter p s' (.sweep now interruption again) = .free := by
  obtain ⟨place, duty, since⟩ := p
  simp only [PaceDesk.permits, Bool.and_eq_true] at h
  obtain ⟨-, hduty⟩ := h
  cases duty with
  | free => exact Or.inl ⟨rfl, rfl⟩
  | loaded g => exact Or.inr (Or.inl ⟨g, rfl, rfl⟩)
  | finishing => exact Or.inr (Or.inr ⟨rfl, rfl⟩)
  | _ => cases hduty

theorem dutyAfter_complete {capture : Option Error} {interruption again : Option Interruption}
    (h : s.permits p clock (.complete capture interruption again) = true) :
    p.duty = .free ∧ (s.dutyAfter p s' (.complete capture interruption again) = .free ∨
      s.dutyAfter p s' (.complete capture interruption again) = .finishing) := by
  simp only [PaceDesk.permits, beq_iff_eq] at h
  refine ⟨h, ?_⟩
  simp only [PaceDesk.dutyAfter]
  split
  · split
    · exact Or.inr rfl
    · exact Or.inl rfl
  · exact Or.inl rfl

inductive DutyMoves : OcrDuty → OcrDuty → Prop
  | stays (duty : OcrDuty) : DutyMoves duty duty
  | ends {duty : OcrDuty} (h : duty ≠ .publishing) : DutyMoves duty .free
  | sweeps (g : ℕ) : DutyMoves (.loaded g) (.swept g)
  | owes : DutyMoves .free .finishing

theorem dutyAfter_moves (h : s.permits p clock e = true) :
    DutyMoves p.duty (s.dutyAfter p s' e) := by
  by_cases hcalm : e.calm = true
  · rcases (dutyAfter_calm s' hcalm h).2 with hsame | ⟨hfree, hnot⟩
    · rw [hsame]
      exact .stays _
    · rw [hfree]
      exact .ends hnot
  · cases e with
    | sweep now interruption again =>
      rcases dutyAfter_sweep s' h with ⟨hduty, hafter⟩ | ⟨g, hduty, hafter⟩ | ⟨hduty, hafter⟩
      · rw [hduty, hafter]
        exact .stays _
      · rw [hduty, hafter]
        exact .sweeps g
      · rw [hduty, hafter]
        exact .ends OcrDuty.noConfusion
    | complete capture interruption again =>
      obtain ⟨hduty, hafter | hafter⟩ := dutyAfter_complete s' h
      · rw [hduty, hafter]
        exact .stays _
      · rw [hduty, hafter]
        exact .owes
    | _ => exact absurd rfl hcalm

namespace DutyMoves

variable {duty duty' : OcrDuty}

theorem publishing (h : DutyMoves duty duty') : duty' = .publishing ↔ duty = .publishing := by
  cases h with
  | stays => exact Iff.rfl
  | ends h => exact iff_of_false OcrDuty.noConfusion h
  | sweeps g => exact iff_of_false OcrDuty.noConfusion OcrDuty.noConfusion
  | owes => exact iff_of_false OcrDuty.noConfusion OcrDuty.noConfusion

theorem publication (h : DutyMoves duty duty') {g : ℕ} (hg : duty'.publication = some g) :
    duty.publication = some g := by
  cases h with
  | stays => exact hg
  | ends => cases hg
  | sweeps g => exact hg
  | owes => cases hg

theorem offered (h : DutyMoves duty duty') {g now : ℕ} {stamp : FrameStamp}
    (hoffered : duty' = .offered g stamp now) : duty = .offered g stamp now := by
  cases h with
  | stays => exact hoffered
  | _ => cases hoffered

end DutyMoves

end Duties

/-! ### The fence -/

variable {τ : Type*} {q : OcrQueryShared} {w : PaceWorld τ}

/-- What holds of the duties, the clock and the publications in every run. -/
structure Fenced (w : PaceWorld τ) : Prop where
  since : ∀ t, (w.pc t).since ≤ w.shared.clock
  offered : ∀ t g stamp now, (w.pc t).duty = .offered g stamp now → now ≤ (w.pc t).since
  /-- A number that was taken is not ahead. -/
  numbered : ∀ t g, (w.pc t).duty.publication = some g → g ≤ w.shared.publicationGeneration
  publishing : Census (fun t => (w.pc t).duty = .publishing) w.shared.publishing
  /-- The worker that owes a sweep holds the lease. -/
  finishing : ∀ t, (w.pc t).duty = .finishing → (w.pc t).place.holds = true
  proposes : ∀ t o, (w.pc t).place.proposes = some o → o.isOverloaded = false

theorem Fenced.start : Fenced (PaceWorld.start τ) where
  since _ := Nat.le_refl 0
  offered _ _ _ _ h := by cases h
  numbered _ _ h := by cases h
  publishing := Census.zero fun _ h => by cases h
  finishing _ h := by cases h
  proposes _ _ h := by cases h

variable [DecidableEq τ] {t : τ} {s' : PaceDesk} {p' : PaceThread} {clock : ℕ} {act : PaceAct}

theorem Fenced.step (h : Fenced w) (hclock : w.shared.clock ≤ s'.clock) (hsince : p'.since = s'.clock)
    (hmoves : PaceMoves q t w.shared (w.pc t) s'.clock s' p' act) : Fenced (w.move t s' p') := by
  -- the moving thread: its offer, its number, its sweep and what it proposes
  have hself : (∀ g stamp now, p'.duty = .offered g stamp now → now ≤ s'.clock) ∧
      (∀ g, p'.duty.publication = some g → g ≤ w.shared.publicationGeneration) ∧
      (p'.duty = .finishing → p'.place.holds = true) ∧
      ∀ o, p'.place.proposes = some o → o.isOverloaded = false := by
    cases hmoves with
    | query e permits step fence admissions duty =>
      have hpaces := ocrStep_paces step
      refine ⟨fun g stamp now hoffered => ?_, fun g hg => ?_, fun hfinishing => ?_, fun o ho => ?_⟩
      · rw [duty] at hoffered
        exact ((h.offered t _ _ _ ((dutyAfter_moves _ permits).offered hoffered)).trans (h.since t)).trans hclock
      · rw [duty] at hg
        exact h.numbered t g ((dutyAfter_moves _ permits).publication hg)
      · rw [duty] at hfinishing
        by_cases hcalm : e.calm = true
        · obtain ⟨hnot, hsame | ⟨hfree, -⟩⟩ := dutyAfter_calm s'.desk hcalm permits
          · exact absurd (hsame.symm.trans hfinishing) hnot
          · rw [hfree] at hfinishing
            cases hfinishing
        · generalize (w.pc t).place = place at hpaces
          generalize p'.place = place' at hpaces ⊢
          cases hpaces with
          | completes _ _ => rfl
          | sweeps _ _ _ _ _ =>
            rcases dutyAfter_sweep s'.desk permits with
              ⟨-, hafter⟩ | ⟨g', -, hafter⟩ | ⟨-, hafter⟩
            all_goals
              rw [hafter] at hfinishing
              cases hfinishing
          | rests calm => exact absurd calm hcalm
          | _ => exact absurd rfl hcalm
      · have hfollows : (w.pc t).place.Follows e p'.place := by
          generalize (w.pc t).place = place at hpaces ⊢
          generalize p'.place = place' at hpaces ⊢
          cases hpaces with
          | rests _ _ _ _ _ _ _ _ follows => exact follows
          | enqueues _ _ _ _ _ _ follows => exact follows
          | notes _ _ _ follows => exact follows
          | sweeps _ _ _ _ _ => exact fun o ho => Or.inl ho
          | _ => exact .silent rfl
        rcases hfollows o ho with hsame | rfl | hload
        · exact h.proposes t o hsame
        · simp only [PaceDesk.permits, Bool.and_eq_true, Bool.not_eq_true'] at permits
          exact permits.2
        · exact hload
    | begins alone duty =>
      rw [duty.2, alone.2.2.1]
      exact ⟨fun _ _ _ h => (by cases h), fun _ h => (by cases h), fun h => (by cases h),
        fun _ h => (by cases h)⟩
    | ends alone duty =>
      rw [duty.2, alone.2.2.1]
      exact ⟨fun _ _ _ h => (by cases h), fun _ h => (by cases h), fun h => (by cases h),
        fun _ h => (by cases h)⟩
    | offers g stamp now alone duty fence reads =>
      rw [duty.2, alone.2.2.1]
      refine ⟨fun g' stamp' now' hoffered => ?_, fun g' hg => ?_, fun h => (by cases h),
        fun _ h => (by cases h)⟩
      · injection hoffered with _ _ hnow
        exact hnow ▸ reads.2
      · refine h.numbered t g' ?_
        rw [duty.1]
        exact hg
    | turns alone idle duty =>
      rw [alone.2.2.1]
      rcases duty with hduty | hduty | hduty
      all_goals
        rw [hduty]
        refine ⟨fun _ _ _ h => (by cases h), fun g hg => ?_, fun h => (by cases h),
          fun _ h => (by cases h)⟩
      · cases hg
      · cases hg
      · exact (Option.some.inj hg).ge
  obtain ⟨hoffered, hnumbered, hfinishing, hproposes⟩ := hself
  have hgeneration : w.shared.publicationGeneration ≤ s'.publicationGeneration := by
    cases hmoves with
    | query _ _ _ fence => exact fence.2.ge
    | begins _ _ fence => exact fence.2.ge
    | ends _ _ fence =>
      have := fence.2
      omega
    | offers _ _ _ _ _ fence => exact fence.2.ge
    | turns _ _ _ fence => exact fence.2.ge
  refine ⟨?_, ?_, ?_, ?_, ?_, ?_⟩
  · exact w.forall_move (P := fun p => p.since ≤ s'.clock) t s' p' hsince.le
      fun u _ => (h.since u).trans hclock
  · refine w.forall_move (P := fun p => ∀ g stamp now, p.duty = .offered g stamp now → now ≤ p.since)
      t s' p' ?_ fun u _ => h.offered u
    rw [hsince]
    exact hoffered
  · exact w.forall_move (P := fun p => ∀ g, p.duty.publication = some g → g ≤ s'.publicationGeneration)
      t s' p' (fun g hg => (hnumbered g hg).trans hgeneration)
      fun u _ g hg => (h.numbered u g hg).trans hgeneration
  · have hcensus := h.publishing
    show Census (fun u => ((w.move t s' p').pc u).duty = .publishing) s'.publishing
    cases hmoves with
    | query e permits step fence admissions duty =>
      rw [fence.1]
      refine Census.stay (P := fun p : PaceThread => p.duty = .publishing) hcensus ?_
      rw [duty]
      exact (dutyAfter_moves _ permits).publishing
    | begins alone duty fence =>
      rw [fence.1]
      refine Census.enter (P := fun p : PaceThread => p.duty = .publishing) hcensus ?_ duty.2
      rw [duty.1]
      exact OcrDuty.noConfusion
    | ends alone duty fence =>
      rw [fence.1]
      refine Census.leave (P := fun p : PaceThread => p.duty = .publishing) hcensus duty.1 ?_
      rw [duty.2]
      exact OcrDuty.noConfusion
    | offers _ _ _ _ duty fence =>
      rw [fence.1]
      refine Census.stay (P := fun p : PaceThread => p.duty = .publishing) hcensus ?_
      rw [duty.1, duty.2]
      exact iff_of_false OcrDuty.noConfusion OcrDuty.noConfusion
    | turns _ idle duty fence =>
      rw [fence.1]
      refine Census.stay (P := fun p : PaceThread => p.duty = .publishing) hcensus ?_
      refine iff_of_false ?_ idle.1
      rcases duty with hduty | hduty | hduty
      all_goals
        rw [hduty]
        exact OcrDuty.noConfusion
  · exact w.forall_move (P := fun p => p.duty = .finishing → p.place.holds = true) t s' p' hfinishing
      fun u _ => h.finishing u
  · exact w.forall_move (P := fun p => ∀ o, p.place.proposes = some o → o.isOverloaded = false)
      t s' p' hproposes fun u _ => h.proposes u

theorem pace_fenced (h : (paceSystem τ q).Reachable w) : Fenced w := by
  refine threads_invariant Fenced.start (fun w t e s' p' _ hfenced hact => ?_) h
  obtain ⟨hclock, hnow, hsince, hmoves⟩ := paceStep_moves hact
  rw [← hnow] at hclock hsince hmoves
  exact hfenced.step hclock hsince hmoves

/-! ### The pace -/

/-- The thread has admitted the work under execution, or owes the sweep after it. -/
def OcrDue (d : OcrQueryData) (p : PaceThread) : Prop :=
  p.duty = .finishing ∨ ∃ work, p.place.executes = some work ∧ d.executionCurrent work = true

structure Paced (q : OcrQueryShared) (w : PaceWorld τ) : Prop where
  chain : w.shared.admissions.IsChain (fun earlier later => earlier + q.rate ≤ later)
  last : w.shared.admissions.getLast? = w.shared.desk.data.lastAdmitted
  /-- While a source is pending, the instant from which it may be claimed is written or past. -/
  waits : w.shared.desk.data.terminal = none → w.shared.desk.data.pending ≠ none →
    ∀ last eligible, w.shared.desk.data.lastAdmitted = some last →
      instantAdd last q.rate = some eligible → eligible ≤ w.shared.clock ∨
        ∃ written, w.shared.desk.data.rateEligibleAt = some written ∧ eligible ≤ written
  claimed : ∀ t work, (w.pc t).place = .claimed work → w.shared.desk.data.terminal = none →
    ∀ last, w.shared.desk.data.lastAdmitted = some last → last + q.rate ≤ (w.pc t).since
  /-- Where no such instant exists, somebody is still to sweep before a dispatch may claim. -/
  fenced : w.shared.desk.data.terminal = none → w.shared.desk.data.Exhausted q →
    ∀ t g, (w.pc t).duty.watches = some g → w.shared.desk.data.pending = none ∨
      w.shared.publishing ≠ 0 ∨ w.shared.publicationGeneration ≠ g ∨
      ∃ u, OcrDue w.shared.desk.data (w.pc u)

omit [DecidableEq τ] in
theorem Paced.start : Paced q (PaceWorld.start τ) where
  chain := .nil
  last := rfl
  waits _ h := absurd rfl h
  claimed _ _ h := by cases h
  fenced _ h := by
    obtain ⟨last, hlast, -⟩ := h
    cases hlast

theorem executionCurrent_congr {d d' : OcrQueryData} (hopen : d.terminal = none)
    (hopen' : d'.terminal = none) (hexecution : d'.execution = d.execution) (work : OcrWork) :
    d'.executionCurrent work = d.executionCurrent work := by
  unfold OcrQueryData.executionCurrent
  rw [hopen, hopen', hexecution]

theorem exhausted_congr {d d' : OcrQueryData} (hlast : d'.lastAdmitted = d.lastAdmitted)
    (h : d'.Exhausted q) : d.Exhausted q := by
  unfold OcrQueryData.Exhausted at h
  rw [hlast] at h
  exact h

namespace Paced

omit [DecidableEq τ] in
theorem quiet (h : Paced q w) (hadmissions : s'.admissions = w.shared.admissions)
    (hquiet : OcrQuiet w.shared.desk.data s'.desk.data) (hclock : w.shared.clock ≤ s'.clock) :
    s'.admissions.IsChain (fun earlier later => earlier + q.rate ≤ later) ∧
      s'.admissions.getLast? = s'.desk.data.lastAdmitted ∧
      (s'.desk.data.terminal = none → s'.desk.data.pending ≠ none →
        ∀ last eligible, s'.desk.data.lastAdmitted = some last →
          instantAdd last q.rate = some eligible → eligible ≤ s'.clock ∨
            ∃ written, s'.desk.data.rateEligibleAt = some written ∧ eligible ≤ written) := by
  refine ⟨hadmissions ▸ h.chain, ?_, fun hopen hpending last eligible hlast hadd => ?_⟩
  · rw [hadmissions, hquiet.last]
    exact h.last
  · obtain ⟨hopen₀, hsame, hrate⟩ := hquiet.opens hopen
    rw [hsame] at hpending
    rw [hquiet.last] at hlast
    rw [hrate]
    rcases h.waits hopen₀ hpending last eligible hlast hadd with hpast | hwritten
    · exact Or.inl (hpast.trans hclock)
    · exact Or.inr hwritten

theorem unclaimed (h : Paced q w) (hquiet : OcrQuiet w.shared.desk.data s'.desk.data)
    (hclock : w.shared.clock ≤ s'.clock) (hsince : p'.since = s'.clock)
    (hfenced : Fenced w)
    (hplace : ∀ work, p'.place = .claimed work → (w.pc t).place = .claimed work) :
    ∀ u work, ((w.move t s' p').pc u).place = .claimed work → s'.desk.data.terminal = none →
      ∀ last, s'.desk.data.lastAdmitted = some last →
        last + q.rate ≤ ((w.move t s' p').pc u).since := by
  intro u work hu hopen last hlast
  rw [hquiet.last] at hlast
  obtain ⟨hopen₀, -, -⟩ := hquiet.opens hopen
  by_cases hut : u = t
  · subst hut
    rw [World.move_pc_self] at hu ⊢
    rw [hsince]
    have hbefore := h.claimed u work (hplace work hu) hopen₀ last hlast
    exact (hbefore.trans (hfenced.since u)).trans hclock
  · rw [World.move_pc_of_ne _ _ _ _ hut] at hu ⊢
    exact h.claimed u work hu hopen₀ last hlast

theorem undue (h : Paced q w) (hquiet : OcrQuiet w.shared.desk.data s'.desk.data)
    (hfence : s'.publishing = w.shared.publishing ∧
      s'.publicationGeneration = w.shared.publicationGeneration)
    (hwatches : ∀ g, p'.duty.watches = some g → (w.pc t).duty.watches = some g)
    (hdue : s'.desk.data.terminal = none → ∀ u, OcrDue w.shared.desk.data (w.pc u) →
      OcrDue s'.desk.data ((w.move t s' p').pc u)) :
    s'.desk.data.terminal = none → s'.desk.data.Exhausted q →
      ∀ u g, ((w.move t s' p').pc u).duty.watches = some g → s'.desk.data.pending = none ∨
        s'.publishing ≠ 0 ∨ s'.publicationGeneration ≠ g ∨
        ∃ v, OcrDue s'.desk.data ((w.move t s' p').pc v) := by
  intro hopen hexhausted u g hu
  obtain ⟨hopen₀, hpending, -⟩ := hquiet.opens hopen
  have hbefore : (w.pc u).duty.watches = some g := by
    by_cases hut : u = t
    · subst hut
      rw [World.move_pc_self] at hu
      exact hwatches g hu
    · rwa [World.move_pc_of_ne _ _ _ _ hut] at hu
  rw [hpending, hfence.1, hfence.2]
  rcases h.fenced hopen₀ (exhausted_congr hquiet.last hexhausted) u g hbefore with
    hnone | hpublishing | hgeneration | ⟨v, hv⟩
  · exact Or.inl hnone
  · exact Or.inr (Or.inl hpublishing)
  · exact Or.inr (Or.inr (Or.inl hgeneration))
  · exact Or.inr (Or.inr (Or.inr ⟨v, hdue hopen v hv⟩))

theorem due_other {u : τ} (hut : u ≠ t) (hquiet : OcrQuiet w.shared.desk.data s'.desk.data)
    (hopen : s'.desk.data.terminal = none)
    (hexecution : s'.desk.data.execution = w.shared.desk.data.execution)
    (hu : OcrDue w.shared.desk.data (w.pc u)) :
    OcrDue s'.desk.data ((w.move t s' p').pc u) := by
  rw [World.move_pc_of_ne _ _ _ _ hut]
  rcases hu with hfinishing | ⟨work, hwork, hcurrent⟩
  · exact Or.inl hfinishing
  · refine Or.inr ⟨work, hwork, ?_⟩
    rw [executionCurrent_congr (hquiet.opens hopen).1 hopen hexecution]
    exact hcurrent

omit [DecidableEq τ] in
theorem due_held {u : τ} (hut : u ≠ t) (hunique : ∀ u v, (w.pc u).place.holds = true →
      (w.pc v).place.holds = true → u = v) (hheld : (w.pc t).place.holds = true)
    (hu : OcrDue w.shared.desk.data (w.pc u)) : (w.pc u).duty = .finishing := by
  rcases hu with hfinishing | ⟨work, hwork, -⟩
  · exact hfinishing
  · exact absurd (hunique u t (OcrPlace.holds_of_executes hwork) hheld) hut

theorem alone (h : Paced q w) (hfenced : Fenced w) (hclock : w.shared.clock ≤ s'.clock)
    (hsince : p'.since = s'.clock) (hdesk : s'.desk = w.shared.desk)
    (hadmissions : s'.admissions = w.shared.admissions)
    (hplace : (w.pc t).place = .idle ∧ p'.place = .idle)
    (hkeeps : s'.desk.data.terminal = none → s'.desk.data.Exhausted q →
      ∀ u g, ((w.move t s' p').pc u).duty.watches = some g → s'.desk.data.pending = none ∨
        s'.publishing ≠ 0 ∨ s'.publicationGeneration ≠ g ∨
        ∃ v, OcrDue s'.desk.data ((w.move t s' p').pc v)) : Paced q (w.move t s' p') := by
  have hquiet : OcrQuiet w.shared.desk.data s'.desk.data := by
    rw [hdesk]
    exact .refl _
  obtain ⟨hchain, hlast, hwaits⟩ := h.quiet hadmissions hquiet hclock
  refine ⟨hchain, hlast, hwaits, h.unclaimed hquiet hclock hsince hfenced fun work hwork => ?_, hkeeps⟩
  rw [hplace.2] at hwork
  cases hwork

theorem not_due {d : OcrQueryData} {p : PaceThread} (hplace : p.place.executes = none)
    (hduty : p.duty ≠ .finishing) : ¬ OcrDue d p := by
  rintro (hfinishing | ⟨work, hwork, -⟩)
  · exact hduty hfinishing
  · rw [hplace] at hwork
    cases hwork

theorem alone_due (hdesk : s'.desk = w.shared.desk) (hplace : (w.pc t).place = .idle)
    (hduty : (w.pc t).duty ≠ .finishing) (hopen : s'.desk.data.terminal = none) (u : τ)
    (hu : OcrDue w.shared.desk.data (w.pc u)) : OcrDue s'.desk.data ((w.move t s' p').pc u) := by
  have hut : u ≠ t := by
    intro hut
    subst hut
    refine not_due ?_ hduty hu
    rw [hplace]
    rfl
  have hquiet : OcrQuiet w.shared.desk.data s'.desk.data := by
    rw [hdesk]
    exact .refl _
  exact due_other hut hquiet hopen (by rw [hdesk]) hu

theorem query (h : Paced q w) (hfenced : Fenced w)
    (hholders : Census (fun t => (w.pc t).place.holds = true) w.shared.desk.physical.toNat)
    (hclock : w.shared.clock ≤ s'.clock) (hsince : p'.since = s'.clock) {e : OcrEvent}
    (hpermits : w.shared.permits (w.pc t) s'.clock e = true)
    (hpaces : OcrPaces q w.shared.desk (w.pc t).place e s'.desk p'.place)
    (hfence : s'.publishing = w.shared.publishing ∧
      s'.publicationGeneration = w.shared.publicationGeneration)
    (hadmissions : s'.admissions = w.shared.admissions ++ PaceDesk.admitted e p'.place)
    (hduty : p'.duty = w.shared.dutyAfter (w.pc t) s'.desk e) : Paced q (w.move t s' p') := by
  have hunique : ∀ u v, (w.pc u).place.holds = true → (w.pc v).place.holds = true → u = v :=
    fun u v hu hv => hholders.unique (Bool.toNat_le _) hu hv
  -- a calm step begins no watch
  have hwatches : e.calm = true → ∀ g, p'.duty.watches = some g → (w.pc t).duty.watches = some g := by
    intro hcalm g hg
    rw [hduty] at hg
    rcases (dutyAfter_calm s'.desk hcalm hpermits).2 with hsame | ⟨hfree, -⟩
    · rwa [hsame] at hg
    · rw [hfree] at hg
      cases hg
  -- a publication that is under way keeps the fence up
  have hpublishing : (w.pc t).duty = .publishing → s'.publishing ≠ 0 := by
    intro hduty
    rw [hfence.1]
    exact (hfenced.publishing.pos hduty).ne'
  generalize hp : (w.pc t).place = p at hpaces
  generalize hplace' : p'.place = place' at hpaces hadmissions
  cases hpaces with
  | rests calm quiet execution physical holds claimed executes book follows =>
    rw [book, List.append_nil] at hadmissions
    obtain ⟨hchain, hlast, hwaits⟩ := h.quiet hadmissions quiet hclock
    refine ⟨hchain, hlast, hwaits, h.unclaimed quiet hclock hsince hfenced fun work hwork => ?_,
      h.undue quiet hfence (hwatches calm) fun hopen u hu => ?_⟩
    · rw [hp]
      exact claimed work (hplace'.symm.trans hwork)
    · by_cases hut : u = t
      · subst hut
        rcases hu with hfinishing | ⟨work, hwork, hcurrent⟩
        · exact absurd hfinishing (dutyAfter_calm s'.desk calm hpermits).1
        · rw [World.move_pc_self]
          refine Or.inr ⟨work, ?_, ?_⟩
          · rw [hplace']
            exact executes work (hp ▸ hwork) hcurrent
          · rw [executionCurrent_congr (quiet.opens hopen).1 hopen (execution hopen)]
            exact hcurrent
      · exact due_other hut quiet hopen (execution hopen) hu
  | sweeps quiet execution physical idle due =>
    rw [show PaceDesk.admitted _ p = [] from rfl, List.append_nil] at hadmissions
    obtain ⟨hchain, hlast, hwaits⟩ := h.quiet hadmissions quiet hclock
    refine ⟨hchain, hlast, hwaits, h.unclaimed quiet hclock hsince hfenced fun work hwork => ?_,
      fun hopen hexhausted u g hu => Or.inl ?_⟩
    · rw [hp]
      exact hplace'.symm.trans hwork
    · -- whatever cannot be paced any more has been found
      exact (quiet.opens hopen).2.1.trans (due hopen (exhausted_congr quiet.last hexhausted))
  | enqueues last terminal pending rate physical idle follows =>
    rename_i stamp geometry now interruption
    simp only [PaceDesk.permits, Bool.and_eq_true, beq_iff_eq, decide_eq_true_eq] at hpermits
    rw [show PaceDesk.admitted _ place' = [] from rfl, List.append_nil] at hadmissions
    refine ⟨hadmissions ▸ h.chain, ?_, fun hopen hpending l eligible hl hadd => ?_,
      fun u work hu hopen l hl => ?_, fun hopen hexhausted u g hu => ?_⟩
    · rw [World.move_shared, hadmissions, last]
      exact h.last
    · rw [World.move_shared] at hopen hpending hl ⊢
      rw [last] at hl
      rw [terminal] at hopen
      rw [rate]
      by_cases hnone : w.shared.desk.data.pending = none
      · -- the source waits for itself
        rw [hnone]
        have heligible : w.shared.desk.data.eligible q now = (some eligible).filter (now < ·) := by
          unfold OcrQueryData.eligible
          rw [hl]
          exact congrArg _ hadd
        by_cases hlater : now < eligible
        · refine Or.inr ⟨eligible, ?_, le_rfl⟩
          rw [heligible]
          simp [hlater]
        · exact Or.inl ((Nat.le_of_not_lt hlater).trans hpermits.2.2)
      · have hsome : w.shared.desk.data.pending.isNone = false := by
          rw [Option.isNone_eq_false_iff]
          exact Option.isSome_iff_ne_none.mpr hnone
        rw [hsome, if_neg Bool.false_ne_true]
        rcases h.waits hopen hnone l eligible hl hadd with hpast | hwritten
        · exact Or.inl (hpast.trans hclock)
        · exact Or.inr hwritten
    · rw [World.move_shared, terminal] at hopen
      rw [World.move_shared, last] at hl
      have hut : u ≠ t := by
        intro hut
        subst hut
        rw [World.move_pc_self, hplace'] at hu
        rw [hu] at idle
        cases idle
      rw [World.move_pc_of_ne _ _ _ _ hut] at hu ⊢
      exact h.claimed u work hu hopen l hl
    · exact Or.inr (Or.inl (hpublishing hpermits.1))
  | notes quiet physical idle follows =>
    simp only [PaceDesk.permits, Bool.and_eq_true, beq_iff_eq] at hpermits
    rw [show PaceDesk.admitted _ place' = [] from rfl, List.append_nil] at hadmissions
    obtain ⟨hchain, hlast, hwaits⟩ := h.quiet hadmissions quiet hclock
    refine ⟨hchain, hlast, hwaits, h.unclaimed quiet hclock hsince hfenced fun work hwork => ?_,
      fun hopen hexhausted u g hu => Or.inr (Or.inl (hpublishing hpermits.1))⟩
    rw [← hplace', hwork] at idle
    cases idle
  | claims terminal pending rate last taken physical =>
    rename_i stamp now interruption work
    simp only [PaceDesk.permits, Bool.and_eq_true, beq_iff_eq] at hpermits
    obtain ⟨hoffered, hquietly⟩ := hpermits
    rw [show PaceDesk.admitted _ (OcrPlace.claimed work) = [] from rfl, List.append_nil] at hadmissions
    refine ⟨hadmissions ▸ h.chain, ?_, fun hopen hpending => absurd taken hpending,
      fun u work' hu hopen l hl => ?_, fun hopen hexhausted u g hu => Or.inl taken⟩
    · rw [World.move_shared, hadmissions, last]
      exact h.last
    · rw [World.move_shared, last] at hl
      by_cases hut : u = t
      · subst hut
        rw [World.move_pc_self, hsince]
        cases hadd : instantAdd l q.rate with
        | some eligible =>
          obtain ⟨rfl, -⟩ := checkedAdd_eq_some.mp hadd
          rcases h.waits terminal pending l _ hl hadd with hpast | ⟨written, hwritten, hle⟩
          · exact hpast.trans hclock
          · have hnow := rate written hwritten
            have hread := hfenced.offered u _ _ _ hoffered
            exact (((hle.trans hnow).trans hread).trans (hfenced.since u)).trans hclock
        | none =>
          -- such a source is never claimed
          exfalso
          have hwatch : (w.pc u).duty.watches = some w.shared.publicationGeneration := by
            rw [hoffered]
            rfl
          rcases h.fenced terminal ⟨l, hl, hadd⟩ u _ hwatch with hnone | hnonzero | hother | ⟨v, hv⟩
          · exact pending hnone
          · exact hnonzero hquietly
          · exact hother rfl
          · have hheld : (w.pc v).place.holds = true := by
              rcases hv with hfinishing | ⟨work', hwork', -⟩
              · exact hfenced.finishing v hfinishing
              · exact OcrPlace.holds_of_executes hwork'
            have hpos := hholders.pos hheld
            rw [physical.1] at hpos
            exact Nat.lt_irrefl 0 hpos
      · rw [World.move_pc_of_ne _ _ _ _ hut] at hu ⊢
        exact h.claimed u work' hu terminal l hl
  | admits current admits physical =>
    rename_i work region mapping unchanged now interruption again
    simp only [PaceDesk.permits, Bool.and_eq_true, beq_iff_eq, decide_eq_true_eq] at hpermits
    rw [show PaceDesk.admitted _ (OcrPlace.admitted work) = [now] from rfl] at hadmissions
    have hopen := (OcrQueryData.executionCurrent_iff.mp current).1
    refine ⟨?_, ?_, fun _ hpending l eligible hl hadd => ?_, fun u work' hu _ l hl => ?_,
      fun _ hexhausted u g hu => Or.inr (Or.inr (Or.inr ⟨t, ?_⟩))⟩
    · rw [World.move_shared, hadmissions, List.isChain_append]
      refine ⟨h.chain, .singleton _, fun a ha b hb => ?_⟩
      rw [List.head?_singleton, Option.mem_some_iff] at hb
      subst hb
      rw [h.last] at ha
      exact (h.claimed t work hp hopen a ha).trans hpermits.2.1
    · rw [World.move_shared, hadmissions, List.getLast?_concat, admits.last]
    · rw [World.move_shared] at hpending hl ⊢
      rw [admits.last] at hl
      obtain rfl := Option.some.inj hl
      obtain ⟨pending', hpending'⟩ := Option.ne_none_iff_exists'.mp hpending
      obtain ⟨pending, -, ⟨hnone, -⟩ | ⟨written, hsome, hwritten, -⟩⟩ := admits.waits pending' hpending'
      · rw [hadd] at hnone
        cases hnone
      · obtain rfl := Option.some.inj (hadd.symm.trans hsome)
        exact Or.inr ⟨eligible, hwritten, le_rfl⟩
    · exfalso
      by_cases hut : u = t
      · subst hut
        rw [World.move_pc_self, hplace'] at hu
        cases hu
      · rw [World.move_pc_of_ne _ _ _ _ hut] at hu
        exact hut (hunique u t (by rw [hu]; rfl) (by rw [hp]; rfl))
    · -- the worker that admits will sweep
      rw [World.move_pc_self]
      refine Or.inr ⟨work, ?_, ?_⟩
      · rw [hplace']
        rfl
      rw [World.move_shared, executionCurrent_congr hopen admits.terminal admits.execution]
      exact current
  | skips quiet physical =>
    rename_i work region mapping unchanged now interruption again
    rw [show PaceDesk.admitted _ (OcrPlace.dropping work) = [] from rfl, List.append_nil] at hadmissions
    obtain ⟨hchain, hlast, hwaits⟩ := h.quiet hadmissions quiet hclock
    have hheld : (w.pc t).place.holds = true := by
      rw [hp]
      rfl
    refine ⟨hchain, hlast, hwaits, h.unclaimed quiet hclock hsince hfenced fun work hwork => ?_,
      h.undue quiet hfence (hwatches rfl) fun hopen u hu => ?_⟩
    · rw [hplace'] at hwork
      cases hwork
    · have hut : u ≠ t := by
        intro hut
        subst hut
        refine not_due ?_ (dutyAfter_calm s'.desk rfl hpermits).1 hu
        rw [hp]
        rfl
      rw [World.move_pc_of_ne _ _ _ _ hut]
      exact Or.inl (due_held hut hunique hheld hu)
  | completes quiet physical =>
    rename_i work mapping output confirmed first evaluated capture interruption again
    rw [show PaceDesk.admitted _ (OcrPlace.dropping work) = [] from rfl, List.append_nil] at hadmissions
    obtain ⟨hchain, hlast, hwaits⟩ := h.quiet hadmissions quiet hclock
    have hheld : (w.pc t).place.holds = true := by
      rw [hp]
      rfl
    refine ⟨hchain, hlast, hwaits, h.unclaimed quiet hclock hsince hfenced fun work hwork => ?_,
      h.undue quiet hfence (fun g hg => ?_) fun hopen u hu => ?_⟩
    · rw [hplace'] at hwork
      cases hwork
    · rw [hduty] at hg
      obtain ⟨-, hafter | hafter⟩ := dutyAfter_complete s'.desk hpermits
      · rw [hafter] at hg
        cases hg
      · rw [hafter] at hg
        cases hg
    · by_cases hut : u = t
      · subst hut
        rcases hu with hfinishing | ⟨work', hwork', hcurrent⟩
        · rw [(dutyAfter_complete s'.desk hpermits).1] at hfinishing
          cases hfinishing
        · rw [hp] at hwork'
          obtain rfl := Option.some.inj hwork'
          rw [World.move_pc_self]
          refine Or.inl ?_
          rw [hduty]
          simp only [PaceDesk.dutyAfter]
          rw [hp]
          rw [World.move_shared] at hopen
          simp [hcurrent, hopen]
      · rw [World.move_pc_of_ne _ _ _ _ hut]
        exact Or.inl (due_held hut hunique hheld hu)
  | drops data physical =>
    rename_i work
    rw [show PaceDesk.admitted _ OcrPlace.idle = [] from rfl, List.append_nil] at hadmissions
    have hquiet : OcrQuiet w.shared.desk.data s'.desk.data := by
      rw [data]
      exact .refl _
    obtain ⟨hchain, hlast, hwaits⟩ := h.quiet hadmissions hquiet hclock
    refine ⟨hchain, hlast, hwaits, h.unclaimed hquiet hclock hsince hfenced fun work hwork => ?_,
      h.undue hquiet hfence (hwatches rfl) fun hopen u hu => ?_⟩
    · rw [hplace'] at hwork
      cases hwork
    · have hut : u ≠ t := by
        intro hut
        subst hut
        refine not_due ?_ (dutyAfter_calm s'.desk rfl hpermits).1 hu
        rw [hp]
        rfl
      exact due_other hut hquiet hopen (congrArg _ data) hu

theorem step (h : Paced q w) (hfenced : Fenced w)
    (hholders : Census (fun t => (w.pc t).place.holds = true) w.shared.desk.physical.toNat)
    (hclock : w.shared.clock ≤ s'.clock) (hsince : p'.since = s'.clock)
    (hmoves : PaceMoves q t w.shared (w.pc t) s'.clock s' p' act) : Paced q (w.move t s' p') := by
  cases hmoves with
  | query e permits step fence admissions duty =>
    exact h.query hfenced hholders hclock hsince permits (ocrStep_paces step) fence admissions duty
  | begins alone duty fence =>
    refine h.alone hfenced hclock hsince alone.1 alone.2.2.2 ⟨alone.2.1, alone.2.2.1⟩
      fun _ _ u g _ => Or.inr (Or.inl ?_)
    rw [fence.1]
    exact Nat.succ_ne_zero _
  | ends alone duty fence =>
    refine h.alone hfenced hclock hsince alone.1 alone.2.2.2 ⟨alone.2.1, alone.2.2.1⟩
      fun _ _ u g hu => Or.inr (Or.inr (Or.inl ?_))
    have hbefore : g ≤ w.shared.publicationGeneration := by
      refine hfenced.numbered u g ?_
      by_cases hut : u = t
      · subst hut
        rw [World.move_pc_self, duty.2] at hu
        cases hu
      · rw [World.move_pc_of_ne _ _ _ _ hut] at hu
        exact OcrDuty.publication_of_watches hu
    have := fence.2
    omega
  | offers g stamp now alone duty fence reads ready =>
    have hquiet : OcrQuiet w.shared.desk.data s'.desk.data := by
      rw [alone.1]
      exact .refl _
    refine h.alone hfenced hclock hsince alone.1 alone.2.2.2 ⟨alone.2.1, alone.2.2.1⟩
      (h.undue hquiet fence (fun g' hg => ?_) (alone_due alone.1 alone.2.1 ?_))
    · rw [duty.2] at hg
      rw [duty.1]
      exact hg
    · rw [duty.1]
      exact OcrDuty.noConfusion
  | turns alone idle duty fence =>
    have hquiet : OcrQuiet w.shared.desk.data s'.desk.data := by
      rw [alone.1]
      exact .refl _
    refine h.alone hfenced hclock hsince alone.1 alone.2.2.2 ⟨alone.2.1, alone.2.2.1⟩
      (h.undue hquiet fence (fun g' hg => ?_) (alone_due alone.1 alone.2.1 idle.2))
    rcases duty with hduty | hduty | hduty
    all_goals
      rw [hduty] at hg
      cases hg

end Paced

theorem pace_paced (h : (paceSystem τ q).Reachable w) : Paced q w := by
  refine threads_invariant Paced.start (fun w t e s' p' hr hpaced hact => ?_) h
  obtain ⟨hclock, hnow, hsince, hmoves⟩ := paceStep_moves hact
  rw [← hnow] at hclock hsince hmoves
  exact hpaced.step (pace_fenced hr) (ocr_holders (pace_reachable hr)) hclock hsince hmoves

/-! ### Residence -/

omit [DecidableEq τ] in
theorem ocr_residence {s s' : OcrDesk} {p p' : OcrPlace} {e : OcrEvent} {pending pending' : PendingFrame}
    (h : OcrPaces q s p e s' p') (hopen : s'.data.terminal = none)
    (hpending : s.data.pending = some pending) (hpending' : s'.data.pending = some pending') :
    pending'.eligibleSince = pending.eligibleSince ∨
      ∃ region mapping unchanged now interruption again eligible,
        e = .admitPrepared region mapping unchanged now interruption again ∧
        instantAdd now q.rate = some eligible ∧
        pending'.eligibleSince = max pending.eligibleSince eligible := by
  have hquiet : OcrQuiet s.data s'.data → pending'.eligibleSince = pending.eligibleSince := by
    intro hquiet
    have hsame := (hquiet.opens hopen).2.1
    rw [hpending, hpending'] at hsame
    obtain rfl := Option.some.inj hsame
    rfl
  cases h with
  | rests _ quiet => exact Or.inl (hquiet quiet)
  | sweeps quiet => exact Or.inl (hquiet quiet)
  | enqueues _ _ replaced =>
    rw [hpending, hpending'] at replaced
    obtain rfl := Option.some.inj replaced
    exact Or.inl rfl
  | notes quiet => exact Or.inl (hquiet quiet)
  | claims _ _ _ _ taken =>
    rw [hpending'] at taken
    cases taken
  | admits _ admits =>
    obtain ⟨before, hbefore, ⟨-, rfl⟩ | ⟨eligible, hadd, -, rfl⟩⟩ := admits.waits pending' hpending'
    · obtain rfl := Option.some.inj (hbefore.symm.trans hpending)
      exact Or.inl rfl
    · obtain rfl := Option.some.inj (hbefore.symm.trans hpending)
      exact Or.inr ⟨_, _, _, _, _, _, eligible, rfl, hadd, rfl⟩
  | skips quiet => exact Or.inl (hquiet quiet)
  | completes quiet => exact Or.inl (hquiet quiet)
  | drops data =>
    rw [data, hpending] at hpending'
    obtain rfl := Option.some.inj hpending'
    exact Or.inl rfl

/-! ### Precedence -/

def OcrTextTerminalOutcome.interrupts : OcrTextTerminalOutcome → Bool
  | .cancelled | .deadlineExceeded => true
  | _ => false

/-- What the session and the scheduler have recorded of their end, in the order in which it counts. -/
def OcrGate.recorded (g : OcrGate) : Option OcrTextTerminalOutcome :=
  (g.terminalAuthority.map sourceOutcome).or <|
    (if g.sessionClosed then some .sessionClosed else none).or <|
    if g.schedulerClosed then some .schedulerClosed else none

def refusedOutcome (error : Error) : OcrTextTerminalOutcome := sourceOutcome (captureOutcome error)

/-- There is nothing, or what an interruption may take the place of. -/
def Yields (o : Option OcrTextTerminalOutcome) : Prop := ∀ r, o = some r → r.interrupts = true

section Precedence

variable {g : OcrGate} {i again : Option Interruption} {capture : Option Error}
  {o : Option OcrTextTerminalOutcome} {r : OcrTextTerminalOutcome}

theorem authority_eq (g : OcrGate) (i : Option Interruption) :
    g.authority i = g.recorded.or (interrupted i) := by
  unfold OcrGate.authority OcrGate.recorded
  rw [Option.or_assoc, Option.or_assoc]

theorem interrupted_interrupts (h : interrupted i = some r) : r.interrupts = true := by
  unfold interrupted at h
  split at h <;> cases h <;> rfl

theorem refreshInterruption_firm (hfirm : r.interrupts = false) :
    refreshInterruption (some r) again = some r := by
  cases r <;> first | rfl | cases hfirm

theorem refreshInterruption_yields (hyields : Yields o) :
    refreshInterruption o again = (interrupted again).or o := by
  cases o with
  | none => rfl
  | some r =>
    have hr := hyields r rfl
    cases r <;> first | rfl | cases hr

theorem refusal_firm (hfirm : r.interrupts = false) :
    OcrQueryData.refusal (some r) capture again = some r := by
  cases r <;> first | rfl | cases hfirm

theorem refusal_yields (hyields : Yields o) :
    OcrQueryData.refusal o capture again =
      refreshInterruption ((capture.map refusedOutcome).or o) again := by
  cases o with
  | none => rfl
  | some r =>
    have hr := hyields r rfl
    cases r <;> first | rfl | cases hr

theorem Yields.or (h : Yields o) (h' : Yields (interrupted i)) : Yields (o.or (interrupted i)) := by
  intro r hr
  rcases Option.or_eq_some_iff.mp hr with hr | ⟨-, hr⟩
  · exact h r hr
  · exact h' r hr

theorem interrupted_yields : Yields (interrupted i) := fun _ h => interrupted_interrupts h

theorem recorded_rules (hrecorded : g.recorded = some r) (hfirm : r.interrupts = false) :
    OcrQueryData.refusal (g.authority i) capture again = some r := by
  rw [authority_eq, hrecorded]
  exact refusal_firm hfirm

theorem refused_rules {error : Error} (hyields : Yields g.recorded)
    (hfirm : (refusedOutcome error).interrupts = false) :
    OcrQueryData.refusal (g.authority i) (some error) again = some (refusedOutcome error) := by
  rw [authority_eq, refusal_yields (hyields.or interrupted_yields)]
  exact refreshInterruption_firm hfirm

theorem interruption_rules (hyields : Yields g.recorded) (hcapture : Yields (capture.map refusedOutcome))
    (hsome : g.recorded ≠ none ∨ capture ≠ none ∨ i ≠ none ∨ again ≠ none) :
    ∃ r, OcrQueryData.refusal (g.authority i) capture again = some r ∧ r.interrupts = true := by
  have hauthority : Yields ((capture.map refusedOutcome).or (g.recorded.or (interrupted i))) := by
    intro r hr
    rcases Option.or_eq_some_iff.mp hr with hr | ⟨-, hr⟩
    · exact hcapture r hr
    · exact hyields.or interrupted_yields r hr
  rw [authority_eq, refusal_yields (hyields.or interrupted_yields),
    refreshInterruption_yields hauthority]
  have hread : ∀ i : Option Interruption, i ≠ none → interrupted i ≠ none := by
    intro i hi
    rcases i with - | (- | -)
    · exact absurd rfl hi
    · exact Option.some_ne_none _
    · exact Option.some_ne_none _
  have hne : (interrupted again).or ((capture.map refusedOutcome).or (g.recorded.or (interrupted i))) ≠
      none := by
    intro hnone
    rw [Option.or_eq_none_iff, Option.or_eq_none_iff, Option.or_eq_none_iff, Option.map_eq_none_iff]
      at hnone
    obtain ⟨hagain, hcapture, hrecorded, hi⟩ := hnone
    rcases hsome with h | h | h | h
    · exact h hrecorded
    · exact h hcapture
    · exact hread _ h hi
    · exact hread _ h hagain
  obtain ⟨r, hr⟩ := Option.ne_none_iff_exists'.mp hne
  refine ⟨r, hr, ?_⟩
  rcases Option.or_eq_some_iff.mp hr with hr | ⟨-, hr⟩
  · exact interrupted_interrupts hr
  · exact hauthority r hr

theorem refusal_cases (h : OcrQueryData.refusal o capture again = some r) :
    o = some r ∨ (∃ error, refusedOutcome error = r) ∨ interrupted again = some r := by
  have hread : ∀ o', refreshInterruption o' again = some r → o' = some r ∨ interrupted again = some r := by
    intro o' h
    unfold refreshInterruption at h
    split at h
    · exact Or.inr ((Option.or_none).symm.trans h)
    · exact (Option.or_eq_some_iff.mp h).symm.imp And.right id
    · exact (Option.or_eq_some_iff.mp h).symm.imp And.right id
    · exact Or.inl h
  have hcapture : (capture.map refusedOutcome).or o = some r →
      o = some r ∨ ∃ error, refusedOutcome error = r := by
    intro h
    rcases Option.or_eq_some_iff.mp h with h | ⟨-, h⟩
    · obtain ⟨error, -, hr⟩ := Option.map_eq_some_iff.mp h
      exact Or.inr ⟨error, hr⟩
    · exact Or.inl h
  unfold OcrQueryData.refusal at h
  rcases hread _ h with h | h
  · split at h
    · exact (hcapture h).imp id Or.inl
    · exact (hcapture h).imp id Or.inl
    · exact (hcapture h).imp id Or.inl
    · exact Or.inl h
  · exact Or.inr (Or.inr h)

theorem refusal_unloaded (h : OcrQueryData.refusal (g.authority i) capture again = some r) :
    r.isOverloaded = false := by
  rcases refusal_cases h with h | ⟨error, rfl⟩ | h
  · exact authority_unloaded h
  · unfold refusedOutcome
    generalize captureOutcome error = outcome
    cases outcome <;> rfl
  · exact interrupted_unloaded h

theorem OcrCommits.ruled {s : OcrDesk} {p : OcrPlace} {e : OcrEvent} {c : OcrTextTerminalOutcome}
    (h : OcrCommits q s p o e c) (hr : o = some r) : c = r ∨ r = .deadlineExceeded ∧ c = .cancelled := by
  cases h with
  | rules read => exact Or.inl (Option.some.inj (read.symm.trans hr))
  | cancels read => exact Or.inr ⟨Option.some.inj (hr.symm.trans read), rfl⟩
  | proposes read =>
    rw [read] at hr
    cases hr
  | finds read =>
    rw [read] at hr
    cases hr
  | evaluates read =>
    rw [read] at hr
    cases hr

end Precedence

theorem due_overloaded {d : OcrQueryData} {now : ℕ} {ended : Bool} {o : OcrTextTerminalOutcome}
    (h : d.due q none now ended = some o) (ho : o.isOverloaded = true) :
    ∃ pending, d.pending = some pending ∧ pending.eligibleSince + eligibleQueueExpiry < now := by
  have hif : ∀ (c : Prop) [Decidable c] (o' : OcrTextTerminalOutcome), o'.isOverloaded = false →
      (if c then some o' else none) ≠ some o := by
    intro c _ o' ho' hif
    split_ifs at hif
    obtain rfl := Option.some.inj hif
    rw [ho'] at ho
    cases ho
  unfold OcrQueryData.due at h
  rw [Option.none_or, Option.or_eq_some_iff, Option.or_eq_some_iff, Option.or_eq_some_iff] at h
  rcases h with h | ⟨-, h | ⟨-, h | ⟨-, h⟩⟩⟩
  · split_ifs at h with hexpired
    unfold OcrQueryData.expired at hexpired
    obtain ⟨pending, hpending, hlate⟩ := (Option.any_eq_true _ _).mp hexpired
    rw [decide_eq_true_eq] at hlate
    exact ⟨pending, hpending, by omega⟩
  · exact absurd h (hif _ _ rfl)
  · exact absurd h (hif _ _ rfl)
  · exact absurd h (hif _ _ rfl)

theorem OcrCommits.overloads {s : PaceDesk} {p : PaceThread} {clock : ℕ} {e : OcrEvent}
    {capture : Option Error} {i again : Option Interruption} {o : OcrTextTerminalOutcome}
    (h : OcrCommits q s.desk p.place (OcrQueryData.refusal (s.desk.gate.authority i) capture again) e o)
    (hproposes : ∀ o, p.place.proposes = some o → o.isOverloaded = false)
    (hpermits : s.permits p clock e = true) (hreads : e.reads = some (capture, i, again))
    (ho : o.isOverloaded = true) :
    (s.desk.gate.recorded = none ∧ capture = none ∧ i = none ∧ again = none) ∧
      ∃ now pending, e = .sweep now i again ∧ now ≤ clock ∧ s.desk.data.pending = some pending ∧
        pending.eligibleSince + eligibleQueueExpiry < now := by
  have hclash : o.isOverloaded = false → False := by
    intro hnot
    rw [hnot] at ho
    cases ho
  cases h with
  | rules read => exact (hclash (refusal_unloaded read)).elim
  | cancels read => exact (hclash rfl).elim
  | proposes read proposed => exact (hclash (hproposes o proposed)).elim
  | evaluates read evaluates =>
    refine (hclash ?_).elim
    rcases evaluates with hmatch | ⟨error, rfl⟩
    · cases o <;> first | rfl | cases hmatch
    · rfl
  | finds read due =>
    rename_i now i' again'
    obtain ⟨rfl, rfl, rfl⟩ : none = capture ∧ i' = i ∧ again' = again := by
      simpa [OcrEvent.reads] using hreads
    obtain ⟨pending, hpending, hlate⟩ := due_overloaded due ho
    simp only [PaceDesk.permits, Bool.and_eq_true, decide_eq_true_eq] at hpermits
    refine ⟨?_, now, pending, rfl, hpermits.1.2, hpending, hlate⟩
    by_cases hyields : Yields s.desk.gate.recorded
    · by_contra hsome
      have hrules : ∃ r, OcrQueryData.refusal (s.desk.gate.authority i') none again' = some r ∧
          r.interrupts = true :=
        interruption_rules hyields (fun _ h => by cases h) (by tauto)
      obtain ⟨r, hr, -⟩ := hrules
      rw [hr] at read
      cases read
    · unfold Yields at hyields
      simp only [not_forall, Bool.not_eq_true] at hyields
      obtain ⟨r, hr, hfirm⟩ := hyields
      rw [recorded_rules hr hfirm] at read
      cases read

/-! ### Runs -/

omit [DecidableEq τ] in
theorem PaceMoves.query_or_alone {s s' : PaceDesk} {p p' : PaceThread} {clock : ℕ} {act : PaceAct}
    (h : PaceMoves q t s p clock s' p' act) : s'.desk = s.desk ∨ ∃ event, act = .query event ∧
      s.permits p clock event = true ∧ ocrStep q t s.desk p.place event = some (s'.desk, p'.place) := by
  cases h with
  | query event permits step => exact Or.inr ⟨event, rfl, permits, step⟩
  | begins alone => exact Or.inl alone.1
  | ends alone => exact Or.inl alone.1
  | offers _ _ _ alone => exact Or.inl alone.1
  | turns alone => exact Or.inl alone.1

/-- **The pace of a query, and its end.**  Each admission is at least the rate after the one before.
A source that replaces another has waited as long; only an admission, before which nothing may be
claimed, makes a source wait for less.  An outcome that is stored is what the session or the scheduler
has recorded, unless that is an interruption; then comes, at the end of an analysis, the refusal of the
capture, then an interruption, and an overload only where there is none of these, more than thirty
seconds after the source began to wait. -/
theorem ocr_pacing (h : (paceSystem τ q).Reachable w) :
    w.shared.admissions.IsChain (fun earlier later => earlier + q.rate ≤ later) ∧
    w.shared.admissions.getLast? = w.shared.desk.data.lastAdmitted ∧
    ∀ t e w', (paceSystem τ q).step w (t, e) w' →
      (∀ pending pending', w.shared.desk.data.pending = some pending →
        w'.shared.desk.data.pending = some pending' →
        pending'.eligibleSince = pending.eligibleSince ∨
          ∃ region mapping unchanged now interruption again eligible,
            e.act = .query (.admitPrepared region mapping unchanged now interruption again) ∧
            instantAdd now q.rate = some eligible ∧
            pending'.eligibleSince = max pending.eligibleSince eligible) ∧
      ∀ o, w.shared.desk.data.terminal = none → w'.shared.desk.data.terminal = some o →
        ∃ event capture interruption again, e.act = .query event ∧
          event.reads = some (capture, interruption, again) ∧
          (∀ r, w.shared.desk.gate.recorded = some r → r.interrupts = false → o = r) ∧
          (Yields w.shared.desk.gate.recorded → ∀ error, capture = some error →
            (refusedOutcome error).interrupts = false → o = refusedOutcome error) ∧
          (Yields w.shared.desk.gate.recorded → Yields (capture.map refusedOutcome) →
            (w.shared.desk.gate.recorded ≠ none ∨ capture ≠ none ∨ interruption ≠ none ∨
              again ≠ none) → o.interrupts = true) ∧
          (o.isOverloaded = true →
            (w.shared.desk.gate.recorded = none ∧ capture = none ∧ interruption = none ∧
              again = none) ∧
            ∃ now pending, event = .sweep now interruption again ∧ now ≤ e.clock ∧
              w.shared.desk.data.pending = some pending ∧
              pending.eligibleSince + eligibleQueueExpiry < now) := by
  have hpaced := pace_paced h
  have hfenced := pace_fenced h
  refine ⟨hpaced.chain, hpaced.last, fun t e w' hstep => ?_⟩
  have hreach' := h.step hstep
  obtain ⟨s', p', hact, rfl⟩ := hstep
  obtain ⟨-, -, -, hmoves⟩ := paceStep_moves hact
  rw [World.move_shared]
  generalize e.act = act at hmoves ⊢
  refine ⟨fun pending pending' hpending hpending' => ?_, fun o hopen ho => ?_⟩
  · rcases hmoves.query_or_alone with hdesk | ⟨event, rfl, -, hquery⟩
    · rw [hdesk] at hpending'
      obtain rfl := Option.some.inj (hpending.symm.trans hpending')
      exact Or.inl rfl
    · have hopen : s'.desk.data.terminal = none := by
        by_contra hended
        have hempty := (ocr_settled (pace_reachable hreach')).emptied hended
        exact absurd (hempty.1.symm.trans hpending') fun h => by cases h
      rcases ocr_residence (ocrStep_paces hquery) hopen hpending hpending' with
        hsame | ⟨region, mapping, unchanged, now, i, a, eligible, rfl, hadd, hmax⟩
      · exact Or.inl hsame
      · exact Or.inr ⟨region, mapping, unchanged, now, i, a, eligible, rfl, hadd, hmax⟩
  · rcases hmoves.query_or_alone with hdesk | ⟨event, rfl, hpermits, hquery⟩
    · rw [hdesk, hopen] at ho
      cases ho
    · obtain ⟨capture, interruption, again, hreads, hcommits⟩ := ocrStep_commits hquery hopen ho
      refine ⟨event, capture, interruption, again, rfl, hreads, fun r hrecorded hfirm => ?_,
        fun hyields error herror hfirm => ?_, fun hyields hcapture hsome => ?_, fun hload => ?_⟩
      · rcases hcommits.ruled (recorded_rules hrecorded hfirm) with hsame | ⟨rfl, -⟩
        · exact hsame
        · cases hfirm
      · subst herror
        rcases hcommits.ruled (refused_rules hyields hfirm) with hsame | ⟨hdeadline, -⟩
        · exact hsame
        · rw [hdeadline] at hfirm
          cases hfirm
      · obtain ⟨r, hr, hinterrupts⟩ := interruption_rules hyields hcapture hsome
        rcases hcommits.ruled hr with rfl | ⟨-, rfl⟩
        · exact hinterrupts
        · rfl
      · exact hcommits.overloads (hfenced.proposes t) hpermits hreads hload

/-! ### A run -/

def onePace : List (Bool × PaceEvent) :=
  [(false, ⟨0, .beginPublish⟩), (false, ⟨0, .query (.callEnqueue (plainStamp 1))⟩),
    (false, ⟨0, .query (.enqueue (.ok ⟨0, 0, 1, 1⟩) 0 none)⟩), (false, ⟨1, .endPublish⟩),
    (true, ⟨1, .probe⟩), (true, ⟨1, .load⟩), (true, ⟨2, .query (.sweep 2 none none)⟩),
    (true, ⟨2, .offer 2⟩), (true, ⟨3, .query (.claim (plainStamp 1) 2 none)⟩),
    (true, ⟨4, .query (.admitPrepared ⟨0, 0, 1, 1⟩ none false 4 none none)⟩),
    (true, ⟨5, .query (.callComplete none (.ok (plainOutput 1)) plainAnswers)⟩)]

/-- One frame is published at one instant and admitted at another; the recognizer is in doubt. -/
def pacedFrame (sequence start claimed : ℕ) : List (Bool × PaceEvent) :=
  [(false, ⟨start, .beginPublish⟩), (false, ⟨start, .query (.callEnqueue (plainStamp sequence))⟩),
    (false, ⟨start, .query (.enqueue (.ok ⟨0, 0, 1, 1⟩) start none)⟩), (false, ⟨start, .endPublish⟩),
    (true, ⟨start, .probe⟩), (true, ⟨start, .load⟩),
    (true, ⟨claimed, .query (.sweep claimed none none)⟩), (true, ⟨claimed, .offer claimed⟩),
    (true, ⟨claimed, .query (.claim (plainStamp sequence) claimed none)⟩),
    (true, ⟨claimed, .query (.admitPrepared ⟨0, 0, 1, 1⟩ none false claimed none none)⟩),
    (true, ⟨claimed, .query (.callComplete none
      (.ok { plainOutput sequence with regions := [⟨"ok", 1 / 4⟩] }) plainAnswers)⟩),
    (true, ⟨claimed, .query (.complete none none none)⟩),
    (true, ⟨claimed, .query (.sweep claimed none none)⟩), (true, ⟨claimed, .query .drop⟩)]

def spacedOcrQuery : OcrQueryShared := { plainOcrQuery with rate := 5 }

def admittedTwice : PaceWorld Bool :=
  (replay (paceStep spacedOcrQuery) (pacedFrame 1 0 4 ++ pacedFrame 2 6 9) (PaceWorld.start Bool)).get
    (by decide +kernel)

/-- The second frame, which is published two after the first admission, waits for its turn. -/
theorem ocr_pacing_sample : admittedTwice.shared.admissions = [4, 9] ∧
    [4, 9].IsChain (fun earlier later => earlier + 5 ≤ later) ∧
    admittedTwice.shared.desk.data.lastAdmitted = some 9 := by
  have hadmissions : admittedTwice.shared.admissions = [4, 9] := by decide +kernel
  obtain ⟨hchain, hlast, -⟩ := ocr_pacing (replay_reachable (Option.some_get
    (x := replay (paceStep spacedOcrQuery) (pacedFrame 1 0 4 ++ pacedFrame 2 6 9)
      (PaceWorld.start Bool)) (by decide +kernel)).symm)
  change admittedTwice.shared.admissions.IsChain _ at hchain
  change admittedTwice.shared.admissions.getLast? = _ at hlast
  rw [hadmissions] at hchain hlast
  exact ⟨hadmissions, hchain, hlast.symm⟩

def analysed : PaceWorld Bool :=
  (replay (paceStep plainOcrQuery) onePace (PaceWorld.start Bool)).get rfl

theorem analysed_reachable : (paceSystem Bool plainOcrQuery).Reachable analysed :=
  replay_reachable (Option.some_get
    (x := replay (paceStep plainOcrQuery) onePace (PaceWorld.start Bool)) rfl).symm

/-- The worker ends its analysis: the capture has lost its target, and the operation is cancelled. -/
def refused : PaceEvent :=
  ⟨6, .query (.complete (some ⟨.targetLost, "target"⟩) (some .cancelled) (some .cancelled))⟩

def afterRefusal : PaceWorld Bool :=
  (replay (paceStep plainOcrQuery) [(true, refused)] analysed).get rfl

/-- **The capture before the interruption.**  The operation is cancelled and nothing is recorded; the
query ends with its target lost. -/
theorem refusal_before_interruption :
    (paceSystem Bool plainOcrQuery).Reachable analysed ∧
    (paceSystem Bool plainOcrQuery).step analysed (true, refused) afterRefusal ∧
    analysed.shared.desk.gate.recorded = none ∧ analysed.shared.desk.data.terminal = none ∧
    afterRefusal.shared.desk.data.terminal = some .targetLost := by
  refine ⟨analysed_reachable, ?_, by decide +kernel, by decide +kernel, by decide +kernel⟩
  exact ⟨_, _, rfl, rfl⟩

end MadoPilot.Watch
