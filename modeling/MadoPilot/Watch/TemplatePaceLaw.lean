import Mathlib.Data.List.Chain
import MadoPilot.Watch.GatingLaw
import MadoPilot.Watch.TemplatePace

/-!
# The pace of a template query

One publication is claimed at a time and one analysis is in flight at a time, so an admission follows
the one before it by the rate: the worker samples the clock while it holds its claim, and claims only
once the analysis before has left.

* `Keeps`, `perform_keeps` : the sections that leave the claim and the last admission alone;
* `perform_ends` : only `expire_if_current` overloads, and when;
* `Paced` : the invariant, `Attested` what the run says of each duty;
* `template_pacing` : the pace, the expiry of a publication, and what an interruption comes before;
  `late_admission` : what it does not come before.
-/

namespace MadoPilot.Watch.TemplatePace

open MadoPilot.Core MadoPilot.Lib

variable {R : Type}

/-! ### Sections that keep the claim -/

/-- The last admission stays; as long as the query is open, so does the claim, and an analysis does
not come into flight. -/
structure Keeps (d d' : QueryData R) : Prop where
  last : d'.lastAdmitted = d.lastAdmitted
  claim : d'.terminal = none → d.terminal = none ∧ d'.processing = d.processing ∧
    (d.inFlight = .empty → d'.inFlight = .empty)

namespace Keeps

variable {q : QueryShared} {d d' : QueryData R}

theorem refl (d : QueryData R) : Keeps d d := ⟨rfl, fun h => ⟨h, rfl, id⟩⟩

theorem ended {o : TemplateTerminalOutcome R} (hlast : d'.lastAdmitted = d.lastAdmitted)
    (ho : d'.terminal = some o) : Keeps d d' := by
  refine ⟨hlast, fun h => ?_⟩
  rw [ho] at h
  cases h

theorem enqueue (q : QueryShared) (d : QueryData R) (stamp : FrameStamp) (now : ℕ) (barrier : Bool) :
    Keeps d (d.enqueue q stamp now barrier) := by
  refine ⟨d.enqueue_lastAdmitted q stamp now barrier, fun h => ⟨?_, ?_, fun hempty => ?_⟩⟩
  · rw [← d.enqueue_terminal q stamp now barrier]
    exact h
  · unfold QueryData.enqueue
    split
    · simp only
      split
      · have hslots := congrArg Slots.processing
          ((d.replacePending stamp now (d.barrierDeferred || barrier)).applyMappingBarrier_slots q)
        exact hslots
      · rfl
    · rfl
  · have hreplaced : (d.replacePending stamp now (d.barrierDeferred || barrier)).inFlight = .empty := by
      unfold QueryData.replacePending
      simp [hempty]
    unfold QueryData.enqueue
    split
    · simp only
      split
      · have hslots := congrArg Slots.inFlight
          ((d.replacePending stamp now (d.barrierDeferred || barrier)).applyMappingBarrier_slots q)
        exact hslots.trans hreplaced
      · exact hreplaced
    · exact hempty

theorem applyMappingBarrier (q : QueryShared) (d : QueryData R) :
    Keeps d (d.applyMappingBarrier q).1 := by
  have hslots := d.applyMappingBarrier_slots q
  refine ⟨?_, fun h => ⟨?_, congrArg Slots.processing hslots, fun hempty => ?_⟩⟩
  · unfold QueryData.applyMappingBarrier
    simp only
    split
    · rfl
    split
    · rfl
    split
    · rfl
    split
    · rfl
    split <;> rfl
  · rw [← d.applyMappingBarrier_terminal q]
    exact h
  · exact (congrArg Slots.inFlight hslots).trans hempty

theorem recordDisposition (d : QueryData R) (disposition : TemplateWorkDisposition) :
    Keeps d (d.recordDisposition disposition).1 := by
  unfold QueryData.recordDisposition
  split
  · exact .refl d
  · exact ⟨rfl, fun h => ⟨h, rfl, id⟩⟩

theorem terminate (d : QueryData R) (o : TemplateTerminalOutcome R) :
    Keeps d (d.terminate o).1 := by
  unfold QueryData.terminate
  split
  · exact .refl d
  · exact .ended rfl rfl

theorem expireIfCurrent (d : QueryData R) (candidate : CandidateSnapshot) (now expiry : ℕ) :
    Keeps d (d.expireIfCurrent candidate now expiry).1 := by
  unfold QueryData.expireIfCurrent
  simp only
  split
  · exact .refl d
  · exact .ended rfl rfl

theorem complete (q : QueryShared) (d : QueryData R) (generation : ℕ) (mapped : MappedMatch)
    (mapping : Option ℕ) (result : Except Error (ImmutableAnalysisResult R)) (now : ℕ)
    (interruption : Option Interruption) :
    Keeps d (d.complete q generation mapped mapping result now interruption).1 := by
  unfold QueryData.complete
  cases hremove : d.inFlight.remove (generation, mapped.frame) with
  | none =>
    simp only [hremove]
    exact .refl d
  | some f =>
    simp only [hremove]
    have hflying : d.inFlight ≠ .empty := by
      intro hempty
      rw [hempty] at hremove
      cases hremove
    have hopen : ∀ d' : QueryData R, d'.lastAdmitted = d.lastAdmitted → d'.terminal = d.terminal →
        d'.processing = d.processing → Keeps d d' := by
      intro d' hlast hterminal hprocessing
      exact ⟨hlast, fun h => ⟨hterminal ▸ h, hprocessing, fun hempty => absurd hempty hflying⟩⟩
    split
    · exact .refl d
    split
    · exact .refl d
    split
    · exact hopen _ rfl rfl rfl
    split
    · exact .ended rfl rfl
    split
    · exact hopen _ rfl rfl rfl
    split
    · exact .ended rfl rfl
    · exact hopen _ rfl rfl rfl

end Keeps

/-! ### Sections of the holder of a claim -/

section Claim

variable {q : QueryShared} {d : QueryData R}

theorem claim_free {stamp : FrameStamp} (h : (d.claim stamp).2 = true) :
    d.terminal = none ∧ d.processing = none := by
  unfold QueryData.claim at h
  split at h
  · cases h
  · rename_i hguard
    simp only [Bool.or_eq_true, not_or, Bool.not_eq_true, Option.isSome_eq_false_iff,
      Option.isNone_iff_eq_none] at hguard
    exact hguard.1

theorem claim_missed {stamp : FrameStamp} (h : ¬ (d.claim stamp).2 = true) :
    (d.claim stamp).1 = d := by
  unfold QueryData.claim at h ⊢
  split
  · rfl
  · rename_i hguard
    rw [if_neg hguard] at h
    split
    · rfl
    · split
      · rfl
      · rename_i hpending hsame
        simp only [hpending, if_neg hsame, not_true_eq_false] at h

theorem releaseClaim_lastAdmitted (stamp : FrameStamp) :
    (d.releaseClaim stamp).lastAdmitted = d.lastAdmitted := by
  unfold QueryData.releaseClaim
  split <;> rfl

theorem failMapping_lastAdmitted (stamp : FrameStamp) (error : Error) :
    (d.failMapping stamp error).1.lastAdmitted = d.lastAdmitted := by
  unfold QueryData.failMapping
  split
  · exact releaseClaim_lastAdmitted stamp
  · rfl

/-- **What `finish_mapping` does with the rate**, when no other analysis is in flight: it admits at
its sample, and the rate allows it, or it leaves the last admission alone. -/
theorem finishMapping_rate (q : QueryShared) (mapped : MappedMatch) (mapping : Option ℕ)
    (decision : ChangeDecision) (now : ℕ) (hidle : d.terminal = none → d.inFlight = .empty) :
    ((∃ generation, (d.finishMapping q mapped mapping decision now).2 = .admitted generation) ∧
      d.terminal = none ∧ ¬ d.Limited q now ∧
      (d.finishMapping q mapped mapping decision now).1.lastAdmitted = some now) ∨
    ((∀ generation, (d.finishMapping q mapped mapping decision now).2 ≠ .admitted generation) ∧
      (d.finishMapping q mapped mapping decision now).1.lastAdmitted = d.lastAdmitted) := by
  unfold QueryData.finishMapping
  simp only
  split
  · exact Or.inr ⟨fun _ h => (by cases h), rfl⟩
  rename_i hclaimed
  split
  · exact Or.inr ⟨fun _ h => (by cases h), rfl⟩
  split
  · exact Or.inr ⟨fun _ h => (by cases h), rfl⟩
  split
  · split
    · exact Or.inr ⟨fun _ h => (by cases h), rfl⟩
    · exact Or.inr ⟨fun _ h => (by cases h), rfl⟩
  · rename_i hlimited
    split
    · exact Or.inr ⟨fun _ h => (by cases h), rfl⟩
    · rename_i generation hgeneration
      simp only [Bool.or_eq_true, not_or, Bool.not_eq_true, Option.isSome_eq_false_iff,
        Option.isNone_iff_eq_none] at hclaimed
      rw [hidle hclaimed.1, InFlight.insert_empty]
      exact Or.inl ⟨⟨generation, rfl⟩, hclaimed.1, hlimited, rfl⟩

theorem rate_allows {now : ℕ} (h : ¬ d.Limited q now)
    (hpast : ∀ a, d.lastAdmitted = some a → a ≤ now) {a : ℕ} (ha : d.lastAdmitted = some a) :
    a + q.minimumInterval ≤ now := by
  have hle := hpast a ha
  unfold QueryData.Limited at h
  rw [ha] at h
  by_cases hzero : q.minimumInterval = 0
  · omega
  · have hlate : ¬ now - a < q.minimumInterval := fun hlt => h ⟨hzero, by simpa using hlt⟩
    omega

/-- **When a publication expires**: it is the candidate, nothing limits its rate any more, and it has
waited for longer than the limit since it could be claimed. -/
theorem expireIfCurrent_expires {candidate : CandidateSnapshot} {now expiry : ℕ}
    (h : (d.expireIfCurrent candidate now expiry).1.terminal ≠ d.terminal) :
    ∃ pending, d.pending = some pending ∧ pending.stamp = candidate.stamp ∧
      (∀ eligible, d.rateEligibleAt = some eligible → eligible ≤ now) ∧
      max (d.rateEligibleAt.getD pending.eligibleSince) pending.eligibleSince + expiry < now := by
  unfold QueryData.expireIfCurrent at h
  simp only at h
  split at h
  · exact absurd rfl h
  · rename_i hguard
    simp only [Bool.or_eq_true, not_or, Bool.not_eq_true, Bool.not_eq_eq_eq_not, Bool.not_true,
      decide_eq_true_eq, not_not, not_le] at hguard
    obtain ⟨⟨⟨⟨⟨hterminal, hcurrent⟩, hprocessing⟩, hrate⟩, hearly⟩, hlong⟩ := hguard
    rw [Bool.not_eq_false, Option.any_eq_true] at hcurrent
    obtain ⟨pending, hpending, hsame⟩ := hcurrent
    rw [Bool.and_eq_true, decide_eq_true_eq, decide_eq_true_eq] at hsame
    refine ⟨pending, hpending, hsame.1, fun eligible heligible => ?_, ?_⟩
    · rw [← hrate, heligible] at hearly
      simpa using hearly
    · rw [hrate, hsame.2]
      omega

theorem failMapping_stores (stamp : FrameStamp) (error : Error) :
    (d.failMapping stamp error).1.terminal = d.terminal ∨
    ∃ o, (d.failMapping stamp error).1.terminal = some o ∧ o.isOverloaded = false := by
  unfold QueryData.failMapping
  split
  · exact Or.inl (d.releaseClaim_terminal stamp)
  · exact Or.inr ⟨.failed error, rfl, rfl⟩

theorem complete_stores (d : QueryData R) (generation : ℕ) (mapped : MappedMatch)
    (mapping : Option ℕ) (result : Except Error (ImmutableAnalysisResult R)) (now : ℕ)
    (interruption : Option Interruption) :
    (d.complete q generation mapped mapping result now interruption).1.terminal = d.terminal ∨
    ∃ o, (d.complete q generation mapped mapping result now interruption).1.terminal = some o ∧
      o.isOverloaded = false := by
  unfold QueryData.complete
  cases hremove : d.inFlight.remove (generation, mapped.frame) with
  | none =>
    simp only [hremove]
    exact Or.inl trivial
  | some f =>
    simp only [hremove]
    split
    · exact Or.inl rfl
    split
    · exact Or.inl rfl
    split
    · exact Or.inl rfl
    split
    · exact Or.inr ⟨_, rfl, rfl⟩
    split
    · exact Or.inl rfl
    split
    · exact Or.inr ⟨_, rfl, rfl⟩
    · exact Or.inl rfl

end Claim

/-! ### Steps of the query -/

def ofHolder : Event R → Bool
  | .claim _ | .releaseClaim _ | .failMapping .. | .finishMapping .. => true
  | .enqueue .. | .deferMappingBarrier | .recordAdmitted | .recordCoalesced | .callTerminate _
  | .terminate _ | .expireIfCurrent .. | .callComplete .. | .complete .. | .finishSourceEnd _
  | .afterTerminalCommit => false

theorem perform_keeps {q : QueryShared} {s s' : Desk R} {pc pc' : Pc R} {e : Event R}
    (h : perform q s pc e = some (s', pc')) (he : ofHolder e = false) : Keeps s.data s'.data := by
  unfold perform at h
  split at h
  -- `enqueue`, the barrier, `claim`, `release_claim`, `record_disposition` twice
  · cases h
    exact .enqueue q _ _ _ _
  · cases h
    exact .applyMappingBarrier q _
  · cases he
  · cases he
  · cases h
    exact .recordDisposition _ _
  · cases h
    exact .recordDisposition _ _
  -- `terminate`: its call and its section
  · cases h
    exact .refl _
  · cases h
    exact .terminate _ _
  -- `expire_if_current`
  · split at h
    · cases h
      exact .refl _
    · cases h
      exact .refl _
    · cases h
      exact .expireIfCurrent _ _ _ _
  · cases he
  -- `complete`: its first look and its section
  · cases h
    exact .refl _
  · split at h
    · cases h
      exact .refl _
    · cases h
      exact .complete q _ _ _ _ _ _ _
  · cases he
  -- `finish_source_end_if_idle` and the hook
  · cases h
    exact .refl _
  · cases h
    exact .refl _
  · cases h

theorem interruptionOutcome_plain (i : Interruption) :
    (interruptionOutcome i : TemplateTerminalOutcome R).isOverloaded = false := by
  cases i <;> rfl

/-- What a step of the query does with outcomes: whatever it proposes or stores does not overload,
but for an expiry. -/
structure Ends (s : TimedDesk R) (p : Thread R) (e : Event R) (s' : Desk R) (pc' : Pc R) : Prop where
  proposes : ∀ o, pc' = .terminating o → o.isOverloaded = false
  stores : s'.data.terminal = s.desk.data.terminal ∨
    (∃ o, s'.data.terminal = some o ∧ o.isOverloaded = false) ∨
    ∃ candidate now, e = .expireIfCurrent candidate now eligibleQueueExpiry none none ∧
      p.duty = .expiring candidate now none ∧
      s'.data = (s.desk.data.expireIfCurrent candidate now eligibleQueueExpiry).1

theorem Ends.quiet {s : TimedDesk R} {p : Thread R} {e : Event R} {s' : Desk R} {pc' : Pc R}
    (hpc : ∀ o, pc' = .terminating o → o.isOverloaded = false)
    (hsame : s'.data.terminal = s.desk.data.terminal) : Ends s p e s' pc' :=
  ⟨hpc, Or.inl hsame⟩

theorem proposes_of_ne {pc : Pc R} (h : ∀ o, pc ≠ .terminating o) :
    ∀ o, pc = .terminating o → o.isOverloaded = false := by
  intro o ho
  exact absurd ho (h o)

theorem committedNext_ne (committed : Bool) (o : TemplateTerminalOutcome R) :
    committedNext committed ≠ .terminating o := by
  unfold committedNext
  split <;> exact fun h => (by cases h)

theorem terminating_plain {o : TemplateTerminalOutcome R} (h : o.isOverloaded = false) :
    ∀ o', (Pc.terminating o : Pc R) = .terminating o' → o'.isOverloaded = false := by
  intro o' ho
  rw [← Pc.terminating.inj ho]
  exact h

theorem perform_ends {q : QueryShared} {s : TimedDesk R} {p : Thread R} {clock : ℕ} {e : Event R}
    {s' : Desk R} {pc' : Pc R} (hpermits : s.permits p clock e = true)
    (hplace : ∀ o, p.place = .terminating o → o.isOverloaded = false)
    (h : perform q s.desk p.place e = some (s', pc')) : Ends s p e s' pc' := by
  have hidle : ∀ o, (Pc.idle : Pc R) = .terminating o → o.isOverloaded = false :=
    proposes_of_ne fun _ h => (by cases h)
  have hgiven : ∀ {authority : Option (TemplateTerminalOutcome R)} {o : TemplateTerminalOutcome R},
      (!authority.any (·.isOverloaded)) = true → authority = some o → o.isOverloaded = false := by
    intro authority o hplain ho
    rw [ho] at hplain
    simpa using hplain
  unfold perform at h
  split at h
  -- `enqueue`, the barrier, `claim`, `release_claim`, `record_disposition` twice
  · cases h
    exact .quiet hidle (s.desk.data.enqueue_terminal q _ _ _)
  · cases h
    exact .quiet hidle (s.desk.data.applyMappingBarrier_terminal q)
  · cases h
    exact .quiet hidle (s.desk.data.claim_terminal _)
  · cases h
    exact .quiet hidle (s.desk.data.releaseClaim_terminal _)
  · cases h
    exact .quiet hidle (s.desk.data.recordDisposition_terminal _)
  · cases h
    exact .quiet hidle (s.desk.data.recordDisposition_terminal _)
  -- `terminate`: its call and its section
  · cases h
    refine .quiet (terminating_plain ?_) rfl
    simpa [TimedDesk.permits] using hpermits
  · rename_i outcome authority hpc
    cases h
    refine ⟨proposes_of_ne (committedNext_ne _), ?_⟩
    have hplain : (authority.getD outcome).isOverloaded = false := by
      cases hauthority : authority with
      | none => exact hplace outcome hpc
      | some o => exact hgiven (by simpa [TimedDesk.permits] using hpermits) hauthority
    show (s.desk.data.terminate (authority.getD outcome)).1.terminal = _ ∨ _
    unfold QueryData.terminate
    split
    · exact Or.inl rfl
    · exact Or.inr (Or.inl ⟨_, rfl, hplain⟩)
  -- `expire_if_current`
  · rename_i candidate now expiry interruption authority hpc
    simp only [TimedDesk.permits, Bool.and_eq_true, decide_eq_true_eq] at hpermits
    obtain ⟨⟨hduty, rfl⟩, hplain⟩ := hpermits
    split at h
    · cases h
      exact .quiet (terminating_plain (interruptionOutcome_plain _)) rfl
    · cases h
      exact .quiet (terminating_plain (hgiven hplain rfl)) rfl
    · cases h
      exact ⟨proposes_of_ne (committedNext_ne _), Or.inr (Or.inr ⟨candidate, now, rfl, hduty, rfl⟩)⟩
  -- `finish_mapping`
  · simp only [TimedDesk.permits, Bool.and_eq_true] at hpermits
    split at h
    · cases h
      exact .quiet (terminating_plain (hgiven hpermits.2 rfl)) rfl
    · cases h
      refine .quiet (fun o ho => ?_) (s.desk.data.finishMapping_terminal q _ _ _ _)
      unfold MappingEnd.next at ho
      split at ho <;> cases ho <;> rfl
  -- `complete`: its first look and its section
  · cases h
    refine .quiet (proposes_of_ne fun o ho => ?_) rfl
    split at ho <;> cases ho
  · rename_i generation mapped mapping result now refusal interruption _
    simp only [TimedDesk.permits] at hpermits
    split at h
    · cases h
      exact .quiet (terminating_plain (hgiven hpermits rfl)) rfl
    · cases h
      refine ⟨fun o ho => ?_, ?_⟩
      · unfold Completion.next at ho
        split at ho <;> cases ho
        exact interruptionOutcome_plain _
      · rcases complete_stores s.desk.data generation mapped mapping result now interruption with
          hsame | hplain
        · exact Or.inl hsame
        · exact Or.inr (Or.inl hplain)
  -- `fail_mapping`
  · rename_i stamp error _ _ _
    simp only [TimedDesk.permits, Bool.and_eq_true] at hpermits
    split at h
    · cases h
      exact .quiet (terminating_plain (interruptionOutcome_plain _)) rfl
    · cases h
      exact .quiet (terminating_plain (hgiven hpermits.2 rfl)) rfl
    · cases h
      refine ⟨proposes_of_ne (committedNext_ne _), ?_⟩
      rcases failMapping_stores (d := s.desk.data) stamp error with hsame | hplain
      · exact Or.inl hsame
      · exact Or.inr (Or.inl hplain)
  -- `finish_source_end_if_idle` and the hook
  · cases h
    refine .quiet (fun o ho => ?_) rfl
    split at ho
    · exact terminating_plain rfl o ho
    · cases ho
  · cases h
    exact .quiet hidle rfl
  · cases h

theorem perform_claim {q : QueryShared} {s s' : Desk R} {pc pc' : Pc R} {stamp : FrameStamp}
    (h : perform q s pc (.claim stamp) = some (s', pc')) : s'.data = (s.data.claim stamp).1 := by
  cases pc <;> cases h
  rfl

theorem perform_releaseClaim {q : QueryShared} {s s' : Desk R} {pc pc' : Pc R} {stamp : FrameStamp}
    (h : perform q s pc (.releaseClaim stamp) = some (s', pc')) :
    s'.data = s.data.releaseClaim stamp := by
  cases pc <;> cases h
  rfl

theorem perform_failMapping {q : QueryShared} {s s' : Desk R} {pc pc' : Pc R} {stamp : FrameStamp}
    {error : Error} {interruption : Option Interruption}
    {authority : Option (TemplateTerminalOutcome R)}
    (h : perform q s pc (.failMapping stamp error interruption authority) = some (s', pc')) :
    s'.data = s.data ∨ s'.data = (s.data.failMapping stamp error).1 := by
  cases pc with
  | idle =>
    cases interruption with
    | some i =>
      cases h
      exact Or.inl rfl
    | none =>
      cases authority with
      | some outcome =>
        cases h
        exact Or.inl rfl
      | none =>
        cases h
        exact Or.inr rfl
  | _ => cases h

theorem perform_finishMapping {q : QueryShared} {s s' : Desk R} {pc pc' : Pc R}
    {mapped : MappedMatch} {mapping : Option ℕ} {decision : ChangeDecision} {now : ℕ}
    {authority : Option (TemplateTerminalOutcome R)}
    (h : perform q s pc (.finishMapping mapped mapping decision now authority) = some (s', pc')) :
    (authority ≠ none ∧ s'.data = s.data) ∨
    (authority = none ∧ s'.data = (s.data.finishMapping q mapped mapping decision now).1) := by
  cases pc with
  | idle =>
    cases authority with
    | some outcome =>
      cases h
      exact Or.inl ⟨Option.some_ne_none _, rfl⟩
    | none =>
      cases h
      exact Or.inr ⟨rfl, rfl⟩
  | _ => cases h

/-! ### The book and the duties -/

section Book

variable {q : QueryShared} {s : TimedDesk R} {mapped : MappedMatch} {mapping : Option ℕ}
  {decision : ChangeDecision} {now : ℕ}

theorem Duty.claim_of_admissible {duty : Duty} {stamp : FrameStamp}
    (h : duty.admissible = some stamp) : duty.claim = some stamp := by
  cases duty <;> first | exact h | cases h

theorem Duty.checked_of_admissible {duty : Duty} {stamp : FrameStamp}
    (h : duty.admissible = some stamp) : ∃ instant, duty = .checked stamp instant := by
  cases duty with
  | checked stamp' instant => exact ⟨instant, by rw [Option.some.inj h]⟩
  | free | claimed | expiring => cases h

theorem admitted_other {e : Event R} (h : ofHolder e = false) : s.admitted q e = [] := by
  cases e <;> first | rfl | cases h

theorem admitted_authority {authority : Option (TemplateTerminalOutcome R)} (h : authority ≠ none) :
    s.admitted q (.finishMapping mapped mapping decision now authority) = [] := by
  cases authority with
  | none => exact absurd rfl h
  | some o => rfl

theorem admitted_eq {generation : ℕ}
    (h : (s.desk.data.finishMapping q mapped mapping decision now).2 = .admitted generation) :
    s.admitted q (.finishMapping mapped mapping decision now none) = [now] := by
  unfold TimedDesk.admitted
  simp only [h]

theorem admitted_declined
    (h : ∀ generation,
      (s.desk.data.finishMapping q mapped mapping decision now).2 ≠ .admitted generation) :
    s.admitted q (.finishMapping mapped mapping decision now none) = [] := by
  unfold TimedDesk.admitted
  dsimp only
  split
  · rename_i generation hadmitted
    exact absurd hadmitted (h generation)
  · rfl

theorem dutyAfter_other (s : TimedDesk R) (p : Thread R) {e : Event R} (h : ofHolder e = false) :
    s.dutyAfter p e = p.duty ∨ s.dutyAfter p e = .free := by
  cases e <;> first | exact Or.inl rfl | exact Or.inr rfl | cases h

end Book

/-! ### The invariant -/

section Invariant

variable {τ : Type*} [DecidableEq τ] {q : QueryShared} {deadline : Option ℕ}

/-- What holds of every run: the admissions are spaced by the rate, and as long as the query is open,
at most one thread has a claim, which the query knows of, with no analysis in flight and the last
admission before the thread's last step. -/
structure Paced (q : QueryShared) (w : TimedWorld τ R) : Prop where
  past : ∀ t, (w.pc t).since ≤ w.shared.clock
  spaced : w.shared.admissions.IsChain (fun earlier later => earlier + q.minimumInterval ≤ later)
  last : w.shared.admissions.getLast? = w.shared.desk.data.lastAdmitted
  admitted : ∀ a, w.shared.desk.data.lastAdmitted = some a → a ≤ w.shared.clock
  claims : w.shared.desk.data.terminal = none → ∀ t stamp, (w.pc t).duty.claim = some stamp →
    w.shared.desk.data.processing = some stamp ∧ w.shared.desk.data.inFlight = .empty ∧
      ∀ a, w.shared.desk.data.lastAdmitted = some a → a ≤ (w.pc t).since
  alone : w.shared.desk.data.terminal = none → ∀ t u, (w.pc t).duty.claim ≠ none →
    (w.pc u).duty.claim ≠ none → t = u
  proposes : ∀ t o, (w.pc t).place = .terminating o → o.isOverloaded = false

omit [DecidableEq τ] in
theorem Paced.start : Paced q (TimedWorld.start τ R) where
  past _ := Nat.le_refl 0
  spaced := .nil
  last := rfl
  admitted _ h := by cases h
  claims _ _ _ h := by cases h
  alone _ _ _ h := absurd rfl h
  proposes _ _ h := by cases h

namespace Paced

variable {w : TimedWorld τ R} {t : τ} {s' : TimedDesk R} {p' : Thread R} {clock : ℕ}

theorem past_move (h : Paced q w) (hclock : w.shared.clock ≤ clock) (hs' : s'.clock = clock)
    (hsince : p'.since = clock) (u : τ) :
    ((w.move t s' p').pc u).since ≤ (w.move t s' p').shared.clock := by
  rw [World.move_shared, hs']
  by_cases hut : u = t
  · subst hut
    rw [World.move_pc_self, hsince]
  · rw [World.move_pc_of_ne _ _ _ _ hut]
    exact Nat.le_trans (h.past u) hclock

theorem proposes_move (h : Paced q w)
    (hplace : ∀ o, p'.place = .terminating o → o.isOverloaded = false) (u : τ) :
    ∀ o, ((w.move t s' p').pc u).place = .terminating o → o.isOverloaded = false :=
  World.forall_move (P := fun p : Thread R => ∀ o, p.place = .terminating o →
    o.isOverloaded = false) w t s' p' hplace (fun u _ => h.proposes u) u

theorem keeps (h : Paced q w) (hclock : w.shared.clock ≤ clock) (hs' : s'.clock = clock)
    (hsince : p'.since = clock) (hadmissions : s'.admissions = w.shared.admissions)
    (hkeeps : Keeps w.shared.desk.data s'.desk.data)
    (hduty : p'.duty.claim = none ∨ p'.duty.claim = (w.pc t).duty.claim)
    (hplace : ∀ o, p'.place = .terminating o → o.isOverloaded = false) :
    Paced q (w.move t s' p') := by
  have hclaim : ∀ u, ((w.move t s' p').pc u).duty.claim ≠ none →
      ((w.move t s' p').pc u).duty.claim = (w.pc u).duty.claim := by
    intro u hu
    by_cases hut : u = t
    · subst hut
      rw [World.move_pc_self] at hu ⊢
      rcases hduty with hnone | hsame
      · exact absurd hnone hu
      · exact hsame
    · rw [World.move_pc_of_ne _ _ _ _ hut]
  have hlater : ∀ u, (w.pc u).since ≤ ((w.move t s' p').pc u).since := by
    intro u
    by_cases hut : u = t
    · subst hut
      rw [World.move_pc_self, hsince]
      exact Nat.le_trans (h.past u) hclock
    · rw [World.move_pc_of_ne _ _ _ _ hut]
  refine ⟨?_, ?_, ?_, ?_, ?_, ?_, ?_⟩
  · exact h.past_move hclock hs' hsince
  · rw [World.move_shared, hadmissions]
    exact h.spaced
  · rw [World.move_shared, hadmissions, hkeeps.last]
    exact h.last
  · intro a ha
    rw [World.move_shared] at ha ⊢
    rw [hkeeps.last] at ha
    exact hs' ▸ Nat.le_trans (h.admitted a ha) hclock
  · intro hopen u stamp hstamp
    rw [World.move_shared] at hopen ⊢
    obtain ⟨hopen₀, hprocessing, hflight⟩ := hkeeps.claim hopen
    have hsome : ((w.move t s' p').pc u).duty.claim ≠ none := by
      rw [hstamp]
      exact Option.some_ne_none stamp
    obtain ⟨hclaimed, hempty, hbefore⟩ := h.claims hopen₀ u stamp ((hclaim u hsome).symm.trans hstamp)
    refine ⟨hprocessing.trans hclaimed, hflight hempty, fun a ha => ?_⟩
    rw [hkeeps.last] at ha
    exact Nat.le_trans (hbefore a ha) (hlater u)
  · intro hopen u v hu hv
    rw [World.move_shared] at hopen
    exact h.alone (hkeeps.claim hopen).1 u v (hclaim u hu ▸ hu) (hclaim v hv ▸ hv)
  · exact h.proposes_move hplace

theorem frees (h : Paced q w) (hclock : w.shared.clock ≤ clock) (hs' : s'.clock = clock)
    (hsince : p'.since = clock) (hfree : p'.duty.claim = none)
    (hheld : s'.desk.data.terminal = none →
      w.shared.desk.data.terminal = none ∧ (w.pc t).duty.claim ≠ none)
    (hbook : (s'.admissions = w.shared.admissions ∧
        s'.desk.data.lastAdmitted = w.shared.desk.data.lastAdmitted) ∨
      ∃ now, s'.admissions = w.shared.admissions ++ [now] ∧
        s'.desk.data.lastAdmitted = some now ∧ now ≤ clock ∧
        ∀ a, w.shared.desk.data.lastAdmitted = some a → a + q.minimumInterval ≤ now)
    (hplace : ∀ o, p'.place = .terminating o → o.isOverloaded = false) :
    Paced q (w.move t s' p') := by
  have hnobody : s'.desk.data.terminal = none → ∀ u, ((w.move t s' p').pc u).duty.claim = none := by
    intro hopen u
    by_cases hut : u = t
    · subst hut
      rw [World.move_pc_self]
      exact hfree
    · rw [World.move_pc_of_ne _ _ _ _ hut]
      by_contra hclaim
      exact hut (h.alone (hheld hopen).1 u t hclaim (hheld hopen).2)
  refine ⟨?_, ?_, ?_, ?_, ?_, ?_, ?_⟩
  · exact h.past_move hclock hs' hsince
  · rw [World.move_shared]
    rcases hbook with ⟨hadmissions, -⟩ | ⟨now, hadmissions, -, -, hspaced⟩
    · rw [hadmissions]
      exact h.spaced
    · rw [hadmissions, List.isChain_append]
      refine ⟨h.spaced, .singleton now, fun a ha b hb => ?_⟩
      obtain rfl : now = b := Option.some.inj hb
      rw [h.last] at ha
      exact hspaced a ha
  · rw [World.move_shared]
    rcases hbook with ⟨hadmissions, hlast⟩ | ⟨now, hadmissions, hlast, -⟩
    · rw [hadmissions, hlast]
      exact h.last
    · rw [hadmissions, hlast, List.getLast?_concat]
  · intro a ha
    rw [World.move_shared] at ha ⊢
    rcases hbook with ⟨-, hlast⟩ | ⟨now, -, hlast, hnow, -⟩
    · rw [hlast] at ha
      exact hs' ▸ Nat.le_trans (h.admitted a ha) hclock
    · rw [hlast] at ha
      obtain rfl := Option.some.inj ha
      exact hs' ▸ hnow
  · intro hopen u stamp hstamp
    rw [hnobody hopen u] at hstamp
    cases hstamp
  · intro hopen u v hu
    exact absurd (hnobody hopen u) hu
  · exact h.proposes_move hplace

theorem takes (h : Paced q w) (hclock : w.shared.clock ≤ clock) (hs' : s'.clock = clock)
    (hsince : p'.since = clock) (hadmissions : s'.admissions = w.shared.admissions)
    {stamp : FrameStamp} (hopen : w.shared.desk.data.terminal = none)
    (hfree : w.shared.desk.data.processing = none) (hempty : w.shared.desk.data.inFlight = .empty)
    (hdata : s'.desk.data = { w.shared.desk.data with processing := some stamp })
    (hduty : p'.duty = .claimed stamp)
    (hplace : ∀ o, p'.place = .terminating o → o.isOverloaded = false) :
    Paced q (w.move t s' p') := by
  have hnobody : ∀ u, (w.pc u).duty.claim = none := by
    intro u
    cases hclaim : (w.pc u).duty.claim with
    | none => rfl
    | some stamp =>
      have hclaimed := (h.claims hopen u stamp hclaim).1
      rw [hfree] at hclaimed
      cases hclaimed
  have honly : ∀ u stamp', ((w.move t s' p').pc u).duty.claim = some stamp' → u = t ∧ stamp' = stamp := by
    intro u stamp' hclaim
    by_cases hut : u = t
    · subst hut
      rw [World.move_pc_self, hduty] at hclaim
      exact ⟨rfl, (Option.some.inj hclaim).symm⟩
    · rw [World.move_pc_of_ne _ _ _ _ hut, hnobody u] at hclaim
      cases hclaim
  have hlast : s'.desk.data.lastAdmitted = w.shared.desk.data.lastAdmitted := by rw [hdata]
  refine ⟨?_, ?_, ?_, ?_, ?_, ?_, ?_⟩
  · exact h.past_move hclock hs' hsince
  · rw [World.move_shared, hadmissions]
    exact h.spaced
  · rw [World.move_shared, hadmissions, hlast]
    exact h.last
  · intro a ha
    rw [World.move_shared] at ha ⊢
    rw [hlast] at ha
    exact hs' ▸ Nat.le_trans (h.admitted a ha) hclock
  · intro _ u stamp' hclaim
    obtain ⟨rfl, rfl⟩ := honly u stamp' hclaim
    rw [World.move_shared, World.move_pc_self]
    refine ⟨by rw [hdata], by rw [hdata]; exact hempty, fun a ha => ?_⟩
    rw [hlast] at ha
    exact hsince ▸ Nat.le_trans (h.admitted a ha) hclock
  · intro _ u v hu hv
    obtain ⟨stamp₁, hu⟩ := Option.ne_none_iff_exists'.mp hu
    obtain ⟨stamp₂, hv⟩ := Option.ne_none_iff_exists'.mp hv
    rw [(honly u stamp₁ hu).1, (honly v stamp₂ hv).1]
  · exact h.proposes_move hplace

theorem query (h : Paced q w) (hclock : w.shared.clock ≤ clock) (hs' : s'.clock = clock)
    (hsince : p'.since = clock) {e : Event R} (hpermits : w.shared.permits (w.pc t) clock e = true)
    (hstep : perform q w.shared.desk (w.pc t).place e = some (s'.desk, p'.place))
    (hbook : s'.admissions = w.shared.admissions ++ w.shared.admitted q e)
    (hduty : p'.duty = w.shared.dutyAfter (w.pc t) e) : Paced q (w.move t s' p') := by
  have hplace := (perform_ends hpermits (h.proposes t) hstep).proposes
  by_cases hother : ofHolder e = false
  · refine h.keeps hclock hs' hsince ?_ (perform_keeps hstep hother) ?_ hplace
    · rw [hbook, admitted_other hother, List.append_nil]
    · rcases dutyAfter_other w.shared (w.pc t) hother with hsame | hfree
      · exact Or.inr (by rw [hduty, hsame])
      · exact Or.inl (by rw [hduty, hfree]; rfl)
  cases e with
  | claim stamp =>
    have hdata := perform_claim hstep
    have hadmissions : s'.admissions = w.shared.admissions := hbook.trans (List.append_nil _)
    by_cases htaken : (w.shared.desk.data.claim stamp).2 = true
    · obtain ⟨hopen, hfree⟩ := claim_free htaken
      obtain ⟨hclaimed, hempty⟩ := QueryData.claim_taken htaken
      exact h.takes hclock hs' hsince hadmissions hopen hfree hempty (hdata.trans hclaimed)
        (hduty.trans (if_pos htaken)) hplace
    · have hfree : p'.duty = .free := hduty.trans (if_neg htaken)
      refine h.keeps hclock hs' hsince hadmissions ?_ (Or.inl (by rw [hfree]; rfl)) hplace
      rw [hdata, claim_missed htaken]
      exact .refl _
  | releaseClaim stamp =>
    have hdata := perform_releaseClaim hstep
    refine h.frees hclock hs' hsince (by rw [hduty]; rfl) (fun hopen => ?_)
      (Or.inl ⟨hbook.trans (List.append_nil _), by rw [hdata, releaseClaim_lastAdmitted]⟩) hplace
    rw [hdata, QueryData.releaseClaim_terminal] at hopen
    simp only [TimedDesk.permits, Bool.or_eq_true, decide_eq_true_eq] at hpermits
    rcases hpermits with hclaim | hended
    · exact ⟨hopen, by rw [hclaim]; exact Option.some_ne_none stamp⟩
    · rw [hopen] at hended
      cases hended
  | failMapping stamp error interruption authority =>
    simp only [TimedDesk.permits, Bool.and_eq_true, decide_eq_true_eq] at hpermits
    have hclaim : (w.pc t).duty.claim ≠ none := by
      rw [hpermits.1]
      exact Option.some_ne_none stamp
    have hdata := perform_failMapping hstep
    refine h.frees hclock hs' hsince (by rw [hduty]; rfl) (fun hopen => ⟨?_, hclaim⟩)
      (Or.inl ⟨hbook.trans (List.append_nil _), ?_⟩) hplace
    · rcases hdata with hsame | hfailed
      · rwa [hsame] at hopen
      · by_contra hended
        obtain ⟨o, ho⟩ := Option.ne_none_iff_exists'.mp hended
        have hkept := (w.shared.desk.data.failMapping_commits stamp error).ended ho
        rw [hfailed, hkept] at hopen
        cases hopen
    · rcases hdata with hsame | hfailed
      · rw [hsame]
      · rw [hfailed, failMapping_lastAdmitted]
  | finishMapping mapped mapping decision now authority =>
    simp only [TimedDesk.permits, Bool.and_eq_true, decide_eq_true_eq] at hpermits
    obtain ⟨⟨hadmissible, hsamples⟩, -⟩ := hpermits
    have hclaim := Duty.claim_of_admissible hadmissible
    have hheld : (w.pc t).duty.claim ≠ none := by
      rw [hclaim]
      exact Option.some_ne_none _
    rcases perform_finishMapping hstep with ⟨hauthority, hdata⟩ | ⟨rfl, hdata⟩
    · refine h.frees hclock hs' hsince (by rw [hduty]; rfl)
        (fun hopen => ⟨by rwa [hdata] at hopen, hheld⟩) (Or.inl ⟨?_, by rw [hdata]⟩) hplace
      rw [hbook, admitted_authority hauthority, List.append_nil]
    · refine h.frees hclock hs' hsince (by rw [hduty]; rfl) (fun hopen => ⟨?_, hheld⟩) ?_ hplace
      · rwa [hdata, QueryData.finishMapping_terminal] at hopen
      · have hidle : w.shared.desk.data.terminal = none → w.shared.desk.data.inFlight = .empty :=
          fun hopen => (h.claims hopen t _ hclaim).2.1
        rcases finishMapping_rate q mapped mapping decision now hidle with
          ⟨⟨generation, hadmitted⟩, hopen, hallowed, hlast⟩ | ⟨hdeclined, hlast⟩
        · refine Or.inr ⟨now, ?_, by rw [hdata, hlast], hsamples.2, fun a ha => ?_⟩
          · rw [hbook, admitted_eq hadmitted]
          · refine rate_allows hallowed (fun a ha => ?_) ha
            exact Nat.le_trans ((h.claims hopen t _ hclaim).2.2 a ha) hsamples.1
        · refine Or.inl ⟨?_, by rw [hdata, hlast]⟩
          rw [hbook, admitted_declined hdeclined, List.append_nil]
  | _ => exact absurd rfl hother

theorem step (h : Paced q w) {o : Occurrence R}
    (hact : timedStep q deadline t w.shared (w.pc t) o = some (s', p')) :
    Paced q (w.move t s' p') := by
  obtain ⟨hclock, hs', hsince, hmoves⟩ := timedStep_moves hact
  generalize o.deed = deed at hmoves
  have halone : s'.desk = w.shared.desk ∧ s'.admissions = w.shared.admissions →
      (p'.duty.claim = none ∨ p'.duty.claim = (w.pc t).duty.claim) →
      (∀ o, p'.place = .terminating o → o.isOverloaded = false) → Paced q (w.move t s' p') := by
    intro halone hduty hplace
    refine h.keeps hclock hs' hsince halone.2 ?_ hduty hplace
    rw [halone.1]
    exact .refl _
  cases hmoves with
  | query e hpermits hstep hbook _ hduty =>
    exact h.query hclock hs' hsince hpermits hstep hbook hduty
  | cancels alone stands =>
    refine halone alone (Or.inr (by rw [stands.2])) ?_
    rw [stands.1]
    exact h.proposes t
  | finds now i alone found stands =>
    refine halone alone (Or.inl (by rw [stands.2]; rfl)) ?_
    rw [stands.1]
    exact terminating_plain (interruptionOutcome_plain i)
  | passes now alone samples clear stands =>
    refine halone alone (Or.inr (by rw [stands.2, Duty.claim_check])) ?_
    rw [stands.1]
    exact proposes_of_ne fun _ h => (by cases h)
  | calls candidate now alone samples stands =>
    refine halone alone (Or.inl (by rw [stands.2]; rfl)) ?_
    rw [stands.1]
    exact proposes_of_ne fun _ h => (by cases h)

end Paced

theorem timed_paced {w : TimedWorld τ R} (h : (timedSystem τ R q deadline).Reachable w) : Paced q w :=
  threads_invariant .start (fun _ _ _ _ _ _ hw hact => hw.step hact) h

/-! ### Where duties come from -/

/-- A step of the thread that finds no interruption at an instant, with the publication claimed. -/
def Checks (deadline : Option ℕ) (t : τ) (stamp : FrameStamp) (instant : ℕ)
    (x : TimedWorld τ R × (τ × Occurrence R)) : Prop :=
  x.2.1 = t ∧ x.2.2.deed = .check instant ∧ (x.1.pc t).duty.claim = some stamp ∧
    (x.1.pc t).Samples x.2.2.clock instant ∧
    interruptionAt x.1.shared.cancelled deadline instant = none

/-- A step of the thread that enters `expire_if_current` with a sample, and what interrupts it. -/
def Calls (deadline : Option ℕ) (t : τ) (candidate : CandidateSnapshot) (now : ℕ)
    (interruption : Option Interruption) (x : TimedWorld τ R × (τ × Occurrence R)) : Prop :=
  x.2.1 = t ∧ x.2.2.deed = .callExpire candidate now ∧ (x.1.pc t).Samples x.2.2.clock now ∧
    interruptionAt x.1.shared.cancelled deadline now = interruption

def Has (t : τ) (duty : Duty) (x : TimedWorld τ R × (τ × Occurrence R)) : Prop :=
  (x.1.pc t).duty = duty

omit [DecidableEq τ] in
theorem dutyAfter_cases (s : TimedDesk R) (p : Thread R) (e : Event R) :
    s.dutyAfter p e = p.duty ∨ s.dutyAfter p e = .free ∨ ∃ stamp, s.dutyAfter p e = .claimed stamp := by
  by_cases hother : ofHolder e = false
  · rcases dutyAfter_other s p hother with hsame | hfree
    · exact Or.inl hsame
    · exact Or.inr (Or.inl hfree)
  · cases e with
    | claim stamp =>
      unfold TimedDesk.dutyAfter
      dsimp only
      split
      · exact Or.inr (Or.inr ⟨stamp, rfl⟩)
      · exact Or.inr (Or.inl rfl)
    | releaseClaim | failMapping | finishMapping => exact Or.inr (Or.inl rfl)
    | _ => exact absurd rfl hother

section Duties

variable {s s' : TimedDesk R} {p p' : Thread R} {clock : ℕ} {deed : Deed R}

omit [DecidableEq τ] in
theorem Moves.checked (h : Moves q deadline s p clock s' p' deed) {stamp : FrameStamp} {instant : ℕ}
    (hduty : p'.duty = .checked stamp instant) : p.duty = .checked stamp instant ∨
      deed = .check instant ∧ p.duty.claim = some stamp ∧ p.Samples clock instant ∧
        interruptionAt s.cancelled deadline instant = none := by
  cases h with
  | query e _ _ _ _ duty =>
    rw [duty] at hduty
    rcases dutyAfter_cases s p e with hsame | hfree | ⟨stamp', hclaimed⟩
    · exact Or.inl (hsame.symm.trans hduty)
    · rw [hfree] at hduty
      cases hduty
    · rw [hclaimed] at hduty
      cases hduty
  | cancels alone stands => exact Or.inl (stands.2.symm.trans hduty)
  | finds now i alone found stands =>
    rw [stands.2] at hduty
    cases hduty
  | passes now alone samples clear stands =>
    rw [stands.2] at hduty
    refine Or.inr ?_
    cases hp : p.duty with
    | free =>
      rw [hp] at hduty
      cases hduty
    | expiring candidate now i =>
      rw [hp] at hduty
      cases hduty
    | claimed stamp' =>
      rw [hp] at hduty
      cases hduty
      exact ⟨rfl, rfl, samples, clear⟩
    | checked stamp' earlier =>
      rw [hp] at hduty
      cases hduty
      exact ⟨rfl, rfl, samples, clear⟩
  | calls candidate now alone samples stands =>
    rw [stands.2] at hduty
    cases hduty

omit [DecidableEq τ] in
theorem Moves.expiring (h : Moves q deadline s p clock s' p' deed) {candidate : CandidateSnapshot}
    {now : ℕ} {interruption : Option Interruption}
    (hduty : p'.duty = .expiring candidate now interruption) :
    p.duty = .expiring candidate now interruption ∨
      deed = .callExpire candidate now ∧ p.Samples clock now ∧
        interruptionAt s.cancelled deadline now = interruption := by
  cases h with
  | query e _ _ _ _ duty =>
    rw [duty] at hduty
    rcases dutyAfter_cases s p e with hsame | hfree | ⟨stamp', hclaimed⟩
    · exact Or.inl (hsame.symm.trans hduty)
    · rw [hfree] at hduty
      cases hduty
    · rw [hclaimed] at hduty
      cases hduty
  | cancels alone stands => exact Or.inl (stands.2.symm.trans hduty)
  | finds now i alone found stands =>
    rw [stands.2] at hduty
    cases hduty
  | passes now' alone samples clear stands =>
    rw [stands.2] at hduty
    refine Or.inl ?_
    cases hp : p.duty with
    | free =>
      rw [hp] at hduty
      cases hduty
    | expiring candidate' earlier i =>
      rw [hp] at hduty
      exact hduty
    | claimed stamp =>
      rw [hp] at hduty
      cases hduty
    | checked stamp earlier =>
      rw [hp] at hduty
      cases hduty
  | calls candidate' now' alone samples stands =>
    rw [stands.2] at hduty
    cases hduty
    exact Or.inr ⟨rfl, samples, rfl⟩

end Duties

/-- What the run says of the duties of its threads. -/
structure Attested (deadline : Option ℕ) (trail : List (TimedWorld τ R × (τ × Occurrence R)))
    (w : TimedWorld τ R) : Prop where
  checked : ∀ t stamp instant, (w.pc t).duty = .checked stamp instant → instant ≤ (w.pc t).since ∧
    Since trail (Checks deadline t stamp instant) (Has t (.checked stamp instant))
  expiring : ∀ t candidate now interruption, (w.pc t).duty = .expiring candidate now interruption →
    now ≤ (w.pc t).since ∧ Since trail (Calls deadline t candidate now interruption)
      (Has t (.expiring candidate now interruption))

theorem timed_attested {trail : List (TimedWorld τ R × (τ × Occurrence R))} {w : TimedWorld τ R}
    (h : (timedSystem τ R q deadline).Path (TimedWorld.start τ R) trail w) :
    Attested deadline trail w := by
  refine h.along (P := Attested deadline) ⟨fun t stamp instant h => (by cases h),
    fun t candidate now i h => (by cases h)⟩ fun trail w i w' hpath ih hstep => ?_
  obtain ⟨u, o⟩ := i
  obtain ⟨s', p', hact, rfl⟩ := hstep
  obtain ⟨hclock, -, hsince, hmoves⟩ := timedStep_moves hact
  have hlater : (w.pc u).since ≤ p'.since := by
    rw [hsince]
    exact Nat.le_trans ((timed_paced ⟨_, rfl, hpath.leads⟩).past u) hclock
  refine ⟨fun t stamp instant hduty => ?_, fun t candidate now i hduty => ?_⟩
  · by_cases htu : t = u
    · subst htu
      rw [World.move_pc_self] at hduty ⊢
      rcases hmoves.checked hduty with hbefore | ⟨hdeed, hclaim, hsamples, hclear⟩
      · obtain ⟨hle, hrun⟩ := ih.checked t stamp instant hbefore
        exact ⟨Nat.le_trans hle hlater, hrun.concat hbefore⟩
      · exact ⟨hsince ▸ hsamples.2, .last ⟨rfl, hdeed, hclaim, hsamples, hclear⟩⟩
    · rw [World.move_pc_of_ne _ _ _ _ htu] at hduty ⊢
      obtain ⟨hle, hrun⟩ := ih.checked t stamp instant hduty
      exact ⟨hle, hrun.concat hduty⟩
  · by_cases htu : t = u
    · subst htu
      rw [World.move_pc_self] at hduty ⊢
      rcases hmoves.expiring hduty with hbefore | ⟨hdeed, hsamples, hfound⟩
      · obtain ⟨hle, hrun⟩ := ih.expiring t candidate now i hbefore
        exact ⟨Nat.le_trans hle hlater, hrun.concat hbefore⟩
      · exact ⟨hsince ▸ hsamples.2, .last ⟨rfl, hdeed, hsamples, hfound⟩⟩
    · rw [World.move_pc_of_ne _ _ _ _ htu] at hduty ⊢
      obtain ⟨hle, hrun⟩ := ih.expiring t candidate now i hduty
      exact ⟨hle, hrun.concat hduty⟩

/-! ### The pace -/

section Step

variable {s s' : TimedDesk R} {p p' : Thread R} {clock : ℕ} {deed : Deed R}

omit [DecidableEq τ] in
/-- **A step that admits** is the section of `finish_mapping`, of a thread that has checked. -/
theorem Moves.admits (h : Moves q deadline s p clock s' p' deed)
    (hchanged : s'.admissions ≠ s.admissions) :
    ∃ mapped mapping decision now instant,
      deed = .query (.finishMapping mapped mapping decision now none) ∧
      s'.admissions = s.admissions ++ [now] ∧ p.Samples clock now ∧
      p.duty = .checked mapped.frame instant := by
  cases h with
  | query e permits step book =>
    by_cases hother : ofHolder e = false
    · exact absurd (by rw [book, admitted_other hother, List.append_nil]) hchanged
    cases e with
    | finishMapping mapped mapping decision now authority =>
      simp only [TimedDesk.permits, Bool.and_eq_true, decide_eq_true_eq] at permits
      obtain ⟨instant, hinstant⟩ := Duty.checked_of_admissible permits.1.1
      by_cases hauthority : authority = none
      · subst hauthority
        by_cases hadmitted : ∃ generation,
            (s.desk.data.finishMapping q mapped mapping decision now).2 = .admitted generation
        · obtain ⟨generation, hadmitted⟩ := hadmitted
          rw [admitted_eq hadmitted] at book
          exact ⟨mapped, mapping, decision, now, instant, rfl, book, permits.1.2, hinstant⟩
        · rw [admitted_declined (not_exists.mp hadmitted), List.append_nil] at book
          exact absurd book hchanged
      · rw [admitted_authority hauthority, List.append_nil] at book
        exact absurd book hchanged
    | claim | releaseClaim | failMapping => exact absurd (book.trans (List.append_nil _)) hchanged
    | _ => exact absurd rfl hother
  | cancels alone => exact absurd alone.2 hchanged
  | finds _ _ alone => exact absurd alone.2 hchanged
  | passes _ alone => exact absurd alone.2 hchanged
  | calls _ _ alone => exact absurd alone.2 hchanged

omit [DecidableEq τ] in
/-- **A step that overloads** is the section of `expire_if_current`, without an interruption. -/
theorem Moves.overloads (h : Moves q deadline s p clock s' p' deed)
    (hplace : ∀ o, p.place = .terminating o → o.isOverloaded = false)
    (hopen : s.desk.data.terminal = none)
    (ho : s'.desk.data.terminal = some (.overloaded .queueExpired)) :
    ∃ candidate now, deed = .query (.expireIfCurrent candidate now eligibleQueueExpiry none none) ∧
      p.duty = .expiring candidate now none ∧
      (s.desk.data.expireIfCurrent candidate now eligibleQueueExpiry).1.terminal ≠
        s.desk.data.terminal := by
  have hnew : s'.desk.data.terminal ≠ s.desk.data.terminal := by
    rw [ho, hopen]
    exact Option.some_ne_none _
  have hdesk : s'.desk ≠ s.desk := fun hsame => hnew (by rw [hsame])
  cases h with
  | query e permits step =>
    rcases (perform_ends permits hplace step).stores with
      hsame | ⟨o, hstored, hplain⟩ | ⟨candidate, now, rfl, hduty, hdata⟩
    · exact absurd hsame hnew
    · rw [ho] at hstored
      obtain rfl := Option.some.inj hstored
      cases hplain
    · rw [hdata] at hnew
      exact ⟨candidate, now, rfl, hduty, hnew⟩
  | cancels alone => exact absurd alone.1 hdesk
  | finds _ _ alone => exact absurd alone.1 hdesk
  | passes _ alone => exact absurd alone.1 hdesk
  | calls _ _ alone => exact absurd alone.1 hdesk

omit [DecidableEq τ] in
theorem Moves.interrupted (h : Moves q deadline s p clock s' p' deed) {now : ℕ} {i : Interruption}
    (hdeed : deed = .check now) (hfound : interruptionAt s.cancelled deadline now = some i) :
    p'.place = .terminating (interruptionOutcome i) ∧ p'.duty = .free ∧ s'.desk = s.desk := by
  cases h with
  | finds now' i' alone found stands =>
    cases hdeed
    obtain rfl := Option.some.inj (found.symm.trans hfound)
    exact ⟨stands.1, stands.2, alone.1⟩
  | passes now' alone samples clear =>
    cases hdeed
    rw [hfound] at clear
    cases clear
  | query | cancels | calls => cases hdeed

omit [DecidableEq τ] in
theorem Moves.unexpired (h : Moves q deadline s p clock s' p' deed) {candidate : CandidateSnapshot}
    {now expiry : ℕ} {i : Interruption} {authority : Option (TemplateTerminalOutcome R)}
    (hdeed : deed = .query (.expireIfCurrent candidate now expiry (some i) authority)) :
    p.duty = .expiring candidate now (some i) ∧
      p'.place = .terminating (interruptionOutcome i) ∧ s'.desk = s.desk := by
  cases h with
  | query e permits step =>
    cases hdeed
    simp only [TimedDesk.permits, Bool.and_eq_true, decide_eq_true_eq] at permits
    refine ⟨permits.1.1, ?_⟩
    cases hplace : p.place with
    | idle =>
      rw [hplace] at step
      have hstep : some (s.desk, Pc.terminating (interruptionOutcome i)) = some (s'.desk, p'.place) :=
        step
      rw [Option.some.injEq, Prod.mk.injEq] at hstep
      exact ⟨hstep.2.symm, hstep.1.symm⟩
    | terminating | completing | sourceEnd | committed =>
      rw [hplace] at step
      cases step
  | cancels | finds | passes | calls => cases hdeed

omit [DecidableEq τ] in
/-- **A termination ends the query**, by its outcome or by the authority that comes before it. -/
theorem Moves.terminates (h : Moves q deadline s p clock s' p' deed)
    {outcome : TemplateTerminalOutcome R} (hplace : p.place = .terminating outcome) {e : Event R}
    (hdeed : deed = .query e) (hopen : s.desk.data.terminal = none) :
    ∃ authority, e = .terminate authority ∧
      s'.desk.data.terminal = some (authority.getD outcome) := by
  cases h with
  | query e' permits step =>
    cases hdeed
    rw [hplace] at step
    cases e with
    | terminate authority =>
      refine ⟨authority, rfl, ?_⟩
      have hstep : some (s.desk.writeTerminal (s.desk.data.terminate (authority.getD outcome)).1
          s.desk.data.terminateEntry (s.desk.data.terminate (authority.getD outcome)).2,
          committedNext (s.desk.data.terminate (authority.getD outcome)).2) =
            some (s'.desk, p'.place) := step
      rw [Option.some.injEq, Prod.mk.injEq] at hstep
      rw [← hstep.1]
      show (s.desk.data.terminate (authority.getD outcome)).1.terminal = _
      unfold QueryData.terminate
      rw [hopen]
      rfl
    | _ => cases step
  | cancels | finds | passes | calls => cases hdeed

end Step

/-- **The pace of a query, and its end.**  Each admission is at least the rate after the one before.
An admission takes place with a sample of the clock that the thread reads while it holds its claim,
after it has found no interruption at an instant since the claim.  A publication expires at a sample
that is not before its rate allows it, more than thirty seconds after the later of that and the instant
since which it is eligible, and at which nothing interrupts the operation.  What a look finds
interrupted goes to a termination, and a termination ends the query by its outcome or the authority
that comes before it. -/
theorem template_pacing {trail : List (TimedWorld τ R × (τ × Occurrence R))} {w : TimedWorld τ R}
    (h : (timedSystem τ R q deadline).Path (TimedWorld.start τ R) trail w) :
    w.shared.admissions.IsChain (fun earlier later => earlier + q.minimumInterval ≤ later) ∧
    w.shared.admissions.getLast? = w.shared.desk.data.lastAdmitted ∧
    ∀ t o w', (timedSystem τ R q deadline).step w (t, o) w' →
      (w'.shared.admissions ≠ w.shared.admissions →
        ∃ mapped mapping decision now instant,
          o.deed = .query (.finishMapping mapped mapping decision now none) ∧
          w'.shared.admissions = w.shared.admissions ++ [now] ∧ instant ≤ now ∧ now ≤ o.clock ∧
          Since trail (Checks deadline t mapped.frame instant) (Has t (.checked mapped.frame instant))) ∧
      (w.shared.desk.data.terminal = none →
        w'.shared.desk.data.terminal = some (.overloaded .queueExpired) →
        ∃ candidate now pending,
          o.deed = .query (.expireIfCurrent candidate now eligibleQueueExpiry none none) ∧
          w.shared.desk.data.pending = some pending ∧ pending.stamp = candidate.stamp ∧
          (∀ eligible, w.shared.desk.data.rateEligibleAt = some eligible → eligible ≤ now) ∧
          max (w.shared.desk.data.rateEligibleAt.getD pending.eligibleSince) pending.eligibleSince
            + eligibleQueueExpiry < now ∧
          now ≤ o.clock ∧
          Since trail (Calls deadline t candidate now none) (Has t (.expiring candidate now none))) ∧
      (∀ now i, o.deed = .check now → interruptionAt w.shared.cancelled deadline now = some i →
        (w'.pc t).place = .terminating (interruptionOutcome i) ∧ (w'.pc t).duty = .free ∧
          w'.shared.desk = w.shared.desk) ∧
      (∀ candidate now expiry i authority,
        o.deed = .query (.expireIfCurrent candidate now expiry (some i) authority) →
        (w'.pc t).place = .terminating (interruptionOutcome i) ∧ w'.shared.desk = w.shared.desk ∧
          Since trail (Calls deadline t candidate now (some i))
            (Has t (.expiring candidate now (some i)))) ∧
      ∀ outcome e, (w.pc t).place = .terminating outcome → o.deed = .query e →
        w.shared.desk.data.terminal = none →
        ∃ authority, e = .terminate authority ∧
          w'.shared.desk.data.terminal = some (authority.getD outcome) := by
  have hpaced := timed_paced ⟨_, rfl, h.leads⟩
  have hattested := timed_attested h
  refine ⟨hpaced.spaced, hpaced.last, fun t o w' hstep => ?_⟩
  obtain ⟨s', p', hact, rfl⟩ := hstep
  obtain ⟨hclock, -, -, hmoves⟩ := timedStep_moves hact
  rw [World.move_shared, World.move_pc_self]
  refine ⟨fun hchanged => ?_, fun hopen ho => ?_, fun now i hdeed hfound =>
    hmoves.interrupted hdeed hfound, fun candidate now expiry i authority hdeed => ?_,
    fun outcome e hplace hdeed hopen => hmoves.terminates hplace hdeed hopen⟩
  · obtain ⟨mapped, mapping, decision, now, instant, hdeed, hbook, hsamples, hduty⟩ :=
      hmoves.admits hchanged
    obtain ⟨hinstant, hrun⟩ := hattested.checked t _ instant hduty
    exact ⟨mapped, mapping, decision, now, instant, hdeed, hbook,
      Nat.le_trans hinstant hsamples.1, hsamples.2, hrun⟩
  · obtain ⟨candidate, now, hdeed, hduty, hexpires⟩ := hmoves.overloads (hpaced.proposes t) hopen ho
    obtain ⟨pending, hpending, hstamp, hrate, hlong⟩ := expireIfCurrent_expires hexpires
    obtain ⟨hnow, hrun⟩ := hattested.expiring t candidate now none hduty
    have hpast := hpaced.past t
    exact ⟨candidate, now, pending, hdeed, hpending, hstamp, hrate, hlong,
      Nat.le_trans hnow (Nat.le_trans hpast hclock), hrun⟩
  · obtain ⟨hduty, hplace, hdesk⟩ := hmoves.unexpired hdeed
    exact ⟨hplace, hdesk, (hattested.expiring t candidate now (some i) hduty).2⟩

end Invariant

/-! ### Runs -/

def twoAdmissions : List (Bool × Occurrence Unit) :=
  [(false, ⟨0, .query (.enqueue (plainStamp 1) 0 false)⟩),
    (true, ⟨1, .query (.claim (plainStamp 1))⟩), (true, ⟨1, .check 1⟩),
    (true, ⟨2, .query (.finishMapping (plainMatch 1) none .analysisRequired 2 none)⟩),
    (true, ⟨3, .query (.callComplete 1 (plainMatch 1) none (.ok .empty) 3)⟩),
    (true, ⟨3, .query (.complete none none)⟩), (true, ⟨3, .query (.finishSourceEnd false)⟩),
    (false, ⟨5, .query (.enqueue (plainStamp 2) 5 false)⟩),
    (true, ⟨6, .query (.claim (plainStamp 2))⟩), (true, ⟨6, .check 6⟩),
    (true, ⟨7, .query (.finishMapping (plainMatch 2) none .analysisRequired 7 none)⟩),
    (true, ⟨12, .query (.claim (plainStamp 2))⟩), (true, ⟨12, .check 12⟩),
    (true, ⟨13, .query (.finishMapping (plainMatch 2) none .analysisRequired 13 none)⟩)]

def twice : TimedWorld Bool Unit :=
  (replay (timedStep (plainQuery 10) none) twoAdmissions (TimedWorld.start Bool Unit)).get rfl

/-- The second admission is the last one, and it has waited. -/
theorem template_pacing_sample :
    twice.shared.admissions = [2, 13] ∧ twice.shared.desk.data.lastAdmitted = some 13 := by
  have hleads : (timedSystem Bool Unit (plainQuery 10) none).Leads (TimedWorld.start Bool Unit) twice :=
    replay_leads (Option.some_get
      (x := replay (timedStep (plainQuery 10) none) twoAdmissions (TimedWorld.start Bool Unit)) rfl).symm
  obtain ⟨trail, hpath⟩ := hleads
  obtain ⟨-, hlast, -⟩ := template_pacing hpath
  have hadmissions : twice.shared.admissions = [2, 13] := rfl
  rw [hadmissions] at hlast
  exact ⟨hadmissions, hlast.symm⟩

/-- A worker claims a frame and finds no interruption at the instant 14; the deadline is 15. -/
def checkedEarly : List (Bool × Occurrence Unit) :=
  [(false, ⟨10, .query (.enqueue (plainStamp 1) 10 false)⟩),
    (true, ⟨12, .query (.claim (plainStamp 1))⟩), (true, ⟨14, .check 14⟩)]

def comparing : TimedWorld Bool Unit :=
  (replay (timedStep (plainQuery 0) (some 15)) checkedEarly (TimedWorld.start Bool Unit)).get rfl

/-- The worker enters `finish_mapping` with a sample past the deadline. -/
def pastDeadline : Occurrence Unit :=
  ⟨16, .query (.finishMapping (plainMatch 1) none .analysisRequired 16 none)⟩

def admittedLate : TimedWorld Bool Unit :=
  (replay (timedStep (plainQuery 0) (some 15)) [(true, pastDeadline)] comparing).get rfl

/-- **An interruption does not come before an admission.**  At the sample with which the worker admits
the deadline has passed. -/
theorem late_admission :
    (timedSystem Bool Unit (plainQuery 0) (some 15)).Reachable comparing ∧
    (timedSystem Bool Unit (plainQuery 0) (some 15)).step comparing (true, pastDeadline) admittedLate ∧
    comparing.shared.desk.data.terminal = none ∧ comparing.shared.admissions = [] ∧
    admittedLate.shared.admissions = [16] ∧
    interruptionAt comparing.shared.cancelled (some 15) 16 = some .deadlineExceeded := by
  refine ⟨replay_reachable (Option.some_get
    (x := replay (timedStep (plainQuery 0) (some 15)) checkedEarly (TimedWorld.start Bool Unit))
      rfl).symm, ?_, rfl, rfl, rfl, rfl⟩
  exact ⟨_, _, rfl, rfl⟩

end MadoPilot.Watch.TemplatePace
