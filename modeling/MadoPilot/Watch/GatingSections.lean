import MadoPilot.Watch.GatingSound

/-!
# The sections of a query that analyses one frame at a time

What `finish_mapping` and `complete` leave where the claimed frame is still pending and no other
analysis is in flight.
-/

namespace MadoPilot.Watch

open MadoPilot.Core MadoPilot.Lib

variable {R : Type}

namespace QueryData

variable {d : QueryData R} {q : QueryShared} {mapped : MappedMatch} {mapping : Option ℕ}
  {decision : ChangeDecision} {now : ℕ}

/-! ### Skipping and admitting -/

/-- The query's rate does not allow an analysis yet. -/
def Limited (d : QueryData R) (q : QueryShared) (now : ℕ) : Prop :=
  q.minimumInterval ≠ 0 ∧ d.lastAdmitted.any (now - · < q.minimumInterval) = true

structure Held (d : QueryData R) (stamp : FrameStamp) : Prop where
  terminal : d.terminal = none
  processing : d.processing = some stamp
  pending : d.pendingStamp = some stamp

def skipped (d : QueryData R) (mapped : MappedMatch) (mapping : Option ℕ) : QueryData R :=
  { d with
    effectiveRegion := some mapped.searched
    pending := none
    processing := none
    lastFrame := some mapped.frame
    previousMapping := mapping
    rateEligibleAt := none
    barrierDeferred := false
    work := d.work.increment .skippedChange }

def admitted (d : QueryData R) (mapped : MappedMatch) (now : ℕ) : QueryData R :=
  { d with
    effectiveRegion := some mapped.searched
    generation := d.generation + 1
    lastAdmitted := some now
    rateEligibleAt := none
    barrierDeferred := false
    pending := none
    processing := none
    inFlight := ⟨some (d.generation + 1, mapped.frame), none⟩ }

/-- The data after a deferral: the claimed frame is pending again. -/
structure Waiting (d d' : QueryData R) : Prop where
  terminal : d'.terminal = d.terminal
  source : d'.sourceFrame = d.sourceFrame
  pending : d'.pendingStamp = d.pendingStamp
  processing : d'.processing = none
  stability : d'.stability = d.stability
  generation : d'.generation = d.generation
  lastAdmitted : d'.lastAdmitted = d.lastAdmitted
  inFlight : d'.inFlight = d.inFlight

theorem finishMapping_unclaimed (h : d.processing ≠ some mapped.frame) :
    d.finishMapping q mapped mapping decision now = (d, .obsolete) := by
  unfold finishMapping
  simp [h]

theorem finishMapping_displaced (hopen : d.terminal = none)
    (hprocessing : d.processing = some mapped.frame) (hpending : d.pendingStamp ≠ some mapped.frame) :
    d.finishMapping q mapped mapping decision now = ({ d with processing := none }, .obsolete) := by
  unfold finishMapping
  simp [hopen, hprocessing, hpending]

theorem finishMapping_skips (h : d.Held mapped.frame) (hunchanged : decision = .unchanged)
    (hzero : d.stability.observations = 0) :
    d.finishMapping q mapped mapping decision now = (d.skipped mapped mapping, .skipped) := by
  unfold finishMapping skipped
  simp [h.terminal, h.processing, h.pending, hunchanged, hzero]

theorem finishMapping_unskipped (mapping : Option ℕ) (now : ℕ) (h : d.Held mapped.frame)
    (hskip : ¬ (decision = .unchanged ∧ d.stability.observations = 0))
    (hidle : d.inFlight = .empty) :
    (¬ d.Limited q now ∧ d.generation + 1 ≤ u64Max ∧
      d.finishMapping q mapped mapping decision now =
        (d.admitted mapped now, .admitted (d.generation + 1))) ∨
    (d.Limited q now ∨ u64Max < d.generation + 1) ∧
      (d.finishMapping q mapped mapping decision now).2 ∈
        [MappingEnd.deferred, .unrepresentable, .exhausted] := by
  have hclaimed : ¬ (d.terminal.isSome || decide (d.processing ≠ some mapped.frame)) = true := by
    simp [h.terminal, h.processing]
  unfold finishMapping
  simp only
  rw [if_neg hclaimed, if_neg (not_not.mpr h.pending), if_neg hskip]
  by_cases hlimited : q.minimumInterval ≠ 0 ∧
      d.lastAdmitted.any (now - · < q.minimumInterval) = true
  · refine Or.inr ⟨Or.inl hlimited, ?_⟩
    rw [if_pos hlimited]
    split <;> simp
  · rw [if_neg hlimited]
    by_cases hgeneration : d.generation + 1 ≤ u64Max
    · refine Or.inl ⟨hlimited, hgeneration, ?_⟩
      have hnext : checkedAdd u64Max d.generation 1 = some (d.generation + 1) :=
        checkedAdd_eq_some.mpr ⟨rfl, hgeneration⟩
      simp only [hnext, hidle, InFlight.insert_empty]
      rfl
    · refine Or.inr ⟨Or.inr (not_le.mp hgeneration), ?_⟩
      have hnext : checkedAdd u64Max d.generation 1 = none :=
        checkedAdd_eq_none.mpr (not_le.mp hgeneration)
      simp only [hnext]
      simp

theorem finishMapping_deferred (h : (d.finishMapping q mapped mapping decision now).2 = .deferred) :
    d.Waiting (d.finishMapping q mapped mapping decision now).1 := by
  unfold finishMapping at h ⊢
  simp only at h ⊢
  split at h
  · cases h
  rename_i hclaimed
  rw [if_neg hclaimed]
  split at h
  · cases h
  rename_i hpending
  rw [if_neg hpending]
  split at h
  · cases h
  rename_i hskip
  rw [if_neg hskip]
  split at h
  · rename_i hlimited
    rw [if_pos hlimited]
    split at h
    · cases h
    · refine ⟨rfl, rfl, ?_, rfl, rfl, rfl, rfl, rfl⟩
      simp only [pendingStamp, Option.map_map]
      rfl
  · split at h
    · cases h
    · split at h <;> cases h

/-! ### Completing -/

/-- The data after an analysis that found nothing yet to report. -/
def analysed (d : QueryData R) (mapped : MappedMatch) (mapping : Option ℕ) (s : StabilityState) :
    QueryData R :=
  { d with
    inFlight := .empty
    lastFrame := some mapped.frame
    effectiveRegion := some mapped.searched
    work := d.work.increment .completed
    previousMapping := mapping
    stability := s }

theorem complete_returned {generation : ℕ} {result : Except Error (ImmutableAnalysisResult R)}
    (h : d.inFlight = .empty) :
    (d.complete q generation mapped mapping result now none).1 = d := by
  unfold complete
  rw [h]
  rfl

section Lone

variable (hopen : d.terminal = none)
  (hflight : d.inFlight = ⟨some (d.generation, mapped.frame), none⟩)
include hopen hflight

theorem complete_error (error : Error) :
    (d.complete q d.generation mapped mapping (.error error) now none).1.terminal =
      some (.failed error) := by
  unfold complete
  simp [hflight, InFlight.remove, hopen, supersedeWith]

theorem complete_empty :
    (d.complete q d.generation mapped mapping (.ok .empty) now none).1 =
      d.analysed mapped mapping .none := by
  unfold complete
  simp [hflight, InFlight.remove, hopen, analysed, InFlight.empty]

theorem complete_stable {result : R} (hstable : stable q (d.observe now) = true) :
    (d.complete q d.generation mapped mapping (.ok (.shared result)) now none).1.terminal =
      some (.matched ⟨q.template, q.target, mapped.frame, result, (d.observe now).observations,
        (d.observe now).duration⟩) := by
  unfold complete
  unfold observe at hstable ⊢
  simp [hflight, InFlight.remove, hopen, supersedeWith, hstable]

theorem complete_unstable {result : R} (hstable : ¬ stable q (d.observe now) = true) :
    (d.complete q d.generation mapped mapping (.ok (.shared result)) now none).1 =
      d.analysed mapped mapping (d.observe now) := by
  unfold complete
  unfold observe at hstable ⊢
  simp [hflight, InFlight.remove, hopen, analysed, hstable, InFlight.empty]

end Lone

theorem observe_ne_zero (d : QueryData R) (now : ℕ) : (d.observe now).observations ≠ 0 := by
  have hmax : 0 < u32Max := by decide
  unfold observe saturatingAdd
  dsimp only
  omega

end QueryData

end MadoPilot.Watch
