import MadoPilot.Watch.GatingSections

/-!
# Gating a template query is transparent

The same events happen to two runs of one query, one that compares pixels and one that analyses every
frame it claims.

* `Abreast` : what the two runs have in common while the query is open, `Flight` what their analyses
  have in common: where the one skipped, the other analyses a frame in which nothing is found;
* `gating_alike` : the two runs end alike.
-/

namespace MadoPilot.Watch

open MadoPilot.Core MadoPilot.Lib MadoPilot.Capture

variable {R : Type}

section Law

variable (F : Frames) (backend : CpuMapping.Content → Except Error (ImmutableAnalysisResult R))
  (q : QueryShared)

/-! ### The relation -/

structure Flying (g : Gate R) (m : MappedFrame) : Prop where
  inFlight : g.data.inFlight = ⟨some (g.data.generation, F.stamp m.frame), none⟩
  analysing : ∃ mapping, g.analysing = some ⟨g.data.generation, ⟨m, mapping⟩⟩

/-- The analyses of two runs: none, that of one frame in both, or that of a frame that the first run
skipped. -/
inductive Flight (e a : Gate R) : Prop
  | idle (he : e.data.inFlight = .empty) (ha : a.data.inFlight = .empty)
  | both (m : MappedFrame) (he : Flying F e m) (ha : Flying F a m)
  | skipped (m : MappedFrame) (he : e.data.inFlight = .empty) (ha : Flying F a m)
      (hempty : findMapped F backend m = .ok .empty) (hnone : e.data.stability = .none)

/-- What two runs of one query have in common while it is open. -/
structure Abreast (e a : Gate R) : Prop where
  source : e.data.sourceFrame = a.data.sourceFrame
  pending : e.data.pendingStamp = a.data.pendingStamp
  processing : e.data.processing = a.data.processing
  stability : e.data.stability = a.data.stability
  quiet : e.data.stability.observations = 0 → e.data.stability = .none
  generation : e.data.generation ≤ a.data.generation
  admitted : ∀ t, e.data.lastAdmitted = some t →
    ∃ t', a.data.lastAdmitted = some t' ∧ (q.minimumInterval ≠ 0 → t ≤ t')
  claimed : e.claimed.map ClaimedFrame.frame = a.claimed.map ClaimedFrame.frame
  decided : e.decision.isSome = a.decision.isSome
  always : a.decision ≠ some .unchanged
  idle : e.data.processing ≠ none → e.data.inFlight = .empty ∧ a.data.inFlight = .empty
  flight : Flight F backend e a

/-- Two runs of one query are alike: both are open, or both have ended in the same way. -/
structure Alike (e a : Gate R) : Prop where
  terminal : e.data.terminal = a.data.terminal
  abreast : e.data.terminal = none → Abreast F backend q e a

variable {F backend q} {e a : Gate R}

theorem Alike.new : Alike F backend q (Gate.new : Gate R) Gate.new := by
  refine ⟨rfl, fun _ => ⟨rfl, rfl, rfl, rfl, fun _ => rfl, le_refl _, fun t ht => ?_, rfl, rfl, ?_,
    fun h => absurd rfl h, .idle rfl rfl⟩⟩
  · cases ht
  · exact fun h => by cases h

theorem Alike.ended {o : TemplateTerminalOutcome R} (he : e.data.terminal = some o)
    (ha : a.data.terminal = some o) : Alike F backend q e a := by
  refine ⟨he.trans ha.symm, fun hnone => ?_⟩
  rw [he] at hnone
  cases hnone

theorem Alike.opened (he : e.data.terminal = none) (ha : a.data.terminal = none)
    (h : Abreast F backend q e a) : Alike F backend q e a :=
  ⟨he.trans ha.symm, fun _ => h⟩

/-! ### Ended queries -/

variable {policy : ChangeDetectionPolicy}

theorem QueryData.Commits.ended {d d' : QueryData R} {committed : Bool} {o : TemplateTerminalOutcome R}
    (h : d.Commits d' committed) (ho : d.terminal = some o) : d'.terminal = some o := by
  unfold QueryData.Commits at h
  split_ifs at h
  · rw [ho] at h
    cases h.1
  · rw [h]
    exact ho

theorem Gate.step_ended {g : Gate R} {o : TemplateTerminalOutcome R} (h : g.data.terminal = some o)
    (event : GateEvent R) : (g.step F backend q policy event).data.terminal = some o := by
  unfold Gate.step
  cases event with
  | publish stamp now barrier => exact (g.data.enqueue_terminal q stamp now barrier).trans h
  | claim stamp =>
    dsimp only
    split_ifs
    · exact (g.data.claim_terminal stamp).trans h
    · exact h
  | map m shared closed =>
    dsimp only
    split_ifs <;> exact h
  | decide alive => exact h
  | finish now =>
    dsimp only
    split
    · rename_i c decision _ _
      have hkept := (g.data.finishMapping_terminal q (c.frame.matched F) c.mapping decision now).trans h
      unfold Gate.finished
      dsimp only
      split
      · exact hkept
      · exact (QueryData.terminate_commits _ _).ended hkept
      · exact (QueryData.terminate_commits _ _).ended hkept
      · exact hkept
      · exact hkept
      · exact hkept
    · exact h
  | complete now =>
    dsimp only
    split
    · exact h
    · exact (QueryData.complete_commits _ _ _ _ _ _ _ _).ended h
  | failMapping stamp error => exact (g.data.failMapping_commits stamp error).ended h
  | releaseClaim stamp => exact (g.data.releaseClaim_terminal stamp).trans h
  | remember i region descriptor => exact h
  | clear => exact h
  | terminate outcome => exact (g.data.terminate_commits outcome).ended h

theorem Gate.finished_deferred {g : Gate R} (c : ClaimedFrame) {r : QueryData R × MappingEnd}
    (h : r.2 = .deferred) :
    g.finished c r = { g with data := r.1, claimed := none, decision := none } := by
  unfold Gate.finished
  rw [h]

/-! ### Events that both runs take in one way -/

namespace QueryData

theorem enqueue_lastAdmitted (d : QueryData R) (q : QueryShared) (stamp : FrameStamp) (now : ℕ)
    (barrier : Bool) : (d.enqueue q stamp now barrier).lastAdmitted = d.lastAdmitted := by
  have hbarrier : ∀ d : QueryData R, (d.applyMappingBarrier q).1.lastAdmitted = d.lastAdmitted := by
    intro d
    unfold applyMappingBarrier
    simp only
    split
    · rfl
    split
    · rfl
    split
    · rfl
    split
    · rfl
    split <;> rfl
  unfold enqueue
  split
  · simp only
    split
    · exact hbarrier _
    · rfl
  · rfl

theorem claim_taken {d : QueryData R} {stamp : FrameStamp} (h : (d.claim stamp).2 = true) :
    (d.claim stamp).1 = { d with processing := some stamp } ∧ d.inFlight = .empty := by
  unfold claim at h ⊢
  split at h
  · cases h
  · rename_i hguard
    simp only [Bool.or_eq_true, not_or, Bool.not_eq_true] at hguard
    rw [if_neg (by simp [hguard])]
    split at h
    · cases h
    · rename_i pending hpending
      split at h
      · cases h
      · rename_i hsame
        have hidle : d.inFlight = .empty := by
          have hcapacity := hguard.2
          unfold analysisCapacityReached at hcapacity
          simp only [Bool.or_eq_false_iff, Option.isSome_eq_false_iff, Option.isNone_iff_eq_none]
            at hcapacity
          cases hflight : d.inFlight with
          | mk first second =>
            rw [hflight] at hcapacity
            obtain ⟨rfl, rfl⟩ : first = none ∧ second = none := hcapacity
            rfl
        refine ⟨?_, hidle⟩
        simp only [hpending, if_neg hsame]

/-- A section that leaves the generation and the last admission alone. -/
structure Steady (d d' : QueryData R) : Prop where
  generation : d'.generation = d.generation
  lastAdmitted : d'.lastAdmitted = d.lastAdmitted

end QueryData

namespace Abreast

theorem update (h : Abreast F backend q e a) {d d' : QueryData R}
    (hsource : d.sourceFrame = d'.sourceFrame) (hpending : d.pendingStamp = d'.pendingStamp)
    (hprocessing : d.processing = d'.processing) (hstability : d.stability = d'.stability)
    (hquiet : d.stability.observations = 0 → d.stability = .none) (he : e.data.Steady d)
    (ha : a.data.Steady d') (hidle : d.processing ≠ none → d.inFlight = .empty ∧ d'.inFlight = .empty)
    (hflight : Flight F backend { e with data := d } { a with data := d' }) :
    Abreast F backend q { e with data := d } { a with data := d' } := by
  refine ⟨hsource, hpending, hprocessing, hstability, hquiet, ?_, ?_, h.claimed, h.decided, h.always,
    hidle, hflight⟩
  · show d.generation ≤ d'.generation
    rw [he.generation, ha.generation]
    exact h.generation
  · show ∀ t, d.lastAdmitted = some t → _
    rw [he.lastAdmitted]
    intro t ht
    obtain ⟨t', ht', hle⟩ := h.admitted t ht
    exact ⟨t', ha.lastAdmitted.trans ht', hle⟩

theorem flight_congr (h : Flight F backend e a) {e' a' : Gate R}
    (he : e'.data.inFlight = e.data.inFlight) (ha : a'.data.inFlight = a.data.inFlight)
    (hegeneration : e'.data.generation = e.data.generation)
    (hageneration : a'.data.generation = a.data.generation)
    (heanalysing : e'.analysing = e.analysing) (haanalysing : a'.analysing = a.analysing)
    (hstability : e'.data.stability = e.data.stability) : Flight F backend e' a' := by
  have hflying : ∀ {g g' : Gate R} {m : MappedFrame}, g'.data.inFlight = g.data.inFlight →
      g'.data.generation = g.data.generation → g'.analysing = g.analysing →
      Flying F g m → Flying F g' m := by
    intro g g' m hin hgeneration hanalysing hg
    obtain ⟨hflight, mapping, hadmitted⟩ := hg
    rw [← hgeneration] at hflight hadmitted
    exact ⟨hin.trans hflight, mapping, hanalysing.trans hadmitted⟩
  cases h with
  | idle hidle hidle' => exact .idle (he.trans hidle) (ha.trans hidle')
  | both m hboth hboth' =>
    exact .both m (hflying he hegeneration heanalysing hboth)
      (hflying ha hageneration haanalysing hboth')
  | skipped m hidle hflight hempty hnone =>
    exact .skipped m (he.trans hidle) (hflying ha hageneration haanalysing hflight) hempty
      (hstability.trans hnone)

theorem accepts_eq (h : Abreast F backend q e a) (hterminal : e.data.terminal = a.data.terminal)
    (stamp : FrameStamp) : e.data.accepts q stamp = a.data.accepts q stamp := by
  unfold QueryData.accepts
  rw [hterminal, h.source]

theorem incompatible_eq (h : Abreast F backend q e a) (stamp : FrameStamp) :
    e.data.incompatible stamp = a.data.incompatible stamp := by
  unfold QueryData.incompatible
  rw [h.source]

theorem publish (h : Abreast F backend q e a) (hterminal : e.data.terminal = a.data.terminal)
    (stamp : FrameStamp) (now : ℕ) (barrier : Bool) :
    Abreast F backend q { e with data := e.data.enqueue q stamp now barrier }
      { a with data := a.data.enqueue q stamp now barrier } := by
  have hacc := h.accepts_eq hterminal stamp
  by_cases htaken : e.data.accepts q stamp = true
  · have htaken' : a.data.accepts q stamp = true := hacc ▸ htaken
    have hslots := e.data.enqueue_slots q htaken now barrier
    have hslots' := a.data.enqueue_slots q htaken' now barrier
    have hstability := e.data.enqueue_stability q htaken now barrier
    have hstability' := a.data.enqueue_stability q htaken' now barrier
    rw [← h.incompatible_eq stamp] at hslots' hstability'
    have hgeneration : (e.data.enqueue q stamp now barrier).generation = e.data.generation :=
      congrArg Slots.generation hslots
    have hgeneration' : (a.data.enqueue q stamp now barrier).generation = a.data.generation :=
      congrArg Slots.generation hslots'
    have hinFlight : (e.data.enqueue q stamp now barrier).inFlight =
        if e.data.incompatible stamp then .empty else e.data.inFlight := congrArg Slots.inFlight hslots
    have hinFlight' : (a.data.enqueue q stamp now barrier).inFlight =
        if e.data.incompatible stamp then .empty else a.data.inFlight := congrArg Slots.inFlight hslots'
    have hprocessing : (e.data.enqueue q stamp now barrier).processing = e.data.processing :=
      congrArg Slots.processing hslots
    have hprocessing' : (a.data.enqueue q stamp now barrier).processing = a.data.processing :=
      congrArg Slots.processing hslots'
    refine h.update ?_ ?_ ?_ ?_ ?_ ⟨hgeneration, QueryData.enqueue_lastAdmitted ..⟩
      ⟨hgeneration', QueryData.enqueue_lastAdmitted ..⟩ ?_ ?_
    · exact (congrArg Slots.source hslots).trans (congrArg Slots.source hslots').symm
    · exact (congrArg Slots.pending hslots).trans (congrArg Slots.pending hslots').symm
    · exact (hprocessing.trans h.processing).trans hprocessing'.symm
    · rw [hstability, hstability', h.stability]
    · rw [hstability]
      split_ifs
      · exact fun _ => rfl
      · exact h.quiet
    · rw [hprocessing]
      intro hclaimed
      obtain ⟨hidle, hidle'⟩ := h.idle hclaimed
      rw [hinFlight, hinFlight', hidle, hidle']
      exact ⟨ite_self _, ite_self _⟩
    · by_cases hincompatible : e.data.incompatible stamp = true
      · rw [if_pos hincompatible] at hinFlight hinFlight'
        exact .idle hinFlight hinFlight'
      · rw [if_neg hincompatible] at hinFlight hinFlight' hstability
        exact flight_congr h.flight hinFlight hinFlight' hgeneration hgeneration' rfl rfl hstability
  · have hsame : e.data.enqueue q stamp now barrier = e.data := by
      unfold QueryData.enqueue
      rw [if_neg htaken]
    have hsame' : a.data.enqueue q stamp now barrier = a.data := by
      unfold QueryData.enqueue
      rw [if_neg (hacc ▸ htaken)]
    rw [hsame, hsame']
    exact h

theorem claim (h : Abreast F backend q e a) {stamp : FrameStamp}
    (hclaimed : (e.data.claim stamp).2 = true) (hclaimed' : (a.data.claim stamp).2 = true) :
    Abreast F backend q
      { e with data := (e.data.claim stamp).1, claimed := none, decision := none }
      { a with data := (a.data.claim stamp).1, claimed := none, decision := none } := by
  obtain ⟨hdata, hidle⟩ := QueryData.claim_taken hclaimed
  obtain ⟨hdata', hidle'⟩ := QueryData.claim_taken hclaimed'
  rw [hdata, hdata']
  exact ⟨h.source, h.pending, rfl, h.stability, h.quiet, h.generation, h.admitted, rfl, rfl,
    fun hd => (by cases hd), fun _ => ⟨hidle, hidle'⟩, .idle hidle hidle'⟩

theorem unclaimed (h : Abreast F backend q e a) :
    Abreast F backend q { e with claimed := none, decision := none }
      { a with claimed := none, decision := none } := by
  refine ⟨h.source, h.pending, h.processing, h.stability, h.quiet, h.generation, h.admitted, rfl, rfl,
    fun hd => (by cases hd), h.idle, ?_⟩
  exact flight_congr h.flight rfl rfl rfl rfl rfl rfl rfl

theorem limited (h : Abreast F backend q e a) {now : ℕ} (hlimited : e.data.Limited q now) :
    a.data.Limited q now := by
  obtain ⟨hinterval, hrecent⟩ := hlimited
  obtain ⟨t, ht, hlt⟩ := (Option.any_eq_true _ _).mp hrecent
  obtain ⟨t', ht', hle⟩ := h.admitted t ht
  have hle' := hle hinterval
  have hlt' : now - t < q.minimumInterval := by simpa using hlt
  refine ⟨hinterval, (Option.any_eq_true _ _).mpr ⟨t', ht', ?_⟩⟩
  have hsooner : now - t' < q.minimumInterval := by omega
  simpa using hsooner

theorem admitted_now (h : Abreast F backend q e a) {now : ℕ} (hfree : ¬ a.data.Limited q now) {t : ℕ}
    (ht : e.data.lastAdmitted = some t) : q.minimumInterval ≠ 0 → t ≤ now := by
  intro hinterval
  obtain ⟨t', ht', hle⟩ := h.admitted t ht
  have hle' := hle hinterval
  have hwaited : ¬ now - t' < q.minimumInterval := by
    intro hlt
    refine hfree ⟨hinterval, (Option.any_eq_true _ _).mpr ⟨t', ht', ?_⟩⟩
    simpa using hlt
  omega

theorem skip (h : Abreast F backend q e a) {c c' : ClaimedFrame} (hframe : c.frame = c'.frame)
    {now : ℕ} (hzero : e.data.stability.observations = 0)
    (hempty : findMapped F backend c.frame = .ok .empty)
    (hidle : e.data.inFlight = .empty) (hfree : ¬ a.data.Limited q now) :
    Abreast F backend q
      { e with
        data := e.data.skipped (c.frame.matched F) c.mapping
        claimed := none
        decision := none }
      { a with
        data := a.data.admitted (c'.frame.matched F) now
        claimed := none
        decision := none
        analysing := some ⟨a.data.generation + 1, c'⟩ } := by
  refine ⟨h.source, rfl, rfl, h.stability, h.quiet, ?_, fun t ht => ?_, rfl, rfl,
    fun hd => (by cases hd), fun hclaimed => absurd rfl hclaimed, ?_⟩
  · exact h.generation.trans (Nat.le_succ _)
  · exact ⟨now, rfl, h.admitted_now hfree ht⟩
  · refine .skipped c'.frame hidle ⟨rfl, c'.mapping, rfl⟩ ?_ (h.quiet hzero)
    rw [← hframe]
    exact hempty

theorem claiming (h : Abreast F backend q e a) {c c' : ClaimedFrame} (hframe : c.frame = c'.frame)
    (now : ℕ) :
    Abreast F backend q
      { e with
        data := e.data.admitted (c.frame.matched F) now
        claimed := none
        decision := none
        analysing := some ⟨e.data.generation + 1, c⟩ }
      { a with
        data := a.data.admitted (c'.frame.matched F) now
        claimed := none
        decision := none
        analysing := some ⟨a.data.generation + 1, c'⟩ } := by
  refine ⟨h.source, rfl, rfl, h.stability, h.quiet, ?_, fun t ht => ?_, rfl, rfl,
    fun hd => (by cases hd), fun hclaimed => absurd rfl hclaimed, ?_⟩
  · exact Nat.succ_le_succ h.generation
  · obtain rfl : now = t := Option.some.inj ht
    exact ⟨now, rfl, fun _ => le_refl _⟩
  · refine .both c.frame ⟨rfl, c.mapping, rfl⟩ ⟨?_, c'.mapping, ?_⟩
    · rw [hframe]
      rfl
    · rw [hframe]
      rfl

theorem deferred (h : Abreast F backend q e a) (hopen : e.data.terminal = none)
    (hopen' : a.data.terminal = none) {d d' : QueryData R} (he : e.data.Waiting d)
    (ha : a.data.Waiting d') :
    Alike F backend q { e with data := d, claimed := none, decision := none }
      { a with data := d', claimed := none, decision := none } := by
  have hleft : Abreast F backend q { e with data := d } { a with data := d' } := by
    refine h.update ?_ ?_ ?_ ?_ ?_ ⟨he.generation, he.lastAdmitted⟩ ⟨ha.generation, ha.lastAdmitted⟩
      ?_ ?_
    · rw [he.source, ha.source, h.source]
    · rw [he.pending, ha.pending, h.pending]
    · rw [he.processing, ha.processing]
    · rw [he.stability, ha.stability, h.stability]
    · rw [he.stability]
      exact h.quiet
    · intro hclaimed
      exact absurd he.processing hclaimed
    · exact flight_congr h.flight he.inFlight ha.inFlight he.generation ha.generation rfl rfl
        he.stability
  exact .opened (he.terminal.trans hopen) (ha.terminal.trans hopen') hleft.unclaimed

theorem finish (h : Abreast F backend q e a) (hopen : e.data.terminal = none)
    (hopen' : a.data.terminal = none) {c c' : ClaimedFrame} (hframe : c.frame = c'.frame)
    {decision : ChangeDecision} {now : ℕ}
    (hempty : decision = .unchanged → findMapped F backend c.frame = .ok .empty)
    (hlasts : (a.data.finishMapping q (c'.frame.matched F) c'.mapping .analysisRequired now).2 ∉
      [MappingEnd.unrepresentable, .exhausted])
    (hdeferred : (a.data.finishMapping q (c'.frame.matched F) c'.mapping .analysisRequired now).2 =
        .deferred →
      (e.data.finishMapping q (c.frame.matched F) c.mapping decision now).2 = .deferred) :
    Alike F backend q
      (e.finished c (e.data.finishMapping q (c.frame.matched F) c.mapping decision now))
      (a.finished c' (a.data.finishMapping q (c'.frame.matched F) c'.mapping .analysisRequired now)) := by
  by_cases hprocessing : e.data.processing = some (F.stamp c.frame.frame)
  · have hprocessing' : a.data.processing = some (F.stamp c'.frame.frame) := by
      rw [← h.processing, ← hframe]
      exact hprocessing
    by_cases hpending : e.data.pendingStamp = some (F.stamp c.frame.frame)
    · have hpending' : a.data.pendingStamp = some (F.stamp c'.frame.frame) := by
        rw [← h.pending, ← hframe]
        exact hpending
      have hheld : e.data.Held (c.frame.matched F).frame := ⟨hopen, hprocessing, hpending⟩
      have hheld' : a.data.Held (c'.frame.matched F).frame := ⟨hopen', hprocessing', hpending'⟩
      obtain ⟨hidle, hidle'⟩ := h.idle (by rw [hprocessing]; exact Option.some_ne_none _)
      have hrequired : ¬ (ChangeDecision.analysisRequired = .unchanged ∧
          a.data.stability.observations = 0) := fun hd => by cases hd.1
      rcases QueryData.finishMapping_unskipped c'.mapping now hheld' hrequired hidle' with
        ⟨hfree, hgeneration, hadmitted⟩ | ⟨-, hrefused⟩
      · -- the other run admits the frame
        rw [hadmitted]
        by_cases hskip : decision = .unchanged ∧ e.data.stability.observations = 0
        · rw [QueryData.finishMapping_skips hheld hskip.1 hskip.2]
          exact .opened hopen hopen' (h.skip hframe hskip.2 (hempty hskip.1) hidle hfree)
        · rcases QueryData.finishMapping_unskipped (q := q) c.mapping now hheld hskip hidle with
            ⟨-, -, hboth⟩ | ⟨hrefused, -⟩
          · rw [hboth]
            exact .opened hopen hopen' (h.claiming hframe now)
          · have hle := h.generation
            rcases hrefused with hlimited | hexhausted
            · exact absurd (h.limited hlimited) hfree
            · omega
      · have hlimited' : (a.data.finishMapping q (c'.frame.matched F) c'.mapping .analysisRequired
            now).2 = .deferred := by
          rcases List.mem_cons.mp hrefused with hdeferred' | hlast
          · exact hdeferred'
          · exact absurd hlast hlasts
        have hlimited := hdeferred hlimited'
        rw [Gate.finished_deferred c hlimited, Gate.finished_deferred c' hlimited']
        exact h.deferred hopen hopen' (QueryData.finishMapping_deferred hlimited)
          (QueryData.finishMapping_deferred hlimited')
    · have hpending' : a.data.pendingStamp ≠ some (F.stamp c'.frame.frame) := by
        rw [← h.pending, ← hframe]
        exact hpending
      rw [QueryData.finishMapping_displaced hopen hprocessing hpending,
        QueryData.finishMapping_displaced hopen' hprocessing' hpending']
      have hleft : Abreast F backend q { e with data := { e.data with processing := none } }
          { a with data := { a.data with processing := none } } :=
        h.update h.source h.pending rfl h.stability h.quiet ⟨rfl, rfl⟩ ⟨rfl, rfl⟩
          (fun hclaimed => absurd rfl hclaimed) (flight_congr h.flight rfl rfl rfl rfl rfl rfl rfl)
      exact .opened hopen hopen' hleft.unclaimed
  · have hprocessing' : a.data.processing ≠ some (F.stamp c'.frame.frame) := by
      rw [← h.processing, ← hframe]
      exact hprocessing
    rw [QueryData.finishMapping_unclaimed hprocessing, QueryData.finishMapping_unclaimed hprocessing']
    exact .opened hopen hopen' h.unclaimed

theorem completed (h : Abreast F backend q e a) (hopen : e.data.terminal = none)
    (hopen' : a.data.terminal = none) {m : MappedFrame} (he : Flying F e m) (ha : Flying F a m)
    (mapping mapping' : Option ℕ) (now : ℕ) :
    Alike F backend q
      { e with
        data := (e.data.complete q e.data.generation (m.matched F) mapping
          (findMapped F backend m) now none).1
        analysing := none }
      { a with
        data := (a.data.complete q a.data.generation (m.matched F) mapping'
          (findMapped F backend m) now none).1
        analysing := none } := by
  have hobserve : e.data.observe now = a.data.observe now := by
    unfold QueryData.observe
    rw [h.stability]
  -- an analysis that leaves the query open
  have hleft : ∀ s : StabilityState, (s.observations = 0 → s = .none) →
      Alike F backend q
        { e with data := e.data.analysed (m.matched F) mapping s, analysing := none }
        { a with data := a.data.analysed (m.matched F) mapping' s, analysing := none } := by
    intro s hquiet
    refine .opened hopen hopen' ⟨h.source, h.pending, h.processing, rfl, hquiet, h.generation,
      h.admitted, h.claimed, h.decided, h.always, fun _ => ⟨rfl, rfl⟩, .idle rfl rfl⟩
  cases hresult : findMapped F backend m with
  | error error =>
    exact .ended (QueryData.complete_error hopen he.inFlight error)
      (QueryData.complete_error hopen' ha.inFlight error)
  | ok result =>
    cases result with
    | empty =>
      have hdone : (e.data.complete q e.data.generation (m.matched F) mapping (.ok .empty) now
          none).1 = e.data.analysed (m.matched F) mapping .none :=
        QueryData.complete_empty hopen he.inFlight
      have hdone' : (a.data.complete q a.data.generation (m.matched F) mapping' (.ok .empty) now
          none).1 = a.data.analysed (m.matched F) mapping' .none :=
        QueryData.complete_empty hopen' ha.inFlight
      rw [hdone, hdone']
      exact hleft .none fun _ => rfl
    | shared result =>
      by_cases hstable : QueryData.stable q (e.data.observe now) = true
      · have hstable' : QueryData.stable q (a.data.observe now) = true := hobserve ▸ hstable
        have hmatched : (a.data.complete q a.data.generation (m.matched F) mapping'
            (.ok (.shared result)) now none).1.terminal = _ :=
          QueryData.complete_stable hopen' ha.inFlight hstable'
        rw [← hobserve] at hmatched
        exact .ended (QueryData.complete_stable hopen he.inFlight hstable) hmatched
      · have hunstable' : ¬ QueryData.stable q (a.data.observe now) = true := hobserve ▸ hstable
        have hdone : (e.data.complete q e.data.generation (m.matched F) mapping
            (.ok (.shared result)) now none).1 =
              e.data.analysed (m.matched F) mapping (e.data.observe now) :=
          QueryData.complete_unstable hopen he.inFlight hstable
        have hdone' : (a.data.complete q a.data.generation (m.matched F) mapping'
            (.ok (.shared result)) now none).1 =
              a.data.analysed (m.matched F) mapping' (a.data.observe now) :=
          QueryData.complete_unstable hopen' ha.inFlight hunstable'
        rw [hdone, hdone', ← hobserve]
        exact hleft _ fun hzero => absurd hzero (QueryData.observe_ne_zero _ _)

theorem complete_idle {g : Gate R} (hidle : g.data.inFlight = .empty) (now : ℕ) :
    g.step F backend q policy (.complete now) = { g with analysing := none } := by
  unfold Gate.step
  cases hanalysing : g.analysing with
  | none =>
    dsimp only
    rw [← hanalysing]
  | some b =>
    dsimp only
    rw [QueryData.complete_returned hidle]

theorem complete_flying {g : Gate R} {m : MappedFrame} {mapping : Option ℕ}
    (hanalysing : g.analysing = some ⟨g.data.generation, ⟨m, mapping⟩⟩) (now : ℕ) :
    g.step F backend q policy (.complete now) = { g with
      data := (g.data.complete q g.data.generation (m.matched F) mapping (findMapped F backend m) now
        none).1
      analysing := none } := by
  unfold Gate.step
  rw [hanalysing]

theorem complete (h : Abreast F backend q e a) (hopen : e.data.terminal = none)
    (hopen' : a.data.terminal = none) (now : ℕ) :
    Alike F backend q (e.step F backend q policy (.complete now))
      (a.step F backend q .analysisAlways (.complete now)) := by
  cases h.flight with
  | idle he ha =>
    rw [complete_idle he, complete_idle ha]
    refine .opened hopen hopen' ?_
    exact ⟨h.source, h.pending, h.processing, h.stability, h.quiet, h.generation, h.admitted,
      h.claimed, h.decided, h.always, h.idle, .idle he ha⟩
  | both m he ha =>
    obtain ⟨mapping, hanalysing⟩ := he.analysing
    obtain ⟨mapping', hanalysing'⟩ := ha.analysing
    rw [complete_flying hanalysing, complete_flying hanalysing']
    exact h.completed hopen hopen' he ha mapping mapping' now
  | skipped m he ha hempty hnone =>
    obtain ⟨mapping', hanalysing'⟩ := ha.analysing
    have hdone : (a.data.complete q a.data.generation (m.matched F) mapping' (.ok .empty) now
        none).1 = a.data.analysed (m.matched F) mapping' .none :=
      QueryData.complete_empty hopen' ha.inFlight
    rw [complete_idle he, complete_flying hanalysing', hempty, hdone]
    refine .opened hopen hopen' ?_
    exact ⟨h.source, h.pending, h.processing, hnone, fun _ => hnone, h.generation, h.admitted,
      h.claimed, h.decided, h.always, fun _ => ⟨he, rfl⟩, .idle he rfl⟩

theorem releaseClaim (h : Abreast F backend q e a) (stamp : FrameStamp) :
    Abreast F backend q { e with data := e.data.releaseClaim stamp }
      { a with data := a.data.releaseClaim stamp } := by
  unfold QueryData.releaseClaim
  rw [← h.processing]
  split_ifs
  · exact h.update h.source h.pending rfl h.stability h.quiet ⟨rfl, rfl⟩ ⟨rfl, rfl⟩
      (fun hclaimed => absurd rfl hclaimed) (flight_congr h.flight rfl rfl rfl rfl rfl rfl rfl)
  · exact h

theorem cached (h : Abreast F backend q e a) {cache cache' : MappingCache} :
    Abreast F backend q { e with cache := cache } { a with cache := cache' } :=
  ⟨h.source, h.pending, h.processing, h.stability, h.quiet, h.generation, h.admitted, h.claimed,
    h.decided, h.always, h.idle, flight_congr h.flight rfl rfl rfl rfl rfl rfl rfl⟩

theorem failMapping (h : Abreast F backend q e a) (hopen : e.data.terminal = none)
    (hopen' : a.data.terminal = none) (stamp : FrameStamp) (error : Error) :
    Alike F backend q { e with data := (e.data.failMapping stamp error).1 }
      { a with data := (a.data.failMapping stamp error).1 } := by
  by_cases hheld : e.data.processing = some stamp ∧ e.data.pendingStamp = some stamp
  · obtain ⟨hprocessing, hpending⟩ := hheld
    have hprocessing' : a.data.processing = some stamp := h.processing ▸ hprocessing
    have hpending' : a.data.pendingStamp = some stamp := h.pending ▸ hpending
    have hfailed : ∀ d : QueryData R, d.terminal = none → d.processing = some stamp →
        d.pendingStamp = some stamp → (d.failMapping stamp error).1.terminal = some (.failed error) := by
      intro d hterminal hprocessing hpending
      unfold QueryData.failMapping
      simp [hterminal, hprocessing, hpending]
    exact .ended (hfailed e.data hopen hprocessing hpending)
      (hfailed a.data hopen' hprocessing' hpending')
  · have hreleased : ∀ d : QueryData R, ¬ (d.processing = some stamp ∧ d.pendingStamp = some stamp) →
        (d.failMapping stamp error).1 = d.releaseClaim stamp := by
      intro d hnone
      unfold QueryData.failMapping
      rw [if_pos]
      by_cases hprocessing : d.processing = some stamp
      · have hpending : d.pendingStamp ≠ some stamp := fun hpending => hnone ⟨hprocessing, hpending⟩
        simp [hpending]
      · simp [hprocessing]
    have hheld' : ¬ (a.data.processing = some stamp ∧ a.data.pendingStamp = some stamp) := by
      rw [← h.processing, ← h.pending]
      exact hheld
    rw [hreleased _ hheld, hreleased _ hheld']
    exact .opened ((e.data.releaseClaim_terminal stamp).trans hopen)
      ((a.data.releaseClaim_terminal stamp).trans hopen') (h.releaseClaim stamp)

end Abreast

/-! ### The two runs -/

variable (F q) in
/-- How `finish_mapping` ends for the claimed frame. -/
def Gate.finishEnd (g : Gate R) (now : ℕ) : Option MappingEnd :=
  g.claimed.bind fun c => g.decision.map fun decision =>
    (g.data.finishMapping q (c.frame.matched F) c.mapping decision now).2

def SameClaims (e a : Gate R) : GateEvent R → Prop
  | .claim stamp =>
    e.data.terminal.isNone → a.data.terminal.isNone → (e.data.claim stamp).2 = (a.data.claim stamp).2
  | _ => True

variable (F q) in
/-- Of the frames that the second run claims, only those are put off that the first one puts off
too. -/
def SameDeferrals (e a : Gate R) : GateEvent R → Prop
  | .finish now =>
    a.finishEnd F q now ∉ [some .unrepresentable, some .exhausted] ∧
      (a.finishEnd F q now = some .deferred → e.finishEnd F q now = some .deferred)
  | _ => True

instance (event : GateEvent R) : Decidable (SameClaims e a event) :=
  match event with
  | .claim _ => inferInstanceAs (Decidable (_ → _ → _ = _))
  | .publish .. | .map .. | .decide _ | .finish _ | .complete _ | .failMapping .. | .releaseClaim _
  | .remember .. | .clear | .terminate _ => inferInstanceAs (Decidable True)

instance (event : GateEvent R) : Decidable (SameDeferrals F q e a event) :=
  match event with
  | .finish _ => inferInstanceAs (Decidable (_ ∧ _))
  | .publish .. | .claim _ | .map .. | .decide _ | .complete _ | .failMapping .. | .releaseClaim _
  | .remember .. | .clear | .terminate _ => inferInstanceAs (Decidable True)

variable (F q) in
def Comparable (e a : Gate R) (event : GateEvent R) : Prop :=
  SameClaims e a event ∧ SameDeferrals F q e a event

instance (event : GateEvent R) : Decidable (Comparable F q e a event) :=
  inferInstanceAs (Decidable (_ ∧ _))

theorem Gate.mappingDecision_analysisAlways (g : Gate R) (alive : Bool) (m : MappedFrame) :
    g.mappingDecision F .analysisAlways alive m ≠ .unchanged := by
  unfold Gate.mappingDecision
  split_ifs
  · exact fun h => by cases h
  · split
    · rw [compare_analysisAlways]
      exact fun h => by cases h
    · exact fun h => by cases h

theorem Abreast.finishes (h : Abreast F backend q e a) (hopen : e.data.terminal = none)
    (hopen' : a.data.terminal = none) (hsound : GateSound F backend e) {now : ℕ}
    (hcomparable : SameDeferrals F q e a (.finish now)) :
    Alike F backend q (e.step F backend q policy (.finish now))
      (a.step F backend q .analysisAlways (.finish now)) := by
  obtain ⟨hlasts, hdeferred⟩ := hcomparable
  have hclaimed := h.claimed
  have hdecided := h.decided
  have halways := h.always
  unfold Gate.finishEnd at hlasts hdeferred
  unfold Gate.step
  cases hc : e.claimed with
  | none =>
    rw [hc, Option.map_none] at hclaimed
    rw [Option.map_eq_none_iff.mp hclaimed.symm]
    exact .opened hopen hopen' h
  | some c =>
    rw [hc, Option.map_some] at hclaimed
    obtain ⟨c', hc', hframe⟩ := Option.map_eq_some_iff.mp hclaimed.symm
    rw [hc']
    cases hd : e.decision with
    | none =>
      rw [hd, Option.isSome_none] at hdecided
      rw [Option.isSome_eq_false_iff.mp hdecided.symm |> Option.isNone_iff_eq_none.mp]
      exact .opened hopen hopen' h
    | some decision =>
      rw [hd, Option.isSome_some] at hdecided
      obtain ⟨decision', hd'⟩ := Option.isSome_iff_exists.mp hdecided.symm
      obtain rfl : decision' = .analysisRequired := by
        cases decision' with
        | unchanged => exact absurd hd' halways
        | analysisRequired => rfl
      rw [hc', hd'] at hlasts hdeferred
      rw [hc, hd] at hdeferred
      rw [hd']
      simp only [Option.bind_some, Option.map_some, List.mem_cons, Option.some.injEq] at hlasts hdeferred
      refine h.finish hopen hopen' hframe.symm ?_ ?_ hdeferred
      · intro hunchanged
        rw [hunchanged] at hd
        obtain ⟨c₁, hc₁, hempty⟩ := hsound.decided hd
        obtain rfl : c = c₁ := Option.some.inj (hc.symm.trans hc₁)
        exact hempty
      · simpa using hlasts

theorem Alike.step (h : Alike F backend q e a) (hsound : GateSound F backend e) {event : GateEvent R}
    (hcomparable : Comparable F q e a event) :
    Alike F backend q (e.step F backend q policy event) (a.step F backend q .analysisAlways event) := by
  cases hopen : e.data.terminal with
  | some o =>
    have hended : a.data.terminal = some o := h.terminal ▸ hopen
    exact .ended (Gate.step_ended hopen event) (Gate.step_ended hended event)
  | none =>
    have hopen' : a.data.terminal = none := h.terminal ▸ hopen
    have hboth := h.abreast hopen
    cases event with
    | publish stamp now barrier =>
      exact .opened ((e.data.enqueue_terminal q stamp now barrier).trans hopen)
        ((a.data.enqueue_terminal q stamp now barrier).trans hopen')
        (hboth.publish h.terminal stamp now barrier)
    | claim stamp =>
      have hclaims := hcomparable.1 (by rw [hopen]; rfl) (by rw [hopen']; rfl)
      unfold Gate.step
      dsimp only
      by_cases htaken : (e.data.claim stamp).2 = true
      · have htaken' : (a.data.claim stamp).2 = true := hclaims ▸ htaken
        rw [if_pos htaken, if_pos htaken']
        exact .opened ((e.data.claim_terminal stamp).trans hopen)
          ((a.data.claim_terminal stamp).trans hopen') (hboth.claim htaken htaken')
      · have htaken' : ¬ (a.data.claim stamp).2 = true := hclaims ▸ htaken
        rw [if_neg htaken, if_neg htaken']
        exact h
    | map m shared closed =>
      unfold Gate.step
      dsimp only
      rw [← hboth.processing]
      split_ifs
      · refine .opened hopen hopen' ⟨hboth.source, hboth.pending, hboth.processing, hboth.stability,
          hboth.quiet, hboth.generation, hboth.admitted, rfl, rfl, fun hd => (by cases hd), hboth.idle, ?_⟩
        exact Abreast.flight_congr hboth.flight rfl rfl rfl rfl rfl rfl rfl
      · exact h
    | decide alive =>
      refine .opened hopen hopen' ⟨hboth.source, hboth.pending, hboth.processing, hboth.stability,
        hboth.quiet, hboth.generation, hboth.admitted, hboth.claimed, ?_, ?_, hboth.idle, ?_⟩
      · have hclaimed := congrArg Option.isSome hboth.claimed
        rw [Option.isSome_map, Option.isSome_map] at hclaimed
        unfold Gate.step
        rw [Option.isSome_map, Option.isSome_map]
        exact hclaimed
      · intro hunchanged
        obtain ⟨c, -, hdecision⟩ := Option.map_eq_some_iff.mp hunchanged
        exact absurd hdecision (a.mappingDecision_analysisAlways alive c.frame)
      · exact Abreast.flight_congr hboth.flight rfl rfl rfl rfl rfl rfl rfl
    | finish now => exact hboth.finishes hopen hopen' hsound hcomparable.2
    | complete now => exact hboth.complete hopen hopen' now
    | failMapping stamp error => exact hboth.failMapping hopen hopen' stamp error
    | releaseClaim stamp =>
      exact .opened ((e.data.releaseClaim_terminal stamp).trans hopen)
        ((a.data.releaseClaim_terminal stamp).trans hopen') (hboth.releaseClaim stamp)
    | remember i region descriptor =>
      exact .opened hopen hopen' hboth.cached
    | clear => exact .opened hopen hopen' hboth.cached
    | terminate outcome =>
      have hterminated : ∀ d : QueryData R, d.terminal = none →
          (d.terminate outcome).1.terminal = some outcome := by
        intro d hterminal
        unfold QueryData.terminate
        rw [hterminal]
        rfl
      exact .ended (hterminated e.data hopen) (hterminated a.data hopen')

theorem gating_alike {script : List (GateEvent R)}
    (h : Throughout (Gate.step F backend q policy) (Gate.step F backend q .analysisAlways)
      (Comparable F q) script .new .new) :
    Alike F backend q (script.foldl (Gate.step F backend q policy) .new)
      (script.foldl (Gate.step F backend q .analysisAlways) .new) := by
  have hstep : ∀ (e a : Gate R) event, Alike F backend q e a ∧ GateSound F backend e →
      Comparable F q e a event →
      Alike F backend q (e.step F backend q policy event) (a.step F backend q .analysisAlways event) ∧
        GateSound F backend (e.step F backend q policy event) :=
    fun e a event halike hcomparable =>
      ⟨halike.1.step halike.2 hcomparable, halike.2.step event⟩
  exact (h.preserves hstep ⟨Alike.new, GateSound.new⟩).1

end Law

end MadoPilot.Watch
