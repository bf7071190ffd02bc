import MadoPilot.Lib.Streak
import MadoPilot.Watch.QuerySlots

/-!
# When a query matches

A query matches once the analyses at the end of its history confirm its template often or long
enough.  The history of a run is read off its steps: a *sighting* for each analysis committed with a
result, a break for each analysis committed without one and for each publication of another epoch or
geometry.  The run of sightings at its end is what the stability of the query remembers.

* `Told` says what one step tells the history, `perform_told` that every step tells no more;
* `Sighted` is the invariant between the history and the query's data;
* `query_stability` is the result.
-/

namespace MadoPilot.Watch

open MadoPilot.Core MadoPilot.Lib

variable {R : Type}

/-! ### Frames of one scene -/

/-- `b` is a later frame than `a`, of the same epoch and geometry. -/
def Continues (a b : FrameStamp) : Prop :=
  a.order b = .ok .before ∧ a.epoch = b.epoch ∧ a.geometry = b.geometry

lemma Continues.trans {a b c : FrameStamp} (h : Continues a b) (h' : Continues b c) :
    Continues a c := by
  obtain ⟨hbefore, hepoch, hgeometry⟩ := h
  obtain ⟨hbefore', hepoch', hgeometry'⟩ := h'
  rw [FrameStamp.order_eq_before] at hbefore hbefore'
  have horder : a.order c = .ok .before :=
    FrameStamp.order_eq_before.mpr ⟨hbefore.1.trans hbefore'.1, hbefore.2.trans hbefore'.2⟩
  exact ⟨horder, hepoch.trans hepoch', hgeometry.trans hgeometry'⟩

/-- Frames of one scene in order, none later than the source's last one. -/
structure Lined (l : List FrameStamp) (source : Option FrameStamp) : Prop where
  pairwise : l.Pairwise Continues
  reached : ∀ a ∈ l, ∃ last, source = some last ∧ (a = last ∨ Continues a last)

namespace Lined

variable {l l' : List FrameStamp} {source : Option FrameStamp}

lemma nil : Lined [] source := ⟨.nil, fun a ha => by cases ha⟩

lemma sublist (h : Lined l source) (hsub : l'.Sublist l) : Lined l' source :=
  ⟨h.pairwise.sublist hsub, fun a ha => h.reached a (hsub.subset ha)⟩

lemma snoc (h : Lined l source) {stamp : FrameStamp}
    (hstamp : ∀ last, source = some last → Continues last stamp) :
    Lined (l ++ [stamp]) (some stamp) := by
  have hall : ∀ a ∈ l, Continues a stamp := by
    intro a ha
    obtain ⟨last, hsource, hle⟩ := h.reached a ha
    have hlast := hstamp last hsource
    rcases hle with rfl | hlt
    · exact hlast
    · exact hlt.trans hlast
  constructor
  · rw [List.pairwise_append]
    refine ⟨h.pairwise, List.pairwise_singleton _ _, ?_⟩
    intro a ha b hb
    rw [List.mem_singleton] at hb
    rw [hb]
    exact hall a ha
  · intro a ha
    rw [List.mem_append, List.mem_singleton] at ha
    refine ⟨stamp, rfl, ?_⟩
    rcases ha with ha | rfl
    · exact Or.inr (hall a ha)
    · exact Or.inl rfl

end Lined

/-! ### The history of a run -/

/-- An analysis committed with a result: the frame, when the analysis ended and what it found. -/
structure Sighting (R : Type) where
  stamp : FrameStamp
  time : ℕ
  result : R
  deriving DecidableEq

/-- What the section of `complete` tells the history: a sighting, a break or nothing. -/
def Completion.note (stamp : FrameStamp) (now : ℕ) (result : Except Error (ImmutableAnalysisResult R)) :
    Completion → Option (Option (Sighting R))
  | .committed | .progressed =>
    match result with
    | .ok .empty => some none
    | .ok (.shared result) => some (some ⟨stamp, now, result⟩)
    | .error _ => none
  | .returned | .interrupted _ | .stale => none

def noteOf (q : QueryShared) (d : QueryData R) : Pc R → Event R → Option (Option (Sighting R))
  | .idle, .enqueue stamp _ _ =>
    if d.accepts q stamp && d.incompatible stamp then some none else none
  | .completing generation mapped mapping result now, .complete none interruption =>
    (d.complete q generation mapped mapping result now interruption).2.note mapped.frame now result
  | _, _ => none

def history {τ : Type*} (q : QueryShared) (trail : List (QueryWorld τ R × (τ × Event R))) :
    List (Option (Sighting R)) :=
  trail.filterMap fun (w, t, e) => noteOf q w.shared.data (w.pc t) e

def span (run : List (Sighting R)) : ℕ :=
  match run.head?, run.getLast? with
  | some first, some last => last.time - first.time
  | _, _ => 0

def stabilityOf (run : List (Sighting R)) : StabilityState :=
  ⟨min u32Max run.length, run.head?.map Sighting.time, span run⟩

/-- The run confirms the template as often or as long as the query requires. -/
def Meets (required : TemplateStability) (run : List (Sighting R)) : Prop :=
  run ≠ [] ∧
  match required with
  | .immediate => True
  | .consecutive observations => observations ≤ run.length
  | .duration duration => duration ≤ span run

/-- A required number of observations is a `u32`. -/
def TemplateStability.Representable : TemplateStability → Prop
  | .consecutive observations => observations ≤ u32Max
  | .immediate | .duration _ => True

/-- The match that a query reports of a run that ends in `last`. -/
def matchOf (q : QueryShared) (run : List (Sighting R)) (last : Sighting R) : TemplateWatchResult R :=
  ⟨q.template, q.target, last.stamp, last.result, min u32Max run.length, span run⟩

lemma span_snoc (run : List (Sighting R)) (s : Sighting R) :
    span (run ++ [s]) = s.time - (run.head?.map Sighting.time).getD s.time := by
  unfold span
  cases run with
  | nil => rfl
  | cons first run =>
    rw [List.getLast?_concat]
    rfl

theorem stabilityOf_snoc {d : QueryData R} {run : List (Sighting R)} (s : Sighting R)
    (h : d.stability = stabilityOf run) : d.observe s.time = stabilityOf (run ++ [s]) := by
  unfold QueryData.observe
  rw [h]
  unfold stabilityOf
  simp only [StabilityState.mk.injEq]
  refine ⟨?_, ?_, ?_⟩
  · unfold saturatingAdd
    rw [List.length_append, List.length_singleton]
    omega
  · cases run <;> rfl
  · exact (span_snoc run s).symm

theorem stable_iff {q : QueryShared} (hq : q.stability.Representable) {run : List (Sighting R)}
    (hrun : run ≠ []) : QueryData.stable q (stabilityOf run) = true ↔ Meets q.stability run := by
  unfold QueryData.stable Meets
  cases hs : q.stability with
  | immediate => exact iff_of_true rfl ⟨hrun, trivial⟩
  | consecutive observations =>
    have hle : observations ≤ u32Max := by
      rw [hs] at hq
      exact hq
    have hmin : observations ≤ min u32Max run.length ↔ observations ≤ run.length := by omega
    exact (decide_eq_true_iff.trans hmin).trans ⟨fun h => ⟨hrun, h⟩, fun h => h.2⟩
  | duration duration => exact decide_eq_true_iff.trans ⟨fun h => ⟨hrun, h⟩, fun h => h.2⟩

/-! ### What one step tells -/

def Slots.line (s : Slots R) : List FrameStamp := s.inFlight.stamps ++ s.pending.toList

lemma Move.line {k : MoveKind} {s s' : Slots R} {e : Entry} (h : Move k s e s') (hs : s.Sound)
    (he : e.accepted = []) : s'.line.Sublist s.line ∧ s'.source = s.source := by
  cases h with
  | accept => cases he
  | @launch _ stamp f ht hproc hp hinsert =>
    have hfree := (hs.held ht stamp hproc).1
    rw [hfree, InFlight.insert_empty] at hinsert
    cases hinsert
    refine ⟨?_, rfl⟩
    unfold Slots.line
    rw [hfree, hp]
    exact List.Sublist.refl _
  | @lose _ stamp ht hproc hp hinsert =>
    rw [(hs.held ht stamp hproc).1, InFlight.insert_empty] at hinsert
    cases hinsert
  | skip => exact ⟨by simp [Slots.line], rfl⟩
  | @finish _ generation stamp d f ht hremove =>
    have hfree := hs.flight.of_remove hremove
    subst hfree
    exact ⟨List.sublist_append_right _ _, rfl⟩
  | terminate | conclude | expire | fail => exact ⟨List.nil_sublist _, rfl⟩
  | _ => exact ⟨List.Sublist.refl _, rfl⟩

/-- **What one step tells the history**, and what it does to the query's data meanwhile. -/
inductive Told (q : QueryShared) (d d' : QueryData R) : Option (Option (Sighting R)) → Prop
  | silent : d'.stability = d.stability →
      (∀ m, d'.terminal = some (.matched m) → d.terminal = some (.matched m)) →
      d'.slots.line.Sublist d.slots.line → d'.sourceFrame = d.sourceFrame → Told q d d' none
  /-- a publication of the same epoch and geometry -/
  | joined (stamp : FrameStamp) : d'.stability = d.stability → d'.terminal = d.terminal →
      (∀ last, d.sourceFrame = some last → Continues last stamp) → d'.sourceFrame = some stamp →
      d'.slots.line = d.inFlight.stamps ++ [stamp] → Told q d d' none
  /-- a publication of another epoch or geometry -/
  | broke (stamp : FrameStamp) : d'.stability = .none → d'.terminal = d.terminal →
      d'.sourceFrame = some stamp → d'.slots.line = [stamp] → d.terminal = none →
      Told q d d' (some none)
  /-- an analysis without a result -/
  | missed : d'.stability = .none → d'.terminal = d.terminal → d.terminal = none →
      d'.slots.line.Sublist d.slots.line → d'.sourceFrame = d.sourceFrame → Told q d d' (some none)
  | sighted (s : Sighting R) : d'.stability = d.observe s.time → d.terminal = none →
      (s.stamp :: d'.slots.line).Sublist d.slots.line → d'.sourceFrame = d.sourceFrame →
      d'.terminal = (if QueryData.stable q d'.stability then
        some (.matched ⟨q.template, q.target, s.stamp, s.result, d'.stability.observations,
          d'.stability.duration⟩) else none) →
      Told q d d' (some (some s))

namespace QueryData

variable (q : QueryShared) (d : QueryData R)

lemma applyMappingBarrier_stability : (d.applyMappingBarrier q).1.stability = d.stability := by
  unfold applyMappingBarrier
  simp only
  split
  · rfl
  split
  · rfl
  split
  · rfl
  split
  · rfl
  split <;> rfl

lemma finishMapping_stability (mapped : MappedMatch) (mapping : Option ℕ)
    (decision : ChangeDecision) (now : ℕ) :
    (d.finishMapping q mapped mapping decision now).1.stability = d.stability := by
  unfold finishMapping
  simp only
  split
  · rfl
  split
  · rfl
  split
  · rfl
  split
  · split <;> rfl
  · split
    · rfl
    · split <;> rfl

lemma enqueue_slots {stamp : FrameStamp} (hacc : d.accepts q stamp = true) (now : ℕ)
    (barrier : Bool) :
    (d.enqueue q stamp now barrier).slots =
      { d.slots with
        source := some stamp
        pending := some stamp
        inFlight := if d.incompatible stamp then .empty else d.inFlight } := by
  unfold enqueue
  rw [if_pos hacc]
  simp only
  split
  · rw [applyMappingBarrier_slots]
    rfl
  · rfl

lemma enqueue_stability {stamp : FrameStamp} (hacc : d.accepts q stamp = true) (now : ℕ)
    (barrier : Bool) :
    (d.enqueue q stamp now barrier).stability =
      if d.incompatible stamp then .none else d.stability := by
  unfold enqueue
  rw [if_pos hacc]
  simp only
  split
  · rw [applyMappingBarrier_stability]
    rfl
  · rfl

variable {d}

lemma continues_of_accepts {q : QueryShared} {stamp : FrameStamp} (hacc : d.accepts q stamp = true)
    (hcompatible : d.incompatible stamp = false) :
    ∀ last, d.sourceFrame = some last → Continues last stamp := by
  intro last hlast
  simp only [accepts, Bool.and_eq_true, hlast, Option.all_some] at hacc
  simp only [incompatible, hlast, Option.any_some, Bool.or_eq_false_iff, decide_eq_false_iff_not,
    not_not] at hcompatible
  exact ⟨isBefore_iff.mp hacc.2, hcompatible.1, hcompatible.2⟩

lemma terminal_of_accepts {q : QueryShared} {stamp : FrameStamp} (hacc : d.accepts q stamp = true) :
    d.terminal = none := by
  simp only [accepts, Bool.and_eq_true, Option.isNone_iff_eq_none] at hacc
  exact hacc.1.1

theorem enqueue_told (q : QueryShared) (d : QueryData R) (stamp : FrameStamp) (now : ℕ)
    (barrier : Bool) :
    Told q d (d.enqueue q stamp now barrier)
      (if d.accepts q stamp && d.incompatible stamp then some none else none) := by
  cases hacc : d.accepts q stamp with
  | false =>
    have hsame : d.enqueue q stamp now barrier = d := by
      unfold enqueue
      rw [hacc]
      rfl
    rw [hsame]
    exact .silent rfl (fun _ h => h) (.refl _) rfl
  | true =>
    have hslots := d.enqueue_slots q hacc now barrier
    have hstability := d.enqueue_stability q hacc now barrier
    have hterminal : (d.enqueue q stamp now barrier).terminal = d.terminal :=
      congrArg Slots.terminal hslots
    have hsource : (d.enqueue q stamp now barrier).sourceFrame = some stamp :=
      congrArg Slots.source hslots
    cases hinc : d.incompatible stamp with
    | true =>
      rw [hinc] at hslots hstability
      refine .broke stamp hstability hterminal hsource ?_ (terminal_of_accepts hacc)
      rw [hslots]
      rfl
    | false =>
      rw [hinc] at hslots hstability
      refine .joined stamp hstability hterminal (continues_of_accepts hacc hinc) hsource ?_
      rw [hslots]
      rfl

lemma line_of_remove {generation : ℕ} {stamp : FrameStamp} {f : InFlight} (hd : d.slots.Sound)
    (hremove : d.inFlight.remove (generation, stamp) = some f) :
    f = .empty ∧ d.slots.line = stamp :: d.slots.pending.toList := by
  have hempty : f = .empty := hd.flight.of_remove hremove
  subst hempty
  have hstamps : d.inFlight.stamps = [stamp] :=
    List.perm_singleton.mp ((InFlight.remove_perm hremove).map Prod.snd)
  refine ⟨rfl, ?_⟩
  show d.inFlight.stamps ++ d.slots.pending.toList = _
  rw [hstamps]
  rfl

theorem complete_told (q : QueryShared) (d : QueryData R) (hd : d.slots.Sound) (generation : ℕ)
    (mapped : MappedMatch) (mapping : Option ℕ) (result : Except Error (ImmutableAnalysisResult R))
    (now : ℕ) (interruption : Option Interruption) :
    Told q d (d.complete q generation mapped mapping result now interruption).1
      ((d.complete q generation mapped mapping result now interruption).2.note mapped.frame now
        result) := by
  have hsame : Told q d d none := .silent rfl (fun _ h => h) (.refl _) rfl
  unfold complete
  cases hremove : d.inFlight.remove (generation, mapped.frame) with
  | none =>
    simp only [hremove]
    exact hsame
  | some f =>
    obtain ⟨rfl, hline⟩ := line_of_remove hd hremove
    have htail : d.slots.pending.toList.Sublist d.slots.line := by
      rw [hline]
      exact List.sublist_cons_self _ _
    simp only [hremove]
    by_cases ht : d.terminal.isSome = true
    · simp only [if_pos ht]
      exact hsame
    simp only [if_neg ht]
    rw [Bool.not_eq_true, Option.isSome_eq_false_iff, Option.isNone_iff_eq_none] at ht
    cases interruption with
    | some i => exact hsame
    | none =>
      simp only
      by_cases hgen : generation ≠ d.generation
      · simp only [if_pos hgen]
        exact .silent rfl (fun _ h => h) htail rfl
      simp only [if_neg hgen]
      cases result with
      | error error => exact .silent rfl (fun m h => by cases h) (List.nil_sublist _) rfl
      | ok result =>
        cases result with
        | empty => exact .missed rfl rfl ht htail rfl
        | shared result =>
          simp only
          split
          · rename_i hstable
            refine .sighted ⟨mapped.frame, now, result⟩ rfl ht ?_ rfl (if_pos hstable).symm
            rw [hline]
            exact List.Sublist.cons_cons _ (List.nil_sublist _)
          · rename_i hstable
            refine .sighted ⟨mapped.frame, now, result⟩ rfl ht ?_ rfl
              (ht.trans (if_neg hstable).symm)
            rw [hline]
            exact List.Sublist.refl _

end QueryData

/-! ### What callers end a query with -/

def TemplateTerminalOutcome.Unmatched (o : TemplateTerminalOutcome R) : Prop := ∀ m, o ≠ .matched m

/-- What a step reads from its caller, the session and the scheduler ends the query without a match:
a cancellation, a deadline, a close, a lost target or a failure. -/
def Event.EndsUnmatched : Event R → Prop
  | .callTerminate outcome => outcome.Unmatched
  | .terminate authority | .finishMapping _ _ _ _ authority | .failMapping _ _ _ authority
  | .expireIfCurrent _ _ _ _ authority | .complete authority _ => ∀ o ∈ authority, o.Unmatched
  | _ => True

def Pc.EndsUnmatched : Pc R → Prop
  | .terminating outcome => outcome.Unmatched
  | _ => True

lemma interruptionOutcome_unmatched (i : Interruption) :
    (interruptionOutcome i : TemplateTerminalOutcome R).Unmatched := by
  intro m h
  cases i <;> cases h

lemma MappingEnd.next_endsUnmatched (m : MappingEnd) : (m.next : Pc R).EndsUnmatched := by
  cases m with
  | unrepresentable | exhausted => exact fun m h => by cases h
  | _ => trivial

lemma Completion.next_endsUnmatched (c : Completion) : (c.next : Pc R).EndsUnmatched := by
  cases c with
  | interrupted i => exact interruptionOutcome_unmatched i
  | _ => trivial

lemma perform_endsUnmatched {q : QueryShared} {s s' : Desk R} {pc pc' : Pc R} {e : Event R}
    (he : e.EndsUnmatched) (h : perform q s pc e = some (s', pc')) : pc'.EndsUnmatched := by
  have hcommitted : ∀ committed, (committedNext committed : Pc R).EndsUnmatched := by
    intro committed
    cases committed <;> trivial
  cases e with
  | callTerminate outcome =>
    cases pc with
    | idle =>
      cases h
      exact he
    | _ => cases h
  | terminate authority =>
    cases pc with
    | terminating outcome =>
      cases h
      exact hcommitted _
    | _ => cases h
  | expireIfCurrent candidate now expiry interruption authority =>
    cases pc with
    | idle =>
      cases interruption with
      | some i =>
        cases h
        exact interruptionOutcome_unmatched i
      | none =>
        cases authority with
        | some outcome =>
          cases h
          exact he _ rfl
        | none =>
          cases h
          exact hcommitted _
    | _ => cases h
  | finishMapping mapped mapping decision now authority =>
    cases pc with
    | idle =>
      cases authority with
      | some outcome =>
        cases h
        exact he _ rfl
      | none =>
        have hpair : some (_, _) = some (s', pc') := h
        rw [Option.some.injEq, Prod.mk.injEq] at hpair
        rw [← hpair.2]
        exact MappingEnd.next_endsUnmatched _
    | _ => cases h
  | complete refusal interruption =>
    cases pc with
    | completing generation mapped mapping result now =>
      cases refusal with
      | some outcome =>
        cases h
        exact he _ rfl
      | none =>
        have hpair : some (_, _) = some (s', pc') := h
        rw [Option.some.injEq, Prod.mk.injEq] at hpair
        rw [← hpair.2]
        exact Completion.next_endsUnmatched _
    | _ => cases h
  | failMapping stamp error interruption authority =>
    cases pc with
    | idle =>
      cases interruption with
      | some i =>
        cases h
        exact interruptionOutcome_unmatched i
      | none =>
        cases authority with
        | some outcome =>
          cases h
          exact he _ rfl
        | none =>
          cases h
          exact hcommitted _
    | _ => cases h
  | finishSourceEnd ended =>
    cases pc with
    | sourceEnd =>
      simp only [perform, Option.some.injEq, Prod.mk.injEq] at h
      rw [← h.2]
      split
      · exact fun m h => by cases h
      · trivial
    | _ => cases h
  | callComplete generation mapped mapping result now =>
    cases pc with
    | idle =>
      simp only [perform, Option.some.injEq, Prod.mk.injEq] at h
      rw [← h.2]
      split <;> trivial
    | _ => cases h
  | _ =>
    cases pc <;> cases h
    all_goals trivial

/-! ### Every step tells no more -/

lemma Told.of_section {q : QueryShared} {k : MoveKind} {d d' : QueryData R} {e : Entry}
    (hsec : Section k d e d') (hd : d.slots.Sound) (he : e.accepted = [])
    (hstability : d'.stability = d.stability)
    (hmatched : ∀ m, d'.terminal = some (.matched m) → d.terminal = some (.matched m)) :
    Told q d d' none := by
  obtain ⟨hline, hsource⟩ := hsec.move.line hd he
  exact .silent hstability hmatched hline hsource

namespace QueryData

variable (d : QueryData R)

lemma claim_stability (stamp : FrameStamp) : (d.claim stamp).1.stability = d.stability := by
  unfold claim
  split
  · rfl
  · split
    · rfl
    · split <;> rfl

lemma releaseClaim_stability (stamp : FrameStamp) :
    (d.releaseClaim stamp).stability = d.stability := by
  unfold releaseClaim
  split <;> rfl

lemma recordDisposition_stability (disposition : TemplateWorkDisposition) :
    (d.recordDisposition disposition).1.stability = d.stability := by
  unfold recordDisposition
  split <;> rfl

variable {d}

lemma terminate_unmatched {o : TemplateTerminalOutcome R} (ho : o.Unmatched) :
    (d.terminate o).1.stability = d.stability ∧
    ∀ m, (d.terminate o).1.terminal = some (.matched m) → d.terminal = some (.matched m) := by
  unfold terminate
  split
  · exact ⟨rfl, fun m h => h⟩
  · refine ⟨rfl, fun m h => ?_⟩
    cases h
    exact absurd rfl (ho m)

lemma expireIfCurrent_unmatched (candidate : CandidateSnapshot) (now expiry : ℕ) :
    (d.expireIfCurrent candidate now expiry).1.stability = d.stability ∧
    ∀ m, (d.expireIfCurrent candidate now expiry).1.terminal = some (.matched m) →
      d.terminal = some (.matched m) := by
  unfold expireIfCurrent
  simp only
  split
  · exact ⟨rfl, fun m h => h⟩
  · exact ⟨rfl, fun m h => by cases h⟩

lemma failMapping_unmatched (stamp : FrameStamp) (error : Error) :
    (d.failMapping stamp error).1.stability = d.stability ∧
    ∀ m, (d.failMapping stamp error).1.terminal = some (.matched m) →
      d.terminal = some (.matched m) := by
  unfold failMapping
  split
  · refine ⟨d.releaseClaim_stability stamp, fun m h => ?_⟩
    rw [releaseClaim_terminal] at h
    exact h
  · exact ⟨rfl, fun m h => by cases h⟩

end QueryData

theorem perform_told {q : QueryShared} {s s' : Desk R} {pc pc' : Pc R} {e : Event R}
    (hs : s.data.slots.Sound) (hpc : pc.EndsUnmatched) (he : e.EndsUnmatched)
    (h : perform q s pc e = some (s', pc')) : Told q s.data s'.data (noteOf q s.data pc e) := by
  have hsame : Told q s.data s.data none := .silent rfl (fun _ h => h) (.refl _) rfl
  have hnone : ∀ {committed : Bool} {entry : Entry}, entry.accepted = [] →
      (if committed then entry else .nothing).accepted = [] := by
    intro committed entry hentry
    cases committed
    · rfl
    · exact hentry
  cases e with
  | enqueue stamp now barrier =>
    cases pc with
    | idle =>
      cases h
      exact s.data.enqueue_told q stamp now barrier
    | _ => cases h
  | deferMappingBarrier =>
    cases pc with
    | idle =>
      cases h
      refine .of_section (s.data.applyMappingBarrier_section q) hs rfl
        (s.data.applyMappingBarrier_stability q) fun m hm => ?_
      exact (s.data.applyMappingBarrier_terminal q).symm.trans hm
    | _ => cases h
  | claim stamp =>
    cases pc with
    | idle =>
      cases h
      refine .of_section (s.data.claim_section stamp) hs rfl (s.data.claim_stability stamp)
        fun m hm => ?_
      exact (s.data.claim_terminal stamp).symm.trans hm
    | _ => cases h
  | releaseClaim stamp =>
    cases pc with
    | idle =>
      cases h
      refine .of_section (s.data.releaseClaim_section stamp) hs rfl
        (s.data.releaseClaim_stability stamp) fun m hm => ?_
      exact (s.data.releaseClaim_terminal stamp).symm.trans hm
    | _ => cases h
  | recordAdmitted =>
    cases pc with
    | idle =>
      cases h
      refine .of_section (s.data.recordDisposition_section rfl) hs rfl
        (s.data.recordDisposition_stability .admitted) fun m hm => ?_
      exact (s.data.recordDisposition_terminal .admitted).symm.trans hm
    | _ => cases h
  | recordCoalesced =>
    cases pc with
    | idle =>
      cases h
      refine .of_section (s.data.recordDisposition_section rfl) hs rfl
        (s.data.recordDisposition_stability .coalesced) fun m hm => ?_
      exact (s.data.recordDisposition_terminal .coalesced).symm.trans hm
    | _ => cases h
  | terminate authority =>
    cases pc with
    | terminating outcome =>
      have ho : (authority.getD outcome).Unmatched := by
        cases authority with
        | none => exact hpc
        | some o => exact he o rfl
      obtain ⟨hstability, hmatched⟩ := QueryData.terminate_unmatched (d := s.data) ho
      cases h
      exact .of_section (s.data.terminate_section _) hs (hnone rfl) hstability hmatched
    | _ => cases h
  | expireIfCurrent candidate now expiry interruption authority =>
    cases pc with
    | idle =>
      cases interruption with
      | some i =>
        cases h
        exact hsame
      | none =>
        cases authority with
        | some outcome =>
          cases h
          exact hsame
        | none =>
          obtain ⟨hstability, hmatched⟩ :=
            QueryData.expireIfCurrent_unmatched (d := s.data) candidate now expiry
          cases h
          exact .of_section (s.data.expireIfCurrent_section candidate now expiry) hs (hnone rfl)
            hstability hmatched
    | _ => cases h
  | finishMapping mapped mapping decision now authority =>
    rcases perform_mapping rfl h with ⟨rfl, -⟩ | ⟨mapped, mapping, decision, now, heq, rfl⟩
    · cases pc <;> exact hsame
    · have hentry : ∀ m : MappingEnd, (m.entry mapped.frame).accepted = [] := by
        intro m
        cases m <;> rfl
      have htold : Told q s.data (s.data.finishMapping q mapped mapping decision now).1 none := by
        refine .of_section (s.data.finishMapping_section q mapped mapping decision now) hs
          (hentry _) (s.data.finishMapping_stability q mapped mapping decision now) fun m hm => ?_
        exact (s.data.finishMapping_terminal q mapped mapping decision now).symm.trans hm
      cases pc <;> exact htold
  | complete refusal interruption =>
    cases pc with
    | completing generation mapped mapping result now =>
      cases refusal with
      | some outcome =>
        cases h
        exact hsame
      | none =>
        have hpair : some (_, _) = some (s', pc') := h
        rw [Option.some.injEq, Prod.mk.injEq] at hpair
        rw [← hpair.1]
        exact QueryData.complete_told q s.data hs generation mapped mapping result now interruption
    | _ => cases h
  | failMapping stamp error interruption authority =>
    cases pc with
    | idle =>
      cases interruption with
      | some i =>
        cases h
        exact hsame
      | none =>
        cases authority with
        | some outcome =>
          cases h
          exact hsame
        | none =>
          obtain ⟨hstability, hmatched⟩ :=
            QueryData.failMapping_unmatched (d := s.data) stamp error
          cases h
          exact .of_section (s.data.failMapping_section stamp error) hs (hnone rfl) hstability
            hmatched
    | _ => cases h
  | callTerminate | callComplete | finishSourceEnd | afterTerminalCommit =>
    cases pc <;> cases h
    exact hsame

/-! ### The result -/

/-- **The history and the query.**  The query remembers the run of sightings at the end of its
history, the frames of the run and those that the query still has are of one scene and in order, and
the query has its match exactly when the run is what it requires. -/
structure Sighted (q : QueryShared) (run : List (Sighting R)) (d : QueryData R) : Prop where
  stability : d.stability = stabilityOf run
  lined : Lined (run.map Sighting.stamp ++ d.slots.line) d.sourceFrame
  matched : ∀ m, d.terminal = some (.matched m) →
    Meets q.stability run ∧ ∃ last, run.getLast? = some last ∧ m = matchOf q run last
  unmet : (∀ m, d.terminal ≠ some (.matched m)) → ¬ Meets q.stability run

namespace Sighted

variable {q : QueryShared} {run : List (Sighting R)} {d d' : QueryData R}

lemma start : Sighted q [] (QueryData.new : QueryData R) where
  stability := rfl
  lined := .nil
  matched := fun m h => by cases h
  unmet := fun _ h => h.1 rfl

lemma restart (hterminal : d'.terminal = none) (hstability : d'.stability = .none)
    (hlined : Lined d'.slots.line d'.sourceFrame) : Sighted q [] d' where
  stability := hstability
  lined := hlined
  matched := fun m h => by
    rw [hterminal] at h
    cases h
  unmet := fun _ h => h.1 rfl

lemma told (hq : q.stability.Representable) (h : Sighted q run d)
    {note : Option (Option (Sighting R))} (hkeeps : ∀ o, d.terminal = some o → d'.terminal = some o)
    (hnote : Told q d d' note) :
    Sighted q (extendStreak run note) d' := by
  have htail : d.slots.line.Sublist (run.map Sighting.stamp ++ d.slots.line) :=
    List.sublist_append_right _ _
  cases hnote with
  | silent hstability hmatched hline hsource =>
    refine ⟨hstability.trans h.stability, ?_, fun m hm => h.matched m (hmatched m hm), ?_⟩
    · rw [hsource]
      exact h.lined.sublist (hline.append_left _)
    · intro hnone
      exact h.unmet fun m hm => hnone m (hkeeps _ hm)
  | joined stamp hstability hterminal hcontinues hsource hline =>
    refine ⟨hstability.trans h.stability, ?_, ?_, ?_⟩
    · rw [hsource, hline, ← List.append_assoc]
      refine (h.lined.sublist ?_).snoc hcontinues
      exact (List.sublist_append_left _ _).append_left _
    · intro m hm
      rw [hterminal] at hm
      exact h.matched m hm
    · rw [hterminal]
      exact h.unmet
  | broke stamp hstability hterminal hsource hline hnone =>
    refine restart (hterminal.trans hnone) hstability ?_
    rw [hsource, hline]
    have hempty : Lined [] none := Lined.nil
    exact hempty.snoc fun last hlast => by cases hlast
  | missed hstability hterminal hnone hline hsource =>
    refine restart (hterminal.trans hnone) hstability ?_
    rw [hsource]
    exact h.lined.sublist (hline.trans htail)
  | sighted s hstability hnone hline hsource hterminal =>
    have hrun : run ++ [s] ≠ [] := by simp
    have hstability' : d'.stability = stabilityOf (run ++ [s]) :=
      hstability.trans (stabilityOf_snoc s h.stability)
    have hstable := stable_iff hq hrun
    rw [hstability'] at hterminal
    refine ⟨hstability', ?_, ?_, ?_⟩
    · have hmap : (run ++ [s]).map Sighting.stamp = run.map Sighting.stamp ++ [s.stamp] :=
        List.map_append
      rw [hsource, extendStreak, hmap, List.append_assoc]
      exact h.lined.sublist (hline.append_left _)
    · intro m hm
      rw [hterminal] at hm
      split at hm
      · rename_i hmeets
        cases hm
        exact ⟨hstable.mp hmeets, s, List.getLast?_concat, rfl⟩
      · cases hm
    · intro hunmatched hmeets
      rw [if_pos (hstable.mpr hmeets)] at hterminal
      exact hunmatched _ hterminal

end Sighted

section Run

variable {τ : Type*} [DecidableEq τ] {q : QueryShared}

/-- **The history and the query**, along every run that callers end without a match. -/
theorem query_sighted (hq : q.stability.Representable)
    {trail : List (QueryWorld τ R × (τ × Event R))} {w : QueryWorld τ R}
    (h : (querySystem τ R q).Path (.start τ R) trail w)
    (hends : ∀ x ∈ trail, x.2.2.EndsUnmatched) :
    Sighted q (streak (history q trail)) w.shared.data ∧ ∀ t, (w.pc t).EndsUnmatched := by
  revert hends
  refine h.along (P := fun trail w => (∀ x ∈ trail, x.2.2.EndsUnmatched) →
    Sighted q (streak (history q trail)) w.shared.data ∧ ∀ t, (w.pc t).EndsUnmatched) ?_ ?_
  · exact fun _ => ⟨.start, fun t => trivial⟩
  · rintro trail w ⟨t, e⟩ w' hpath ih ⟨s', pc', hact, rfl⟩ hends
    rw [List.forall_mem_append, List.forall_mem_singleton] at hends
    obtain ⟨hsighted, hpcs⟩ := ih hends.1
    have hsound := query_sound (w := w) ⟨_, rfl, hpath.leads⟩
    obtain ⟨entry, hstep⟩ := perform_step hact
    have htold := perform_told hsound (hpcs t) hends.2 hact
    have hhistory : history q (trail ++ [(w, (t, e))]) =
        history q trail ++ (noteOf q w.shared.data (w.pc t) e).toList := by
      unfold history
      rw [List.filterMap_append]
      cases hnote : noteOf q w.shared.data (w.pc t) e <;> simp [hnote]
    constructor
    · rw [hhistory, streak_toList]
      exact hsighted.told hq (fun o ho => hstep.turn.keeps ho) htold
    · exact World.forall_move _ _ _ _ (perform_endsUnmatched hends.2 hact) fun u _ => hpcs u

lemma finishMapping_skipped {d : QueryData R} {mapped : MappedMatch} {mapping : Option ℕ}
    {decision : ChangeDecision} {now : ℕ}
    (h : (d.finishMapping q mapped mapping decision now).2 = .skipped) :
    d.stability.observations = 0 := by
  unfold QueryData.finishMapping at h
  simp only at h
  split at h
  · cases h
  split at h
  · cases h
  split at h
  · rename_i hskip
    exact hskip.2
  split at h
  · split at h <;> cases h
  · split at h
    · cases h
    · split at h <;> cases h

/-- **Confirmed stability.**  In every run the sightings since the last break are of one scene and in
order; the query has a match exactly when these sightings are as many or span as long as it
requires; the match is that of the last of them; and a mapping is skipped only while there are
none, and adds none. -/
theorem query_stability (hq : q.stability.Representable)
    (trail : List (QueryWorld τ R × (τ × Event R))) (w : QueryWorld τ R)
    (h : (querySystem τ R q).Path (.start τ R) trail w)
    (hends : ∀ x ∈ trail, x.2.2.EndsUnmatched) :
    ((streak (history q trail)).map Sighting.stamp).Pairwise Continues ∧
    ((∃ m, w.shared.data.terminal = some (.matched m)) ↔
      Meets q.stability (streak (history q trail))) ∧
    (∀ m, w.shared.data.terminal = some (.matched m) →
      ∃ last, (streak (history q trail)).getLast? = some last ∧
        m = matchOf q (streak (history q trail)) last) ∧
    ∀ mapped mapping decision now,
      (w.shared.data.finishMapping q mapped mapping decision now).2 = .skipped →
      streak (history q trail) = [] ∧
        (w.shared.data.finishMapping q mapped mapping decision now).1.stability =
          w.shared.data.stability := by
  obtain ⟨hsighted, -⟩ := query_sighted hq h hends
  refine ⟨?_, ?_, fun m hm => (hsighted.matched m hm).2, ?_⟩
  · exact hsighted.lined.pairwise.sublist (List.sublist_append_left _ _)
  · constructor
    · rintro ⟨m, hm⟩
      exact (hsighted.matched m hm).1
    · intro hmeets
      by_contra hnone
      exact hsighted.unmet (not_exists.mp hnone) hmeets
  · intro mapped mapping decision now hskip
    refine ⟨?_, w.shared.data.finishMapping_stability q mapped mapping decision now⟩
    have hzero : min u32Max (streak (history q trail)).length = 0 := by
      have hobs := finishMapping_skipped hskip
      rw [hsighted.stability] at hobs
      exact hobs
    rw [← List.length_eq_zero_iff]
    have hmax : 0 < u32Max := by decide
    omega

/-- A frame is published, claimed, mapped, admitted and analysed; `last` is what follows. -/
def analysisOf (n time : ℕ) (result : ImmutableAnalysisResult Unit) (last : Event Unit) :
    List (Bool × Event Unit) :=
  [(false, .enqueue (plainStamp n) 0 false), (true, .claim (plainStamp n)),
    (true, .finishMapping (plainMatch n) none .analysisRequired 3 none),
    (true, .callComplete n (plainMatch n) none (.ok result) time), (true, .complete none none),
    (true, last)]

theorem analysisOf_endsUnmatched {n time : ℕ} {result : ImmutableAnalysisResult Unit}
    {last : Event Unit} {x : Bool × Event Unit} (hx : x ∈ analysisOf n time result last)
    (hlast : last.EndsUnmatched) : x.2.EndsUnmatched := by
  simp only [analysisOf, List.mem_cons, List.not_mem_nil, or_false] at hx
  rcases hx with rfl | rfl | rfl | rfl | rfl | rfl
  · trivial
  · trivial
  · exact fun o ho => by cases ho
  · trivial
  · exact fun o ho => by cases ho
  · exact hlast

def twiceQuery : QueryShared := { plainQuery 0 with stability := .consecutive 2 }

def seenAgain : List (Bool × Event Unit) :=
  analysisOf 1 7 (.shared ()) (.finishSourceEnd false) ++
    analysisOf 2 8 .empty (.finishSourceEnd false) ++
    analysisOf 3 9 (.shared ()) (.finishSourceEnd false) ++
    analysisOf 4 12 (.shared ()) .afterTerminalCommit

def twiceStep : Bool → Desk Unit → Pc Unit → Event Unit → Option (Desk Unit × Pc Unit) :=
  fun _ => perform twiceQuery

def seenTrail : List (QueryWorld Bool Unit × (Bool × Event Unit)) :=
  replayTrail twiceStep seenAgain (QueryWorld.start Bool Unit)

def sightings : List (Option (Sighting Unit)) :=
  [some ⟨plainStamp 1, 7, ()⟩, none, some ⟨plainStamp 3, 9, ()⟩, some ⟨plainStamp 4, 12, ()⟩]

/-- The sighting before the break does not count towards the match, which is that of the fourth
frame. -/
theorem query_stability_sample : ∃ w : QueryWorld Bool Unit,
    (querySystem Bool Unit twiceQuery).Path (.start Bool Unit) seenTrail w ∧
    history twiceQuery seenTrail = sightings ∧
    w.shared.data.terminal =
      some (.matched ⟨"template", (plainQuery 0).target, plainStamp 4, (), 2, 3⟩) := by
  have hpath := replay_path (Option.some_get
    (x := replay twiceStep seenAgain (QueryWorld.start Bool Unit)) (by decide +kernel)).symm
    (System.Path.nil (S := querySystem Bool Unit twiceQuery) (QueryWorld.start Bool Unit))
  rw [List.nil_append] at hpath
  have hhistory : history twiceQuery seenTrail = sightings := by decide +kernel
  have hends : ∀ x ∈ seenTrail, x.2.2.EndsUnmatched := by
    intro x hx
    have hstep : x.2 ∈ seenAgain := mem_replayTrail hx
    simp only [seenAgain, List.mem_append] at hstep
    rcases hstep with ((hx | hx) | hx) | hx
    · exact analysisOf_endsUnmatched hx trivial
    · exact analysisOf_endsUnmatched hx trivial
    · exact analysisOf_endsUnmatched hx trivial
    · exact analysisOf_endsUnmatched hx trivial
  have hq : twiceQuery.stability.Representable := (by decide : 2 ≤ u32Max)
  obtain ⟨-, hiff, hmatch, -⟩ := query_stability hq seenTrail _ hpath hends
  rw [hhistory] at hiff hmatch
  obtain ⟨m, hm⟩ := hiff.mpr ⟨List.cons_ne_nil _ _, le_rfl⟩
  obtain ⟨last, hlast, rfl⟩ := hmatch m hm
  obtain rfl : ⟨plainStamp 4, 12, ()⟩ = last := Option.some.inj hlast
  exact ⟨_, hpath, hhistory, hm⟩

end Run

end MadoPilot.Watch
