import MadoPilot.Watch.QueryMachine

/-!
# The moves of a query

An abstract query has an outcome, the last publication offered, a pending publication, a claim, the
analyses in flight and a generation.  `Move` is everything that may happen to it, each move with the
entry it makes in the book.

* `Section` relates the data before and after one section to a move and to the work counters;
* `enqueue_section`, …, `failMapping_section`: each section of the code makes one move;
* `perform_step`: so does each step of the machine, which also commits the outcome, runs its hook or
  does neither.
-/

namespace MadoPilot.Watch

open MadoPilot.Core MadoPilot.Lib

variable {R : Type}

/-! ### The abstract query -/

/-- The abstract query. -/
structure Slots (R : Type) where
  terminal : Option (TemplateTerminalOutcome R)
  source : Option FrameStamp
  pending : Option FrameStamp
  processing : Option FrameStamp
  inFlight : InFlight
  generation : ℕ

def QueryData.slots (d : QueryData R) : Slots R :=
  ⟨d.terminal, d.sourceFrame, d.pendingStamp, d.processing, d.inFlight, d.generation⟩

namespace Slots

variable (s : Slots R)

def outstanding : List FrameStamp := s.pending.toList ++ s.inFlight.stamps

def superseded : List FrameStamp := (s.pending.or s.processing).toList ++ s.inFlight.stamps

/-- The query ended by `supersede_outstanding`: a claim outlives a pending publication. -/
def ended (o : TemplateTerminalOutcome R) : Slots R :=
  { s with
    terminal := some o
    pending := none
    processing := if s.pending.isSome then s.processing else none
    inFlight := .empty }

def cleared (o : TemplateTerminalOutcome R) : Slots R :=
  { s with terminal := some o, pending := none, processing := none, inFlight := .empty }

end Slots

/-- Whose section makes a move: that of `finish_mapping`, that of `terminate` or another one. -/
inductive MoveKind where
  | mapping | termination | other
  deriving DecidableEq, Repr

/-- What may happen to a query. -/
inductive Move : MoveKind → Slots R → Entry → Slots R → Prop
  | stay (k : MoveKind) (s : Slots R) : Move k s .nothing s
  | release (k : MoveKind) (s : Slots R) : Move k s .nothing { s with processing := none }
  | accept {s : Slots R} {stamp : FrameStamp} (displaces : Bool) : s.terminal = none →
      (∀ last, s.source = some last → last.order stamp = .ok .before) →
      Move .other s ⟨[stamp], settleAll (s.pending.toList ++
          if displaces then s.inFlight.stamps else []) .superseded, []⟩
        { s with
          source := some stamp
          pending := some stamp
          inFlight := if displaces then .empty else s.inFlight }
  | claim {s : Slots R} {stamp : FrameStamp} : s.terminal = none → s.processing = none →
      s.inFlight = .empty → s.pending = some stamp →
      Move .other s .nothing { s with processing := some stamp }
  | skip {s : Slots R} {stamp : FrameStamp} : s.terminal = none → s.processing = some stamp →
      s.pending = some stamp →
      Move .mapping s (.settle stamp .skippedChange) { s with pending := none, processing := none }
  | keep {s : Slots R} {stamp : FrameStamp} : s.terminal = none → s.processing = some stamp →
      s.pending = some stamp →
      Move .mapping s ⟨[], [(stamp, .failed)], [stamp]⟩ { s with processing := none }
  | launch {s : Slots R} {stamp : FrameStamp} {f : InFlight} : s.terminal = none →
      s.processing = some stamp → s.pending = some stamp →
      s.inFlight.insert (s.generation + 1, stamp) = some f →
      Move .mapping s .nothing
        { s with generation := s.generation + 1, pending := none, processing := none, inFlight := f }
  | lose {s : Slots R} {stamp : FrameStamp} : s.terminal = none → s.processing = some stamp →
      s.pending = some stamp → s.inFlight.insert (s.generation + 1, stamp) = none →
      Move .mapping s .nothing
        { s with generation := s.generation + 1, pending := none, processing := none }
  | finish {s : Slots R} {generation : ℕ} {stamp : FrameStamp} {d : TemplateWorkDisposition}
      {f : InFlight} : s.terminal = none → s.inFlight.remove (generation, stamp) = some f →
      d.settles = true → Move .other s (.settle stamp d) { s with inFlight := f }
  | terminate {s : Slots R} (o : TemplateTerminalOutcome R) : s.terminal = none →
      Move .termination s ⟨[], settleAll s.superseded .superseded, []⟩ (s.ended o)
  | conclude {s : Slots R} {generation : ℕ} {stamp : FrameStamp} {d : TemplateWorkDisposition}
      {f : InFlight} (o : TemplateTerminalOutcome R) : s.terminal = none →
      s.inFlight.remove (generation, stamp) = some f → d.settles = true →
      Move .other s ⟨[], (stamp, d) :: settleAll ({ s with inFlight := f } : Slots R).superseded
        .superseded, []⟩ (({ s with inFlight := f } : Slots R).ended o)
  | expire {s : Slots R} {stamp : FrameStamp} (o : TemplateTerminalOutcome R) : s.terminal = none →
      s.pending = some stamp →
      Move .other s ⟨[], (stamp, .queueExpired) :: settleAll s.inFlight.stamps .superseded, []⟩
        (s.cleared o)
  | fail {s : Slots R} {stamp : FrameStamp} (o : TemplateTerminalOutcome R) : s.terminal = none →
      s.processing = some stamp → s.pending = some stamp →
      Move .other s ⟨[], settleAll s.inFlight.stamps .superseded ++ [(stamp, .failed)], []⟩
        (s.cleared o)

/-! ### Counting dispositions -/

/-- The counters count the dispositions of some publications, up to saturation. -/
def Tallies (w w' : TemplateWorkCounts) (settled : List (FrameStamp × TemplateWorkDisposition)) :
    Prop :=
  ∀ d, d.settles = true → w'.get d = min u64Max (w.get d + (settled.map Prod.snd).count d)

namespace Tallies

variable {w w' w'' : TemplateWorkCounts} {l l' : List (FrameStamp × TemplateWorkDisposition)}

lemma refl (w : TemplateWorkCounts) : Tallies w w [] := by
  intro d _
  have := w.get_le d
  simp only [List.map_nil, List.count_nil]
  omega

lemma trans (h : Tallies w w' l) (h' : Tallies w' w'' l') : Tallies w w'' (l ++ l') := by
  intro d hd
  rw [h' d hd, h d hd, List.map_append, List.count_append]
  omega

lemma increment (w : TemplateWorkCounts) (stamp : FrameStamp) (d : TemplateWorkDisposition) :
    Tallies w (w.increment d) [(stamp, d)] := by
  intro d' _
  have := w.get_le d'
  rw [TemplateWorkCounts.increment_get]
  by_cases h : d' = d
  · subst h
    simp
  · rw [if_neg h]
    simp only [List.map_cons, List.map_nil, List.count_singleton, beq_iff_eq, Ne.symm h, if_false]
    omega

lemma aside {d : TemplateWorkDisposition} (hd : d.settles = false) (w : TemplateWorkCounts) :
    Tallies w (w.increment d) [] := by
  intro d' hd'
  have := w.get_le d'
  have hne : d' ≠ d := by
    rintro rfl
    rw [hd] at hd'
    cases hd'
  rw [TemplateWorkCounts.increment_get, if_neg hne]
  simp only [List.map_nil, List.count_nil]
  omega

lemma times (w : TemplateWorkCounts) (stamps : List FrameStamp) (d : TemplateWorkDisposition) :
    Tallies w (w.incrementTimes d stamps.length) (settleAll stamps d) := by
  induction stamps with
  | nil => exact refl w
  | cons stamp stamps ih =>
    have h := ih.trans (increment _ stamp d)
    intro d' hd'
    have h' := h d' hd'
    rw [List.map_append, List.count_append] at h'
    rw [List.length_cons, TemplateWorkCounts.incrementTimes, h']
    congr 2
    simp only [settleAll, List.map_cons, List.map_nil, List.count_cons, List.count_nil]
    omega

end Tallies

/-- **One section**: it makes a move, counts what the move settles, and counts nothing once the
query has its outcome. -/
structure Section (k : MoveKind) (d : QueryData R) (e : Entry) (d' : QueryData R) : Prop where
  move : Move k d.slots e d'.slots
  tallies : Tallies d.work d'.work e.settled
  frozen : d.terminal.isSome = true → d'.work = d.work

namespace Section

variable {k : MoveKind} {d d' : QueryData R} {e : Entry}

lemma stay (hslots : d'.slots = d.slots) (hwork : d'.work = d.work) :
    Section k d .nothing d' := by
  refine ⟨?_, ?_, fun _ => hwork⟩
  · rw [hslots]
    exact .stay k _
  · rw [hwork]
    exact .refl _

lemma refl (d : QueryData R) : Section k d .nothing d := stay rfl rfl

lemma of_none (ht : d.terminal = none) (hmove : Move k d.slots e d'.slots)
    (htallies : Tallies d.work d'.work e.settled) : Section k d e d' := by
  refine ⟨hmove, htallies, fun h => ?_⟩
  rw [ht] at h
  cases h

end Section

/-! ### Every section makes one move -/

namespace QueryData

variable (q : QueryShared) (d : QueryData R)

lemma pendingStamp_isSome : d.pendingStamp.isSome = d.pending.isSome := Option.isSome_map

lemma superseded_length : d.superseded.length =
    (if d.pending.isSome || d.processing.isSome then 1 else 0) + d.inFlight.count := by
  unfold superseded pendingStamp
  rw [List.length_append, InFlight.length_stamps]
  cases d.pending <;> cases d.processing <;> rfl

lemma supersedeWith_tallies (o : TemplateTerminalOutcome R) (frame : Option FrameStamp) :
    Tallies d.work (d.supersedeWith o frame).work (settleAll d.superseded .superseded) := by
  have h := Tallies.times d.work d.superseded .superseded
  rw [superseded_length] at h
  exact h

lemma supersedeWith_slots (o : TemplateTerminalOutcome R) (frame : Option FrameStamp) :
    (d.supersedeWith o frame).slots = d.slots.ended o := by
  unfold slots supersedeWith supersedeOutstanding Slots.ended
  rw [pendingStamp_isSome]
  rfl

theorem terminate_section (o : TemplateTerminalOutcome R) :
    Section .termination d (if (d.terminate o).2 then d.terminateEntry else .nothing)
      (d.terminate o).1 := by
  unfold terminate
  split
  · exact .refl d
  · rename_i ht
    refine .of_none ht ?_ (d.supersedeWith_tallies o d.queryFrame)
    simp only
    rw [supersedeWith_slots]
    exact .terminate o ht

theorem recordDisposition_section {disposition : TemplateWorkDisposition}
    (h : disposition.settles = false) :
    Section .other d .nothing (d.recordDisposition disposition).1 := by
  unfold recordDisposition
  by_cases ht : d.terminal.isSome = true
  · rw [if_pos ht]
    exact .refl d
  · rw [if_neg ht]
    exact .of_none (by simpa using ht) (.stay _ _) (.aside h _)

lemma applyMappingBarrier_slots : (d.applyMappingBarrier q).1.slots = d.slots := by
  unfold applyMappingBarrier
  by_cases ht : (d.terminal.isSome || d.pending.isNone) = true
  · rw [if_pos ht]
  rw [if_neg ht]
  by_cases hrate : q.minimumInterval = 0
  · rw [if_pos hrate]
    rfl
  rw [if_neg hrate]
  simp only
  cases d.lastAdmitted.bind (instantAdd · q.minimumInterval) with
  | none => rfl
  | some eligible =>
    cases hp : d.pending with
    | none => simp only [slots, pendingStamp, hp]
    | some pending =>
      simp only
      split <;> simp only [slots, pendingStamp, hp, Option.map_some]

lemma applyMappingBarrier_tallies : Tallies d.work (d.applyMappingBarrier q).1.work [] := by
  unfold applyMappingBarrier
  by_cases ht : (d.terminal.isSome || d.pending.isNone) = true
  · rw [if_pos ht]
    exact .refl _
  rw [if_neg ht]
  by_cases hrate : q.minimumInterval = 0
  · rw [if_pos hrate]
    exact .refl _
  rw [if_neg hrate]
  simp only
  cases d.lastAdmitted.bind (instantAdd · q.minimumInterval) with
  | none => exact .refl _
  | some eligible =>
    cases d.pending with
    | none => exact .refl _
    | some pending =>
      simp only
      split
      · exact .refl _
      · exact .aside rfl _

theorem applyMappingBarrier_section : Section .other d .nothing (d.applyMappingBarrier q).1 := by
  refine ⟨?_, d.applyMappingBarrier_tallies q, fun ht => ?_⟩
  · rw [applyMappingBarrier_slots]
    exact .stay _ _
  · unfold applyMappingBarrier
    rw [if_pos (by rw [ht, Bool.true_or])]

lemma replacePending_tallies (stamp : FrameStamp) (now : ℕ) (preserveAge : Bool) :
    Tallies d.work (d.replacePending stamp now preserveAge).work
      (settleAll (d.pendingStamp.toList ++ if d.incompatible stamp then d.inFlight.stamps else [])
        .superseded) := by
  have h := Tallies.times d.work (d.pendingStamp.toList ++
    if d.incompatible stamp then d.inFlight.stamps else []) .superseded
  have hlen : (d.pendingStamp.toList ++ if d.incompatible stamp then d.inFlight.stamps
      else []).length = (if d.incompatible stamp then d.inFlight.count else 0) +
        if d.pending.isSome then 1 else 0 := by
    rw [List.length_append, Nat.add_comm, pendingStamp]
    congr 1
    · split
      · exact InFlight.length_stamps
      · rfl
    · cases d.pending <;> rfl
  rw [hlen] at h
  exact h

lemma isBefore_iff {a b : FrameStamp} : isBefore a b = true ↔ a.order b = .ok .before := by
  unfold isBefore
  split
  · simp [*]
  · simpa using ‹_›

theorem enqueue_section (stamp : FrameStamp) (now : ℕ) (barrier : Bool) :
    Section .other d (d.enqueueEntry q stamp) (d.enqueue q stamp now barrier) := by
  unfold enqueue enqueueEntry
  by_cases hacc : d.accepts q stamp = true
  · rw [if_pos hacc, if_pos hacc]
    simp only [accepts, Bool.and_eq_true, Option.isNone_iff_eq_none, decide_eq_true_eq] at hacc
    obtain ⟨⟨ht, -⟩, hbefore⟩ := hacc
    have hbefore' : ∀ last, d.slots.source = some last → last.order stamp = .ok .before := by
      intro last hlast
      rw [show d.sourceFrame = some last from hlast, Option.all_some] at hbefore
      exact isBefore_iff.mp hbefore
    have hmove := Move.accept (s := d.slots) (d.incompatible stamp) ht
      hbefore'
    have htallies := d.replacePending_tallies stamp now (d.barrierDeferred || barrier)
    by_cases hpreserve : (d.barrierDeferred || barrier) = true
    · simp only [if_pos hpreserve]
      refine .of_none ht ?_ ?_
      · rw [applyMappingBarrier_slots]
        exact hmove
      · have h := htallies.trans (applyMappingBarrier_tallies q _)
        rw [List.append_nil] at h
        exact h
    · simp only [if_neg hpreserve]
      exact .of_none ht hmove htallies
  · rw [if_neg hacc, if_neg hacc]
    exact .refl d

theorem claim_section (stamp : FrameStamp) : Section .other d .nothing (d.claim stamp).1 := by
  unfold claim
  by_cases h : (d.terminal.isSome || d.processing.isSome || d.analysisCapacityReached) = true
  · rw [if_pos h]
    exact .refl d
  rw [if_neg h]
  simp only [Bool.or_eq_true, Option.isSome_iff_ne_none, not_or, not_not, analysisCapacityReached]
    at h
  obtain ⟨⟨ht, hproc⟩, hfirst, hsecond⟩ := h
  cases hp : d.pending with
  | none => exact .refl d
  | some pending =>
    simp only
    by_cases hstamp : pending.stamp ≠ stamp
    · rw [if_pos hstamp]
      exact .refl d
    · rw [if_neg hstamp]
      rw [not_not] at hstamp
      have hempty : d.inFlight = .empty := by
        rcases hf : d.inFlight with ⟨first, second⟩
        rw [hf] at hfirst hsecond
        simp only at hfirst hsecond
        rw [hfirst, hsecond]
        rfl
      have hpending : d.pendingStamp = some stamp := by
        rw [pendingStamp, hp, Option.map_some, hstamp]
      have hmove := Move.claim (s := d.slots) ht hproc hempty hpending
      refine .of_none ht ?_ (.refl _)
      simpa only [slots, pendingStamp, hp] using hmove

theorem releaseClaim_section (stamp : FrameStamp) :
    Section .other d .nothing (d.releaseClaim stamp) := by
  unfold releaseClaim
  by_cases h : d.processing = some stamp
  · rw [if_pos h]
    exact ⟨.release _ _, .refl _, fun _ => rfl⟩
  · rw [if_neg h]
    exact .refl d

theorem expireIfCurrent_section (candidate : CandidateSnapshot) (now expiry : ℕ) :
    Section .other d (if (d.expireIfCurrent candidate now expiry).2 then d.expireEntry candidate.stamp
      else .nothing) (d.expireIfCurrent candidate now expiry).1 := by
  unfold expireIfCurrent
  simp only
  split
  · exact .refl d
  · rename_i h
    simp only [Bool.or_eq_true, not_or, Bool.not_eq_true, Option.isSome_eq_false_iff,
      Option.isNone_iff_eq_none, Bool.not_eq_false', Option.any_eq_true, Bool.and_eq_true,
      decide_eq_true_eq] at h
    obtain ⟨⟨⟨⟨⟨ht, pending, hp, hstamp, -⟩, -⟩, -⟩, -⟩, -⟩ := h
    have hpending : d.pendingStamp = some candidate.stamp := by
      rw [pendingStamp, hp, Option.map_some, hstamp]
    refine .of_none ht (.expire (s := d.slots) _ ht hpending) ?_
    have h := (Tallies.increment d.work candidate.stamp .queueExpired).trans
      (Tallies.times _ d.inFlight.stamps .superseded)
    rw [InFlight.length_stamps] at h
    exact h

theorem failMapping_section (stamp : FrameStamp) (error : Error) :
    Section .other d (if (d.failMapping stamp error).2 then d.failEntry stamp else .nothing)
      (d.failMapping stamp error).1 := by
  unfold failMapping
  split
  · exact releaseClaim_section d stamp
  · rename_i h
    simp only [Bool.or_eq_true, not_or, Bool.not_eq_true, Option.isSome_eq_false_iff,
      Option.isNone_iff_eq_none, decide_eq_true_eq, not_not] at h
    obtain ⟨⟨ht, hproc⟩, hpending⟩ := h
    refine .of_none ht (.fail (s := d.slots) _ ht hproc hpending) ?_
    have h := (Tallies.times d.work d.inFlight.stamps .superseded).trans
      (Tallies.increment _ stamp .failed)
    rw [InFlight.length_stamps] at h
    exact h

theorem finishMapping_section (mapped : MappedMatch) (mapping : Option ℕ)
    (decision : ChangeDecision) (now : ℕ) :
    Section .mapping d ((d.finishMapping q mapped mapping decision now).2.entry mapped.frame)
      (d.finishMapping q mapped mapping decision now).1 := by
  unfold finishMapping
  by_cases h : (d.terminal.isSome || decide (d.processing ≠ some mapped.frame)) = true
  · simp only [if_pos h]
    exact .refl d
  simp only [if_neg h]
  simp only [Bool.or_eq_true, not_or, Bool.not_eq_true, Option.isSome_eq_false_iff,
    Option.isNone_iff_eq_none, decide_eq_true_eq, not_not] at h
  obtain ⟨ht, hproc⟩ := h
  by_cases hpending : d.pendingStamp ≠ some mapped.frame
  · simp only [if_pos hpending]
    exact ⟨.release _ _, .refl _, fun _ => rfl⟩
  simp only [if_neg hpending]
  rw [not_not] at hpending
  by_cases hskip : decision = .unchanged ∧ d.stability.observations = 0
  · simp only [if_pos hskip]
    exact .of_none ht (.skip (s := d.slots) ht hproc hpending) (.increment _ _ _)
  simp only [if_neg hskip]
  by_cases hrate : q.minimumInterval ≠ 0 ∧ d.lastAdmitted.any (now - · < q.minimumInterval) = true
  · simp only [if_pos hrate]
    cases d.lastAdmitted.bind (instantAdd · q.minimumInterval) with
    | none => exact .of_none ht (.keep (s := d.slots) ht hproc hpending) (.increment _ _ _)
    | some eligible =>
      refine .of_none ht ?_ ?_
      · have hmap : (d.pending.map ({ · with eligibleSince := eligible })).map PendingFrame.stamp =
            d.pendingStamp := by
          rw [Option.map_map]
          rfl
        simp only [slots, pendingStamp, hmap]
        exact .release _ d.slots
      · simp only
        split
        · exact .aside rfl _
        · exact .refl _
  simp only [if_neg hrate]
  cases hgen : checkedAdd u64Max d.generation 1 with
  | none => exact .stay rfl rfl
  | some generation =>
    obtain ⟨rfl, -⟩ := checkedAdd_eq_some.mp hgen
    cases hinsert : d.inFlight.insert (d.generation + 1, mapped.frame) with
    | none =>
      simp only [hinsert]
      exact .of_none ht (.lose (s := d.slots) ht hproc hpending hinsert) (.refl _)
    | some f =>
      simp only [hinsert]
      exact .of_none ht (.launch (s := d.slots) ht hproc hpending hinsert) (.refl _)

theorem complete_section (generation : ℕ) (mapped : MappedMatch) (mapping : Option ℕ)
    (result : Except Error (ImmutableAnalysisResult R)) (now : ℕ)
    (interruption : Option Interruption) :
    Section .other d
      ((d.complete q generation mapped mapping result now interruption).2.entry mapped.frame
        (completionDisposition result) (d.supersededBy generation mapped.frame))
      (d.complete q generation mapped mapping result now interruption).1 := by
  unfold complete supersededBy
  cases hremove : d.inFlight.remove (generation, mapped.frame) with
  | none =>
    simp only [hremove]
    exact .refl d
  | some f =>
    simp only [hremove]
    by_cases ht : d.terminal.isSome = true
    · simp only [if_pos ht]
      exact .refl d
    simp only [if_neg ht]
    rw [Bool.not_eq_true, Option.isSome_eq_false_iff, Option.isNone_iff_eq_none] at ht
    cases interruption with
    | some i => exact .refl d
    | none =>
      simp only
      by_cases hgen : generation ≠ d.generation
      · simp only [if_pos hgen]
        exact .of_none ht (.finish (s := d.slots) ht hremove rfl) (.increment _ _ _)
      simp only [if_neg hgen]
      have hfinish : Move .other d.slots (.settle mapped.frame .completed)
          { d.slots with inFlight := f } := .finish (s := d.slots) ht hremove rfl
      have hconclude : ∀ disposition o, disposition.settles = true →
          Move .other d.slots ⟨[], (mapped.frame, disposition) ::
            settleAll ({ d.slots with inFlight := f } : Slots R).superseded .superseded, []⟩
            (({ d.slots with inFlight := f } : Slots R).ended o) :=
        fun _ o hd => .conclude (s := d.slots) o ht hremove hd
      cases result with
      | error error =>
        refine .of_none ht ?_ ((Tallies.increment _ _ _).trans (supersedeWith_tallies _ _ _))
        simp only
        rw [supersedeWith_slots]
        exact hconclude .failed (.failed error) rfl
      | ok result =>
        cases result with
        | empty => exact .of_none ht hfinish (.increment _ _ _)
        | shared result =>
          simp only
          split
          · refine .of_none ht ?_ ((Tallies.increment _ _ _).trans (supersedeWith_tallies _ _ _))
            simp only
            rw [supersedeWith_slots]
            exact hconclude .completed _ rfl
          · exact .of_none ht hfinish (.increment _ _ _)

/-! ### Who stores the outcome -/

/-- What a section that may commit says of the outcome: it stores one where there was none, or it
leaves the outcome as it was. -/
def Commits (d' : QueryData R) (committed : Bool) : Prop :=
  if committed then d.terminal = none ∧ ∃ o, d'.terminal = some o else d'.terminal = d.terminal

lemma terminate_commits (o : TemplateTerminalOutcome R) :
    d.Commits (d.terminate o).1 (d.terminate o).2 := by
  unfold terminate
  split
  · rfl
  · rename_i ht
    exact ⟨ht, o, rfl⟩

lemma expireIfCurrent_commits (candidate : CandidateSnapshot) (now expiry : ℕ) :
    d.Commits (d.expireIfCurrent candidate now expiry).1
      (d.expireIfCurrent candidate now expiry).2 := by
  unfold expireIfCurrent
  simp only
  split
  · rfl
  · rename_i h
    simp only [Bool.or_eq_true, not_or, Bool.not_eq_true, Option.isSome_eq_false_iff,
      Option.isNone_iff_eq_none] at h
    exact ⟨h.1.1.1.1.1, _, rfl⟩

lemma releaseClaim_terminal (stamp : FrameStamp) : (d.releaseClaim stamp).terminal = d.terminal := by
  unfold releaseClaim
  split <;> rfl

lemma failMapping_commits (stamp : FrameStamp) (error : Error) :
    d.Commits (d.failMapping stamp error).1 (d.failMapping stamp error).2 := by
  unfold failMapping
  split
  · exact d.releaseClaim_terminal stamp
  · rename_i h
    simp only [Bool.or_eq_true, not_or, Bool.not_eq_true, Option.isSome_eq_false_iff,
      Option.isNone_iff_eq_none] at h
    exact ⟨h.1.1, _, rfl⟩

lemma applyMappingBarrier_terminal : (d.applyMappingBarrier q).1.terminal = d.terminal :=
  congrArg Slots.terminal (d.applyMappingBarrier_slots q)

lemma enqueue_terminal (stamp : FrameStamp) (now : ℕ) (barrier : Bool) :
    (d.enqueue q stamp now barrier).terminal = d.terminal := by
  unfold enqueue
  split
  · simp only
    split
    · exact applyMappingBarrier_terminal q _
    · rfl
  · rfl

lemma claim_terminal (stamp : FrameStamp) : (d.claim stamp).1.terminal = d.terminal := by
  unfold claim
  split
  · rfl
  · split
    · rfl
    · split <;> rfl

lemma recordDisposition_terminal (disposition : TemplateWorkDisposition) :
    (d.recordDisposition disposition).1.terminal = d.terminal := by
  unfold recordDisposition
  split <;> rfl

lemma finishMapping_terminal (mapped : MappedMatch) (mapping : Option ℕ)
    (decision : ChangeDecision) (now : ℕ) :
    (d.finishMapping q mapped mapping decision now).1.terminal = d.terminal := by
  unfold finishMapping
  simp only
  split
  · rfl
  split
  · rfl
  split
  · rfl
  split
  · split <;> rfl
  · split
    · rfl
    · split <;> rfl

lemma complete_commits (generation : ℕ) (mapped : MappedMatch) (mapping : Option ℕ)
    (result : Except Error (ImmutableAnalysisResult R)) (now : ℕ)
    (interruption : Option Interruption) :
    d.Commits (d.complete q generation mapped mapping result now interruption).1
      (decide ((d.complete q generation mapped mapping result now interruption).2 = .committed)) := by
  unfold complete
  cases hremove : d.inFlight.remove (generation, mapped.frame) with
  | none =>
    simp only [hremove]
    rfl
  | some f =>
    simp only [hremove]
    by_cases ht : d.terminal.isSome = true
    · simp only [if_pos ht]
      rfl
    simp only [if_neg ht]
    rw [Bool.not_eq_true, Option.isSome_eq_false_iff, Option.isNone_iff_eq_none] at ht
    cases interruption with
    | some i => rfl
    | none =>
      simp only
      by_cases hgen : generation ≠ d.generation
      · simp only [if_pos hgen]
        rfl
      simp only [if_neg hgen]
      cases result with
      | error error => exact ⟨ht, _, rfl⟩
      | ok result =>
        cases result with
        | empty => rfl
        | shared result =>
          simp only
          split
          · exact ⟨ht, _, rfl⟩
          · rfl

end QueryData

/-! ### Every step makes one move -/

def Event.kind : Event R → MoveKind
  | .finishMapping .. => .mapping
  | .terminate _ => .termination
  | _ => .other

/-- What a step does with the outcome and its hook: nothing, a commit that owes the hook, or the
hook. -/
inductive Turn (s : Desk R) (pc : Pc R) (s' : Desk R) (pc' : Pc R) : Prop
  | quiet : s'.data.terminal = s.data.terminal → s'.commits = s.commits →
      s'.hookRuns = s.hookRuns → pc ≠ .committed → pc' ≠ .committed → Turn s pc s' pc'
  | commit (o : TemplateTerminalOutcome R) : s.data.terminal = none →
      s'.data.terminal = some o → s'.commits = s.commits ++ [o] → s'.hookRuns = s.hookRuns →
      pc ≠ .committed → pc' = .committed → Turn s pc s' pc'
  | hook : pc = .committed → pc' = .idle → s' = { s with hookRuns := s.hookRuns + 1 } →
      Turn s pc s' pc'

lemma Turn.keeps {s s' : Desk R} {pc pc' : Pc R} (h : Turn s pc s' pc')
    {o : TemplateTerminalOutcome R} (ho : s.data.terminal = some o) : s'.data.terminal = some o := by
  cases h with
  | quiet ht => exact ht.trans ho
  | commit o' hnone =>
    rw [hnone] at ho
    cases ho
  | hook _ _ hs =>
    subst hs
    exact ho

/-- **One step**: a section of the query with its entry in the book, and a turn. -/
structure Step (k : MoveKind) (s : Desk R) (pc : Pc R) (e : Entry) (s' : Desk R) (pc' : Pc R) :
    Prop where
  sec : Section k s.data e s'.data
  accepted : s'.accepted = s.accepted ++ e.accepted
  settled : s'.settled = s.settled ++ e.settled
  kept : s'.kept = s.kept ++ e.kept
  turn : Turn s pc s' pc'

namespace Step

variable {k : MoveKind} {s : Desk R} {pc pc' : Pc R} {d : QueryData R} {e : Entry}

lemma pass (hpc : pc ≠ .committed) (hpc' : pc' ≠ .committed) : Step k s pc .nothing s pc' where
  sec := .refl _
  accepted := (List.append_nil _).symm
  settled := (List.append_nil _).symm
  kept := (List.append_nil _).symm
  turn := .quiet rfl rfl rfl hpc hpc'

lemma write (hsec : Section k s.data e d) (ht : d.terminal = s.data.terminal)
    (hpc : pc ≠ .committed) (hpc' : pc' ≠ .committed) : Step k s pc e (s.write d e) pc' :=
  ⟨hsec, rfl, rfl, rfl, .quiet ht rfl rfl hpc hpc'⟩

lemma writeTerminal {committed : Bool}
    (hsec : Section k s.data (if committed then e else .nothing) d)
    (hcommits : s.data.Commits d committed) (hpc : pc ≠ .committed) :
    Step k s pc (if committed then e else .nothing) (s.writeTerminal d e committed)
      (committedNext committed) := by
  refine ⟨hsec, rfl, rfl, rfl, ?_⟩
  cases committed with
  | false => exact .quiet hcommits rfl rfl hpc (by simp [committedNext])
  | true =>
    obtain ⟨hnone, o, ho⟩ := hcommits
    refine .commit o hnone ho ?_ rfl hpc rfl
    show s.commits ++ d.terminal.toList = s.commits ++ [o]
    rw [ho]
    rfl

end Step

lemma MappingEnd.next_ne (m : MappingEnd) : (m.next : Pc R) ≠ .committed := by
  cases m <;> simp [MappingEnd.next]

lemma complete_step (q : QueryShared) (s : Desk R) (generation : ℕ) (mapped : MappedMatch)
    (mapping : Option ℕ) (result : Except Error (ImmutableAnalysisResult R)) (now : ℕ)
    (interruption : Option Interruption) {s' : Desk R} {pc pc' : Pc R} (hpc : pc ≠ .committed)
    (h : (let (d, completion) :=
          s.data.complete q generation mapped mapping result now interruption
        let entry := completion.entry mapped.frame (completionDisposition result)
          (s.data.supersededBy generation mapped.frame)
        some ({ s.write d entry with
          commits := if completion = .committed then s.commits ++ d.terminal.toList
            else s.commits }, completion.next)) = some (s', pc')) :
    ∃ entry, Step .other s pc entry s' pc' := by
  have hsec := s.data.complete_section q generation mapped mapping result now interruption
  have hcommits := s.data.complete_commits q generation mapped mapping result now interruption
  rcases hr : s.data.complete q generation mapped mapping result now interruption with
    ⟨d, completion⟩
  rw [hr] at hsec hcommits
  simp only [hr, Option.some.injEq, Prod.mk.injEq] at h
  obtain ⟨rfl, rfl⟩ := h
  refine ⟨_, hsec, rfl, rfl, rfl, ?_⟩
  by_cases hc : completion = .committed
  · subst hc
    obtain ⟨hnone, o, ho⟩ := hcommits
    refine .commit o hnone ho ?_ rfl hpc rfl
    show s.commits ++ d.terminal.toList = s.commits ++ [o]
    rw [show d.terminal = some o from ho]
    rfl
  · rw [QueryData.Commits, decide_eq_false hc] at hcommits
    refine .quiet hcommits (if_neg hc) rfl hpc ?_
    cases completion <;> simp_all [Completion.next]

theorem perform_step {q : QueryShared} {s s' : Desk R} {pc pc' : Pc R} {e : Event R}
    (h : perform q s pc e = some (s', pc')) : ∃ entry, Step e.kind s pc entry s' pc' := by
  unfold perform at h
  split at h
  -- `enqueue`, the barrier, `claim`, `release_claim`, `record_disposition` twice
  · cases h
    exact ⟨_, .write (s.data.enqueue_section q _ _ _) (s.data.enqueue_terminal q _ _ _)
      (by simp) (by simp)⟩
  · cases h
    exact ⟨_, .write (s.data.applyMappingBarrier_section q) (s.data.applyMappingBarrier_terminal q)
      (by simp) (by simp)⟩
  · cases h
    exact ⟨_, .write (s.data.claim_section _) (s.data.claim_terminal _) (by simp) (by simp)⟩
  · cases h
    exact ⟨_, .write (s.data.releaseClaim_section _) (s.data.releaseClaim_terminal _) (by simp)
      (by simp)⟩
  · cases h
    exact ⟨_, .write (s.data.recordDisposition_section rfl) (s.data.recordDisposition_terminal _)
      (by simp) (by simp)⟩
  · cases h
    exact ⟨_, .write (s.data.recordDisposition_section rfl) (s.data.recordDisposition_terminal _)
      (by simp) (by simp)⟩
  -- `terminate`: its call and its section
  · cases h
    exact ⟨_, .pass (by simp) (by simp)⟩
  · rename_i outcome authority
    cases h
    exact ⟨_, .writeTerminal (s.data.terminate_section (authority.getD outcome))
      (s.data.terminate_commits (authority.getD outcome)) (by simp)⟩
  -- `expire_if_current`
  · rename_i candidate now expiry interruption authority
    split at h
    · cases h
      exact ⟨_, .pass (by simp) (by simp)⟩
    · cases h
      exact ⟨_, .pass (by simp) (by simp)⟩
    · cases h
      exact ⟨_, .writeTerminal (s.data.expireIfCurrent_section candidate now expiry)
        (s.data.expireIfCurrent_commits candidate now expiry) (by simp)⟩
  -- `finish_mapping`
  · rename_i mapped mapping decision now authority
    split at h
    · cases h
      exact ⟨_, .pass (by simp) (by simp)⟩
    · cases h
      exact ⟨_, .write (s.data.finishMapping_section q mapped mapping decision now)
        (s.data.finishMapping_terminal q mapped mapping decision now) (by simp)
        (MappingEnd.next_ne _)⟩
  -- `complete`: its first look and its section
  · cases h
    refine ⟨_, .pass (by simp) ?_⟩
    split <;> simp
  · rename_i generation mapped mapping result now refusal interruption
    split at h
    · cases h
      exact ⟨_, .pass (by simp) (by simp)⟩
    · exact complete_step q s generation mapped mapping result now interruption (by simp) h
  -- `fail_mapping`
  · rename_i stamp error interruption authority
    split at h
    · cases h
      exact ⟨_, .pass (by simp) (by simp)⟩
    · cases h
      exact ⟨_, .pass (by simp) (by simp)⟩
    · cases h
      exact ⟨_, .writeTerminal (s.data.failMapping_section stamp error)
        (s.data.failMapping_commits stamp error) (by simp)⟩
  -- `finish_source_end_if_idle` and the hook
  · cases h
    refine ⟨_, .pass (by simp) ?_⟩
    split <;> simp
  · cases h
    exact ⟨.nothing, .refl _, (List.append_nil _).symm, (List.append_nil _).symm,
      (List.append_nil _).symm, .hook rfl rfl rfl⟩
  · cases h

theorem perform_mapping {q : QueryShared} {s s' : Desk R} {pc pc' : Pc R} {e : Event R}
    (hk : e.kind = .mapping) (h : perform q s pc e = some (s', pc')) :
    (s' = s ∧ ∀ mapped mapping decision now, e ≠ .finishMapping mapped mapping decision now none) ∨
    ∃ mapped mapping decision now, e = .finishMapping mapped mapping decision now none ∧
      s' = s.write (s.data.finishMapping q mapped mapping decision now).1
        ((s.data.finishMapping q mapped mapping decision now).2.entry mapped.frame) := by
  cases e with
  | finishMapping mapped mapping decision now authority =>
    cases pc with
    | idle =>
      cases authority with
      | some outcome =>
        cases h
        exact Or.inl ⟨rfl, by simp⟩
      | none =>
        have heq : some (_, _) = some (s', pc') := h
        rw [Option.some.injEq, Prod.mk.injEq] at heq
        exact Or.inr ⟨mapped, mapping, decision, now, rfl, heq.1.symm⟩
    | _ => cases h
  | _ => cases hk

end MadoPilot.Watch
