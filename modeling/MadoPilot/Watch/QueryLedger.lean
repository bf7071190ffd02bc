import MadoPilot.Lib.Ledger
import MadoPilot.Watch.QuerySlots

/-!
# Every publication is counted once

The query takes publications in, holds the pending one and those under analysis, and counts a
disposition for each that leaves it.  The book keeps the accounts of a run; the work counters agree
with the book until one of them saturates.

One path counts too early: where the analysis interval carries the last admission past the end of
the clock, `finish_mapping` counts the publication as failed, keeps it pending and goes on to end the
query, which counts it again.

* `Move.accounts` is what a move books, `Booked` the invariant of the book;
* `step_kept_iff` says when `finish_mapping` counts too early;
* `query_conservation` is the result for runs.
-/

namespace MadoPilot.Watch

open MadoPilot.Core MadoPilot.Lib

variable {R : Type}

/-! ### What a move books -/

@[simp] lemma settleAll_stamps (stamps : List FrameStamp) (d : TemplateWorkDisposition) :
    (settleAll stamps d).map Prod.fst = stamps := by
  unfold settleAll
  rw [List.map_map]
  exact List.map_id stamps

namespace InFlight

variable {f f' : InFlight} {generation : ℕ} {stamp : FrameStamp}

lemma remove_stamps (h : f.remove (generation, stamp) = some f') :
    f.stamps.Perm (stamp :: f'.stamps) :=
  (remove_perm h).map Prod.snd

lemma insert_stamps (h : f.insert (generation, stamp) = some f') :
    f'.stamps.Perm (stamp :: f.stamps) :=
  (insert_perm h).map Prod.snd

end InFlight

namespace Slots

variable {s : Slots R}

lemma Sound.superseded_eq (hs : s.Sound) (ht : s.terminal = none) : s.superseded = s.outstanding := by
  unfold superseded outstanding
  cases hp : s.pending with
  | some p => rfl
  | none =>
    cases hc : s.processing with
    | none => rfl
    | some c =>
      obtain ⟨-, p, hpending, -⟩ := hs.held ht c hc
      rw [hp] at hpending
      cases hpending

lemma outstanding_of_pending {stamp : FrameStamp} (h : s.pending = some stamp) :
    s.outstanding = stamp :: s.inFlight.stamps := by
  unfold outstanding
  rw [h]
  rfl

lemma outstanding_ended (o : TemplateTerminalOutcome R) : (s.ended o).outstanding = [] := rfl

lemma outstanding_cleared (o : TemplateTerminalOutcome R) : (s.cleared o).outstanding = [] := rfl

end Slots

/-- **What a move books**: the publications held before, those accepted and those counted early are
the publications held afterwards and those counted. -/
theorem Move.accounts {k : MoveKind} {s s' : Slots R} {e : Entry} (h : Move k s e s')
    (hs : s.Sound) :
    (s.outstanding ++ e.accepted ++ e.kept).Perm (s'.outstanding ++ e.settled.map Prod.fst) := by
  cases h with
  | stay => simp [Entry.nothing]
  | release => simp [Entry.nothing, Slots.outstanding]
  | @accept _ stamp displaces ht hbefore =>
    simp only [Slots.outstanding, settleAll_stamps, Option.toList_some, List.append_nil]
    rw [List.perm_iff_count]
    intro a
    cases displaces with
    | true =>
      simp only [if_true, InFlight.empty_stamps, List.count_append, List.count_nil]
      omega
    | false =>
      simp only [Bool.false_eq_true, if_false, List.count_append, List.count_nil]
      omega
  | claim => simp [Entry.nothing, Slots.outstanding]
  | @skip _ stamp ht hproc hp =>
    rw [Slots.outstanding_of_pending hp]
    simp only [Entry.settle, Slots.outstanding, Option.toList_none, List.nil_append,
      List.append_nil, List.map_cons, List.map_nil]
    exact (List.perm_append_singleton stamp _).symm
  | keep => simp [Slots.outstanding]
  | @launch _ stamp f ht hproc hp hinsert =>
    rw [Slots.outstanding_of_pending hp]
    simp only [Entry.nothing, Slots.outstanding, Option.toList_none, List.nil_append,
      List.append_nil, List.map_nil]
    exact (InFlight.insert_stamps hinsert).symm
  | @lose _ stamp ht hproc hp hinsert =>
    -- the claim excludes analyses, so there is a free slot
    rw [(hs.held ht stamp hproc).1, InFlight.insert_empty] at hinsert
    cases hinsert
  | @finish _ generation stamp d f ht hremove hd =>
    have hstamps := (InFlight.remove_stamps hremove).append_left s.pending.toList
    simp only [Entry.settle, Slots.outstanding, List.append_nil, List.map_cons, List.map_nil,
      List.append_assoc]
    refine hstamps.trans (List.Perm.append_left _ ?_)
    exact (List.perm_append_singleton stamp _).symm
  | terminate o ht =>
    rw [Slots.outstanding_ended, settleAll_stamps, hs.superseded_eq ht]
    simp
  | @conclude _ generation stamp d f o ht hremove hd =>
    have hproc := hs.processing_of_remove ht hremove
    have hstamps := (InFlight.remove_stamps hremove).append_left s.pending.toList
    simp only [Slots.outstanding_ended, Slots.superseded, hproc, Option.or_none, List.map_cons,
      settleAll_stamps, List.nil_append, List.append_nil]
    exact hstamps.trans List.perm_middle
  | @expire _ stamp o ht hp =>
    rw [Slots.outstanding_of_pending hp, Slots.outstanding_cleared]
    simp
  | @fail _ stamp o ht hproc hp =>
    rw [Slots.outstanding_of_pending hp, Slots.outstanding_cleared]
    simp only [List.append_nil, List.nil_append, List.map_append, settleAll_stamps, List.map_cons,
      List.map_nil]
    exact (List.perm_append_singleton stamp _).symm

lemma Move.settles {k : MoveKind} {s s' : Slots R} {e : Entry} (h : Move k s e s') :
    ∀ x ∈ e.settled, x.2.settles = true := by
  have hall : ∀ (stamps : List FrameStamp), ∀ x ∈ settleAll stamps .superseded,
      x.2.settles = true := by
    intro stamps x hx
    obtain ⟨stamp, -, rfl⟩ := List.mem_map.mp hx
    rfl
  cases h with
  | accept | terminate => exact hall _
  | skip | keep => exact List.forall_mem_singleton.mpr rfl
  | finish ht hremove hd => exact List.forall_mem_singleton.mpr hd
  | conclude o ht hremove hd => exact List.forall_mem_cons.mpr ⟨hd, hall _⟩
  | expire => exact List.forall_mem_cons.mpr ⟨rfl, hall _⟩
  | fail => exact List.forall_mem_append.mpr ⟨hall _, List.forall_mem_singleton.mpr rfl⟩
  | _ => exact fun x hx => by cases hx

lemma Move.source {k : MoveKind} {s s' : Slots R} {e : Entry} (h : Move k s e s') :
    (e.accepted = [] ∧ s'.source = s.source) ∨
    ∃ stamp, e.accepted = [stamp] ∧ s'.source = some stamp ∧
      ∀ last, s.source = some last → last.order stamp = .ok .before := by
  cases h with
  | @accept _ stamp displaces ht hbefore => exact Or.inr ⟨stamp, rfl, rfl, hbefore⟩
  | _ => exact Or.inl ⟨rfl, rfl⟩

lemma Move.kept {k : MoveKind} {s s' : Slots R} {e : Entry} (h : Move k s e s') :
    e.kept = [] ∨ k = .mapping ∧ ∃ stamp, e.kept = [stamp] ∧ s.pending = some stamp := by
  cases h with
  | @keep _ stamp ht hproc hp => exact Or.inr ⟨rfl, stamp, rfl, hp⟩
  | _ => exact Or.inl rfl

/-! ### The book -/

/-- **The book of a run.**  The accounts balance, every accepted publication is another one, the
last one is the query's, and the counters count the book. -/
structure Booked (s : Desk R) : Prop where
  accounts : Accounts s.accepted s.kept s.data.outstanding (s.settled.map Prod.fst)
  source_mem : ∀ last, s.data.sourceFrame = some last → last ∈ s.accepted
  ordered : ∀ x ∈ s.accepted, ∃ last, s.data.sourceFrame = some last ∧ SameOrLater x last
  nodup : s.accepted.Nodup
  kept_mem : ∀ x ∈ s.kept, x ∈ s.accepted
  settles : ∀ x ∈ s.settled, x.2.settles = true
  tallies : Tallies .new s.data.work s.settled

namespace Booked

lemma start : Booked (Desk.new : Desk R) where
  accounts := .start
  source_mem := fun _ h => by cases h
  ordered := fun _ h => by cases h
  nodup := List.nodup_nil
  kept_mem := fun _ h => by cases h
  settles := fun _ h => by cases h
  tallies := .refl _

lemma step {s s' : Desk R} {k : MoveKind} {pc pc' : Pc R} {e : Entry} (hs : Booked s)
    (hsound : s.data.slots.Sound) (h : Step k s pc e s' pc') : Booked s' := by
  have hmove := h.sec.move
  have haccounts := hs.accounts.step (hmove.accounts hsound)
  rw [← h.accepted, ← h.kept, ← List.map_append, ← h.settled] at haccounts
  have hsettles : ∀ x ∈ s'.settled, x.2.settles = true := by
    rw [h.settled]
    exact List.forall_mem_append.mpr ⟨hs.settles, hmove.settles⟩
  have htallies : Tallies .new s'.data.work s'.settled := by
    rw [h.settled]
    exact hs.tallies.trans h.sec.tallies
  have hmem : ∀ x ∈ s.accepted, x ∈ s'.accepted := by
    intro x hx
    rw [h.accepted]
    exact List.mem_append_left _ hx
  have hkept : ∀ x ∈ s'.kept, x ∈ s'.accepted := by
    intro x hx
    rw [h.kept, List.mem_append] at hx
    rcases hx with hx | hx
    · exact hmem x (hs.kept_mem x hx)
    · rcases hmove.kept with hnil | ⟨-, stamp, heq, hpending⟩
      · rw [hnil] at hx
        cases hx
      · rw [heq, List.mem_singleton] at hx
        rw [hx]
        exact hmem stamp (hs.source_mem stamp (hsound.latest stamp hpending))
  rcases hmove.source with ⟨hnil, hsource⟩ | ⟨stamp, hone, hsource, hbefore⟩
  · have hsame : s'.accepted = s.accepted := by rw [h.accepted, hnil, List.append_nil]
    have hlast : s'.data.sourceFrame = s.data.sourceFrame := hsource
    refine ⟨haccounts, ?_, ?_, ?_, hkept, hsettles, htallies⟩
    · rw [hlast, hsame]
      exact hs.source_mem
    · rw [hlast, hsame]
      exact hs.ordered
    · rw [hsame]
      exact hs.nodup
  · have hsnoc : s'.accepted = s.accepted ++ [stamp] := by rw [h.accepted, hone]
    have hlast : s'.data.sourceFrame = some stamp := hsource
    -- everything accepted so far comes before the new publication
    have hearlier : ∀ x ∈ s.accepted, x.order stamp = .ok .before := by
      intro x hx
      obtain ⟨last, hlast, hle⟩ := hs.ordered x hx
      exact hle.before (hbefore last hlast)
    refine ⟨haccounts, ?_, ?_, ?_, hkept, hsettles, htallies⟩
    · intro last hl
      rw [hlast] at hl
      cases hl
      rw [hsnoc]
      exact List.mem_append_right _ (List.mem_singleton_self _)
    · intro x hx
      rw [hsnoc, List.mem_append, List.mem_singleton] at hx
      refine ⟨stamp, hlast, ?_⟩
      rcases hx with hx | rfl
      · exact Or.inr (hearlier x hx)
      · exact Or.inl rfl
    · rw [hsnoc, List.nodup_append]
      refine ⟨hs.nodup, List.nodup_singleton _, ?_⟩
      intro x hx y hy
      rw [List.mem_singleton] at hy
      subst hy
      exact (FrameStamp.order_eq_before.mp (hearlier x hx)).2.ne

end Booked

section Run

variable {τ : Type*} [DecidableEq τ] {q : QueryShared}

theorem query_booked {w : QueryWorld τ R} (hw : (querySystem τ R q).Reachable w) :
    Booked w.shared := by
  refine threads_invariant (P := fun w => Booked w.shared) .start ?_ hw
  intro w t e s' pc' hr hw hact
  obtain ⟨entry, hstep⟩ := perform_step hact
  exact hw.step (query_sound hr) hstep

end Run

/-! ### The counters -/

def TemplateWorkCounts.Unsaturated (w : TemplateWorkCounts) : Prop :=
  ∀ d, d.settles = true → w.get d < u64Max

lemma count_settles {l : List TemplateWorkDisposition} (h : ∀ d ∈ l, d.settles = true) :
    l.count .skippedChange + l.count .superseded + l.count .completed + l.count .failed +
      l.count .queueExpired = l.length := by
  induction l with
  | nil => rfl
  | cons d l ih =>
    obtain ⟨hd, hl⟩ := List.forall_mem_cons.mp h
    have hlen := ih hl
    cases d <;> simp_all [TemplateWorkDisposition.settles] <;> omega

lemma Booked.work_settled {s : Desk R} (hs : Booked s) (h : s.data.work.Unsaturated) :
    s.data.work.settled = s.settled.length := by
  have hget : ∀ d, d.settles = true → s.data.work.get d = (s.settled.map Prod.snd).count d := by
    intro d hd
    have htally := hs.tallies d hd
    have hlt := h d hd
    have hzero : TemplateWorkCounts.new.get d = 0 := rfl
    rw [htally] at hlt ⊢
    omega
  have hsum := count_settles (l := s.settled.map Prod.snd) (by
    intro d hd
    obtain ⟨x, hx, rfl⟩ := List.mem_map.mp hd
    exact hs.settles x hx)
  rw [List.length_map] at hsum
  unfold TemplateWorkCounts.settled
  rw [hget _ rfl, hget _ rfl, hget _ rfl, hget _ rfl, hget _ rfl]
  exact hsum

/-! ### Counting too early -/

/-- What `finish_mapping` reads when it cannot rate a mapping: the claim stands over its pending
publication, the change is not skipped, and the last admission is less than an interval ago though
an interval after it lies past the end of the clock. -/
def RateOverflow (q : QueryShared) (d : QueryData R) (stamp : FrameStamp)
    (decision : ChangeDecision) (now : ℕ) : Prop :=
  d.terminal = none ∧ d.processing = some stamp ∧ d.pendingStamp = some stamp ∧
  ¬ (decision = .unchanged ∧ d.stability.observations = 0) ∧ q.minimumInterval ≠ 0 ∧
  ∃ last, d.lastAdmitted = some last ∧ now - last < q.minimumInterval ∧
    instantAdd last q.minimumInterval = none

theorem finishMapping_unrepresentable (q : QueryShared) (d : QueryData R) (mapped : MappedMatch)
    (mapping : Option ℕ) (decision : ChangeDecision) (now : ℕ) :
    (d.finishMapping q mapped mapping decision now).2 = .unrepresentable ↔
      RateOverflow q d mapped.frame decision now := by
  unfold QueryData.finishMapping RateOverflow
  simp only
  split
  · rename_i h
    refine iff_of_false (by simp) ?_
    rintro ⟨ht, hproc, -⟩
    simp [ht, hproc] at h
  rename_i hclaim
  simp only [Bool.or_eq_true, not_or, Bool.not_eq_true, Option.isSome_eq_false_iff,
    Option.isNone_iff_eq_none, decide_eq_true_eq, not_not] at hclaim
  split
  · rename_i hpending
    exact iff_of_false (by simp) fun h => hpending h.2.2.1
  rename_i hpending
  rw [not_not] at hpending
  split
  · rename_i hskip
    exact iff_of_false (by simp) fun h => h.2.2.2.1 hskip
  rename_i hskip
  split
  · rename_i hrate
    obtain ⟨hinterval, hrecent⟩ := hrate
    cases hlast : d.lastAdmitted with
    | none =>
      rw [hlast] at hrecent
      cases hrecent
    | some last =>
      rw [hlast, Option.any_some, decide_eq_true_eq] at hrecent
      rw [Option.bind_some]
      cases hadd : instantAdd last q.minimumInterval with
      | none =>
        exact iff_of_true rfl
          ⟨hclaim.1, hclaim.2, hpending, hskip, hinterval, last, rfl, hrecent, hadd⟩
      | some eligible =>
        refine iff_of_false (by simp) ?_
        rintro ⟨-, -, -, -, -, last', heq, -, hnone⟩
        cases heq
        rw [hadd] at hnone
        cases hnone
  · rename_i hrate
    refine iff_of_false ?_ ?_
    · split
      · simp
      · split <;> simp
    · rintro ⟨-, -, -, -, hinterval, last, hlast, hrecent, -⟩
      refine hrate ⟨hinterval, ?_⟩
      rw [hlast, Option.any_some, decide_eq_true_eq]
      exact hrecent

lemma MappingEnd.entry_kept (m : MappingEnd) (stamp : FrameStamp) :
    (m.entry stamp).kept = [] ↔ m ≠ .unrepresentable := by
  cases m <;> simp [MappingEnd.entry, Entry.settle, Entry.nothing]

section Result

variable {τ : Type*} {q : QueryShared}

/-- A step is the section of `finish_mapping` over a mapping that it cannot rate. -/
def OverflowsRate (q : QueryShared) (w : QueryWorld τ R) (i : τ × Event R) : Prop :=
  ∃ mapped mapping decision now, i.2 = .finishMapping mapped mapping decision now none ∧
    RateOverflow q w.shared.data mapped.frame decision now

lemma not_overflowsRate {w : QueryWorld τ R} {i : τ × Event R} (h : q.minimumInterval = 0) :
    ¬ OverflowsRate q w i := by
  rintro ⟨mapped, mapping, decision, now, -, -, -, -, -, hinterval, -⟩
  exact hinterval h

variable [DecidableEq τ]

lemma step_kept_iff {w w' : QueryWorld τ R} {i : τ × Event R} (hkept : w.shared.kept = [])
    (h : (querySystem τ R q).step w i w') :
    w'.shared.kept = [] ↔ ¬ OverflowsRate q w i := by
  obtain ⟨t, e⟩ := i
  obtain ⟨s', pc', hact, rfl⟩ := h
  rw [World.move_shared]
  by_cases hk : e.kind = .mapping
  · rcases perform_mapping hk hact with ⟨rfl, hne⟩ | ⟨mapped, mapping, decision, now, rfl, rfl⟩
    · refine iff_of_true hkept ?_
      rintro ⟨mapped, mapping, decision, now, heq, -⟩
      exact hne mapped mapping decision now heq
    · show w.shared.kept ++ _ = [] ↔ _
      rw [hkept, List.nil_append, MappingEnd.entry_kept, not_iff_not,
        finishMapping_unrepresentable]
      constructor
      · exact fun h => ⟨mapped, mapping, decision, now, rfl, h⟩
      · rintro ⟨mapped', mapping', decision', now', heq, h⟩
        cases heq
        exact h
  · obtain ⟨entry, hstep⟩ := perform_step hact
    refine iff_of_true ?_ ?_
    · rcases hstep.sec.move.kept with hnil | ⟨hmapping, -⟩
      · rw [hstep.kept, hkept, hnil, List.append_nil]
      · exact absurd hmapping hk
    · rintro ⟨mapped, mapping, decision, now, heq, -⟩
      cases heq
      exact hk rfl

/-- **The balance of a state**: unsaturated counters, the pending slot and the analysis in flight
add up to the publications accepted, and each of these is held or has one disposition. -/
def Balanced (s : Desk R) : Prop :=
  (s.data.work.Unsaturated →
    s.accepted.length = (if s.data.pending.isSome then 1 else 0) +
      (if s.data.analysisCapacityReached then 1 else 0) + s.data.work.settled) ∧
  ∀ stamp ∈ s.accepted, (s.data.outstanding ++ s.settled.map Prod.fst).count stamp = 1

lemma outstanding_length {d : QueryData R} (hd : d.slots.Sound) :
    d.outstanding.length = (if d.pending.isSome then 1 else 0) +
      (if d.analysisCapacityReached then 1 else 0) := by
  have hpending : d.pendingStamp.toList.length = if d.pending.isSome then 1 else 0 := by
    unfold QueryData.pendingStamp
    cases d.pending <;> rfl
  have hflight : d.inFlight.stamps.length = if d.analysisCapacityReached then 1 else 0 := by
    rw [InFlight.length_stamps]
    have hone : d.inFlight.count ≤ 1 := by
      rcases hd.flight with hempty | ⟨stamp, hsingle⟩
      · rw [show d.inFlight = .empty from hempty]
        exact Nat.zero_le _
      · exact (congrArg List.length hsingle).le
    unfold QueryData.analysisCapacityReached
    revert hone
    rcases d.inFlight with ⟨first, second⟩
    cases first <;> cases second <;> simp [InFlight.count, InFlight.toList]
  unfold QueryData.outstanding
  rw [List.length_append, hpending, hflight]

lemma Booked.balanced_iff {s : Desk R} (hs : Booked s) (hsound : s.data.slots.Sound) :
    Balanced s ↔ s.kept = [] := by
  rw [← hs.accounts.once_iff hs.nodup hs.kept_mem]
  refine ⟨fun h => h.2, fun honce => ⟨fun hwork => ?_, honce⟩⟩
  have hkept := (hs.accounts.once_iff hs.nodup hs.kept_mem).mp honce
  have hlen := hs.accounts.length
  rw [hkept, List.length_nil, List.length_map, outstanding_length hsound,
    ← hs.work_settled hwork] at hlen
  exact hlen

/-- **Conservation, exactly.**  Every state of a run balances if and only if no step of the run is
one of `finish_mapping` over a mapping that it cannot rate. -/
theorem query_conservation (trail : List (QueryWorld τ R × (τ × Event R))) (w : QueryWorld τ R)
    (h : (querySystem τ R q).Path (.start τ R) trail w) :
    ((∀ x ∈ trail, Balanced x.1.shared) ∧ Balanced w.shared) ↔
      ∀ x ∈ trail, ¬ OverflowsRate q x.1 x.2 := by
  have hiff : ∀ {w : QueryWorld τ R}, (querySystem τ R q).Reachable w →
      (Balanced w.shared ↔ w.shared.kept = []) :=
    fun hw => (query_booked hw).balanced_iff (query_sound hw)
  have hstart : (querySystem τ R q).Reachable (.start τ R) := .of_init rfl
  refine h.exactly (P := fun w => Balanced w.shared) (G := fun w i => ¬ OverflowsRate q w i) ?_
    hstart ((hiff hstart).mpr rfl)
  intro w i w' hw hbalanced hstep
  rw [hiff (hw.step hstep)]
  exact step_kept_iff ((hiff hw).mp hbalanced) hstep

/-- A query ends with one publication under analysis and another one pending: both are counted. -/
theorem query_conservation_sample : ∃ (trail : List (QueryWorld Bool Unit × (Bool × Event Unit)))
    (w : QueryWorld Bool Unit),
    (querySystem Bool Unit (plainQuery 0)).Path (.start Bool Unit) trail w ∧
    w.shared.accepted = [plainStamp 1, plainStamp 2] ∧ w.shared.data.work.settled = 2 ∧
    Balanced w.shared := by
  have hpath := System.Path.nil (S := querySystem Bool Unit (plainQuery 0)) (.start Bool Unit)
  have hpath := hpath.snoc (perform_steps (t := false) (e := .enqueue (plainStamp 1) 0 false) _ rfl)
  have hpath := hpath.snoc (perform_steps (t := true) (e := .claim (plainStamp 1)) _ rfl)
  have hpath := hpath.snoc (perform_steps (t := true)
    (e := .finishMapping (plainMatch 1) none .analysisRequired 0 none) _ rfl)
  have hpath := hpath.snoc (perform_steps (t := false) (e := .enqueue (plainStamp 2) 1 false) _ rfl)
  have hpath := hpath.snoc (perform_steps (t := false) (e := .callTerminate .cancelled) _ rfl)
  have hpath := hpath.snoc (perform_steps (t := false) (e := .terminate none) _ rfl)
  refine ⟨_, _, hpath, rfl, rfl, ((query_conservation _ _ hpath).mpr ?_).2⟩
  exact fun x _ => not_overflowsRate rfl

/-- An analysis interval that ends ten seconds before the clock does. -/
def longInterval : ℕ := durationMax - 10 * 10 ^ 9

/-- The first analysis is admitted at eleven seconds, the second mapping ends a second later. -/
def overflowRate : List (Bool × Event Unit) :=
  [(false, .enqueue (plainStamp 1) (11 * 10 ^ 9) false), (true, .claim (plainStamp 1)),
    (true, .finishMapping (plainMatch 1) none .analysisRequired (11 * 10 ^ 9) none),
    (true, .callComplete 1 (plainMatch 1) none (.ok .empty) (11 * 10 ^ 9)),
    (true, .complete none none), (true, .finishSourceEnd false),
    (false, .enqueue (plainStamp 2) (12 * 10 ^ 9) false), (true, .claim (plainStamp 2)),
    (true, .finishMapping (plainMatch 2) none .analysisRequired (12 * 10 ^ 9) none),
    (true, .terminate none)]

/-- The second publication is counted as failed and as superseded. -/
theorem overflow_counts_twice : ∃ w : QueryWorld Bool Unit,
    (querySystem Bool Unit (plainQuery longInterval)).Reachable w ∧
    w.shared.data.work.Unsaturated ∧ w.shared.accepted = [plainStamp 1, plainStamp 2] ∧
    w.shared.data.outstanding = [] ∧ w.shared.data.work.settled = 3 ∧ ¬ Balanced w.shared := by
  have hw := play_reachable (plainQuery longInterval) (show play _ overflowRate _ = some _ from rfl)
  refine ⟨_, hw, ?_, rfl, rfl, rfl, ?_⟩
  · intro d _
    cases d <;> decide
  · intro hbalanced
    have honce := hbalanced.2 (plainStamp 2) (by decide)
    exact absurd honce (by decide)

end Result

end MadoPilot.Watch
