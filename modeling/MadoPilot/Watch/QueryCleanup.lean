import MadoPilot.Watch.QuerySlots

/-!
# What the outcome of a query leaves in its slots

Every path that ends a query empties the pending slot and the analyses.  `expire_if_current` and
`fail_mapping` empty the claim as well, and `complete` runs when there is none.  `terminate` goes
through `supersede_outstanding`, whose `||` stops at the pending publication: the claim of a worker
that is still mapping stays.

* `Move.clean_iff` says which move leaves a slot filled;
* `query_cleanup` is the result for runs.
-/

namespace MadoPilot.Watch

open MadoPilot.Core MadoPilot.Lib

variable {R : Type}

def QueryData.Clean (d : QueryData R) : Prop :=
  d.terminal.isSome = true → d.pending = none ∧ d.processing = none ∧ d.inFlight = .empty

/-! ### Moves -/

namespace Slots

def Clean (s : Slots R) : Prop :=
  s.terminal.isSome = true → s.pending = none ∧ s.processing = none ∧ s.inFlight = .empty

variable {s : Slots R}

lemma clean_of_none (h : s.terminal = none) : s.Clean := by
  intro hsome
  rw [h] at hsome
  cases hsome

lemma cleared_clean (o : TemplateTerminalOutcome R) : (s.cleared o).Clean :=
  fun _ => ⟨rfl, rfl, rfl⟩

lemma Sound.ended_clean_iff (hs : s.Sound) (ht : s.terminal = none)
    (o : TemplateTerminalOutcome R) : (s.ended o).Clean ↔ s.processing = none := by
  cases hp : s.processing with
  | none =>
    refine iff_of_true (fun _ => ⟨rfl, ?_, rfl⟩) rfl
    show (if s.pending.isSome then s.processing else none) = none
    rw [hp, ite_self]
  | some c =>
    obtain ⟨-, p, hpending, -⟩ := hs.held ht c hp
    refine iff_of_false (fun hclean => ?_) (by simp)
    have hproc : (if s.pending.isSome then s.processing else none) = none := (hclean rfl).2.1
    rw [hpending, hp] at hproc
    cases hproc

end Slots

theorem Move.clean_iff {k : MoveKind} {s s' : Slots R} {e : Entry} (h : Move k s e s')
    (hs : s.Sound) (hclean : s.Clean) :
    s'.Clean ↔
      ¬ (k = .termination ∧ s.terminal = none ∧ s'.terminal.isSome = true ∧
        s.processing.isSome = true) := by
  -- a move that stores no outcome, or one of another section, cannot go wrong
  have hopen : ∀ {t : Slots R}, t.terminal = none → (t.Clean ↔ ¬ (k = .termination ∧
      s.terminal = none ∧ t.terminal.isSome = true ∧ s.processing.isSome = true)) := by
    intro t ht
    refine iff_of_true (Slots.clean_of_none ht) ?_
    rintro ⟨-, -, hsome, -⟩
    rw [ht] at hsome
    cases hsome
  cases h with
  | stay =>
    refine iff_of_true hclean ?_
    rintro ⟨-, hnone, hsome, -⟩
    rw [hnone] at hsome
    cases hsome
  | release =>
    refine iff_of_true (fun hsome => ?_) ?_
    · obtain ⟨hpending, -, hempty⟩ := hclean hsome
      exact ⟨hpending, rfl, hempty⟩
    · rintro ⟨-, hnone, hsome, -⟩
      have hsome' : s.terminal.isSome = true := hsome
      rw [hnone] at hsome'
      cases hsome'
  | accept displaces ht => exact hopen ht
  | claim ht => exact hopen ht
  | skip ht => exact hopen ht
  | keep ht => exact hopen ht
  | launch ht => exact hopen ht
  | lose ht => exact hopen ht
  | finish ht => exact hopen ht
  | terminate o ht =>
    rw [hs.ended_clean_iff ht]
    cases hp : s.processing with
    | none => simp
    | some c => simp [ht, Slots.ended]
  | @conclude _ generation stamp d f o ht hremove =>
    refine iff_of_true (fun _ => ⟨rfl, ?_, rfl⟩) (by simp)
    show (if s.pending.isSome then s.processing else none) = none
    rw [hs.processing_of_remove ht hremove, ite_self]
  | expire o => exact iff_of_true (Slots.cleared_clean o) (by simp)
  | fail o => exact iff_of_true (Slots.cleared_clean o) (by simp)

/-! ### Runs -/

section Run

variable {τ : Type*} [DecidableEq τ] {q : QueryShared}

/-- A call of `terminate` reaches its section while the query has no outcome and a worker holds a
claim. -/
def TerminatesHeld (w : QueryWorld τ R) (i : τ × Event R) : Prop :=
  (∃ authority, i.2 = .terminate authority) ∧ w.shared.data.terminal = none ∧
    w.shared.data.processing.isSome = true

lemma slots_clean_iff (d : QueryData R) : d.slots.Clean ↔ d.Clean := by
  unfold Slots.Clean QueryData.Clean
  refine imp_congr_right fun _ => and_congr_left' ?_
  exact Option.map_eq_none_iff

lemma terminate_stores {s s' : Desk R} {pc pc' : Pc R}
    {authority : Option (TemplateTerminalOutcome R)} (hnone : s.data.terminal = none)
    (h : perform q s pc (.terminate authority) = some (s', pc')) :
    s'.data.terminal.isSome = true := by
  cases pc with
  | terminating outcome =>
    have hterminate : (s.data.terminate (authority.getD outcome)).1.terminal.isSome = true := by
      unfold QueryData.terminate
      rw [hnone]
      rfl
    cases h
    exact hterminate
  | _ => cases h

lemma step_clean_iff {w w' : QueryWorld τ R} {i : τ × Event R}
    (hw : (querySystem τ R q).Reachable w) (hclean : w.shared.data.Clean)
    (h : (querySystem τ R q).step w i w') :
    w'.shared.data.Clean ↔ ¬ TerminatesHeld w i := by
  obtain ⟨t, e⟩ := i
  obtain ⟨s', pc', hact, rfl⟩ := h
  obtain ⟨entry, hstep⟩ := perform_step hact
  rw [World.move_shared, ← slots_clean_iff,
    hstep.sec.move.clean_iff (query_sound hw) ((slots_clean_iff _).mpr hclean), not_iff_not]
  constructor
  · rintro ⟨hk, hnone, -, hproc⟩
    refine ⟨?_, hnone, hproc⟩
    cases e with
    | terminate authority => exact ⟨authority, rfl⟩
    | _ => cases hk
  · rintro ⟨⟨authority, rfl⟩, hnone, hproc⟩
    exact ⟨rfl, hnone, terminate_stores hnone hact, hproc⟩

/-- **Cleanup, exactly.**  In every state of a run the slots are empty once the query has its
outcome, if and only if no call of `terminate` in the run commits while a worker holds a claim. -/
theorem query_cleanup (trail : List (QueryWorld τ R × (τ × Event R))) (w : QueryWorld τ R)
    (h : (querySystem τ R q).Path (.start τ R) trail w) :
    ((∀ x ∈ trail, x.1.shared.data.Clean) ∧ w.shared.data.Clean) ↔
      ∀ x ∈ trail, ¬ TerminatesHeld x.1 x.2 := by
  have hstart : (QueryWorld.start τ R).shared.data.Clean := fun hsome => by cases hsome
  refine h.exactly (P := fun w => w.shared.data.Clean) (G := fun w i => ¬ TerminatesHeld w i) ?_
    (.of_init rfl) hstart
  intro w i w' hw hclean hstep
  exact step_clean_iff hw hclean hstep

/-- A mapping that fails over its claim empties the slots. -/
theorem query_cleanup_sample : ∃ (trail : List (QueryWorld Bool Unit × (Bool × Event Unit)))
    (w : QueryWorld Bool Unit),
    (querySystem Bool Unit (plainQuery 0)).Path (.start Bool Unit) trail w ∧ trail.length = 3 ∧
    w.shared.data.terminal = some (.failed unrepresentableError) ∧ w.shared.data.Clean := by
  have hpath := System.Path.nil (S := querySystem Bool Unit (plainQuery 0)) (.start Bool Unit)
  have hpath := hpath.snoc (perform_steps (t := false) (e := .enqueue (plainStamp 1) 0 false) _ rfl)
  have hpath := hpath.snoc (perform_steps (t := true) (e := .claim (plainStamp 1)) _ rfl)
  have hpath := hpath.snoc (perform_steps (t := true)
    (e := .failMapping (plainStamp 1) unrepresentableError none none) _ rfl)
  refine ⟨_, _, hpath, rfl, rfl, ((query_cleanup _ _ hpath).mpr ?_).2⟩
  intro x hx
  simp only [List.nil_append, List.cons_append, List.mem_cons, List.not_mem_nil, or_false] at hx
  rcases hx with rfl | rfl | rfl
  all_goals
    rintro ⟨⟨authority, h⟩, -⟩
    cases h

def cancelClaimed : List (Bool × Event Unit) :=
  [(false, .enqueue (plainStamp 1) 0 false), (true, .claim (plainStamp 1)),
    (false, .callTerminate .cancelled), (false, .terminate none)]

/-- The claim is still there after the outcome. -/
theorem claim_survives_terminate :
    ¬ ∀ w : QueryWorld Bool Unit, (querySystem Bool Unit (plainQuery 0)).Reachable w →
      w.shared.data.Clean := by
  intro h
  have hw := play_reachable (plainQuery 0) (show play _ cancelClaimed _ = some _ from rfl)
  have hproc := (h _ hw rfl).2.1
  exact absurd hproc (by decide)

end Run

end MadoPilot.Watch
