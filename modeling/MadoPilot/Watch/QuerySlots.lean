import MadoPilot.Watch.QueryMoves

/-!
# The slots and the generation of a query

Before its outcome a query has at most one analysis in flight, of its latest generation, and a claim
only over a pending publication.  That publication may be a later one than the claimed one: a
capture may replace it while a worker maps the claimed frame, and `finish_mapping` finds out.

* `Slots.Sound` is the invariant over the moves, `Move.sound` its step, `query_sound` its run;
* `finishMapping_generation` says when `finish_mapping` raises the generation;
* `query_slots` is the result.
-/

namespace MadoPilot.Watch

open MadoPilot.Core MadoPilot.Lib

variable {R : Type}

/-! ### The invariant -/

def SameOrLater (a b : FrameStamp) : Prop := b = a ∨ a.order b = .ok .before

lemma SameOrLater.before {a b c : FrameStamp} (h : SameOrLater a b) (h' : b.order c = .ok .before) :
    a.order c = .ok .before := by
  rcases h with rfl | h
  · exact h'
  · rw [FrameStamp.order_eq_before] at h h' ⊢
    exact ⟨h.1.trans h'.1, h.2.trans h'.2⟩

namespace Slots

/-- At most one analysis is in flight, of the latest generation. -/
def OneInFlight (s : Slots R) : Prop :=
  s.inFlight = .empty ∨ ∃ stamp, s.inFlight.toList = [(s.generation, stamp)]

/-- A claim excludes analyses and stands over a pending publication that is no earlier. -/
def Held (s : Slots R) : Prop :=
  ∀ c, s.processing = some c →
    s.inFlight = .empty ∧ ∃ p, s.pending = some p ∧ SameOrLater c p

/-- **The invariant of the slots.**  The pending publication is the last one accepted. -/
structure Sound (s : Slots R) : Prop where
  latest : ∀ p, s.pending = some p → s.source = some p
  flight : s.OneInFlight
  held : s.terminal = none → s.Held

end Slots

namespace InFlight

variable {f f' : InFlight} {x : ℕ × FrameStamp}

lemma remove_empty : empty.remove x = none := rfl

lemma remove_single {y : ℕ × FrameStamp} (hf : f.toList = [y]) (h : f.remove x = some f') :
    f' = empty := by
  have hlen := (remove_perm h).length_eq
  rw [hf, List.length_singleton, List.length_cons] at hlen
  exact eq_empty_of_count (by unfold count; omega)

end InFlight

namespace Slots

variable {s : Slots R}

lemma OneInFlight.of_remove {x : ℕ × FrameStamp} {f : InFlight} (hs : s.OneInFlight)
    (h : s.inFlight.remove x = some f) : f = .empty := by
  rcases hs with hempty | ⟨stamp, hsingle⟩
  · rw [hempty, InFlight.remove_empty] at h
    cases h
  · exact InFlight.remove_single hsingle h

lemma Sound.processing_of_remove {x : ℕ × FrameStamp} {f : InFlight} (hs : s.Sound)
    (ht : s.terminal = none) (h : s.inFlight.remove x = some f) : s.processing = none := by
  cases hp : s.processing with
  | none => rfl
  | some c =>
    rw [(hs.held ht c hp).1, InFlight.remove_empty] at h
    cases h

lemma held_of_none (h : s.processing = none) : s.Held := by
  intro c hc
  rw [h] at hc
  cases hc

lemma Sound.ended (o : TemplateTerminalOutcome R) : (s.ended o).Sound where
  latest := fun _ h => by cases h
  flight := Or.inl rfl
  held := fun h => by cases h

lemma Sound.cleared (o : TemplateTerminalOutcome R) : (s.cleared o).Sound where
  latest := fun _ h => by cases h
  flight := Or.inl rfl
  held := fun h => by cases h

end Slots

theorem Move.sound {k : MoveKind} {s s' : Slots R} {e : Entry} (h : Move k s e s')
    (hs : s.Sound) : s'.Sound := by
  cases h with
  | stay => exact hs
  | release => exact ⟨hs.latest, hs.flight, fun _ => Slots.held_of_none rfl⟩
  | @accept _ stamp displaces ht hbefore =>
    refine ⟨fun p hp => hp, ?_, fun _ c hc => ?_⟩
    · cases displaces with
      | true => exact Or.inl rfl
      | false => exact hs.flight
    · obtain ⟨hempty, p, hp, hle⟩ := hs.held ht c hc
      have hlater := hbefore p (hs.latest p hp)
      refine ⟨?_, stamp, rfl, Or.inr (hle.before hlater)⟩
      show (if displaces then InFlight.empty else s.inFlight) = .empty
      rw [hempty, ite_self]
  | @claim _ stamp ht hproc hempty hp =>
    refine ⟨hs.latest, hs.flight, fun _ c hc => ⟨hempty, stamp, hp, ?_⟩⟩
    cases hc
    exact Or.inl rfl
  | skip => exact ⟨fun _ h => (by cases h), hs.flight, fun _ => Slots.held_of_none rfl⟩
  | keep => exact ⟨hs.latest, hs.flight, fun _ => Slots.held_of_none rfl⟩
  | @launch _ stamp f ht hproc hp hinsert =>
    rw [(hs.held ht stamp hproc).1, InFlight.insert_empty] at hinsert
    cases hinsert
    exact ⟨fun _ h => (by cases h), Or.inr ⟨stamp, rfl⟩, fun _ => Slots.held_of_none rfl⟩
  | @lose _ stamp ht hproc hp hinsert =>
    -- the claim excludes analyses, so there is a free slot
    rw [(hs.held ht stamp hproc).1, InFlight.insert_empty] at hinsert
    cases hinsert
  | @finish _ generation stamp d f ht hremove =>
    have hempty := hs.flight.of_remove hremove
    subst hempty
    exact ⟨hs.latest, Or.inl rfl, fun _ =>
      Slots.held_of_none (hs.processing_of_remove ht hremove)⟩
  | terminate o => exact .ended o
  | conclude o => exact .ended o
  | expire o => exact .cleared o
  | fail o => exact .cleared o

section Run

variable {τ : Type*} [DecidableEq τ] {q : QueryShared}

theorem query_sound {w : QueryWorld τ R} (hw : (querySystem τ R q).Reachable w) :
    w.shared.data.slots.Sound := by
  refine threads_invariant (P := fun w => w.shared.data.slots.Sound) ?_ ?_ hw
  · exact ⟨fun _ h => (by cases h), Or.inl rfl, fun _ => Slots.held_of_none rfl⟩
  · intro w t e s' pc' _ hw hact
    obtain ⟨entry, hstep⟩ := perform_step hact
    exact hstep.sec.move.sound hw

end Run

/-! ### The generation -/

lemma Move.generation {k : MoveKind} {s s' : Slots R} {e : Entry} (h : Move k s e s')
    (hk : k ≠ .mapping) : s'.generation = s.generation := by
  cases h <;> first | rfl | exact absurd rfl hk

namespace QueryData

variable {d : QueryData R} {stamp : FrameStamp} {r : QueryData R × MappingEnd}

/-- What a result of `finish_mapping` for a frame does to the generation: an admission raises it by
one and puts the frame in flight under it, anything else keeps it. -/
def RaisesOnAdmission (d : QueryData R) (stamp : FrameStamp) (r : QueryData R × MappingEnd) : Prop :=
  (∀ g, r.2 = .admitted g →
    g = d.generation + 1 ∧ r.1.generation = g ∧ r.1.inFlight.toList = [(g, stamp)]) ∧
  ((∀ g, r.2 ≠ .admitted g) → r.1.generation = d.generation)

lemma RaisesOnAdmission.quiet (hgen : r.1.generation = d.generation)
    (hm : ∀ g, r.2 ≠ .admitted g) : RaisesOnAdmission d stamp r :=
  ⟨fun g hg => absurd hg (hm g), fun _ => hgen⟩

theorem finishMapping_generation (q : QueryShared) (hd : d.slots.Sound) (mapped : MappedMatch)
    (mapping : Option ℕ) (decision : ChangeDecision) (now : ℕ) :
    RaisesOnAdmission d mapped.frame (d.finishMapping q mapped mapping decision now) := by
  unfold finishMapping
  simp only
  split
  · exact .quiet rfl (by simp)
  rename_i hclaim
  simp only [Bool.or_eq_true, not_or, Bool.not_eq_true, Option.isSome_eq_false_iff,
    Option.isNone_iff_eq_none, decide_eq_true_eq, not_not] at hclaim
  -- the claim excludes analyses, so the first slot is free
  have hempty : d.inFlight = .empty := (hd.held hclaim.1 mapped.frame hclaim.2).1
  split
  · exact .quiet rfl (by simp)
  split
  · exact .quiet rfl (by simp)
  split
  · split
    · exact .quiet rfl (by simp)
    · exact .quiet rfl (by simp)
  split
  · exact .quiet rfl (by simp)
  rename_i generation hgen
  obtain ⟨rfl, -⟩ := checkedAdd_eq_some.mp hgen
  simp only [hempty, InFlight.insert_empty]
  refine ⟨fun g hg => ?_, fun hm => absurd rfl (hm _)⟩
  cases hg
  exact ⟨rfl, rfl, rfl⟩

end QueryData

/-- A step admits an analysis of the generation `g`: it is the section of `finish_mapping` and
returns `Admission::Admitted(g)`. -/
def Admits (q : QueryShared) (d : QueryData R) (e : Event R) (g : ℕ) : Prop :=
  ∃ mapped mapping decision now, e = .finishMapping mapped mapping decision now none ∧
    (d.finishMapping q mapped mapping decision now).2 = .admitted g

lemma perform_generation {q : QueryShared} {s s' : Desk R} {pc pc' : Pc R} {e : Event R}
    (hs : s.data.slots.Sound) (h : perform q s pc e = some (s', pc')) :
    (∀ g, Admits q s.data e g → g = s.data.generation + 1 ∧ s'.data.generation = g) ∧
    ((∀ g, ¬ Admits q s.data e g) → s'.data.generation = s.data.generation) := by
  by_cases hk : e.kind = .mapping
  · rcases perform_mapping hk h with ⟨rfl, hne⟩ | ⟨mapped, mapping, decision, now, rfl, rfl⟩
    · refine ⟨?_, fun _ => rfl⟩
      rintro g ⟨mapped, mapping, decision, now, rfl, -⟩
      exact absurd rfl (hne mapped mapping decision now)
    · have hgen := QueryData.finishMapping_generation q hs mapped mapping decision now
      constructor
      · rintro g ⟨mapped', mapping', decision', now', heq, hg⟩
        cases heq
        obtain ⟨h₁, h₂, -⟩ := hgen.1 g hg
        exact ⟨h₁, h₂⟩
      · intro hno
        exact hgen.2 fun g hg => hno g ⟨mapped, mapping, decision, now, rfl, hg⟩
  · obtain ⟨entry, hstep⟩ := perform_step h
    refine ⟨?_, fun _ => hstep.sec.move.generation hk⟩
    rintro g ⟨mapped, mapping, decision, now, rfl, -⟩
    exact absurd rfl hk

/-! ### The result -/

section Result

variable {τ : Type*} [DecidableEq τ] {q : QueryShared}

/-- **The slots and the generation of a query.**  In every reachable state without an outcome at
most one analysis is in flight and is of the query's generation, and a claim excludes analyses and
comes with a pending publication, the claimed one or one that replaced it.  An admission raises
the generation by one, and no other step changes it. -/
theorem query_slots (w : QueryWorld τ R) (hw : (querySystem τ R q).Reachable w) :
    (w.shared.data.terminal = none →
      w.shared.data.inFlight.count ≤ 1 ∧
      (∀ x ∈ w.shared.data.inFlight.toList, x.1 = w.shared.data.generation) ∧
      ∀ c, w.shared.data.processing = some c → w.shared.data.inFlight.toList = [] ∧
        ∃ p, w.shared.data.pendingStamp = some p ∧ SameOrLater c p) ∧
    ∀ t e w', (querySystem τ R q).step w (t, e) w' →
      (∀ g, Admits q w.shared.data e g →
        g = w.shared.data.generation + 1 ∧ w'.shared.data.generation = g) ∧
      ((∀ g, ¬ Admits q w.shared.data e g) →
        w'.shared.data.generation = w.shared.data.generation) := by
  have hsound := query_sound hw
  refine ⟨fun ht => ⟨?_, ?_, ?_⟩, ?_⟩
  · rcases hsound.flight with hempty | ⟨stamp, hsingle⟩
    · rw [show w.shared.data.inFlight = .empty from hempty]
      exact Nat.zero_le _
    · exact (congrArg List.length hsingle).le
  · intro x hx
    rcases hsound.flight with hempty | ⟨stamp, hsingle⟩
    · rw [show w.shared.data.inFlight = .empty from hempty] at hx
      cases hx
    · rw [show w.shared.data.inFlight.toList = _ from hsingle, List.mem_singleton] at hx
      rw [hx]
      rfl
  · intro c hc
    obtain ⟨hempty, hp⟩ := hsound.held ht c hc
    rw [show w.shared.data.inFlight = .empty from hempty]
    exact ⟨rfl, hp⟩
  · rintro t e w' ⟨s', pc', hact, rfl⟩
    exact perform_generation hsound hact

/-- A capture replaces the pending publication while a worker maps the claimed frame. -/
def replaceClaimed : List (Bool × Event Unit) :=
  [(false, .enqueue (plainStamp 1) 0 false), (true, .claim (plainStamp 1)),
    (false, .enqueue (plainStamp 2) 1 false)]

/-- In the state the capture leaves, the claim stands over the later publication. -/
theorem query_slots_sample : ∃ w : QueryWorld Bool Unit,
    play (plainQuery 0) replaceClaimed (.start Bool Unit) = some w ∧
    w.shared.data.processing = some (plainStamp 1) ∧
    ∃ p, w.shared.data.pendingStamp = some p ∧ SameOrLater (plainStamp 1) p := by
  refine ⟨_, rfl, rfl, ?_⟩
  have hw := play_reachable (plainQuery 0) (show play _ replaceClaimed _ = some _ from rfl)
  obtain ⟨hslots, -⟩ := query_slots _ hw
  exact ((hslots rfl).2.2 (plainStamp 1) rfl).2

/-- A claim does not imply that its own publication is pending. -/
theorem claim_outlives_publication :
    ¬ ∀ w : QueryWorld Bool Unit, (querySystem Bool Unit (plainQuery 0)).Reachable w →
      w.shared.data.terminal = none → ∀ c, w.shared.data.processing = some c →
        w.shared.data.pendingStamp = some c := by
  intro h
  have hw := play_reachable (plainQuery 0) (show play _ replaceClaimed _ = some _ from rfl)
  have hp := h _ hw rfl (plainStamp 1) rfl
  exact absurd hp (by decide)

end Result

end MadoPilot.Watch
