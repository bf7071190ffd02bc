import MadoPilot.Input.Request
import MadoPilot.Lib.Holding

/-!
# What cleanup has to release

The list that a sequence's `possibly_held_after` returns covers every key and button that can be
down when the sequence stops.

* `heldAfter_eq`: the list of the complete events is what they hold, last pressed first;
* `possiblyHeld_covers`: with an event that may or may not have had effect, the list covers what is
  down either way: its entries are the presses that no release took back, the last one first, and
  releasing it leaves nothing down;
* `twice_pressed_listed_twice`: a key that is pressed twice is listed twice.
-/

namespace MadoPilot.Input

open MadoPilot.Lib

/-! ### The complete events -/

/-- What is down after events that had their effect, when nothing was down before them. -/
def down (events : List InputEvent) : Set PressedState :=
  Holding.downAfter InputEvent.presses InputEvent.releases events

/-- The last effective transition of `x` in the events is a press. -/
def LastPressed (events : List InputEvent) (x : PressedState) : Prop :=
  Holding.LastPressed InputEvent.presses InputEvent.releases events x

/-- The presses of `x` that no release of the events took back. -/
def outstanding (x : PressedState) (events : List InputEvent) : ℕ :=
  Holding.outstanding InputEvent.presses InputEvent.releases x events

/-- The event at `i` presses `x`, and no later one takes that back. -/
def Standing (events : List InputEvent) (i : ℕ) (x : PressedState) : Prop :=
  Holding.Standing InputEvent.presses InputEvent.releases events i x

def held (events : List InputEvent) : List PressedState :=
  Holding.held InputEvent.presses InputEvent.releases events

def PressedState.release : PressedState → InputEvent
  | button b => .pointerRelease b
  | key k => .keyRelease k

@[simp] lemma PressedState.release_presses (x : PressedState) : x.release.presses = none := by
  cases x <;> rfl

@[simp] lemma PressedState.release_releases (x : PressedState) : x.release.releases = some x := by
  cases x <;> rfl

namespace InputSequence

variable (s : InputSequence)

theorem heldAfter_eq (n : ℕ) : s.heldAfter n = (held (s.events.take n)).reverse := by
  unfold heldAfter held Holding.held
  congr 2
  funext list event
  unfold Holding.hold
  cases event.presses <;> cases event.releases <;> rfl

/-! ### The event at the boundary -/

/-- The events that may have had effect: the complete ones, and the next one where it may have. -/
def possible (n : ℕ) (mayHaveEffect : Bool) : List InputEvent :=
  s.events.take (if mayHaveEffect then n + 1 else n)

/-- The state that the next event presses, where it may have had effect. -/
def boundaryPress (n : ℕ) (mayHaveEffect : Bool) : Option PressedState :=
  if mayHaveEffect then s.events[n]?.bind InputEvent.presses else none

theorem possiblyHeldAfter_eq (n : ℕ) (mayHaveEffect : Bool) :
    s.possiblyHeldAfter n mayHaveEffect =
      match s.boundaryPress n mayHaveEffect with
      | some pressed => if pressed ∉ s.heldAfter n then pressed :: s.heldAfter n else s.heldAfter n
      | none => s.heldAfter n := by
  unfold possiblyHeldAfter boundaryPress
  cases mayHaveEffect with
  | true =>
    cases s.events[n]?.bind InputEvent.presses with
    | some pressed => simp only [true_and, if_true]
    | none => rfl
  | false =>
    cases s.events[n]?.bind InputEvent.presses with
    | some pressed => simp
    | none => rfl

lemma possible_true (n : ℕ) :
    s.possible n true = s.events.take n ++ s.events[n]?.toList := by
  unfold possible
  rw [if_pos rfl, List.take_add_one]

/-- The press at `i` has to be released: no complete event took it back, or it is that of the next event
and of nothing that is held. -/
def Owed (n : ℕ) (mayHaveEffect : Bool) (i : ℕ) (x : PressedState) : Prop :=
  Standing (s.events.take n) i x ∨
    i = n ∧ s.boundaryPress n mayHaveEffect = some x ∧ ∀ j, ¬ Standing (s.events.take n) j x

/-- **The list covers what is held.**  With `list` the states that `possibly_held_after` returns:
whatever is down after the complete events, and after the next event where that one may have had
effect, is in the list; its entries are the presses that have to be released, the last one first; and
releasing it leaves nothing down. -/
structure Covers (n : ℕ) (mayHaveEffect : Bool) (list : List PressedState) : Prop where
  complete : ∀ x, LastPressed (s.events.take n) x → x ∈ list
  boundary : ∀ x, s.boundaryPress n mayHaveEffect = some x → x ∈ list
  pressed : ∀ x ∈ list, ∃ event ∈ s.possible n mayHaveEffect, event.presses = some x
  order : ∃ indices : List ℕ, indices.Pairwise (· > ·) ∧
    List.Forall₂ (s.Owed n mayHaveEffect) indices list ∧
    ∀ i x, s.Owed n mayHaveEffect i x → i ∈ indices
  length : list.length ≤ ((s.possible n mayHaveEffect).filterMap InputEvent.presses).length
  count : ∀ x, list.count x = max (outstanding x (s.events.take n))
    (if s.boundaryPress n mayHaveEffect = some x then 1 else 0)
  nodup : Holding.Alternating InputEvent.presses InputEvent.releases (s.events.take n) → list.Nodup
  released : ∀ m, m = n ∨ mayHaveEffect = true ∧ m = n + 1 →
    (list.map PressedState.release).foldl (Holding.down InputEvent.presses InputEvent.releases)
      (down (s.events.take m)) = ∅

lemma mem_held_of_down {events : List InputEvent} {x : PressedState} (h : x ∈ down events) :
    x ∈ held events :=
  Holding.down_subset_held _ _ events x h

lemma foldl_release {list : List PressedState} {pressed : Set PressedState}
    (hsub : ∀ x ∈ pressed, x ∈ list) :
    (list.map PressedState.release).foldl (Holding.down InputEvent.presses InputEvent.releases)
      pressed = ∅ := by
  have hpress : ∀ e ∈ list.map PressedState.release, e.presses = none := by
    intro e he
    obtain ⟨x, -, rfl⟩ := List.mem_map.mp he
    exact x.release_presses
  rw [Holding.foldl_down _ _ hpress]
  refine Set.eq_empty_iff_forall_notMem.mpr ?_
  rintro x ⟨hx, hlist⟩
  exact hlist x.release (List.mem_map_of_mem (hsub x hx)) x.release_releases

lemma mem_down_succ {n : ℕ} {x : PressedState} (h : x ∈ down (s.events.take (n + 1))) :
    x ∈ down (s.events.take n) ∨ s.boundaryPress n true = some x := by
  rw [List.take_add_one] at h
  cases hnext : s.events[n]? with
  | none =>
    rw [hnext, Option.toList_none, List.append_nil] at h
    exact Or.inl h
  | some event =>
    rw [hnext, Option.toList_some] at h
    unfold down at h
    rw [Holding.downAfter_concat] at h
    obtain ⟨hpress | hheld, -⟩ := h
    · refine Or.inr ?_
      unfold boundaryPress
      rw [if_pos rfl, hnext]
      exact hpress
    · exact Or.inl hheld

lemma heldAfter_sublist (n : ℕ) :
    (s.heldAfter n).reverse.Sublist ((s.events.take n).filterMap InputEvent.presses) := by
  rw [heldAfter_eq, List.reverse_reverse]
  exact Holding.held_sublist _ _ _

lemma possible_filterMap (n : ℕ) (mayHaveEffect : Bool) :
    (s.possible n mayHaveEffect).filterMap InputEvent.presses =
      (s.events.take n).filterMap InputEvent.presses ++ (s.boundaryPress n mayHaveEffect).toList := by
  cases mayHaveEffect with
  | false => simp [possible, boundaryPress]
  | true =>
    rw [possible_true, List.filterMap_append]
    unfold boundaryPress
    cases s.events[n]? with
    | none => rfl
    | some event =>
      cases hpress : event.presses with
      | none => simp [hpress]
      | some x => simp [hpress]

lemma count_heldAfter (n : ℕ) (x : PressedState) :
    (s.heldAfter n).count x = outstanding x (s.events.take n) := by
  rw [heldAfter_eq, List.count_reverse]
  exact Holding.count_held _ _ _ x

lemma heldAfter_nodup {n : ℕ}
    (h : Holding.Alternating InputEvent.presses InputEvent.releases (s.events.take n)) :
    (s.heldAfter n).Nodup := by
  rw [heldAfter_eq, List.nodup_reverse]
  exact h.nodup

/-- **What the complete events hold is the presses that stand**, the last one first. -/
lemma heldAfter_standing (n : ℕ) :
    ∃ indices : List ℕ, indices.Pairwise (· > ·) ∧
      List.Forall₂ (Standing (s.events.take n)) indices (s.heldAfter n) ∧
      ∀ i x, Standing (s.events.take n) i x → i ∈ indices := by
  obtain ⟨indices, hsorted, hstanding, hall⟩ :=
    Holding.held_standing InputEvent.presses InputEvent.releases (s.events.take n)
  refine ⟨indices.reverse, List.pairwise_reverse.mpr hsorted, ?_, fun i x hx =>
    List.mem_reverse.mpr (hall i x hx)⟩
  rw [heldAfter_eq]
  exact List.rel_reverse hstanding

lemma mem_heldAfter_iff {n : ℕ} {x : PressedState} :
    x ∈ s.heldAfter n ↔ ∃ i, Standing (s.events.take n) i x := by
  rw [heldAfter_eq, List.mem_reverse]
  exact Holding.mem_held_iff _ _

lemma standing_lt {n i : ℕ} {x : PressedState} (h : Standing (s.events.take n) i x) : i < n := by
  by_contra hle
  have hpressed := h.pressed
  rw [List.getElem?_take_eq_none (Nat.not_lt.mp hle)] at hpressed
  cases hpressed

lemma Covers.of_mem {n : ℕ} {mayHaveEffect : Bool} {list : List PressedState}
    (hheld : ∀ x ∈ s.heldAfter n, x ∈ list)
    (hboundary : ∀ x, s.boundaryPress n mayHaveEffect = some x → x ∈ list)
    (hsub : list.reverse.Sublist ((s.possible n mayHaveEffect).filterMap InputEvent.presses))
    (horder : ∃ indices : List ℕ, indices.Pairwise (· > ·) ∧
      List.Forall₂ (s.Owed n mayHaveEffect) indices list ∧
      ∀ i x, s.Owed n mayHaveEffect i x → i ∈ indices)
    (hcount : ∀ x, list.count x = max (outstanding x (s.events.take n))
      (if s.boundaryPress n mayHaveEffect = some x then 1 else 0))
    (hnodup : (s.heldAfter n).Nodup → list.Nodup) : s.Covers n mayHaveEffect list := by
  have hdown : ∀ x ∈ down (s.events.take n), x ∈ list := by
    intro x hx
    refine hheld x ?_
    rw [heldAfter_eq, List.mem_reverse]
    exact mem_held_of_down hx
  refine ⟨?_, hboundary, ?_, horder, ?_, hcount, fun h => hnodup (s.heldAfter_nodup h), ?_⟩
  · intro x hx
    exact hdown x ((Holding.mem_downAfter_iff _ _ _ x).mpr hx)
  · intro x hx
    exact List.mem_filterMap.mp (hsub.subset (List.mem_reverse.mpr hx))
  · rw [← List.length_reverse]
    exact hsub.length_le
  · intro m hm
    refine foldl_release ?_
    rintro x hx
    rcases hm with rfl | ⟨rfl, rfl⟩
    · exact hdown x hx
    · rcases s.mem_down_succ hx with hx | hx
      · exact hdown x hx
      · exact hboundary x hx

/-- **`possibly_held_after` covers what may be held**, for every sequence and every number of
complete events, whether or not the next event may have had effect. -/
theorem possiblyHeld_covers (n : ℕ) (mayHaveEffect : Bool) :
    s.Covers n mayHaveEffect (s.possiblyHeldAfter n mayHaveEffect) := by
  have hsub := s.heldAfter_sublist n
  obtain ⟨indices, hsorted, hstanding, hall⟩ := s.heldAfter_standing n
  -- the complete events say it all, unless the next one presses something that is not held
  have hsame (hnone : ∀ x, s.boundaryPress n mayHaveEffect = some x → x ∈ s.heldAfter n) :
      ∃ indices : List ℕ, indices.Pairwise (· > ·) ∧
        List.Forall₂ (s.Owed n mayHaveEffect) indices (s.heldAfter n) ∧
        ∀ i x, s.Owed n mayHaveEffect i x → i ∈ indices := by
    refine ⟨indices, hsorted, hstanding.imp fun _ _ h => Or.inl h, ?_⟩
    rintro i x (hx | ⟨-, hpress, hnot⟩)
    · exact hall i x hx
    · obtain ⟨j, hj⟩ := s.mem_heldAfter_iff.mp (hnone x hpress)
      exact absurd hj (hnot j)
  have hlist := s.possiblyHeldAfter_eq n mayHaveEffect
  cases hpress : s.boundaryPress n mayHaveEffect with
  | none =>
    rw [hpress] at hlist
    rw [hlist]
    refine .of_mem s (fun x hx => hx) ?_ ?_ (hsame fun x hx => ?_) ?_ id
    · intro x hx
      rw [hpress] at hx
      cases hx
    · rw [possible_filterMap, hpress, Option.toList_none, List.append_nil]
      exact hsub
    · rw [hpress] at hx
      cases hx
    · intro x
      rw [hpress, count_heldAfter]
      simp
  | some pressed =>
    rw [hpress] at hlist
    simp only at hlist
    by_cases hmem : pressed ∈ s.heldAfter n
    · rw [if_neg (not_not_intro hmem)] at hlist
      rw [hlist]
      have hheld : ∀ x, s.boundaryPress n mayHaveEffect = some x → x ∈ s.heldAfter n := by
        intro x hx
        rw [hpress] at hx
        cases hx
        exact hmem
      refine .of_mem s (fun x hx => hx) hheld ?_ (hsame hheld) ?_ id
      · rw [possible_filterMap]
        exact hsub.trans (List.sublist_append_left _ _)
      · intro x
        rw [hpress, ← count_heldAfter]
        by_cases hx : pressed = x
        · subst hx
          have hpos := List.count_pos_iff.mpr hmem
          rw [if_pos rfl]
          omega
        · rw [if_neg (by rintro ⟨⟩; exact hx rfl)]
          omega
    · rw [if_pos hmem] at hlist
      rw [hlist]
      have hnot : ∀ j, ¬ Standing (s.events.take n) j pressed := fun j hj =>
        hmem (s.mem_heldAfter_iff.mpr ⟨j, hj⟩)
      refine .of_mem s (fun x hx => List.mem_cons_of_mem pressed hx) ?_ ?_
        ⟨n :: indices, List.pairwise_cons.mpr ⟨fun i hi => ?_, hsorted⟩,
          .cons (Or.inr ⟨rfl, hpress, hnot⟩) (hstanding.imp fun _ _ h => Or.inl h), ?_⟩ ?_
        (fun h => List.nodup_cons.mpr ⟨hmem, h⟩)
      · intro x hx
        rw [hpress] at hx
        cases hx
        exact List.mem_cons_self
      · rw [possible_filterMap, hpress, List.reverse_cons, Option.toList_some]
        exact hsub.append_right _
      · obtain ⟨x, -, hx⟩ := Holding.forall₂_exists hstanding hi
        exact s.standing_lt hx
      · rintro i x (hx | ⟨rfl, -, -⟩)
        · exact List.mem_cons_of_mem n (hall i x hx)
        · exact List.mem_cons_self
      · intro x
        rw [hpress, ← count_heldAfter]
        by_cases hx : pressed = x
        · subst hx
          rw [List.count_cons_self, List.count_eq_zero.mpr hmem, if_pos rfl]
          rfl
        · rw [List.count_cons_of_ne hx, if_neg (by rintro ⟨⟩; exact hx rfl)]
          omega

end InputSequence

/-! ### A key pressed twice -/

/-- A, and A again before it is released. -/
def pressedTwice : InputSequence where
  events := [.keyPress (.character 'a'), .keyPress (.character 'a')]
  nonempty := by decide
  length_le := by decide
  checked := by decide

/-- **A key that is pressed twice is listed twice**: the list is not free of duplicates. -/
theorem twice_pressed_listed_twice :
    pressedTwice.possiblyHeldAfter 2 false = [.key (.character 'a'), .key (.character 'a')] ∧
      ¬ (pressedTwice.possiblyHeldAfter 2 false).Nodup := by
  have hlist : pressedTwice.possiblyHeldAfter 2 false =
      [.key (.character 'a'), .key (.character 'a')] := by
    decide
  refine ⟨hlist, ?_⟩
  rw [hlist]
  exact fun h => List.not_nodup_pair _ h

end MadoPilot.Input
