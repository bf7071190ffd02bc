import Mathlib.Data.List.Count
import Mathlib.Data.List.Induction
import Mathlib.Data.List.Nodup
import Mathlib.Data.Nat.Notation
import Mathlib.Data.Set.Insert
import Mathlib.Order.Basic

/-!
# What a run of presses and releases holds

Events that press and release things.  The held things are kept as a list in the order of their
presses: a press puts its thing at the end, a release takes the last entry of its thing away.

* `held_sublist`: the list is a part of the presses, in their order;
* `count_held`: a thing stands in it as often as presses of it are outstanding;
* `held_standing`: its entries are the presses that no later release took back, in their order;
* `mem_downAfter_iff`, `down_subset_held`: what is down was pressed last, and is in the list;
* `foldl_down`: releasing everything in a list leaves none of its things down.
-/

namespace MadoPilot.Lib.Holding

/-! ### What is down -/

section Down

variable {β α : Type*} (presses releases : β → Option α)

def LastPressed (events : List β) (x : α) : Prop :=
  ∃ before event after, events = before ++ event :: after ∧ presses event = some x ∧
    ∀ e ∈ event :: after, releases e ≠ some x

/-- What is down after one more event: a press puts its thing down, a release lifts it. -/
def down (pressed : Set α) (event : β) : Set α :=
  {x | (presses event = some x ∨ x ∈ pressed) ∧ releases event ≠ some x}

def downAfter (events : List β) : Set α := events.foldl (down presses releases) ∅

lemma downAfter_concat (events : List β) (event : β) :
    downAfter presses releases (events ++ [event]) =
      down presses releases (downAfter presses releases events) event := by
  unfold downAfter
  rw [List.foldl_append]
  rfl

theorem mem_downAfter_iff (events : List β) (x : α) :
    x ∈ downAfter presses releases events ↔ LastPressed presses releases events x := by
  induction events using List.reverseRecOn with
  | nil =>
    constructor
    · intro h
      exact absurd h (Set.notMem_empty x)
    · rintro ⟨before, event, after, hevents, -, -⟩
      exact absurd hevents.symm (by simp)
  | append_singleton events event ih =>
    rw [downAfter_concat]
    constructor
    · rintro ⟨hpress | hheld, hrelease⟩
      · refine ⟨events, event, [], rfl, hpress, ?_⟩
        intro e he
        rw [List.mem_singleton.mp he]
        exact hrelease
      · obtain ⟨before, e, after, hevents, hpress, hrest⟩ := ih.mp hheld
        refine ⟨before, e, after ++ [event], by rw [hevents]; simp, hpress, ?_⟩
        intro e' he'
        rw [← List.cons_append, List.mem_append, List.mem_singleton] at he'
        rcases he' with he' | rfl
        · exact hrest e' he'
        · exact hrelease
    · rintro ⟨before, e, after, hevents, hpress, hrest⟩
      rcases List.eq_nil_or_concat' after with rfl | ⟨after, last, rfl⟩
      · obtain ⟨-, hlast⟩ := List.append_inj' hevents rfl
        cases hlast
        exact ⟨Or.inl hpress, hrest event (List.mem_singleton_self event)⟩
      · rw [← List.cons_append, ← List.append_assoc] at hevents
        obtain ⟨hinit, hlast⟩ := List.append_inj' hevents rfl
        cases hlast
        refine ⟨Or.inr (ih.mpr ⟨before, e, after, hinit, hpress, ?_⟩), hrest event (by simp)⟩
        intro e' he'
        exact hrest e' (by rw [← List.cons_append]; exact List.mem_append_left _ he')

theorem foldl_down {events : List β} (hpress : ∀ e ∈ events, presses e = none) (pressed : Set α) :
    events.foldl (down presses releases) pressed =
      {x | x ∈ pressed ∧ ∀ e ∈ events, releases e ≠ some x} := by
  induction events generalizing pressed with
  | nil => simp
  | cons event events ih =>
    have hevent := hpress event List.mem_cons_self
    have hrest : ∀ e ∈ events, presses e = none := by
      intro e he
      exact hpress e (List.mem_cons_of_mem event he)
    rw [List.foldl_cons, ih hrest]
    ext x
    simp only [down, hevent, Set.mem_ofPred_eq, List.forall_mem_cons]
    constructor
    · rintro ⟨⟨hpressed | hheld, hrelease⟩, hlist⟩
      · cases hpressed
      · exact ⟨hheld, hrelease, hlist⟩
    · rintro ⟨hheld, hrelease, hlist⟩
      exact ⟨⟨Or.inr hheld, hrelease⟩, hlist⟩

end Down

/-! ### What is held -/

section Held

variable {β α : Type*} [DecidableEq α]

/-- The list without the last entry of `x`. -/
def eraseLast (list : List α) (x : α) : List α := (list.reverse.erase x).reverse

lemma eraseLast_sublist (list : List α) (x : α) : (eraseLast list x).Sublist list := by
  unfold eraseLast
  rw [← List.reverse_sublist, List.reverse_reverse]
  exact List.erase_sublist

lemma count_eraseLast (list : List α) (x y : α) :
    (eraseLast list x).count y = list.count y - if x = y then 1 else 0 := by
  unfold eraseLast
  rw [List.count_reverse, List.count_erase, List.count_reverse]
  simp only [beq_iff_eq]

lemma mem_eraseLast_of_ne {list : List α} {x y : α} (hne : x ≠ y) (hy : y ∈ list) :
    y ∈ eraseLast list x := by
  unfold eraseLast
  rw [List.mem_reverse, List.mem_erase_of_ne (Ne.symm hne), List.mem_reverse]
  exact hy

lemma filterMap_eraseLast {γ : Type*} [DecidableEq γ] {kind : α → Option γ} {x : α} {y : γ}
    (hx : kind x = some y) (hinj : ∀ a, kind a = some y → a = x) (list : List α) :
    (eraseLast list x).filterMap kind = eraseLast (list.filterMap kind) y := by
  have herase : ∀ list : List α,
      (list.erase x).filterMap kind = (list.filterMap kind).erase y := by
    intro list
    induction list with
    | nil => rfl
    | cons a list ih =>
      by_cases ha : a = x
      · subst ha
        rw [List.erase_cons_head, List.filterMap_cons_some hx, List.erase_cons_head]
      · rw [List.erase_cons_tail (by simpa using ha)]
        cases hkind : kind a with
        | none => rw [List.filterMap_cons_none hkind, List.filterMap_cons_none hkind, ih]
        | some b =>
          have hb : b ≠ y := by
            rintro rfl
            exact ha (hinj a hkind)
          rw [List.filterMap_cons_some hkind, List.filterMap_cons_some hkind,
            List.erase_cons_tail (by simpa using hb), ih]
  unfold eraseLast
  rw [List.filterMap_reverse, herase, List.filterMap_reverse]

lemma filterMap_eraseLast_none {γ : Type*} {kind : α → Option γ} {x : α} (hx : kind x = none)
    (list : List α) : (eraseLast list x).filterMap kind = list.filterMap kind := by
  have herase : ∀ list : List α, (list.erase x).filterMap kind = list.filterMap kind := by
    intro list
    induction list with
    | nil => rfl
    | cons a list ih =>
      by_cases ha : a = x
      · subst ha
        rw [List.erase_cons_head, List.filterMap_cons_none hx]
      · rw [List.erase_cons_tail (by simpa using ha)]
        cases hkind : kind a with
        | none => rw [List.filterMap_cons_none hkind, List.filterMap_cons_none hkind, ih]
        | some b => rw [List.filterMap_cons_some hkind, List.filterMap_cons_some hkind, ih]
  unfold eraseLast
  rw [List.filterMap_reverse, herase, List.filterMap_reverse, List.reverse_reverse]

variable (presses releases : β → Option α)

/-- One event: a press puts its thing at the end, a release takes the last entry of its thing. -/
def hold (list : List α) (event : β) : List α :=
  let list := match presses event with
    | some pressed => list ++ [pressed]
    | none => list
  match releases event with
  | some released => eraseLast list released
  | none => list

def held (events : List β) : List α := events.foldl (hold presses releases) []

lemma held_concat (events : List β) (event : β) :
    held presses releases (events ++ [event]) =
      hold presses releases (held presses releases events) event := by
  unfold held
  rw [List.foldl_append]
  rfl

/-! ### The presses it comes from -/

lemma hold_sublist (list : List α) (event : β) :
    (hold presses releases list event).Sublist (list ++ (presses event).toList) := by
  unfold hold
  have hpress : (match presses event with
      | some pressed => list ++ [pressed]
      | none => list) = list ++ (presses event).toList := by
    cases presses event with
    | some pressed => rfl
    | none => exact (List.append_nil list).symm
  rw [hpress]
  cases releases event with
  | some released => exact eraseLast_sublist _ released
  | none => exact List.Sublist.refl _

theorem held_sublist (events : List β) :
    (held presses releases events).Sublist (events.filterMap presses) := by
  induction events using List.reverseRecOn with
  | nil => exact List.Sublist.refl _
  | append_singleton events event ih =>
    rw [held_concat, List.filterMap_append]
    have hlast : [event].filterMap presses = (presses event).toList := by
      cases hpress : presses event with
      | some pressed => simp [hpress]
      | none => simp [hpress]
    rw [hlast]
    exact (hold_sublist presses releases _ event).trans (ih.append_right _)

/-! ### How often a thing is held -/

/-- The presses of `x` that no release took back, one release taking back one press. -/
def outstanding (x : α) (events : List β) : ℕ :=
  events.foldl (fun k event =>
    (k + if presses event = some x then 1 else 0) - if releases event = some x then 1 else 0) 0

lemma outstanding_concat (x : α) (events : List β) (event : β) :
    outstanding presses releases x (events ++ [event]) =
      (outstanding presses releases x events + if presses event = some x then 1 else 0) -
        if releases event = some x then 1 else 0 := by
  unfold outstanding
  rw [List.foldl_append]
  rfl

lemma count_hold (list : List α) (event : β) (x : α) :
    (hold presses releases list event).count x =
      (list.count x + if presses event = some x then 1 else 0) -
        if releases event = some x then 1 else 0 := by
  have hpress : (match presses event with
      | some pressed => list ++ [pressed]
      | none => list).count x = list.count x + if presses event = some x then 1 else 0 := by
    cases presses event with
    | some pressed =>
      simp only [List.count_append, List.count_singleton, beq_iff_eq, Option.some.injEq]
    | none => simp
  unfold hold
  cases hrelease : releases event with
  | some released =>
    simp only [count_eraseLast, hpress, Option.some.injEq]
  | none => simpa using hpress

theorem count_held (events : List β) (x : α) :
    (held presses releases events).count x = outstanding presses releases x events := by
  induction events using List.reverseRecOn with
  | nil => rfl
  | append_singleton events event ih =>
    rw [held_concat, outstanding_concat, count_hold, ih]

def Alternating (events : List β) : Prop :=
  ∀ before event after, events = before ++ event :: after →
    ∀ x, presses event = some x → outstanding presses releases x before = 0

theorem Alternating.nodup {events : List β} (h : Alternating presses releases events) :
    (held presses releases events).Nodup := by
  have hle : ∀ x, outstanding presses releases x events ≤ 1 := by
    intro x
    induction events using List.reverseRecOn with
    | nil => exact Nat.zero_le 1
    | append_singleton events event ih =>
      have hinit : Alternating presses releases events := by
        intro before e after hevents
        exact h before e (after ++ [event]) (by rw [hevents]; simp)
      have hle := ih hinit
      rw [outstanding_concat]
      by_cases hpress : presses event = some x
      · rw [if_pos hpress, h events event [] rfl x hpress]
        omega
      · rw [if_neg hpress]
        omega
  rw [List.nodup_iff_count_le_one]
  intro x
  rw [count_held]
  exact hle x

/-! ### Which presses are held -/

def pressCount (x : α) (events : List β) : ℕ := events.countP (presses · = some x)

def releaseCount (x : α) (events : List β) : ℕ := events.countP (releases · = some x)

/-- No release of `x` in the events is for a press before them: the releases never outnumber the
presses. -/
def Keeps (x : α) (events : List β) : Prop :=
  ∀ part, part <+: events → releaseCount releases x part ≤ pressCount presses x part

/-- The event at `i` presses `x`, and neither it nor a later one takes that back. -/
structure Standing (events : List β) (i : ℕ) (x : α) : Prop where
  pressed : events[i]?.bind presses = some x
  apart : events[i]?.bind releases ≠ some x
  kept : Keeps presses releases x (events.drop (i + 1))

lemma keeps_concat {x : α} {events : List β} {event : β} :
    Keeps presses releases x (events ++ [event]) ↔ Keeps presses releases x events ∧
      releaseCount releases x (events ++ [event]) ≤ pressCount presses x (events ++ [event]) := by
  unfold Keeps
  simp only [List.prefix_concat_iff]
  constructor
  · exact fun h => ⟨fun part hpart => h part (Or.inr hpart), h _ (Or.inl rfl)⟩
  · rintro ⟨hkeeps, hall⟩ part (rfl | hpart)
    · exact hall
    · exact hkeeps part hpart

/-- **Where nothing before is released**, the outstanding presses are what the releases leave. -/
lemma Keeps.outstanding {x : α} {events : List β} (h : Keeps presses releases x events) :
    outstanding presses releases x events + releaseCount releases x events =
      pressCount presses x events := by
  induction events using List.reverseRecOn with
  | nil => rfl
  | append_singleton events event ih =>
    obtain ⟨hkeeps, hall⟩ := (keeps_concat presses releases).mp h
    have hbefore := ih hkeeps
    unfold releaseCount pressCount at hall hbefore ⊢
    rw [List.countP_append, List.countP_append, List.countP_singleton, List.countP_singleton] at hall ⊢
    rw [outstanding_concat]
    simp only [decide_eq_true_eq] at hall ⊢
    omega

lemma hold_cons (x : α) (list : List α) (event : β) :
    hold presses releases (x :: list) event =
      if releases event = some x ∧ x ∉ list ++ (presses event).toList then
        hold presses releases list event
      else x :: hold presses releases list event := by
  have hpress : ∀ list : List α, (match presses event with
      | some pressed => list ++ [pressed]
      | none => list) = list ++ (presses event).toList := by
    intro list
    cases presses event with
    | some pressed => rfl
    | none => exact (List.append_nil list).symm
  unfold hold
  rw [hpress, hpress, List.cons_append]
  generalize list ++ (presses event).toList = held
  cases releases event with
  | none => rfl
  | some y =>
    dsimp only
    unfold eraseLast
    rw [List.reverse_cons]
    by_cases hmem : y ∈ held
    · rw [List.erase_append_left _ (List.mem_reverse.mpr hmem), List.reverse_append, if_neg]
      · rfl
      · rintro ⟨hsame, hnot⟩
        exact hnot (Option.some.inj hsame ▸ hmem)
    · have hnot : y ∉ held.reverse := fun h => hmem (List.mem_reverse.mp h)
      rw [List.erase_append_right _ hnot, List.reverse_append, List.erase_of_not_mem hnot,
        List.reverse_reverse]
      by_cases hxy : y = x
      · subst hxy
        rw [if_pos ⟨rfl, hmem⟩, List.erase_cons_head]
        rfl
      · rw [if_neg (by rintro ⟨⟨⟩, -⟩; exact hxy rfl), List.erase_cons_tail (by simpa using Ne.symm hxy)]
        rfl

lemma hold_nil (event : β) : hold presses releases [] event =
    match presses event with
    | some x => if releases event = some x then [] else [x]
    | none => [] := by
  unfold hold
  cases presses event with
  | none => cases releases event <;> rfl
  | some x =>
    cases releases event with
    | none => rfl
    | some y =>
      by_cases hxy : y = x
      · subst hxy
        simp [eraseLast]
      · simp [eraseLast, hxy, Ne.symm hxy]

/-- **What is held before some events** stays in front of what they hold, unless they take it back. -/
lemma foldl_hold_singleton (x : α) (events : List β) :
    (Keeps presses releases x events → events.foldl (hold presses releases) [x] =
      x :: held presses releases events) ∧
    (¬ Keeps presses releases x events → events.foldl (hold presses releases) [x] =
      held presses releases events) := by
  induction events using List.reverseRecOn with
  | nil => exact ⟨fun _ => rfl, fun h => absurd (fun part hpart => by
      rw [List.prefix_nil.mp hpart]; exact Nat.le_refl 0) h⟩
  | append_singleton events event ih =>
    rw [List.foldl_append, List.foldl_cons, List.foldl_nil, held_concat, keeps_concat]
    by_cases hkeeps : Keeps presses releases x events
    · -- the last event takes `x` back where nothing later is held of it
      have htaken : (releases event = some x ∧ x ∉ held presses releases events ++ (presses event).toList) ↔
          ¬ releaseCount releases x (events ++ [event]) ≤ pressCount presses x (events ++ [event]) := by
        have hcount := Keeps.outstanding presses releases hkeeps
        have hpress : (presses event).toList.count x = if presses event = some x then 1 else 0 := by
          cases presses event with
          | none => rfl
          | some y => simp [List.count_singleton]
        rw [← List.count_eq_zero, List.count_append, count_held, hpress]
        unfold releaseCount pressCount at hcount ⊢
        rw [List.countP_append, List.countP_append, List.countP_singleton, List.countP_singleton]
        simp only [decide_eq_true_eq]
        by_cases hrelease : releases event = some x
        · rw [if_pos hrelease]
          simp only [hrelease, true_and]
          omega
        · rw [if_neg hrelease]
          simp only [hrelease, false_and, false_iff, not_not]
          omega
      rw [ih.1 hkeeps, hold_cons]
      constructor
      · rintro ⟨-, hle⟩
        rw [if_neg (fun h => htaken.mp h hle)]
      · intro hnot
        rw [if_pos (htaken.mpr fun hle => hnot ⟨hkeeps, hle⟩)]
    · rw [ih.2 hkeeps]
      exact ⟨fun h => absurd h.1 hkeeps, fun _ => rfl⟩

lemma standing_succ {event : β} {events : List β} {i : ℕ} {x : α} :
    Standing presses releases (event :: events) (i + 1) x ↔ Standing presses releases events i x :=
  ⟨fun ⟨hpressed, hapart, hkept⟩ => ⟨hpressed, hapart, hkept⟩,
    fun ⟨hpressed, hapart, hkept⟩ => ⟨hpressed, hapart, hkept⟩⟩

theorem held_standing (events : List β) :
    ∃ indices : List ℕ, indices.Pairwise (· < ·) ∧
      List.Forall₂ (Standing presses releases events) indices (held presses releases events) ∧
      ∀ i x, Standing presses releases events i x → i ∈ indices := by
  induction events with
  | nil => exact ⟨[], .nil, .nil, fun i x h => by have := h.pressed; simp at this⟩
  | cons event events ih =>
    obtain ⟨indices, hsorted, hstanding, hall⟩ := ih
    have hsorted' : (indices.map (· + 1)).Pairwise (· < ·) := by
      rw [List.pairwise_map]
      exact hsorted.imp Nat.succ_lt_succ
    have hstanding' : List.Forall₂ (Standing presses releases (event :: events)) (indices.map (· + 1))
        (held presses releases events) := by
      rw [List.forall₂_map_left_iff]
      exact hstanding.imp fun _ _ => (standing_succ presses releases).mpr
    have hlater : ∀ i x, Standing presses releases (event :: events) (i + 1) x →
        i + 1 ∈ indices.map (· + 1) :=
      fun i x h => List.mem_map_of_mem (hall i x ((standing_succ presses releases).mp h))
    by_cases hfirst : ∃ x, Standing presses releases (event :: events) 0 x
    · obtain ⟨x, hx⟩ := hfirst
      have hheld : held presses releases (event :: events) = x :: held presses releases events := by
        have hone : hold presses releases [] event = [x] := by
          rw [hold_nil, show presses event = some x from hx.pressed]
          exact if_neg hx.apart
        unfold held
        rw [List.foldl_cons, hone]
        exact (foldl_hold_singleton presses releases x events).1 hx.kept
      refine ⟨0 :: indices.map (· + 1), List.pairwise_cons.mpr ⟨?_, hsorted'⟩, ?_, ?_⟩
      · intro j hj
        obtain ⟨k, -, rfl⟩ := List.mem_map.mp hj
        exact Nat.succ_pos k
      · rw [hheld]
        exact .cons hx hstanding'
      · intro i y hy
        cases i with
        | zero => exact List.mem_cons_self
        | succ i => exact List.mem_cons_of_mem _ (hlater i y hy)
    · have hheld : held presses releases (event :: events) = held presses releases events := by
        unfold held
        rw [List.foldl_cons, hold_nil]
        cases hpress : presses event with
        | none => rfl
        | some x =>
          dsimp only
          split_ifs with hrelease
          · rfl
          · exact (foldl_hold_singleton presses releases x events).2 fun hkept =>
              hfirst ⟨x, hpress, hrelease, hkept⟩
      refine ⟨indices.map (· + 1), hsorted', ?_, ?_⟩
      · rw [hheld]
        exact hstanding'
      · intro i y hy
        cases i with
        | zero => exact absurd ⟨y, hy⟩ hfirst
        | succ i => exact hlater i y hy

lemma forall₂_exists {γ δ : Type*} {R : γ → δ → Prop} {l : List γ} {l' : List δ}
    (h : List.Forall₂ R l l') {a : γ} (ha : a ∈ l) : ∃ b ∈ l', R a b := by
  induction h with
  | nil => cases ha
  | cons hab _ ih =>
    rcases List.mem_cons.mp ha with rfl | ha
    · exact ⟨_, List.mem_cons_self, hab⟩
    · obtain ⟨b, hb, hR⟩ := ih ha
      exact ⟨b, List.mem_cons_of_mem _ hb, hR⟩

theorem mem_held_iff {events : List β} {x : α} :
    x ∈ held presses releases events ↔ ∃ i, Standing presses releases events i x := by
  obtain ⟨indices, -, hstanding, hall⟩ := held_standing presses releases events
  constructor
  · intro hx
    obtain ⟨i, -, hi⟩ := forall₂_exists (R := fun x i => Standing presses releases events i x)
      hstanding.flip hx
    exact ⟨i, hi⟩
  · rintro ⟨i, hi⟩
    obtain ⟨y, hy, hiy⟩ := forall₂_exists hstanding (hall i x hi)
    obtain rfl : x = y := Option.some.inj (hi.pressed.symm.trans hiy.pressed)
    exact hy

/-! ### What is down is held -/

lemma mem_hold_of_down {list : List α} {pressed : Set α} (hsub : ∀ x ∈ pressed, x ∈ list)
    (event : β) : ∀ x ∈ down presses releases pressed event, x ∈ hold presses releases list event := by
  rintro x ⟨hpress, hrelease⟩
  have hmem : x ∈ (match presses event with
      | some pressed => list ++ [pressed]
      | none => list) := by
    cases hevent : presses event with
    | some y =>
      rcases hpress with hpress | hheld
      · rw [hevent] at hpress
        cases hpress
        exact List.mem_append_right _ (List.mem_singleton_self x)
      · exact List.mem_append_left _ (hsub x hheld)
    | none =>
      rcases hpress with hpress | hheld
      · rw [hevent] at hpress
        cases hpress
      · exact hsub x hheld
  unfold hold
  cases hevent : releases event with
  | some y =>
    refine mem_eraseLast_of_ne ?_ hmem
    rintro rfl
    exact hrelease hevent
  | none => exact hmem

theorem down_subset_held (events : List β) :
    ∀ x ∈ downAfter presses releases events, x ∈ held presses releases events := by
  induction events using List.reverseRecOn with
  | nil => exact fun x hx => absurd hx (Set.notMem_empty x)
  | append_singleton events event ih =>
    rw [downAfter_concat, held_concat]
    exact mem_hold_of_down presses releases ih event

end Held

end MadoPilot.Lib.Holding
