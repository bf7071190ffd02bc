import Mathlib.Data.List.Forall2

/-!
# Computations that may fail

What a computation in `Except` did where it succeeded.
-/

namespace MadoPilot.Lib

universe u v

variable {ε : Type u} {α β : Type v}

theorem bind_eq_ok {x : Except ε α} {f : α → Except ε β} {b : β} :
    (x >>= f) = .ok b ↔ ∃ a, x = .ok a ∧ f a = .ok b := by
  cases x with
  | error e =>
    refine ⟨fun h => (by cases h), ?_⟩
    rintro ⟨a, ha, -⟩
    cases ha
  | ok a =>
    refine ⟨fun h => ⟨a, rfl, h⟩, ?_⟩
    rintro ⟨a', ha, h⟩
    obtain rfl := Except.ok.inj ha
    exact h

theorem foldlM_eq_ok {ε : Type u} {β : Type v} {α : Type*} {P : β → Prop} {step : β → α → Except ε β}
    {next : β → α → β} {l : List α}
    (h : ∀ b, P b → ∀ a ∈ l, step b a = .ok (next b a) ∧ P (next b a)) {b : β} (hb : P b) :
    l.foldlM step b = .ok (l.foldl next b) := by
  induction l generalizing b with
  | nil => rfl
  | cons a l ih =>
    obtain ⟨hstep, hnext⟩ := h b hb a List.mem_cons_self
    rw [List.foldlM_cons, List.foldl_cons, hstep]
    exact ih (fun b' hb' a' ha' => h b' hb' a' (List.mem_cons_of_mem _ ha')) hnext

theorem mapError_eq_ok {ε ε' α : Type*} {x : Except ε α} {f : ε → ε'} {a : α} :
    x.mapError f = .ok a ↔ x = .ok a := by
  cases x <;> simp [Except.mapError]

theorem mapM_eq_ok {ε : Type u} {α : Type*} {β : Type v} {f : α → Except ε β} {l : List α} {l' : List β} :
    l.mapM f = .ok l' ↔ List.Forall₂ (fun a b => f a = .ok b) l l' := by
  induction l generalizing l' with
  | nil =>
    rw [List.mapM_nil, List.forall₂_nil_left_iff]
    exact ⟨fun h => (Except.ok.inj h).symm, fun h => congrArg Except.ok h.symm⟩
  | cons a l ih =>
    rw [List.mapM_cons, List.forall₂_cons_left_iff]
    constructor
    · intro h
      obtain ⟨b, hb, h⟩ := bind_eq_ok.mp h
      obtain ⟨rest, hrest, h⟩ := bind_eq_ok.mp h
      exact ⟨b, rest, hb, ih.mp hrest, (Except.ok.inj h).symm⟩
    · rintro ⟨b, rest, hb, hrest, rfl⟩
      exact bind_eq_ok.mpr ⟨b, hb, bind_eq_ok.mpr ⟨rest, ih.mpr hrest, rfl⟩⟩

theorem mapM_eq_error {ε : Type u} {α : Type*} {β : Type v} {f : α → Except ε β} {l : List α} {e : ε} :
    l.mapM f = .error e ↔ ∃ (i : ℕ) (a : α), l[i]? = some a ∧ f a = .error e ∧
      ∀ j < i, ∀ a', l[j]? = some a' → ∃ b, f a' = .ok b := by
  induction l with
  | nil =>
    rw [List.mapM_nil]
    refine iff_of_false nofun ?_
    rintro ⟨i, a, hi, -⟩
    cases hi
  | cons a l ih =>
    rw [List.mapM_cons]
    cases ha : f a with
    | error e' =>
      refine ⟨fun h => ?_, ?_⟩
      · obtain rfl : e' = e := Except.error.inj h
        exact ⟨0, a, rfl, ha, fun j hj => absurd hj (Nat.not_lt_zero j)⟩
      · rintro ⟨i, a', hi, he, hfirst⟩
        cases i with
        | zero =>
          obtain rfl := Option.some.inj hi
          obtain rfl : e' = e := Except.error.inj (ha.symm.trans he)
          rfl
        | succ i =>
          obtain ⟨b, hb⟩ := hfirst 0 (Nat.succ_pos i) a rfl
          rw [ha] at hb
          cases hb
    | ok b =>
      have hrest : (l.mapM f >>= fun rest => (.ok (b :: rest) : Except ε (List β))) = .error e ↔
          l.mapM f = .error e := by
        cases l.mapM f with
        | error e' => exact Iff.rfl
        | ok rest => exact iff_of_false nofun nofun
      refine hrest.trans (ih.trans ⟨?_, ?_⟩)
      · rintro ⟨i, a', hi, he, hfirst⟩
        refine ⟨i + 1, a', hi, he, fun j hj a'' hj' => ?_⟩
        cases j with
        | zero =>
          obtain rfl := Option.some.inj hj'
          exact ⟨b, ha⟩
        | succ j => exact hfirst j (by omega) a'' hj'
      · rintro ⟨i, a', hi, he, hfirst⟩
        cases i with
        | zero =>
          obtain rfl := Option.some.inj hi
          rw [ha] at he
          cases he
        | succ i => exact ⟨i, a', hi, he, fun j hj a'' hj' => hfirst (j + 1) (by omega) a'' hj'⟩

theorem mapM_range_eq_error {ε : Type u} {β : Type v} {f : ℕ → Except ε β} {n : ℕ} {e : ε} :
    (List.range n).mapM f = .error e ↔ ∃ i < n, f i = .error e ∧ ∀ j < i, ∃ b, f j = .ok b := by
  rw [mapM_eq_error]
  constructor
  · rintro ⟨i, a, hi, he, hfirst⟩
    obtain ⟨hlt, rfl⟩ := List.getElem?_eq_some_iff.mp hi
    rw [List.length_range] at hlt
    rw [List.getElem_range] at he
    exact ⟨i, hlt, he, fun j hj => hfirst j hj j (List.getElem?_range (by omega))⟩
  · rintro ⟨i, hi, he, hfirst⟩
    refine ⟨i, i, List.getElem?_range hi, he, fun j hj a' ha' => ?_⟩
    rw [List.getElem?_range (by omega)] at ha'
    obtain rfl := Option.some.inj ha'
    exact hfirst j hj

theorem mapM_range_eq_ok {ε : Type u} {β : Type v} {f : ℕ → Except ε β} {g : ℕ → β} {n : ℕ}
    (h : ∀ i < n, f i = .ok (g i)) : (List.range n).mapM f = .ok ((List.range n).map g) := by
  rw [mapM_eq_ok, List.forall₂_map_right_iff, List.forall₂_same]
  exact fun i hi => h i (List.mem_range.mp hi)

theorem foldlM_congr {ε : Type u} {α : Type*} {β : Type v} {f g : β → α → Except ε β} {l : List α}
    (h : ∀ b, ∀ a ∈ l, f b a = g b a) (b : β) : l.foldlM f b = l.foldlM g b := by
  induction l generalizing b with
  | nil => rfl
  | cons a l ih =>
    rw [List.foldlM_cons, List.foldlM_cons, h b a List.mem_cons_self]
    exact bind_congr fun b' => ih (fun b'' a' ha' => h b'' a' (List.mem_cons_of_mem _ ha')) b'

/-- **A loop in which one element at most does something.**  The others are checked, and change
nothing. -/
theorem foldlM_special {ε : Type u} {α : Type*} {β : Type v} {f : β → α → Except ε β}
    {special P : α → Prop} {l : List α}
    (hother : ∀ a ∈ l, ¬ special a → ∀ b b', f b a = .ok b' ↔ b' = b ∧ P a)
    (hone : l.Pairwise fun a a' => ¬ (special a ∧ special a')) {b b' : β} :
    l.foldlM f b = .ok b' ↔ (∀ a ∈ l, ¬ special a → P a) ∧
      ((∃ a ∈ l, special a ∧ f b a = .ok b') ∨ (∀ a ∈ l, ¬ special a) ∧ b' = b) := by
  induction l generalizing b with
  | nil =>
    rw [List.foldlM_nil]
    constructor
    · intro h
      exact ⟨List.forall_mem_nil _, Or.inr ⟨List.forall_mem_nil _, (Except.ok.inj h).symm⟩⟩
    · rintro ⟨-, ⟨a, ha, -⟩ | ⟨-, rfl⟩⟩
      · cases ha
      · rfl
  | cons a l ih =>
    obtain ⟨hfirst, hone⟩ := List.pairwise_cons.mp hone
    have hrest := @ih (fun a' ha' => hother a' (List.mem_cons_of_mem _ ha')) hone
    rw [List.foldlM_cons, bind_eq_ok]
    by_cases ha : special a
    · have hnone : ∀ a' ∈ l, ¬ special a' := fun a' ha' hs => hfirst a' ha' ⟨ha, hs⟩
      constructor
      · rintro ⟨b₁, hstep, h⟩
        obtain ⟨hall, ⟨a', ha', hs, -⟩ | ⟨-, rfl⟩⟩ := hrest.mp h
        · exact absurd hs (hnone a' ha')
        · exact ⟨List.forall_mem_cons.mpr ⟨fun h => absurd ha h, hall⟩,
            Or.inl ⟨a, List.mem_cons_self, ha, hstep⟩⟩
      · rintro ⟨hall, ⟨a', ha', hs, hstep⟩ | ⟨hnot, -⟩⟩
        · rcases List.mem_cons.mp ha' with rfl | ha'
          · exact ⟨b', hstep, hrest.mpr ⟨(List.forall_mem_cons.mp hall).2, Or.inr ⟨hnone, rfl⟩⟩⟩
          · exact absurd hs (hnone a' ha')
        · exact absurd ha (hnot a List.mem_cons_self)
    · constructor
      · rintro ⟨b₁, hstep, h⟩
        obtain ⟨rfl, hP⟩ := (hother a List.mem_cons_self ha b b₁).mp hstep
        obtain ⟨hall, hend⟩ := hrest.mp h
        refine ⟨List.forall_mem_cons.mpr ⟨fun _ => hP, hall⟩, ?_⟩
        rcases hend with ⟨a', ha', hs, hstep'⟩ | ⟨hnot, hsame⟩
        · exact Or.inl ⟨a', List.mem_cons_of_mem _ ha', hs, hstep'⟩
        · exact Or.inr ⟨List.forall_mem_cons.mpr ⟨ha, hnot⟩, hsame⟩
      · rintro ⟨hall, hend⟩
        obtain ⟨hP, hall⟩ := List.forall_mem_cons.mp hall
        refine ⟨b, (hother a List.mem_cons_self ha b b).mpr ⟨rfl, hP ha⟩, hrest.mpr ⟨hall, ?_⟩⟩
        rcases hend with ⟨a', ha', hs, hstep⟩ | ⟨hnot, hsame⟩
        · rcases List.mem_cons.mp ha' with rfl | ha'
          · exact absurd hs ha
          · exact Or.inl ⟨a', ha', hs, hstep⟩
        · exact Or.inr ⟨(List.forall_mem_cons.mp hnot).2, hsame⟩

theorem mapM_congr {ε : Type u} {α : Type*} {β : Type v} {f g : α → Except ε β} {l : List α}
    (h : ∀ a ∈ l, f a = g a) : l.mapM f = l.mapM g := by
  induction l with
  | nil => rfl
  | cons a l ih =>
    rw [List.mapM_cons, List.mapM_cons, h a List.mem_cons_self,
      ih fun a' ha' => h a' (List.mem_cons_of_mem _ ha')]

theorem toOption_eq_some {ε α : Type*} {x : Except ε α} {a : α} : x.toOption = some a ↔ x = .ok a := by
  cases x <;> simp [Except.toOption]

end MadoPilot.Lib
