import Mathlib.Data.List.Basic

/-!
# Rows laid out one after another

Rows of a table are kept in one list, each behind the one before; the offset of a row is the length of
what is before it.

* `slice_layout` : the slice between two offsets is the row;
* `offset_mono` : offsets do not decrease;
* `mapM_positions` : looking the positions of some elements up gives the elements.
-/

namespace MadoPilot.Lib

variable {α β : Type*}

def layout (row : ℕ → List α) (count : ℕ) : List α := (List.range count).flatMap row

theorem layout_succ (row : ℕ → List α) (count : ℕ) :
    layout row (count + 1) = layout row count ++ row count := by
  unfold layout
  rw [List.range_succ, List.flatMap_append, List.flatMap_singleton]

theorem layout_initial (row : ℕ → List α) {i j : ℕ} (h : i ≤ j) : layout row i <+: layout row j := by
  induction h with
  | refl => exact List.prefix_rfl
  | step _ ih =>
    rw [layout_succ]
    exact ih.trans (List.prefix_append _ _)

theorem offset_mono (row : ℕ → List α) {i j : ℕ} (h : i ≤ j) :
    (layout row i).length ≤ (layout row j).length :=
  (layout_initial row h).length_le

theorem slice_layout (row : ℕ → List α) {i count : ℕ} (h : i < count) :
    ((layout row count).take (layout row (i + 1)).length).drop (layout row i).length = row i := by
  rw [← (List.prefix_iff_eq_take.mp (layout_initial row h)), layout_succ, List.drop_left]

/-- The positions of the elements that a test picks, counted from a number. -/
def positions (p : α → Bool) (l : List α) (start : ℕ) : List ℕ :=
  ((l.zipIdx start).filter fun x => p x.1).map Prod.snd

theorem positions_cons (p : α → Bool) (a : α) (l : List α) (start : ℕ) :
    positions p (a :: l) start =
      if p a then start :: positions p l (start + 1) else positions p l (start + 1) := by
  unfold positions
  rw [List.zipIdx_cons]
  cases hp : p a with
  | true => simp [hp]
  | false => simp [hp]

theorem mem_positions {p : α → Bool} {l : List α} {start i : ℕ} :
    i ∈ positions p l start ↔ ∃ a, start ≤ i ∧ l[i - start]? = some a ∧ p a = true := by
  unfold positions
  rw [List.mem_map]
  constructor
  · rintro ⟨⟨a, j⟩, hmem, rfl⟩
    rw [List.mem_filter, List.mem_zipIdx_iff_le_and_getElem?_sub] at hmem
    exact ⟨a, hmem.1.1, hmem.1.2, hmem.2⟩
  · rintro ⟨a, hle, hget, hp⟩
    refine ⟨(a, i), ?_, rfl⟩
    rw [List.mem_filter, List.mem_zipIdx_iff_le_and_getElem?_sub]
    exact ⟨⟨hle, hget⟩, hp⟩

theorem positions_map (p : β → Bool) (f : α → β) (l : List α) (start : ℕ) :
    positions p (l.map f) start = positions (fun a => p (f a)) l start := by
  induction l generalizing start with
  | nil => rfl
  | cons a l ih => rw [List.map_cons, positions_cons, positions_cons, ih]

theorem mapM_positions {ε : Type*} (p : α → Bool) (l : List α) (f : α → Option β) (start : ℕ)
    (get : ℕ → Except ε β) (hsome : ∀ a ∈ l, (f a).isSome = true)
    (hget : ∀ i a b, l[i]? = some a → f a = some b → get (start + i) = .ok b) :
    (positions p l start).mapM get = .ok ((l.filter p).filterMap f) := by
  induction l generalizing start with
  | nil => rfl
  | cons a l ih =>
    have hrest : (positions p l (start + 1)).mapM get = .ok ((l.filter p).filterMap f) := by
      refine ih (start + 1) (fun a' ha' => hsome a' (List.mem_cons_of_mem _ ha')) fun i a' b hi hb => ?_
      rw [Nat.add_assoc, Nat.add_comm 1 i]
      exact hget (i + 1) a' b hi hb
    rw [positions_cons]
    cases hp : p a with
    | false =>
      rw [if_neg Bool.false_ne_true, List.filter_cons_of_neg (by simp [hp])]
      exact hrest
    | true =>
      obtain ⟨b, hb⟩ := Option.isSome_iff_exists.mp (hsome a List.mem_cons_self)
      have hhead : get start = .ok b := hget 0 a b rfl hb
      rw [if_pos rfl, List.filter_cons_of_pos hp, List.filterMap_cons_some hb, List.mapM_cons, hhead,
        hrest]
      rfl

theorem getElem?_filterMap {f : α → Option β} {l : List α} (hsome : ∀ a ∈ l, (f a).isSome = true)
    {i : ℕ} : (l.filterMap f)[i]? = l[i]?.bind f := by
  induction l generalizing i with
  | nil => rfl
  | cons a l ih =>
    obtain ⟨b, hb⟩ := Option.isSome_iff_exists.mp (hsome a List.mem_cons_self)
    rw [List.filterMap_cons_some hb]
    cases i with
    | zero => exact hb.symm
    | succ i =>
      rw [List.getElem?_cons_succ, List.getElem?_cons_succ]
      exact ih fun a' ha' => hsome a' (List.mem_cons_of_mem _ ha')

end MadoPilot.Lib
