import Mathlib.Data.List.Basic

/-!
# Segments

A list split at a separator, and segments joined by one.  Lean's own library says that the two undo
each other; this file says what the segments of a list and the ends of a join are.

* `not_mem_of_mem_splitOn`, `mem_of_mem_splitOn` : a segment has no separator and comes from the
  list;
* `mem_intercalate` : what a join holds;
* `head?_intercalate`, `getLast?_intercalate` : where a join begins and ends.
-/

namespace MadoPilot.Lib.Segments

variable {α : Type*} [BEq α] [LawfulBEq α] {sep c : α} {xs w : List α} {ws : List (List α)}

theorem not_mem_of_mem_splitOn (h : w ∈ xs.splitOn sep) : sep ∉ w := by
  induction xs generalizing w with
  | nil =>
    rw [List.splitOn_nil, List.mem_singleton] at h
    subst h
    exact List.not_mem_nil
  | cons x xs ih =>
    rw [List.splitOn_cons_eq_if_modifyHead] at h
    split_ifs at h with hx
    · rcases List.mem_cons.mp h with rfl | hw
      · exact List.not_mem_nil
      · exact ih hw
    · obtain ⟨r, rs, hr⟩ := List.exists_cons_of_ne_nil (List.splitOn_ne_nil sep xs)
      rw [hr, List.modifyHead_cons] at h
      rcases List.mem_cons.mp h with rfl | hw
      · rw [List.mem_cons, not_or]
        refine ⟨fun heq => hx ?_, ih (hr ▸ List.mem_cons_self ..)⟩
        rw [heq]
        exact BEq.rfl
      · exact ih (hr ▸ List.mem_cons_of_mem _ hw)

omit [BEq α] [LawfulBEq α] in
theorem mem_intercalate : c ∈ [sep].intercalate ws → c = sep ∨ ∃ w ∈ ws, c ∈ w := by
  induction ws with
  | nil =>
    intro h
    rw [List.intercalate_nil] at h
    cases h
  | cons w ws ih =>
    intro h
    cases ws with
    | nil =>
      rw [List.intercalate_singleton] at h
      exact Or.inr ⟨w, List.mem_singleton_self w, h⟩
    | cons w' ws =>
      rw [List.intercalate_cons_cons, List.mem_append, List.mem_append, List.mem_singleton] at h
      rcases h with (hw | rfl) | hrest
      · exact Or.inr ⟨w, List.mem_cons_self .., hw⟩
      · exact Or.inl rfl
      · rcases ih hrest with hsep | ⟨v, hv, hc⟩
        · exact Or.inl hsep
        · exact Or.inr ⟨v, List.mem_cons_of_mem _ hv, hc⟩

omit [BEq α] [LawfulBEq α] in
theorem subset_intercalate (hw : w ∈ ws) (hc : c ∈ w) : c ∈ [sep].intercalate ws := by
  induction ws with
  | nil => cases hw
  | cons v ws ih =>
    cases ws with
    | nil =>
      obtain rfl := List.mem_singleton.mp hw
      rw [List.intercalate_singleton]
      exact hc
    | cons v' ws =>
      rw [List.intercalate_cons_cons, List.mem_append, List.mem_append]
      rcases List.mem_cons.mp hw with rfl | hrest
      · exact Or.inl (Or.inl hc)
      · exact Or.inr (ih hrest)

theorem mem_of_mem_splitOn (hw : w ∈ xs.splitOn sep) (hc : c ∈ w) : c ∈ xs := by
  have hmem : c ∈ [sep].intercalate (xs.splitOn sep) := subset_intercalate hw hc
  rwa [List.intercalate_splitOn] at hmem

omit [BEq α] [LawfulBEq α] in
theorem head?_intercalate (hw : w ≠ []) : ([sep].intercalate (w :: ws)).head? = w.head? := by
  cases ws with
  | nil => rw [List.intercalate_singleton]
  | cons w' ws =>
    rw [List.intercalate_cons_cons, List.append_assoc, List.head?_append_of_ne_nil _ hw]

omit [BEq α] [LawfulBEq α] in
theorem intercalate_ne_nil (h : ∀ w ∈ ws, w ≠ []) (hws : ws ≠ []) :
    [sep].intercalate ws ≠ [] := by
  obtain ⟨w, ws, rfl⟩ := List.exists_cons_of_ne_nil hws
  have hw := h w (List.mem_cons_self ..)
  intro hnil
  have hhead : ([sep].intercalate (w :: ws)).head? = w.head? := head?_intercalate hw
  rw [hnil] at hhead
  exact hw (List.head?_eq_none_iff.mp hhead.symm)

omit [BEq α] [LawfulBEq α] in
theorem intercalate_concat (hws : ws ≠ []) :
    [sep].intercalate (ws ++ [w]) = [sep].intercalate ws ++ sep :: w := by
  induction ws with
  | nil => exact absurd rfl hws
  | cons v ws ih =>
    cases ws with
    | nil => simp
    | cons v' ws =>
      have hrest := ih (List.cons_ne_nil _ _)
      rw [List.cons_append] at hrest
      rw [List.cons_append, List.cons_append, List.intercalate_cons_cons,
        List.intercalate_cons_cons, hrest]
      simp only [List.append_assoc]

omit [BEq α] [LawfulBEq α] in
theorem getLast?_intercalate (h : ∀ w ∈ ws, w ≠ []) (hws : ws ≠ []) :
    ∃ w ∈ ws, ([sep].intercalate ws).getLast? = w.getLast? := by
  induction ws with
  | nil => exact absurd rfl hws
  | cons w ws ih =>
    cases ws with
    | nil =>
      refine ⟨w, List.mem_singleton_self w, ?_⟩
      rw [List.intercalate_singleton]
    | cons w' ws =>
      obtain ⟨v, hv, hlast⟩ := ih (fun u hu => h u (List.mem_cons_of_mem _ hu)) (List.cons_ne_nil _ _)
      refine ⟨v, List.mem_cons_of_mem _ hv, ?_⟩
      have hne : [sep].intercalate (w' :: ws) ≠ [] :=
        intercalate_ne_nil (fun u hu => h u (List.mem_cons_of_mem _ hu)) (List.cons_ne_nil _ _)
      rw [List.intercalate_cons_cons, List.getLast?_append_of_ne_nil _ hne]
      exact hlast

end MadoPilot.Lib.Segments
