import Mathlib.Data.List.DropRight
import Mathlib.Tactic.Common

/-!
# Trimming

A list without the blanks at its two ends, as a whole and element by element.

* `lead_concat`, `trim_concat` : one element later;
* `trim_prefix_append`, `trim_trim` : what follows takes nothing away, and what is trimmed stays so.
-/

namespace MadoPilot.Lib

variable {α : Type*} (blank : α → Bool)

def lead (l : List α) : List α := l.dropWhile blank

def trim (l : List α) : List α := (lead blank l).rdropWhile blank

variable {blank}

theorem lead_concat (l : List α) (a : α) : lead blank (l ++ [a]) =
    if lead blank l = [] ∧ blank a = true then [] else lead blank l ++ [a] := by
  unfold lead
  induction l with
  | nil => by_cases h : blank a = true <;> simp [h]
  | cons b l ih =>
    by_cases hb : blank b = true
    · rw [List.cons_append, List.dropWhile_cons_of_pos hb, ih, List.dropWhile_cons_of_pos hb]
    · rw [List.cons_append, List.dropWhile_cons_of_neg hb, List.dropWhile_cons_of_neg hb]
      simp

theorem trim_initial (l : List α) : trim blank l <+: lead blank l := List.rdropWhile_prefix _ _

theorem trim_concat (l : List α) (a : α) :
    trim blank (l ++ [a]) = if blank a = true then trim blank l else lead blank l ++ [a] := by
  unfold trim
  rw [lead_concat]
  by_cases ha : blank a = true
  · rw [if_pos ha]
    by_cases hnil : lead blank l = []
    · rw [if_pos ⟨hnil, ha⟩, hnil]
    · rw [if_neg fun h => hnil h.1, List.rdropWhile_concat_pos _ _ _ ha]
  · rw [if_neg fun h => ha h.2, if_neg ha, List.rdropWhile_concat_neg _ _ _ ha]

theorem trim_prefix_append (l r : List α) : trim blank l <+: trim blank (l ++ r) := by
  induction r using List.reverseRecOn with
  | nil => exact (List.append_nil l).symm ▸ List.prefix_refl _
  | append_singleton r a ih =>
    rw [← List.append_assoc, trim_concat]
    by_cases ha : blank a = true
    · rw [if_pos ha]
      exact ih
    · rw [if_neg ha]
      exact (ih.trans (trim_initial _)).trans (List.prefix_append _ _)

theorem trim_trim (l : List α) : trim blank (trim blank l) = trim blank l := by
  have hlead : lead blank (trim blank l) = trim blank l := by
    obtain ⟨rest, hrest⟩ : trim blank l <+: lead blank l := trim_initial l
    cases htrim : trim blank l with
    | nil => rfl
    | cons a front =>
      have hself : lead blank (lead blank l) = lead blank l := List.dropWhile_idempotent _ _
      rw [← hrest, htrim] at hself
      unfold lead at hself ⊢
      by_cases ha : blank a = true
      · rw [List.cons_append, List.dropWhile_cons_of_pos ha] at hself
        have hlen := (List.dropWhile_suffix (p := blank) (l := front ++ rest)).length_le
        rw [hself, List.length_cons] at hlen
        omega
      · rw [List.dropWhile_cons_of_neg ha]
  have hend : (trim blank l).rdropWhile blank = trim blank l := List.rdropWhile_idempotent _ _
  rw [trim, hlead, hend]

end MadoPilot.Lib
