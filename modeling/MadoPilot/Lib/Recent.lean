import Mathlib.Data.List.DropRight
import Mathlib.Tactic.Common

/-!
# The most recent elements of every key

Every element has a key and every key a quota.  An element is recent while fewer elements of its key
come after it than the quota of the key allows.

* `filter_recent` : of every key, these are the last elements, as many as the quota;
* `recent_concat`, `recent_erase` : one more element, and one place less for a key, as a queue sees
  them that drops the oldest element of a key.
-/

namespace MadoPilot.Lib

variable {α κ : Type*} [DecidableEq κ]

/-- The elements with fewer elements of their key after them than the quota of the key. -/
def recent (key : α → κ) (quota : κ → ℕ) : List α → List α
  | [] => []
  | a :: l =>
    if l.countP (fun b => key b = key a) < quota (key a) then a :: recent key quota l
    else recent key quota l

variable {key : α → κ} {quota quota' : κ → ℕ} {l : List α} {a : α} {k : κ}

theorem recent_cons_keep (h : l.countP (fun b => key b = key a) < quota (key a)) :
    recent key quota (a :: l) = a :: recent key quota l := by
  rw [recent, if_pos h]

theorem recent_cons_drop (h : quota (key a) ≤ l.countP (fun b => key b = key a)) :
    recent key quota (a :: l) = recent key quota l := by
  rw [recent, if_neg (Nat.not_lt.mpr h)]

theorem recent_sublist (key : α → κ) (quota : κ → ℕ) (l : List α) :
    (recent key quota l).Sublist l := by
  induction l with
  | nil => exact .slnil
  | cons a l ih =>
    unfold recent
    split
    · exact ih.cons_cons a
    · exact ih.cons a

theorem countP_key_cons (a : α) (l : List α) (k : κ) : (a :: l).countP (fun b => key b = k) =
    l.countP (fun b => key b = k) + if key a = k then 1 else 0 := by
  rw [List.countP_cons]
  simp

theorem recent_congr (h : ∀ k, min (l.countP fun b => key b = k) (quota k) =
    min (l.countP fun b => key b = k) (quota' k)) : recent key quota l = recent key quota' l := by
  induction l with
  | nil => rfl
  | cons a l ih =>
    have hrest : recent key quota l = recent key quota' l := by
      refine ih fun k => ?_
      have hk := h k
      rw [countP_key_cons] at hk
      split at hk <;> omega
    have ha := h (key a)
    rw [countP_key_cons, if_pos rfl] at ha
    by_cases hkeep : l.countP (fun b => key b = key a) < quota (key a)
    · rw [recent_cons_keep hkeep, recent_cons_keep (by omega), hrest]
    · rw [recent_cons_drop (by omega), recent_cons_drop (by omega), hrest]

theorem recent_of_le (h : ∀ k, (l.countP fun b => key b = k) ≤ quota k) :
    recent key quota l = l := by
  induction l with
  | nil => rfl
  | cons a l ih =>
    have ha := h (key a)
    rw [countP_key_cons, if_pos rfl] at ha
    have hrest : recent key quota l = l := ih fun k => by
      have hk := h k
      rw [countP_key_cons] at hk
      omega
    rw [recent_cons_keep (by omega), hrest]

theorem filter_recent (key : α → κ) (quota : κ → ℕ) (l : List α) (k : κ) :
    (recent key quota l).filter (fun b => key b = k) =
      (l.filter fun b => key b = k).rtake (quota k) := by
  induction l with
  | nil => simp [recent, List.rtake]
  | cons a l ih =>
    have hcount : l.countP (fun b => key b = key a) = (l.filter fun b => key b = key a).length :=
      List.countP_eq_length_filter
    by_cases hkey : key a = k
    · subst hkey
      rw [List.filter_cons_of_pos (by simp)]
      unfold List.rtake at ih ⊢
      rw [List.length_cons]
      by_cases hkeep : l.countP (fun b => key b = key a) < quota (key a)
      · have hzero : (l.filter fun b => key b = key a).length - quota (key a) = 0 := by omega
        have hzero' : (l.filter fun b => key b = key a).length + 1 - quota (key a) = 0 := by omega
        rw [hzero, List.drop_zero] at ih
        rw [recent_cons_keep hkeep, hzero', List.drop_zero, List.filter_cons_of_pos (by simp), ih]
      · have hsucc : (l.filter fun b => key b = key a).length + 1 - quota (key a) =
            (l.filter fun b => key b = key a).length - quota (key a) + 1 := by omega
        rw [recent_cons_drop (by omega), hsucc, List.drop_succ_cons, ih]
    · rw [List.filter_cons_of_neg (by simp [hkey]), ← ih]
      by_cases hkeep : l.countP (fun b => key b = key a) < quota (key a)
      · rw [recent_cons_keep hkeep, List.filter_cons_of_neg (by simp [hkey])]
      · rw [recent_cons_drop (by omega)]

theorem count_recent (key : α → κ) (quota : κ → ℕ) (l : List α) (k : κ) :
    (recent key quota l).countP (fun b => key b = k) = min (l.countP fun b => key b = k) (quota k) := by
  rw [List.countP_eq_length_filter, filter_recent, List.countP_eq_length_filter, List.rtake,
    List.length_drop]
  omega

theorem recent_concat (hself : quota (key a) = quota' (key a) + 1)
    (hother : ∀ k, k ≠ key a → quota k = quota' k) :
    recent key quota (l ++ [a]) = recent key quota' l ++ [a] := by
  induction l with
  | nil =>
    have hkeep : ([] : List α).countP (fun b => key b = key a) < quota (key a) := by
      rw [List.countP_nil]
      omega
    exact recent_cons_keep hkeep
  | cons b l ih =>
    have hcount : (l ++ [a]).countP (fun c => key c = key b) =
        l.countP (fun c => key c = key b) + if key a = key b then 1 else 0 := by
      rw [List.countP_append, countP_key_cons, List.countP_nil, Nat.zero_add]
    rw [List.cons_append]
    by_cases hkey : key a = key b
    · rw [if_pos hkey] at hcount
      rw [hkey] at hself
      by_cases hkeep : l.countP (fun c => key c = key b) < quota' (key b)
      · rw [recent_cons_keep (by omega), recent_cons_keep hkeep, ih, List.cons_append]
      · rw [recent_cons_drop (by omega), recent_cons_drop (by omega), ih]
    · rw [if_neg hkey] at hcount
      have hsame := hother (key b) fun h => hkey h.symm
      by_cases hkeep : l.countP (fun c => key c = key b) < quota' (key b)
      · rw [recent_cons_keep (by omega), recent_cons_keep hkeep, ih, List.cons_append]
      · rw [recent_cons_drop (by omega), recent_cons_drop (by omega), ih]

theorem recent_concat_none (hnone : quota (key a) = 0) :
    recent key quota (l ++ [a]) = recent key quota l := by
  induction l with
  | nil => exact recent_cons_drop (by omega)
  | cons b l ih =>
    have hcount : (l ++ [a]).countP (fun c => key c = key b) =
        l.countP (fun c => key c = key b) + if key a = key b then 1 else 0 := by
      rw [List.countP_append, countP_key_cons, List.countP_nil, Nat.zero_add]
    rw [List.cons_append]
    by_cases hkeep : l.countP (fun c => key c = key b) < quota (key b)
    · have hne : key a ≠ key b := fun h => by
        rw [← h, hnone] at hkeep
        omega
      rw [if_neg hne] at hcount
      rw [recent_cons_keep (by omega), recent_cons_keep hkeep, ih]
    · rw [recent_cons_drop (by omega), recent_cons_drop (by omega), ih]

theorem recent_erase (hself : quota k = quota' k + 1) (hother : ∀ k', k' ≠ k → quota k' = quota' k')
    (hfull : quota k ≤ l.countP fun b => key b = k) :
    recent key quota' l = (recent key quota l).eraseP fun b => key b = k := by
  induction l with
  | nil =>
    rw [List.countP_nil] at hfull
    omega
  | cons b l ih =>
    rw [countP_key_cons] at hfull
    by_cases hkey : key b = k
    · rw [if_pos hkey] at hfull
      subst hkey
      by_cases hkeep : l.countP (fun c => key c = key b) < quota (key b)
      · -- the oldest one: what comes after it fits in both
        have hsame : recent key quota' l = recent key quota l := recent_congr fun k' => by
          by_cases hk : k' = key b
          · subst hk
            omega
          · rw [hother k' hk]
        rw [recent_cons_keep hkeep, recent_cons_drop (by omega),
          List.eraseP_cons_of_pos (by simp), hsame]
      · rw [recent_cons_drop (by omega), recent_cons_drop (by omega), ih (by omega)]
    · rw [if_neg hkey] at hfull
      have hsame := hother (key b) hkey
      by_cases hkeep : l.countP (fun c => key c = key b) < quota (key b)
      · rw [recent_cons_keep (by omega), recent_cons_keep hkeep,
          List.eraseP_cons_of_neg (by simp [hkey]), ih (by omega)]
      · rw [recent_cons_drop (by omega), recent_cons_drop (by omega), ih (by omega)]

end MadoPilot.Lib
