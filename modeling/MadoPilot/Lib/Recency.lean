import Mathlib.Data.List.Dedup
import Mathlib.Tactic.Common

/-!
# The order of last use

Of a list of uses, `dedup` keeps the last use of everything: it lists what was used, the least
recently used first.

* `dedup_concat` : one more use moves what is used to the end;
* `perm_touch`, `touch_split`, `map_eraseP` : moving what is found to the end, in a list of things that have keys;
* `suffix_touch` : a suffix of that order, which is what a store keeps that forgets the least recently
  used things first, stays one when something is used and moved, or added, to its end;
* `Later` : one thing was used after the last use of another; `pairwise_use` : a list whose things
  come in that order, the latest first, keeps it when something is used and put at its front.
-/

namespace MadoPilot.Lib.Recency

variable {κ : Type*} [DecidableEq κ] {l l' : List κ}

theorem dedup_concat (l : List κ) (a : κ) : (l ++ [a]).dedup = l.dedup.erase a ++ [a] := by
  induction l with
  | nil => simp
  | cons b l ih =>
    rw [List.cons_append]
    by_cases hmem : b ∈ l
    · rw [List.dedup_cons_of_mem hmem, List.dedup_cons_of_mem (by simp [hmem]), ih]
    · rw [List.dedup_cons_of_notMem hmem]
      by_cases hb : b = a
      · subst hb
        have hnot : b ∉ l.dedup := fun h => hmem (List.mem_dedup.mp h)
        rw [List.dedup_cons_of_mem (by simp), ih, List.erase_cons_head, List.erase_of_not_mem hnot]
      · rw [List.dedup_cons_of_notMem (by simp [hmem, hb]), ih,
          List.erase_cons_tail (by simpa using hb), List.cons_append]

theorem suffix_touch (hl' : l'.Nodup) (h : l <:+ l') (a : κ) : l.erase a ++ [a] <:+ l'.erase a ++ [a] := by
  obtain ⟨t, rfl⟩ := h
  by_cases hmem : a ∈ t
  · have hdisjoint : a ∉ l := fun hl => (List.disjoint_of_nodup_append hl') hmem hl
    rw [List.erase_append_left _ hmem, List.erase_of_not_mem hdisjoint, List.append_assoc]
    exact List.suffix_append _ _
  · rw [List.erase_append_right _ hmem, List.append_assoc]
    exact List.suffix_append _ _

/-! ### Things with keys -/

variable {α : Type*} {p : α → Bool} {entries : List α} {e : α}

theorem perm_touch (h : entries.find? p = some e) : (entries.eraseP p ++ [e]).Perm entries := by
  induction entries with
  | nil => cases h
  | cons a entries ih =>
    by_cases ha : p a = true
    · rw [List.find?_cons_of_pos ha] at h
      obtain rfl := Option.some.inj h
      rw [List.eraseP_cons_of_pos ha]
      exact List.perm_append_singleton a entries
    · rw [List.find?_cons_of_neg ha] at h
      rw [List.eraseP_cons_of_neg ha, List.cons_append]
      exact (ih h).cons a

theorem touch_split (h : entries.find? p = some e) :
    ∃ before after, entries = before ++ e :: after ∧ entries.eraseP p = before ++ after := by
  obtain ⟨he, before, after, hentries, hbefore⟩ := List.find?_eq_some_iff_append.mp h
  refine ⟨before, after, hentries, ?_⟩
  rw [hentries, List.eraseP_append_right _ (by simpa using hbefore), List.eraseP_cons_of_pos he]

theorem map_eraseP {key : α → κ} {k : κ} (hp : ∀ a, p a = true ↔ key a = k) (entries : List α) :
    (entries.eraseP p).map key = (entries.map key).erase k := by
  induction entries with
  | nil => rfl
  | cons a entries ih =>
    by_cases ha : p a = true
    · rw [List.eraseP_cons_of_pos ha, List.map_cons, (hp a).mp ha, List.erase_cons_head]
    · have hkey : key a ≠ k := fun h => ha ((hp a).mpr h)
      rw [List.eraseP_cons_of_neg ha, List.map_cons, List.map_cons, ih,
        List.erase_cons_tail (by simpa using hkey)]

/-! ### Later uses -/

section Later

variable {uses : List κ} {a k k' : κ}

/-- `k'` was used after the last use of `k`. -/
def Later (uses : List κ) (k k' : κ) : Prop :=
  ∃ before after, uses = before ++ after ∧ k ∉ after ∧ k' ∈ after

omit [DecidableEq κ] in
theorem Later.ne (h : Later uses k k') : k ≠ k' := by
  obtain ⟨before, after, -, hk, hk'⟩ := h
  rintro rfl
  exact hk hk'

omit [DecidableEq κ] in
theorem Later.concat (h : Later uses k k') (hk : k ≠ a) : Later (uses ++ [a]) k k' := by
  obtain ⟨before, after, rfl, hnot, hafter⟩ := h
  refine ⟨before, after ++ [a], List.append_assoc .., ?_, List.mem_append_left _ hafter⟩
  intro hmem
  rcases List.mem_append.mp hmem with hmem | hmem
  · exact hnot hmem
  · exact hk (List.mem_singleton.mp hmem)

omit [DecidableEq κ] in
theorem later_concat (hk : k ≠ a) : Later (uses ++ [a]) k a :=
  ⟨uses, [a], rfl, fun h => hk (List.mem_singleton.mp h), List.mem_singleton_self a⟩

omit [DecidableEq κ] in
theorem pairwise_use (h : l.Pairwise fun newer older => Later uses older newer) (ha : a ∉ l) :
    (a :: l).Pairwise fun newer older => Later (uses ++ [a]) older newer := by
  have hne : ∀ k ∈ l, k ≠ a := by
    rintro k hk rfl
    exact ha hk
  refine List.pairwise_cons.mpr ⟨fun k hk => later_concat (hne k hk), ?_⟩
  refine h.imp_of_mem ?_
  intro newer older _ holder hlater
  exact hlater.concat (hne older holder)

end Later

end MadoPilot.Lib.Recency
