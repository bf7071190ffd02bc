import Mathlib.Data.Finset.Card
import Mathlib.Data.List.Basic
import Mathlib.Tactic.Common

/-!
# Bounded histories of revisions

Records arrive with keys that never decrease.  A history keeps the latest record of each key, and of a
bounded number of keys the latest ones.

* `Tracks` : what such a history says about the records it was made from;
* `Tracks.keep` : the next record keeps it.
-/

namespace MadoPilot.Lib.Revisions

variable {α : Type*} (key : α → ℕ) (bound : ℕ)

/-- A record of a new key, at the cost of the oldest one where there is no room. -/
def push (history : List α) (a : α) : List α :=
  (if history.length = bound then history.tail else history) ++ [a]

def keep (history : List α) (a : α) : List α :=
  match history.getLast? with
  | some latest =>
    if key latest = key a then history.dropLast ++ [a] else push bound history a
  | none => push bound history a

def later (records : List α) (a : α) : Finset ℕ :=
  (records.map key).toFinset.filter (key a < ·)

/-- The history of the records: `R` is the order in which they arrived. -/
structure Tracks (R : α → α → Prop) (records history : List α) : Prop where
  mem : ∀ e ∈ history, e ∈ records
  keys : history.Pairwise (key · < key ·)
  length_le : history.length ≤ bound
  latest : history.getLast? = records.getLast?
  covered : ∀ a ∈ records, (∃ e ∈ history, key e = key a ∧ (a = e ∨ R a e)) ∨
    bound ≤ (later key records a).card

variable {key bound} {R : α → α → Prop} {records history : List α} {a : α}

theorem later_append (records : List α) (a b : α) :
    later key records a ⊆ later key (records ++ [b]) a := by
  unfold later
  refine Finset.filter_subset_filter _ fun k hk => ?_
  rw [List.mem_toFinset] at hk ⊢
  rw [List.map_append]
  exact List.mem_append_left _ hk

theorem Tracks.nil : Tracks key bound R ([] : List α) [] :=
  ⟨fun _ h => h, .nil, Nat.zero_le _, rfl, fun _ h => by cases h⟩

theorem card_later_of_full (h : Tracks key bound R records history) (hfull : history.length = bound)
    {oldest : α} {rest : List α} (hhistory : history = oldest :: rest) (hnew : key oldest < key a)
    (hrest : ∀ e ∈ rest, key e < key a) : bound ≤ (later key (records ++ [a]) oldest).card := by
  have hkeys := h.keys
  rw [hhistory, List.pairwise_cons] at hkeys
  have hnodup : (rest.map key).Nodup := List.pairwise_map.mpr (hkeys.2.imp fun hlt => hlt.ne)
  have hsubset : insert (key a) (rest.map key).toFinset ⊆ later key (records ++ [a]) oldest := by
    intro k hk
    unfold later
    rw [Finset.mem_filter, List.mem_toFinset, List.map_append]
    rw [Finset.mem_insert, List.mem_toFinset] at hk
    rcases hk with rfl | hk
    · exact ⟨List.mem_append_right _ (List.mem_singleton_self _), hnew⟩
    · obtain ⟨e, he, rfl⟩ := List.mem_map.mp hk
      have hmem : e ∈ records := h.mem e (hhistory ▸ List.mem_cons_of_mem _ he)
      exact ⟨List.mem_append_left _ (List.mem_map_of_mem hmem), hkeys.1 e he⟩
  have hfresh : key a ∉ (rest.map key).toFinset := by
    intro hmem
    obtain ⟨e, he, heq⟩ := List.mem_map.mp (List.mem_toFinset.mp hmem)
    exact (hrest e he).ne heq
  have hcard := Finset.card_le_card hsubset
  rw [Finset.card_insert_of_notMem hfresh, List.toFinset_card_of_nodup hnodup, List.length_map] at hcard
  rw [hhistory, List.length_cons] at hfull
  omega

theorem Tracks.push (h : Tracks key bound R records history) (hbound : 0 < bound)
    (hnew : ∀ e ∈ history, key e < key a) : Tracks key bound R (records ++ [a]) (push bound history a) := by
  have hsub : ∀ e, e ∈ (if history.length = bound then history.tail else history) → e ∈ history := by
    intro e he
    split at he
    · exact List.mem_of_mem_tail he
    · exact he
  refine ⟨?_, ?_, ?_, ?_, ?_⟩
  · intro e he
    rcases List.mem_append.mp he with he | he
    · exact List.mem_append_left _ (h.mem e (hsub e he))
    · exact List.mem_append_right _ he
  · refine List.pairwise_append.mpr ⟨?_, List.pairwise_singleton _ _, fun e he b hb => ?_⟩
    · split
      · exact h.keys.sublist (List.tail_sublist _)
      · exact h.keys
    · rw [List.mem_singleton.mp hb]
      exact hnew e (hsub e he)
  · have hle := h.length_le
    unfold Revisions.push
    rw [List.length_append, List.length_singleton]
    split
    · rw [List.length_tail]
      omega
    · omega
  · unfold Revisions.push
    rw [List.getLast?_concat, List.getLast?_concat]
  · intro b hb
    rcases List.mem_append.mp hb with hb | hb
    · rcases h.covered b hb with ⟨e, he, hkey, horder⟩ | hevicted
      · by_cases hkept : e ∈ (if history.length = bound then history.tail else history)
        · exact Or.inl ⟨e, List.mem_append_left _ hkept, hkey, horder⟩
        · right
          split at hkept
          · rename_i hfull
            match history, hfull, he, hkept, h, hnew with
            | oldest :: rest, hfull, he, hkept, h, hnew =>
              have heq : e = oldest := (List.mem_cons.mp he).resolve_right hkept
              have hcard := card_later_of_full h hfull rfl (hnew oldest List.mem_cons_self)
                fun x hx => hnew x (List.mem_cons_of_mem _ hx)
              have hsame : later key (records ++ [a]) oldest = later key (records ++ [a]) b := by
                unfold later
                rw [← hkey, heq]
              rwa [hsame] at hcard
          · exact absurd he hkept
      · exact Or.inr (hevicted.trans (Finset.card_le_card (later_append records b a)))
    · rw [List.mem_singleton.mp hb]
      exact Or.inl ⟨a, List.mem_append_right _ (List.mem_singleton_self _), rfl, Or.inl rfl⟩

theorem Tracks.keep (h : Tracks key bound R records history) (hbound : 0 < bound)
    (hnext : ∀ b ∈ records, key b ≤ key a) (horder : ∀ b ∈ records, b = a ∨ R b a) :
    Tracks key bound R (records ++ [a]) (keep key bound history a) := by
  unfold Revisions.keep
  cases hlast : history.getLast? with
  | none =>
    obtain rfl := List.getLast?_eq_none_iff.mp hlast
    exact h.push hbound fun e he => by cases he
  | some latest =>
    have hsplit : history.dropLast ++ [latest] = history := List.dropLast_append_getLast? latest hlast
    have hkeys := h.keys
    rw [← hsplit] at hkeys
    obtain ⟨hfront, -, hbelow⟩ := List.pairwise_append.mp hkeys
    have hbelow' : ∀ e ∈ history.dropLast, key e < key latest := fun e he =>
      hbelow e he latest (List.mem_singleton_self _)
    have hmem : latest ∈ records := h.mem latest (hsplit ▸ List.mem_append_right _
      (List.mem_singleton_self _))
    dsimp only
    split
    · rename_i hsame
      refine ⟨?_, ?_, ?_, ?_, ?_⟩
      · intro e he
        rcases List.mem_append.mp he with he | he
        · exact List.mem_append_left _ (h.mem e (List.mem_of_mem_dropLast he))
        · exact List.mem_append_right _ he
      · refine List.pairwise_append.mpr ⟨hfront, List.pairwise_singleton _ _, fun e he b hb => ?_⟩
        rw [List.mem_singleton.mp hb, ← hsame]
        exact hbelow' e he
      · have hle := h.length_le
        rw [← hsplit, List.length_append, List.length_singleton] at hle
        rw [List.length_append, List.length_singleton]
        exact hle
      · rw [List.getLast?_concat, List.getLast?_concat]
      · intro b hb
        rcases List.mem_append.mp hb with hb | hb
        · rcases h.covered b hb with ⟨e, he, hkey, hpast⟩ | hevicted
          · rw [← hsplit] at he
            rcases List.mem_append.mp he with he | he
            · exact Or.inl ⟨e, List.mem_append_left _ he, hkey, hpast⟩
            · rw [List.mem_singleton.mp he] at hkey
              refine Or.inl ⟨a, List.mem_append_right _ (List.mem_singleton_self _), ?_, horder b hb⟩
              rw [← hsame, hkey]
          · exact Or.inr (hevicted.trans (Finset.card_le_card (later_append records b a)))
        · rw [List.mem_singleton.mp hb]
          exact Or.inl ⟨a, List.mem_append_right _ (List.mem_singleton_self _), rfl, Or.inl rfl⟩
    · rename_i hne
      have hlt : key latest < key a := lt_of_le_of_ne (hnext latest hmem) hne
      refine h.push hbound fun e he => ?_
      rw [← hsplit] at he
      rcases List.mem_append.mp he with he | he
      · exact (hbelow' e he).trans hlt
      · rw [List.mem_singleton.mp he]
        exact hlt

end MadoPilot.Lib.Revisions
