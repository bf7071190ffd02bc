import Mathlib.Data.List.Nodup
import Mathlib.Data.List.Perm.Subperm

/-!
# Resources in the hands of many

A resource lives for as long as somebody refers to it.  The references are a table: each has the
resource and the place where it is kept.  Some places *own* what they hold: no resource has two
references there, whichever places they are; at the others a reference is borrowed.

* `Lawful.shift`, `acquire`, `borrow`, `dropShared`, `dropLast` : the ways a table changes;
* `Lawful.held_subset`, `Lawful.held_nodup` : what some owning places hold lives, each resource once;
* `Lawful.held_lt` : they hold less than lives while another place owns something.
-/

namespace MadoPilot.Lib.Custody

variable {ρ π : Type*}

/-- What is referred to from the places with `p`, in the order of the table. -/
def held (p : π → Bool) (table : List (ρ × π)) : List ρ := (table.filter fun e => p e.2).map Prod.fst

def Referred (table : List (ρ × π)) (r : ρ) : Prop := ∃ a, (r, a) ∈ table

/-- The references of a table are those to the resources that live, and nothing is owned twice. -/
structure Lawful (owns : π → Bool) (table : List (ρ × π)) (live : List ρ) : Prop where
  nodup : live.Nodup
  referred : ∀ r, r ∈ live ↔ Referred table r
  owned : (held owns table).Nodup

section Held

variable {p q : π → Bool} {table before after : List (ρ × π)} {r : ρ} {a b : π}

theorem held_append : held p (before ++ after) = held p before ++ held p after := by
  unfold held
  rw [List.filter_append, List.map_append]

theorem held_singleton : held p [(r, a)] = if p a = true then [r] else [] := by
  unfold held
  by_cases h : p a = true
  · simp [h]
  · simp [h]

theorem held_around :
    held p (before ++ (r, a) :: after) =
      held p before ++ ((if p a = true then [r] else []) ++ held p after) := by
  rw [← held_singleton, ← held_append, ← held_append]
  rfl

theorem mem_held : r ∈ held p table ↔ ∃ a, p a = true ∧ (r, a) ∈ table := by
  unfold held
  rw [List.mem_map]
  constructor
  · rintro ⟨⟨r', a⟩, he, rfl⟩
    obtain ⟨hmem, hp⟩ := List.mem_filter.mp he
    exact ⟨a, hp, hmem⟩
  · rintro ⟨a, hp, hmem⟩
    exact ⟨(r, a), List.mem_filter.mpr ⟨hmem, hp⟩, rfl⟩

theorem held_sublist (h : ∀ a, p a = true → q a = true) : (held p table).Sublist (held q table) :=
  (List.monotone_filter_right table fun e => h e.2).map Prod.fst

end Held

section Changes

variable {owns : π → Bool} {table before after : List (ρ × π)} {live : List ρ} {r : ρ} {a b : π}

theorem Referred.append : Referred (before ++ after) r ↔ Referred before r ∨ Referred after r := by
  unfold Referred
  simp only [List.mem_append, exists_or]

theorem referred_singleton {r' : ρ} : Referred [(r, a)] r' ↔ r' = r := by
  unfold Referred
  constructor
  · rintro ⟨b, hb⟩
    exact congrArg Prod.fst (List.mem_singleton.mp hb)
  · rintro rfl
    exact ⟨a, List.mem_singleton_self _⟩

theorem referred_around {r' : ρ} :
    Referred (before ++ (r, a) :: after) r' ↔ r' = r ∨ Referred (before ++ after) r' := by
  have hsplit : before ++ (r, a) :: after = before ++ ([(r, a)] ++ after) := rfl
  rw [hsplit, Referred.append, Referred.append, Referred.append, referred_singleton]
  exact or_left_comm

theorem Lawful.shift (h : Lawful owns (before ++ (r, a) :: after) live)
    (hown : owns b = true → owns a = true) : Lawful owns (before ++ after ++ [(r, b)]) live where
  nodup := h.nodup
  referred r' := by
    rw [h.referred, referred_around, @Referred.append ρ π (before ++ after), referred_singleton]
    exact or_comm
  owned := by
    have howned := h.owned
    rw [held_around] at howned
    rw [held_append, held_append, held_singleton]
    by_cases hb : owns b = true
    · rw [if_pos (hown hb)] at howned
      rw [if_pos hb]
      refine (List.Perm.nodup_iff ?_).mp howned
      rw [List.append_assoc]
      exact List.perm_append_comm.append_left _
    · rw [if_neg hb, List.append_nil]
      exact howned.sublist ((List.sublist_append_right _ _).append_left _)

theorem Lawful.acquire (h : Lawful owns table live) (hnew : r ∉ live) :
    Lawful owns (table ++ [(r, a)]) (live ++ [r]) where
  nodup := h.nodup.append (List.nodup_singleton r) (List.disjoint_singleton.mpr hnew)
  referred r' := by
    rw [List.mem_append, List.mem_singleton, h.referred, Referred.append, referred_singleton]
  owned := by
    rw [held_append, held_singleton]
    by_cases ha : owns a = true
    · rw [if_pos ha]
      refine h.owned.append (List.nodup_singleton r) (List.disjoint_singleton.mpr fun hr => hnew ?_)
      obtain ⟨b, -, hb⟩ := mem_held.mp hr
      exact (h.referred r).mpr ⟨b, hb⟩
    · rw [if_neg ha, List.append_nil]
      exact h.owned

theorem Lawful.borrow (h : Lawful owns table live) (hlive : r ∈ live) (ha : owns a = false) :
    Lawful owns (table ++ [(r, a)]) live where
  nodup := h.nodup
  referred r' := by
    rw [h.referred, Referred.append, referred_singleton]
    refine ⟨Or.inl, ?_⟩
    rintro (hr | rfl)
    · exact hr
    · exact (h.referred r').mp hlive
  owned := by
    rw [held_append, held_singleton, ha, if_neg Bool.false_ne_true, List.append_nil]
    exact h.owned

theorem owned_of_drop (h : (held owns (before ++ (r, a) :: after)).Nodup) :
    (held owns (before ++ after)).Nodup := by
  rw [held_around] at h
  rw [held_append]
  exact h.sublist ((List.sublist_append_right _ _).append_left _)

theorem Lawful.dropShared (h : Lawful owns (before ++ (r, a) :: after) live)
    (hstays : Referred (before ++ after) r) : Lawful owns (before ++ after) live where
  nodup := h.nodup
  referred r' := by
    rw [h.referred, referred_around]
    refine ⟨?_, Or.inr⟩
    rintro (rfl | hr)
    · exact hstays
    · exact hr
  owned := owned_of_drop h.owned

theorem Lawful.dropLast [DecidableEq ρ] (h : Lawful owns (before ++ (r, a) :: after) live)
    (hlast : ¬Referred (before ++ after) r) : Lawful owns (before ++ after) (live.erase r) where
  nodup := h.nodup.erase r
  referred r' := by
    rw [h.nodup.mem_erase_iff, h.referred, referred_around]
    constructor
    · rintro ⟨hne, rfl | hr⟩
      · exact absurd rfl hne
      · exact hr
    · exact fun hr => ⟨fun he => hlast (he ▸ hr), Or.inr hr⟩
  owned := owned_of_drop h.owned

end Changes

section Owners

variable {owns p : π → Bool} {table : List (ρ × π)} {live : List ρ} {r : ρ} {a : π}

theorem Lawful.held_subset (h : Lawful owns table live) : ∀ r ∈ held p table, r ∈ live := by
  intro r hr
  obtain ⟨a, -, ha⟩ := mem_held.mp hr
  exact (h.referred r).mpr ⟨a, ha⟩

theorem Lawful.held_nodup (h : Lawful owns table live) (hp : ∀ a, p a = true → owns a = true) :
    (held p table).Nodup := h.owned.sublist (held_sublist hp)

theorem Lawful.held_lt (h : Lawful owns table live) (hp : ∀ a, p a = true → owns a = true)
    (hmem : (r, a) ∈ table) (ha : owns a = true) (hout : p a = false) :
    (held p table).length < live.length := by
  obtain ⟨before, after, rfl⟩ := List.append_of_mem hmem
  have hall : (held owns (before ++ (r, a) :: after)).length ≤ live.length :=
    (h.owned.subperm h.held_subset).length_le
  have hbefore : (held p before).length ≤ (held owns before).length := (held_sublist hp).length_le
  have hafter : (held p after).length ≤ (held owns after).length := (held_sublist hp).length_le
  rw [held_around, if_pos ha] at hall
  rw [held_around, hout, if_neg Bool.false_ne_true]
  simp only [List.length_append, List.length_singleton, List.length_nil] at hall ⊢
  omega

end Owners

end MadoPilot.Lib.Custody
