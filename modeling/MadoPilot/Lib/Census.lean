import Mathlib.Data.Finset.Card

/-!
# Counting the threads in a part of their code

A gate that counts its visitors is right when its counter is the number of threads that stand in
the counted part of their code.  `Census p n` says so without bounding the number of threads: the
threads with `p` are finitely many and there are `n` of them.  The thread that moves is described
by `Function.update`, and the rules say how its move changes the count.
-/

namespace MadoPilot.Lib

variable {τ α : Type*}

/-- `n` threads have `p`. -/
def Census (p : τ → Prop) (n : ℕ) : Prop := ∃ S : Finset τ, (∀ t, t ∈ S ↔ p t) ∧ S.card = n

namespace Census

variable {p q : τ → Prop} {n : ℕ}

theorem zero (h : ∀ t, ¬ p t) : Census p 0 := ⟨∅, fun t => by simp [h t], rfl⟩

theorem congr (h : Census p n) (hpq : ∀ t, q t ↔ p t) : Census q n := by
  obtain ⟨S, hS, hn⟩ := h
  exact ⟨S, fun t => (hS t).trans (hpq t).symm, hn⟩

theorem eq_zero_iff (h : Census p n) : n = 0 ↔ ∀ t, ¬ p t := by
  obtain ⟨S, hS, rfl⟩ := h
  rw [Finset.card_eq_zero, Finset.eq_empty_iff_forall_notMem]
  exact forall_congr' fun t => not_congr (hS t)

theorem pos {t : τ} (h : Census p n) (ht : p t) : 0 < n :=
  Nat.pos_of_ne_zero fun h0 => h.eq_zero_iff.1 h0 t ht

theorem exists_of_pos (h : Census p n) (hn : 0 < n) : ∃ t, p t := by
  by_contra hne
  exact absurd (h.eq_zero_iff.2 (not_exists.1 hne)) hn.ne'

theorem unique {t u : τ} (h : Census p n) (hn : n ≤ 1) (ht : p t) (hu : p u) : t = u := by
  obtain ⟨S, hS, rfl⟩ := h
  exact Finset.card_le_one.1 hn t ((hS t).2 ht) u ((hS u).2 hu)

section Update

variable [DecidableEq τ] {P : α → Prop} {f : τ → α} {t : τ} {a : α}

theorem enter (h : Census (fun u => P (f u)) n) (hf : ¬ P (f t)) (ha : P a) :
    Census (fun u => P (Function.update f t a u)) (n + 1) := by
  obtain ⟨S, hS, rfl⟩ := h
  have ht : t ∉ S := fun hm => hf ((hS t).1 hm)
  refine ⟨insert t S, fun u => ?_, Finset.card_insert_of_notMem ht⟩
  by_cases hu : u = t
  · subst hu
    simp [ha]
  · simp [hu, hS]

theorem leave (h : Census (fun u => P (f u)) n) (hf : P (f t)) (ha : ¬ P a) :
    Census (fun u => P (Function.update f t a u)) (n - 1) := by
  obtain ⟨S, hS, rfl⟩ := h
  refine ⟨S.erase t, fun u => ?_, Finset.card_erase_of_mem ((hS t).2 hf)⟩
  by_cases hu : u = t
  · subst hu
    simp [ha]
  · simp [hu, hS]

theorem stay (h : Census (fun u => P (f u)) n) (hfa : P a ↔ P (f t)) :
    Census (fun u => P (Function.update f t a u)) n := by
  refine h.congr fun u => ?_
  by_cases hu : u = t
  · subst hu
    simpa using hfa
  · simp [hu]

theorem move {b : α → Bool} (h : Census (fun u => b (f u) = true) n) :
    ∃ n', Census (fun u => b (Function.update f t a u) = true) n' ∧
      n' + (b (f t)).toNat = n + (b a).toNat := by
  cases hold : b (f t) with
  | true =>
    have hpos : 0 < n := h.pos hold
    cases hnew : b a with
    | true =>
      refine ⟨n, stay (P := fun x => b x = true) h (iff_of_true hnew hold), rfl⟩
    | false =>
      refine ⟨n - 1, leave (P := fun x => b x = true) h hold (by rw [hnew]; exact Bool.false_ne_true), ?_⟩
      show n - 1 + 1 = n + 0
      omega
  | false =>
    have hnot : ¬ b (f t) = true := by
      rw [hold]
      exact Bool.false_ne_true
    cases hnew : b a with
    | true => exact ⟨n + 1, enter (P := fun x => b x = true) h hnot hnew, rfl⟩
    | false =>
      refine ⟨n, stay (P := fun x => b x = true) h (iff_of_false ?_ hnot), rfl⟩
      rw [hnew]
      exact Bool.false_ne_true

end Update

end Census

end MadoPilot.Lib
