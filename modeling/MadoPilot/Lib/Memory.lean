import Mathlib.Data.List.Basic
import Mathlib.Tactic.Common

/-!
# Memory that is only partly mapped

A byte is read or written only where there is one; everything else is outside what a program may
touch.

* `load_eq_some`, `load_mapped`, `load_congr` : what a load gives, and that it needs its own bytes and
  no other;
* `store_eq_some`, `store_mapped` : what a store leaves, and that it needs its own bytes and no other.
-/

namespace MadoPilot.Lib

abbrev Memory := ℕ → Option UInt8

namespace Memory

def placed (a : ℕ) (bytes : List UInt8) : Memory :=
  fun x => if a ≤ x then bytes[x - a]? else none

/-- The addresses from `a` on, `n` of them, are mapped. -/
def Mapped (m : Memory) (a n : ℕ) : Prop := ∀ i < n, (m (a + i)).isSome

def load (m : Memory) (a : ℕ) : ℕ → Option (List UInt8)
  | 0 => some []
  | n + 1 => (m a).bind fun b => (load m (a + 1) n).map (b :: ·)

def put (m : Memory) (a : ℕ) (b : UInt8) : Memory := fun x => if x = a then some b else m x

def store (m : Memory) (a : ℕ) : List UInt8 → Option Memory
  | [] => some m
  | b :: bs => if (m a).isSome then store (m.put a b) (a + 1) bs else none

variable {m m' : Memory} {a n : ℕ} {bs : List UInt8}

theorem load_eq_some : m.load a n = some bs ↔ bs.length = n ∧ ∀ i < n, m (a + i) = bs[i]? := by
  induction n generalizing a bs with
  | zero =>
    unfold load
    rw [Option.some.injEq, List.length_eq_zero_iff]
    exact ⟨fun h => ⟨h.symm, fun i hi => absurd hi (Nat.not_lt_zero i)⟩, fun h => h.1.symm⟩
  | succ n ih =>
    unfold load
    rw [Option.bind_eq_some_iff]
    constructor
    · rintro ⟨b, hb, hrest⟩
      obtain ⟨bs', hload, rfl⟩ := Option.map_eq_some_iff.mp hrest
      obtain ⟨hlength, hbytes⟩ := ih.mp hload
      refine ⟨by simp [hlength], ?_⟩
      intro i hi
      cases i with
      | zero => simpa using hb
      | succ i =>
        have hi' := hbytes i (by omega)
        have hshift : a + (i + 1) = a + 1 + i := by omega
        rw [hshift, hi', List.getElem?_cons_succ]
    · rintro ⟨hlength, hbytes⟩
      obtain ⟨b, bs', rfl⟩ := List.exists_cons_of_length_eq_add_one hlength
      refine ⟨b, by simpa using hbytes 0 (by omega), Option.map_eq_some_iff.mpr ⟨bs', ?_, rfl⟩⟩
      refine ih.mpr ⟨by simpa using hlength, ?_⟩
      intro i hi
      have hi' := hbytes (i + 1) (by omega)
      have hshift : a + 1 + i = a + (i + 1) := by omega
      rw [hshift, hi', List.getElem?_cons_succ]

theorem load_mapped (h : m.Mapped a n) : ∃ bs, m.load a n = some bs ∧ bs.length = n := by
  induction n generalizing a with
  | zero => exact ⟨[], rfl, rfl⟩
  | succ n ih =>
    have hhead := h 0 (by omega)
    obtain ⟨b, hb⟩ := Option.isSome_iff_exists.mp hhead
    have htail : m.Mapped (a + 1) n := by
      intro i hi
      have hi' := h (i + 1) (by omega)
      rwa [← Nat.add_assoc, Nat.add_right_comm] at hi'
    obtain ⟨bs, hbs, hlength⟩ := ih htail
    refine ⟨b :: bs, ?_, by rw [List.length_cons, hlength]⟩
    unfold load
    rw [Nat.add_zero] at hb
    rw [hb, hbs]
    rfl

theorem load_congr (h : ∀ i < n, m' (a + i) = m (a + i)) : m'.load a n = m.load a n := by
  induction n generalizing a with
  | zero => rfl
  | succ n ih =>
    have htail : ∀ i < n, m' (a + 1 + i) = m (a + 1 + i) := by
      intro i hi
      have hi' := h (i + 1) (by omega)
      rwa [← Nat.add_assoc, Nat.add_right_comm] at hi'
    have hhead := h 0 (by omega)
    rw [Nat.add_zero] at hhead
    unfold load
    rw [hhead, ih htail]

theorem Mapped.mono (h : m.Mapped a n) {k : ℕ} (hk : k ≤ n) : m.Mapped a k :=
  fun i hi => h i (by omega)

theorem load_slice (h : m.load a n = some bs) {i k : ℕ} (hk : i + k ≤ n) :
    m.load (a + i) k = some ((bs.drop i).take k) := by
  obtain ⟨hlength, hbytes⟩ := load_eq_some.mp h
  refine load_eq_some.mpr ⟨by rw [List.length_take, List.length_drop, hlength]; omega, ?_⟩
  intro j hj
  rw [Nat.add_assoc, hbytes (i + j) (by omega), List.getElem?_take, if_pos hj, List.getElem?_drop]

theorem load_take (h : m.load a n = some bs) {k : ℕ} (hk : k ≤ n) :
    m.load a k = some (bs.take k) := by
  have hslice := load_slice h (i := 0) (k := k) (by omega)
  rwa [Nat.add_zero, List.drop_zero] at hslice

theorem store_eq_some (h : m.store a bs = some m') (x : ℕ) :
    m' x = if a ≤ x ∧ x < a + bs.length then bs[x - a]? else m x := by
  induction bs generalizing m a with
  | nil =>
    obtain rfl := Option.some.inj h
    rw [if_neg (by rw [List.length_nil]; omega)]
  | cons b bs ih =>
    unfold store at h
    split at h
    · have hx := ih h
      rw [hx, List.length_cons]
      by_cases hhead : x = a
      · subst hhead
        rw [if_neg (by omega), if_pos (by omega), Nat.sub_self]
        unfold put
        rw [if_pos rfl]
        rfl
      · by_cases htail : a + 1 ≤ x ∧ x < a + 1 + bs.length
        · have hsub : x - a = x - (a + 1) + 1 := by omega
          rw [if_pos htail, if_pos (by omega), hsub, List.getElem?_cons_succ]
        · rw [if_neg htail, if_neg (by omega)]
          unfold put
          rw [if_neg hhead]
    · cases h

theorem store_mapped (h : m.Mapped a bs.length) : ∃ m', m.store a bs = some m' := by
  induction bs generalizing m a with
  | nil => exact ⟨m, rfl⟩
  | cons b bs ih =>
    have hhead := h 0 (by simp)
    rw [Nat.add_zero] at hhead
    unfold store
    rw [if_pos hhead]
    refine ih fun i hi => ?_
    have hi' := h (i + 1) (by rw [List.length_cons]; omega)
    rw [← Nat.add_assoc, Nat.add_right_comm] at hi'
    unfold put
    split
    · rfl
    · exact hi'

theorem store_isSome (h : m.store a bs = some m') (x : ℕ) : (m' x).isSome = (m x).isSome := by
  induction bs generalizing m a with
  | nil =>
    obtain rfl := Option.some.inj h
    rfl
  | cons b bs ih =>
    unfold store at h
    split at h
    next hmapped =>
      rw [ih h]
      unfold put
      split
      next hx => rw [hx, hmapped]; rfl
      next hx => rfl
    next hmapped => cases h

end Memory

end MadoPilot.Lib
