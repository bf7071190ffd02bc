import Mathlib.Algebra.Ring.Nat
import Mathlib.Data.List.Basic
import Mathlib.Data.List.Induction
import Mathlib.Data.Nat.Notation
import Mathlib.Tactic.Common

/-!
# Decimal numbers

Unsigned numbers of a bounded type are written without leading zeros and read with them, and with a
plus sign before them.

* `Spells` : the spellings of a number;
* `parse_eq_some` : what is read are the spellings of the numbers below the bound.
-/

namespace MadoPilot.Lib.Decimal

def format (n : ℕ) : List Char := Nat.toDigits 10 n

def push (bound acc : ℕ) (c : Char) : Option ℕ :=
  if c.isDigit then
    let value := 10 * acc + (c.toNat - '0'.toNat)
    if value < bound then some value else none
  else none

def digits (bound : ℕ) (text : List Char) : Option ℕ := text.foldlM (push bound) 0

def parse (bound : ℕ) : List Char → Option ℕ
  | [] => none
  | c :: rest =>
    if c = '+' then if rest = [] then none else digits bound rest
    else digits bound (c :: rest)

/-- The text is the number, behind a plus sign or not, and behind any zeros. -/
def Spells (text : List Char) (n : ℕ) : Prop :=
  ∃ (plus : Bool) (zeros : ℕ),
    text = (if plus then ['+'] else []) ++ (List.replicate zeros '0' ++ format n)

/-! ### Digits -/

variable {bound n : ℕ} {text : List Char}

theorem le_ofDigitChars (text : List Char) (acc : ℕ) : acc ≤ Nat.ofDigitChars 10 text acc := by
  induction text generalizing acc with
  | nil => exact Nat.le_of_eq Nat.ofDigitChars_nil.symm
  | cons c text ih =>
    rw [Nat.ofDigitChars_cons]
    have := ih (10 * acc + (c.toNat - '0'.toNat))
    omega

theorem foldlM_push {acc : ℕ} (hacc : acc < bound) : text.foldlM (push bound) acc = some n ↔
    (∀ c ∈ text, c.isDigit = true) ∧ Nat.ofDigitChars 10 text acc = n ∧ n < bound := by
  induction text generalizing acc with
  | nil =>
    rw [List.foldlM_nil, Nat.ofDigitChars_nil]
    constructor
    · intro h
      obtain rfl := Option.some.inj h
      exact ⟨fun c hc => absurd hc List.not_mem_nil, rfl, hacc⟩
    · rintro ⟨-, rfl, -⟩
      rfl
  | cons c text ih =>
    rw [List.foldlM_cons, Nat.ofDigitChars_cons, List.forall_mem_cons]
    unfold push
    by_cases hdigit : c.isDigit = true
    · rw [if_pos hdigit]
      dsimp only
      by_cases hvalue : 10 * acc + (c.toNat - '0'.toNat) < bound
      · rw [if_pos hvalue]
        exact (ih hvalue).trans ⟨fun h => ⟨⟨hdigit, h.1⟩, h.2⟩, fun h => ⟨h.1.2, h.2⟩⟩
      · rw [if_neg hvalue]
        refine iff_of_false (fun h => (by cases h)) ?_
        rintro ⟨-, rfl, hlt⟩
        have := le_ofDigitChars text (10 * acc + (c.toNat - '0'.toNat))
        omega
    · rw [if_neg hdigit]
      exact iff_of_false (fun h => (by cases h)) fun h => hdigit h.1.1

theorem digitChar_sub {c : Char} (h : c.isDigit = true) : c.toNat - '0'.toNat < 10 ∧
    Nat.digitChar (c.toNat - '0'.toNat) = c := by
  obtain ⟨hlow, hhigh⟩ := Char.isDigit_iff_toNat.mp h
  have hzero : '0'.toNat = 48 := rfl
  have hnine : '9'.toNat = 57 := rfl
  refine ⟨by omega, Char.toNat_inj.mp ?_⟩
  rw [Nat.toNat_digitChar_of_lt_ten (by omega)]
  omega

theorem digits_eq_format (hne : text ≠ []) (h : ∀ c ∈ text, c.isDigit = true) :
    ∃ zeros, text = List.replicate zeros '0' ++ format (Nat.ofDigitChars 10 text 0) := by
  induction text using List.reverseRecOn with
  | nil => exact absurd rfl hne
  | append_singleton front c ih =>
    obtain ⟨hlt, hchar⟩ := digitChar_sub (h c (List.mem_append_right _ (List.mem_singleton_self c)))
    have hfront : ∀ c ∈ front, c.isDigit = true := fun c hc => h c (List.mem_append_left _ hc)
    have hlast : format (c.toNat - '0'.toNat) = [c] := by
      unfold format
      rw [Nat.toDigits_of_lt_base hlt, hchar]
    rw [Nat.ofDigitChars_append, Nat.ofDigitChars_cons, Nat.ofDigitChars_nil]
    by_cases hnil : front = []
    · subst hnil
      refine ⟨0, ?_⟩
      rw [Nat.ofDigitChars_nil, Nat.mul_zero, Nat.zero_add, hlast]
      rfl
    · obtain ⟨zeros, hzeros⟩ := ih hnil hfront
      rcases Nat.eq_zero_or_pos (Nat.ofDigitChars 10 front 0) with hzero | hpos
      · refine ⟨zeros + 1, ?_⟩
        rw [hzero] at hzeros
        rw [hzero, Nat.mul_zero, Nat.zero_add, hlast, List.replicate_succ']
        exact congrArg (· ++ [c]) hzeros
      · refine ⟨zeros, ?_⟩
        have hmore := @Nat.toDigits_append_toDigits 10 _ _ (by decide) hpos hlt
        rw [Nat.toDigits_of_lt_base hlt, hchar] at hmore
        unfold format at hzeros ⊢
        rw [← hmore, ← List.append_assoc, ← hzeros]

theorem isDigit_format {c : Char} (h : c ∈ format n) : c.isDigit = true :=
  Nat.isDigit_of_mem_toDigits (by decide) (by decide) h

theorem format_ne_nil (n : ℕ) : format n ≠ [] := Nat.toDigits_ne_nil

theorem length_format_le {k : ℕ} (hk : 0 < k) (h : n < 10 ^ k) : (format n).length ≤ k :=
  (Nat.length_toDigits_le_iff (by decide) hk).mpr h

theorem digits_eq_some (hbound : 0 < bound) (hne : text ≠ []) : digits bound text = some n ↔
    n < bound ∧ ∃ zeros, text = List.replicate zeros '0' ++ format n := by
  unfold digits
  rw [foldlM_push hbound]
  constructor
  · rintro ⟨hdigits, rfl, hlt⟩
    exact ⟨hlt, digits_eq_format hne hdigits⟩
  · rintro ⟨hlt, zeros, rfl⟩
    refine ⟨fun c hc => ?_, ?_, hlt⟩
    · rcases List.mem_append.mp hc with hc | hc
      · rw [List.eq_of_mem_replicate hc]
        rfl
      · exact isDigit_format hc
    · rw [Nat.ofDigitChars_append, Nat.ofDigitChars_replicate_zero, Nat.mul_zero]
      exact Nat.ofDigitChars_ten_toDigits

/-! ### Spellings -/

theorem spells_format (n : ℕ) : Spells (format n) n := ⟨false, 0, rfl⟩

theorem Spells.ne_nil (h : Spells text n) : text ≠ [] := by
  obtain ⟨plus, zeros, rfl⟩ := h
  intro hnil
  exact format_ne_nil n (List.append_eq_nil_iff.mp (List.append_eq_nil_iff.mp hnil).2).2

theorem plus_notMem (zeros n : ℕ) : '+' ∉ List.replicate zeros '0' ++ format n := by
  intro hmem
  rcases List.mem_append.mp hmem with hzero | hdigit
  · exact absurd (List.eq_of_mem_replicate hzero) (by decide)
  · exact absurd (isDigit_format hdigit) (by decide)

theorem parse_eq_some (hbound : 0 < bound) :
    parse bound text = some n ↔ n < bound ∧ Spells text n := by
  cases text with
  | nil => exact iff_of_false (fun h => (by cases h)) fun h => h.2.ne_nil rfl
  | cons c rest =>
    unfold parse
    dsimp only
    by_cases hplus : c = '+'
    · subst hplus
      rw [if_pos rfl]
      by_cases hrest : rest = []
      · subst hrest
        rw [if_pos rfl]
        refine iff_of_false (fun h => (by cases h)) ?_
        rintro ⟨-, plus, zeros, htext⟩
        cases plus with
        | true =>
          have hnil := (List.cons.inj htext).2
          exact format_ne_nil n (List.append_eq_nil_iff.mp (List.append_eq_nil_iff.mp hnil.symm).2).2
        | false => exact absurd (htext ▸ List.mem_singleton_self _) (plus_notMem zeros n)
      · rw [if_neg hrest, digits_eq_some hbound hrest]
        refine and_congr_right fun _ => ⟨?_, ?_⟩
        · rintro ⟨zeros, rfl⟩
          exact ⟨true, zeros, rfl⟩
        · rintro ⟨plus, zeros, htext⟩
          cases plus with
          | true => exact ⟨zeros, (List.cons.inj htext).2⟩
          | false => exact absurd (htext ▸ List.mem_cons_self) (plus_notMem zeros n)
    · rw [if_neg hplus, digits_eq_some hbound (List.cons_ne_nil _ _)]
      refine and_congr_right fun _ => ⟨?_, ?_⟩
      · rintro ⟨zeros, htext⟩
        exact ⟨false, zeros, htext⟩
      · rintro ⟨plus, zeros, htext⟩
        cases plus with
        | true => exact absurd (List.cons.inj htext).1 hplus
        | false => exact ⟨zeros, htext⟩

end MadoPilot.Lib.Decimal
