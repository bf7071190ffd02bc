import Mathlib.Data.List.Basic
import Mathlib.Tactic.Common

/-!
# UTF-16

Scalar values as one or two code units, and code units as scalar values.

* `decode_encode`, `encode_decode` : decoding accepts exactly the encoded strings.
-/

namespace MadoPilot.Lib.Utf16

def units (c : Char) : List UInt16 :=
  if c.toNat < 0x10000 then [UInt16.ofNat c.toNat]
  else [UInt16.ofNat (0xd800 + (c.toNat - 0x10000) / 0x400),
    UInt16.ofNat (0xdc00 + (c.toNat - 0x10000) % 0x400)]

def encode (cs : List Char) : List UInt16 := cs.flatMap units

def pair (high low : UInt16) : Char :=
  Char.ofNat (0x10000 + (high.toNat - 0xd800) * 0x400 + (low.toNat - 0xdc00))

/-- The characters of a string, up to its first unpaired surrogate, where there is none. -/
def decode : List UInt16 → Option (List Char)
  | [] => some []
  | u :: rest =>
    if u.toNat < 0xd800 ∨ 0xdfff < u.toNat then (decode rest).map (Char.ofNat u.toNat :: ·)
    else if 0xdc00 ≤ u.toNat then none
    else
      match rest with
      | [] => none
      | low :: rest =>
        if low.toNat < 0xdc00 ∨ 0xdfff < low.toNat then none
        else (decode rest).map (pair u low :: ·)

theorem char_cases (c : Char) : c.toNat < 0xd800 ∨ 0xdfff < c.toNat ∧ c.toNat < 0x110000 := c.valid

theorem toNat_ofNat {n : ℕ} (h : n < 0xd800 ∨ 0xdfff < n ∧ n < 0x110000) :
    (Char.ofNat n).toNat = n := by
  unfold Char.ofNat
  rw [dif_pos h]
  exact UInt32.toNat_ofNatLT

theorem decode_single {u : UInt16} (h : u.toNat < 0xd800 ∨ 0xdfff < u.toNat) (rest : List UInt16) :
    decode (u :: rest) = (decode rest).map (Char.ofNat u.toNat :: ·) := by
  rw [decode.eq_def]
  exact if_pos h

theorem decode_pair {high low : UInt16} (hhigh : 0xd800 ≤ high.toNat ∧ high.toNat < 0xdc00)
    (hlow : 0xdc00 ≤ low.toNat ∧ low.toNat ≤ 0xdfff) (rest : List UInt16) :
    decode (high :: low :: rest) = (decode rest).map (pair high low :: ·) := by
  rw [decode.eq_def]
  dsimp only
  rw [if_neg (by omega), if_neg (by omega), if_neg (by omega)]

theorem decode_units (c : Char) (rest : List UInt16) :
    decode (units c ++ rest) = (decode rest).map (c :: ·) := by
  have hc := char_cases c
  unfold units
  split
  · rename_i hsmall
    have hunit : (UInt16.ofNat c.toNat).toNat = c.toNat := by
      rw [UInt16.toNat_ofNat']
      omega
    rw [List.singleton_append, decode_single (by omega), hunit, Char.ofNat_toNat]
  · rename_i hlarge
    have hhigh : (UInt16.ofNat (0xd800 + (c.toNat - 0x10000) / 0x400)).toNat =
        0xd800 + (c.toNat - 0x10000) / 0x400 := by
      rw [UInt16.toNat_ofNat']
      omega
    have hlow : (UInt16.ofNat (0xdc00 + (c.toNat - 0x10000) % 0x400)).toNat =
        0xdc00 + (c.toNat - 0x10000) % 0x400 := by
      rw [UInt16.toNat_ofNat']
      omega
    have hpair : pair (UInt16.ofNat (0xd800 + (c.toNat - 0x10000) / 0x400))
        (UInt16.ofNat (0xdc00 + (c.toNat - 0x10000) % 0x400)) = c := by
      have hsum : 0x10000 + (0xd800 + (c.toNat - 0x10000) / 0x400 - 0xd800) * 0x400 +
          (0xdc00 + (c.toNat - 0x10000) % 0x400 - 0xdc00) = c.toNat := by
        omega
      unfold pair
      rw [hhigh, hlow, hsum, Char.ofNat_toNat]
    show decode (_ :: _ :: rest) = _
    rw [decode_pair (by omega) (by omega), hpair]

theorem decode_encode (cs : List Char) : decode (encode cs) = some cs := by
  induction cs with
  | nil => rfl
  | cons c cs ih =>
    show decode (units c ++ encode cs) = _
    rw [decode_units, ih]
    rfl

theorem units_single {u : UInt16} (h : u.toNat < 0xd800 ∨ 0xdfff < u.toNat) :
    units (Char.ofNat u.toNat) = [u] := by
  have hu : u.toNat < 0x10000 := u.toNat_lt
  unfold units
  rw [toNat_ofNat (by omega), if_pos hu, UInt16.ofNat_toNat]

theorem units_pair {high low : UInt16} (hhigh : 0xd800 ≤ high.toNat ∧ high.toNat < 0xdc00)
    (hlow : 0xdc00 ≤ low.toNat ∧ low.toNat ≤ 0xdfff) : units (pair high low) = [high, low] := by
  unfold units pair
  rw [toNat_ofNat (by omega), if_neg (by omega)]
  have hfirst : 0xd800 + (0x10000 + (high.toNat - 0xd800) * 0x400 + (low.toNat - 0xdc00) - 0x10000) /
      0x400 = high.toNat := by
    omega
  have hsecond : 0xdc00 + (0x10000 + (high.toNat - 0xd800) * 0x400 + (low.toNat - 0xdc00) - 0x10000) %
      0x400 = low.toNat := by
    omega
  rw [hfirst, hsecond, UInt16.ofNat_toNat, UInt16.ofNat_toNat]

theorem encode_decode {us : List UInt16} {cs : List Char} (h : decode us = some cs) :
    encode cs = us := by
  induction us using decode.induct generalizing cs with
  | case1 =>
    obtain rfl := Option.some.inj h
    rfl
  | case2 u rest hplain ih =>
    rw [decode_single hplain] at h
    obtain ⟨cs', hrest, rfl⟩ := Option.map_eq_some_iff.mp h
    show units (Char.ofNat u.toNat) ++ encode cs' = _
    rw [units_single hplain, ih hrest]
    rfl
  | case3 u rest hplain hlow =>
    rw [decode.eq_def] at h
    dsimp only at h
    rw [if_neg hplain, if_pos hlow] at h
    cases h
  | case4 u hplain hlow =>
    rw [decode.eq_def] at h
    dsimp only at h
    rw [if_neg hplain, if_neg hlow] at h
    cases h
  | case5 u hplain hhigh low rest hlow =>
    rw [decode.eq_def] at h
    dsimp only at h
    rw [if_neg hplain, if_neg hhigh, if_pos hlow] at h
    cases h
  | case6 u hplain hhigh low rest hlow ih =>
    have hu : 0xd800 ≤ u.toNat ∧ u.toNat < 0xdc00 := by omega
    have hl : 0xdc00 ≤ low.toNat ∧ low.toNat ≤ 0xdfff := by omega
    rw [decode_pair hu hl] at h
    obtain ⟨cs', hrest, rfl⟩ := Option.map_eq_some_iff.mp h
    show units (pair u low) ++ encode cs' = _
    rw [units_pair hu hl, ih hrest]
    rfl

theorem encode_inj {cs cs' : List Char} (h : encode cs = encode cs') : cs = cs' := by
  have hdecode := congrArg decode h
  rw [decode_encode, decode_encode] at hdecode
  exact Option.some.inj hdecode

theorem length_units_le (c : Char) : 0 < (units c).length ∧ (units c).length ≤ 2 := by
  unfold units
  split
  · exact ⟨Nat.one_pos, Nat.le_succ 1⟩
  · exact ⟨Nat.two_pos, Nat.le_refl 2⟩

theorem length_encode (cs : List Char) :
    cs.length ≤ (encode cs).length ∧ (encode cs).length ≤ cs.length * 2 := by
  induction cs with
  | nil => exact ⟨Nat.le_refl 0, Nat.le_refl 0⟩
  | cons c cs ih =>
    have hc := length_units_le c
    have hlength : (encode (c :: cs)).length = (units c).length + (encode cs).length :=
      List.length_append
    rw [hlength, List.length_cons]
    omega

end MadoPilot.Lib.Utf16
