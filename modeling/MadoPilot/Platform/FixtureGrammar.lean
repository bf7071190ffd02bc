import Mathlib.Data.Nat.Bitwise
import MadoPilot.Platform.FixtureProtocol

/-!
# The grammar of the fixture's packets

The fixture accepts the query packet and the packets that `encode_event` writes, and no other byte
string.

* `readHeader_eq_some` : a header is read exactly where its bytes stand;
* `summarize_eq` : what the parser accepts, as a header and a payload;
* `keyOf_keyCode`, `keyCode_inj` : the codes of the keys;
* `fixture_grammar` is the result.
-/

namespace MadoPilot.Platform.Fixture

open MadoPilot.Core MadoPilot.Input MadoPilot.Lib

/-! ### Headers -/

def Header.bytes (h : Header) : List UInt8 :=
  LittleEndian.bytes 4 version.toNat ++ LittleEndian.bytes 4 h.kind.toNat ++
    LittleEndian.bytes 4 h.a.toNat ++ LittleEndian.bytes 4 h.b.toNat ++
    LittleEndian.bytes 4 h.data.toNat ++ LittleEndian.bytes 4 h.textUnits.toNat

@[simp] theorem Header.length_bytes (h : Header) : h.bytes.length = headerBytes := by
  unfold Header.bytes
  simp only [List.length_append, LittleEndian.length_bytes]
  rfl

theorem readU32_eq_some {packet : List UInt8} {offset : ℕ} {v : UInt32} :
    readU32 packet offset = some v ↔ offset + 4 ≤ packet.length ∧
      packet.drop offset = LittleEndian.bytes 4 v.toNat ++ packet.drop (offset + 4) := by
  unfold readU32
  rw [Option.map_eq_some_iff]
  constructor
  · rintro ⟨n, hread, rfl⟩
    obtain ⟨hle, hlt, hdrop⟩ := LittleEndian.read_eq_some.mp hread
    have hn : (UInt32.ofNat n).toNat = n := by
      rw [UInt32.toNat_ofNat']
      exact Nat.mod_eq_of_lt hlt
    rw [hn]
    exact ⟨hle, hdrop⟩
  · rintro ⟨hle, hdrop⟩
    exact ⟨v.toNat, LittleEndian.read_eq_some.mpr ⟨hle, v.toNat_lt, hdrop⟩, UInt32.ofNat_toNat⟩

theorem readU32_at {packet after : List UInt8} {offset : ℕ} {v : UInt32} (before : List UInt8)
    (hoffset : before.length = offset)
    (h : packet = before ++ (LittleEndian.bytes 4 v.toNat ++ after)) :
    readU32 packet offset = some v := by
  rw [readU32_eq_some]
  constructor
  · rw [h, List.length_append, List.length_append, LittleEndian.length_bytes]
    omega
  · rw [← List.drop_drop, h, List.drop_left' hoffset,
      List.drop_left' (LittleEndian.length_bytes 4 v.toNat)]

theorem readHeader_fields {packet : List UInt8} {h : Header} :
    readHeader packet = some h ↔ readU32 packet 0 = some version ∧ readU32 packet 4 = some h.kind ∧
      readU32 packet 8 = some h.a ∧ readU32 packet 12 = some h.b ∧
      readU32 packet 16 = some h.data ∧ readU32 packet 20 = some h.textUnits := by
  unfold readHeader
  constructor
  · intro hread
    split at hread
    · cases hread
    · rename_i v hversion
      split at hread
      · cases hread
      · rename_i hsame
        split at hread
        · rename_i kind a b data textUnits hkind ha hb hdata hunits
          obtain rfl := Option.some.inj hread
          rw [not_not] at hsame
          exact ⟨hsame ▸ hversion, hkind, ha, hb, hdata, hunits⟩
        · cases hread
  · rintro ⟨hversion, hkind, ha, hb, hdata, hunits⟩
    rw [hversion, hkind, ha, hb, hdata, hunits]
    dsimp only
    rw [if_neg (not_not.mpr rfl)]

theorem readHeader_eq_some {packet : List UInt8} {h : Header} :
    readHeader packet = some h ↔ ∃ body, packet = h.bytes ++ body := by
  rw [readHeader_fields]
  constructor
  · simp only [readU32_eq_some]
    rintro ⟨⟨-, hversion⟩, ⟨-, hkind⟩, ⟨-, ha⟩, ⟨-, hb⟩, ⟨-, hdata⟩, ⟨-, hunits⟩⟩
    refine ⟨packet.drop 24, ?_⟩
    rw [Nat.zero_add, hkind, ha, hb, hdata, hunits, List.drop_zero] at hversion
    unfold Header.bytes
    simp only [List.append_assoc]
    exact hversion
  · rintro ⟨body, rfl⟩
    unfold Header.bytes
    simp only [List.append_assoc]
    exact ⟨readU32_at [] rfl rfl,
      readU32_at (LittleEndian.bytes 4 version.toNat) rfl rfl,
      readU32_at (LittleEndian.bytes 4 version.toNat ++ LittleEndian.bytes 4 h.kind.toNat) rfl
        (List.append_assoc ..).symm,
      readU32_at (LittleEndian.bytes 4 version.toNat ++ LittleEndian.bytes 4 h.kind.toNat ++
        LittleEndian.bytes 4 h.a.toNat) rfl (by simp only [List.append_assoc]; rfl),
      readU32_at (LittleEndian.bytes 4 version.toNat ++ LittleEndian.bytes 4 h.kind.toNat ++
        LittleEndian.bytes 4 h.a.toNat ++ LittleEndian.bytes 4 h.b.toNat) rfl
        (by simp only [List.append_assoc]; rfl),
      readU32_at (LittleEndian.bytes 4 version.toNat ++ LittleEndian.bytes 4 h.kind.toNat ++
        LittleEndian.bytes 4 h.a.toNat ++ LittleEndian.bytes 4 h.b.toNat ++
        LittleEndian.bytes 4 h.data.toNat) rfl (by simp only [List.append_assoc]; rfl)⟩

theorem Header.bytes_inj {h h' : Header} {body body' : List UInt8}
    (heq : h.bytes ++ body = h'.bytes ++ body') : h = h' ∧ body = body' := by
  have hread : readHeader (h.bytes ++ body) = some h := readHeader_eq_some.mpr ⟨body, rfl⟩
  have hread' : readHeader (h.bytes ++ body) = some h' := readHeader_eq_some.mpr ⟨body', heq⟩
  obtain rfl : h = h' := Option.some.inj (hread.symm.trans hread')
  exact ⟨rfl, List.append_cancel_left heq⟩

/-! ### Keys -/

section Codes

theorem and_high (code : UInt32) : code &&& 0x80000000 ≠ 0 ↔ 2 ^ 31 ≤ code.toNat := by
  have hbit : code.toNat &&& 2 ^ 31 = (code.toNat.testBit 31).toNat * 2 ^ 31 := Nat.and_two_pow _ _
  have hlt : code.toNat < 2 ^ 32 := code.toNat_lt
  have hval : (code &&& 0x80000000).toNat = code.toNat &&& 2 ^ 31 := UInt32.toNat_and _ _
  rw [Ne, ← UInt32.toNat_inj, hval, hbit, Nat.testBit_eq_decide_div_mod_eq]
  by_cases hhigh : 2 ^ 31 ≤ code.toNat
  · have hone : code.toNat / 2 ^ 31 % 2 = 1 := by omega
    rw [hone]
    exact iff_of_true (by decide) hhigh
  · have hzero : code.toNat / 2 ^ 31 % 2 = 0 := by omega
    rw [hzero]
    exact iff_of_false (by decide) hhigh

theorem and_low (code : UInt32) : (code &&& 0x7fffffff).toNat = code.toNat % 2 ^ 31 := by
  have hval : (code &&& 0x7fffffff).toNat = code.toNat &&& (2 ^ 31 - 1) := UInt32.toNat_and _ _
  rw [hval, Nat.and_two_pow_sub_one_eq_mod]

theorem high_or {v : UInt32} (h : v.toNat < 2 ^ 31) : (0x80000000 ||| v).toNat = 2 ^ 31 + v.toNat := by
  have hval : (0x80000000 ||| v).toNat = 2 ^ 31 ||| v.toNat := UInt32.toNat_or _ _
  rw [hval]
  exact (Nat.two_pow_add_eq_or_of_lt h 1).symm

def namedKeys : List Key :=
  [.enter, .tab, .backspace, .delete, .escape, .space, .arrowUp, .arrowDown, .arrowLeft, .arrowRight,
    .home, .endKey, .pageUp, .pageDown]

def modifiers : List Modifier := [.shift, .control, .alt, .metaKey]

def keyOf (code : ℕ) : Option Key :=
  if 2 ^ 31 ≤ code then some (.character (Char.ofNat (code - 2 ^ 31)))
  else if 0x301 ≤ code then namedKeys[code - 0x301]?
  else if 0x201 ≤ code then modifiers[code - 0x201]?.map .modifier
  else if 0x101 ≤ code then some (.function (UInt8.ofNat (code - 0x100)))
  else none

theorem check_function {number : UInt8} :
    (Key.function number).check = .ok () ↔ 1 ≤ number.toNat ∧ number.toNat ≤ 24 := by
  have hzero : number = 0 ↔ number.toNat = 0 := UInt8.toNat_inj.symm
  have hlarge : Key.maxFunction < number ↔ 24 < number.toNat := UInt8.lt_iff_toNat_lt
  unfold Key.check
  dsimp only
  constructor
  · intro h
    split at h
    · cases h
    · rename_i hbounds
      rw [hzero, hlarge] at hbounds
      omega
  · intro h
    rw [if_neg (by rw [hzero, hlarge]; omega)]

theorem functionCode (number : UInt8) :
    ((0x100 : UInt32) + number.toUInt32).toNat = 0x100 + number.toNat := by
  have hlt : number.toNat < 256 := number.toNat_lt
  rw [UInt32.toNat_add, UInt8.toNat_toUInt32]
  show (0x100 + number.toNat) % 2 ^ 32 = _
  omega

theorem check_character {c : Char} : (Key.character c).check = .ok () ↔ isControl c = false := by
  unfold Key.check
  dsimp only
  split
  · rename_i hcontrol
    exact iff_of_false (by intro h; cases h) (by rw [hcontrol]; decide)
  · rename_i hcontrol
    exact iff_of_true rfl (Bool.eq_false_of_not_eq_true hcontrol)

theorem charVal_lt (c : Char) : c.val.toNat < 2 ^ 31 := by
  have hc := Utf16.char_cases c
  have hval : c.val.toNat = c.toNat := rfl
  omega

theorem keyOf_keyCode {key : Key} {code : UInt32} (hcheck : key.check = .ok ())
    (h : keyCode key = .ok code) : keyOf code.toNat = some key := by
  cases key with
  | character c =>
    obtain rfl := Except.ok.inj h
    unfold keyOf
    rw [high_or (charVal_lt c), if_pos (by omega)]
    have hback : 2 ^ 31 + c.val.toNat - 2 ^ 31 = c.toNat := by
      rw [Nat.add_sub_cancel_left]
      rfl
    rw [hback, Char.ofNat_toNat]
  | function number =>
    obtain rfl := Except.ok.inj h
    have hbounds := check_function.mp hcheck
    unfold keyOf
    rw [functionCode, if_neg (by omega), if_neg (by omega), if_neg (by omega), if_pos (by omega),
      Nat.add_sub_cancel_left, UInt8.ofNat_toNat]
  | modifier m =>
    obtain rfl := Except.ok.inj h
    cases m <;> decide
  | _ =>
    obtain rfl := Except.ok.inj h
    decide

theorem validKeyCode_iff {code : UInt32} :
    validKeyCode code = true ↔ ∃ key : Key, key.check = .ok () ∧ keyCode key = .ok code := by
  unfold validKeyCode
  constructor
  · intro h
    split at h
    · rename_i hhigh
      rw [and_high] at hhigh
      obtain ⟨c, hc, hcontrol⟩ := (Option.any_eq_true _ _).mp h
      unfold charFromU32 at hc
      split at hc
      · obtain rfl := Option.some.inj hc
        refine ⟨.character ⟨code &&& 0x7fffffff, _⟩, check_character.mpr (by simpa using hcontrol), ?_⟩
        unfold keyCode
        refine congrArg Except.ok (UInt32.toNat_inj.mp ?_)
        have hlt : code.toNat < 2 ^ 32 := code.toNat_lt
        have hlow := and_low code
        rw [high_or (charVal_lt _)]
        show 2 ^ 31 + (code &&& 0x7fffffff).toNat = code.toNat
        rw [hlow]
        omega
      · cases hc
    · simp only [Bool.or_eq_true, Bool.and_eq_true, decide_eq_true_eq] at h
      have hrange : ∀ lo hi : UInt32, lo ≤ code ∧ code ≤ hi → lo.toNat ≤ code.toNat ∧
          code.toNat ≤ hi.toNat := fun lo hi hbounds =>
        ⟨UInt32.le_iff_toNat_le.mp hbounds.1, UInt32.le_iff_toNat_le.mp hbounds.2⟩
      have hcode : ∀ n : ℕ, code.toNat = n → code = UInt32.ofNat n := by
        rintro n rfl
        exact UInt32.ofNat_toNat.symm
      rcases h with (hfunction | hmodifier) | hnamed
      · obtain ⟨hlo, hhi⟩ := hrange _ _ hfunction
        have hlo' : 0x101 ≤ code.toNat := hlo
        have hhi' : code.toNat ≤ 0x118 := hhi
        have hnumber : (UInt8.ofNat (code.toNat - 0x100)).toNat = code.toNat - 0x100 := by
          rw [UInt8.toNat_ofNat']
          omega
        refine ⟨.function (UInt8.ofNat (code.toNat - 0x100)), check_function.mpr (by omega), ?_⟩
        unfold keyCode
        refine congrArg Except.ok (UInt32.toNat_inj.mp ?_)
        rw [functionCode, hnumber]
        omega
      · obtain ⟨hlo, hhi⟩ := hrange _ _ hmodifier
        have hlo' : 0x201 ≤ code.toNat := hlo
        have hhi' : code.toNat ≤ 0x204 := hhi
        obtain hn | hn | hn | hn : code.toNat = 0x201 ∨ code.toNat = 0x202 ∨ code.toNat = 0x203 ∨
            code.toNat = 0x204 := by omega
        · exact ⟨.modifier .shift, rfl, congrArg Except.ok (hcode _ hn).symm⟩
        · exact ⟨.modifier .control, rfl, congrArg Except.ok (hcode _ hn).symm⟩
        · exact ⟨.modifier .alt, rfl, congrArg Except.ok (hcode _ hn).symm⟩
        · exact ⟨.modifier .metaKey, rfl, congrArg Except.ok (hcode _ hn).symm⟩
      · obtain ⟨hlo, hhi⟩ := hrange _ _ hnamed
        have hindex : code.toNat - 0x301 < 14 := by
          have hlo' : 0x301 ≤ code.toNat := hlo
          have hhi' : code.toNat ≤ 0x30e := hhi
          omega
        have hall : ∀ i < 14, ∃ key : Key, key.check = .ok () ∧
            keyCode key = .ok (UInt32.ofNat (0x301 + i)) := by
          intro i hi
          match i, hi with
          | 0, _ => exact ⟨.enter, rfl, rfl⟩
          | 1, _ => exact ⟨.tab, rfl, rfl⟩
          | 2, _ => exact ⟨.backspace, rfl, rfl⟩
          | 3, _ => exact ⟨.delete, rfl, rfl⟩
          | 4, _ => exact ⟨.escape, rfl, rfl⟩
          | 5, _ => exact ⟨.space, rfl, rfl⟩
          | 6, _ => exact ⟨.arrowUp, rfl, rfl⟩
          | 7, _ => exact ⟨.arrowDown, rfl, rfl⟩
          | 8, _ => exact ⟨.arrowLeft, rfl, rfl⟩
          | 9, _ => exact ⟨.arrowRight, rfl, rfl⟩
          | 10, _ => exact ⟨.home, rfl, rfl⟩
          | 11, _ => exact ⟨.endKey, rfl, rfl⟩
          | 12, _ => exact ⟨.pageUp, rfl, rfl⟩
          | 13, _ => exact ⟨.pageDown, rfl, rfl⟩
        obtain ⟨key, hcheck, hkey⟩ := hall _ hindex
        refine ⟨key, hcheck, ?_⟩
        have hlo' : 0x301 ≤ code.toNat := hlo
        rwa [Nat.add_sub_cancel' hlo', UInt32.ofNat_toNat] at hkey
  · rintro ⟨key, hcheck, h⟩
    cases key with
    | character c =>
      obtain rfl := Except.ok.inj h
      have hor := high_or (charVal_lt c)
      rw [if_pos ((and_high _).mpr (by omega))]
      have hlow : (0x80000000 ||| c.val) &&& 0x7fffffff = c.val := by
        apply UInt32.toNat_inj.mp
        have hlt := charVal_lt c
        rw [and_low, hor]
        omega
      rw [hlow]
      have hchar : charFromU32 c.val = some c := dif_pos c.valid
      rw [hchar]
      simpa using check_character.mp hcheck
    | function number =>
      obtain rfl := Except.ok.inj h
      have hbounds := check_function.mp hcheck
      have hcode := functionCode number
      rw [if_neg (by rw [and_high]; omega)]
      have hlo : (0x101 : UInt32) ≤ 0x100 + number.toUInt32 := by
        rw [UInt32.le_iff_toNat_le, hcode]
        show 0x101 ≤ _
        omega
      have hhi : 0x100 + number.toUInt32 ≤ (0x118 : UInt32) := by
        rw [UInt32.le_iff_toNat_le, hcode]
        show _ ≤ 0x118
        omega
      simp [hlo, hhi]
    | modifier m =>
      obtain rfl := Except.ok.inj h
      cases m <;> decide
    | _ =>
      obtain rfl := Except.ok.inj h
      decide

end Codes

/-! ### Scrolls -/

theorem packScroll_toNat (horizontal vertical : Int16) :
    (packScroll horizontal vertical).toNat =
      horizontal.toUInt16.toNat + 2 ^ 16 * vertical.toUInt16.toNat := by
  have hlow : horizontal.toUInt16.toNat < 2 ^ 16 := horizontal.toUInt16.toNat_lt
  have hhigh : vertical.toUInt16.toNat < 2 ^ 16 := vertical.toUInt16.toNat_lt
  have hshift : (vertical.toUInt16.toUInt32 <<< 16).toNat = 2 ^ 16 * vertical.toUInt16.toNat := by
    rw [UInt32.toNat_shiftLeft, UInt16.toNat_toUInt32]
    show vertical.toUInt16.toNat <<< 16 % 2 ^ 32 = _
    rw [Nat.shiftLeft_eq]
    omega
  unfold packScroll
  rw [UInt32.toNat_or, hshift, UInt16.toNat_toUInt32, Nat.lor_comm,
    ← Nat.two_pow_add_eq_or_of_lt hlow, Nat.add_comm]

/-- The two halves of a field. -/
def lowHalf (data : UInt32) : UInt16 := UInt16.ofNat (data.toNat % 2 ^ 16)

def highHalf (data : UInt32) : UInt16 := UInt16.ofNat (data.toNat / 2 ^ 16)

theorem toU16_of_lt {n : UInt32} (h : n.toNat < 2 ^ 16) : toU16 n = some (UInt16.ofNat n.toNat) := by
  exact (if_pos h).trans rfl

theorem toU16_low (data : UInt32) : toU16 (data &&& 0xffff) = some (lowHalf data) := by
  have hval : (data &&& 0xffff).toNat = data.toNat &&& (2 ^ 16 - 1) := UInt32.toNat_and _ _
  rw [Nat.and_two_pow_sub_one_eq_mod] at hval
  rw [toU16_of_lt (by omega), hval]
  rfl

theorem toU16_high (data : UInt32) : toU16 (data >>> 16) = some (highHalf data) := by
  have hlt : data.toNat < 2 ^ 32 := data.toNat_lt
  have hval : (data >>> 16).toNat = data.toNat / 2 ^ 16 := by
    rw [UInt32.toNat_shiftRight]
    exact Nat.shiftRight_eq_div_pow _ _
  rw [toU16_of_lt (by omega), hval]
  rfl

theorem packScroll_halves (data : UInt32) :
    packScroll (lowHalf data).toInt16 (highHalf data).toInt16 = data := by
  have hlt : data.toNat < 2 ^ 32 := data.toNat_lt
  have hlow : (lowHalf data).toNat = data.toNat % 2 ^ 16 := by
    unfold lowHalf
    rw [UInt16.toNat_ofNat']
    omega
  have hhigh : (highHalf data).toNat = data.toNat / 2 ^ 16 := by
    unfold highHalf
    rw [UInt16.toNat_ofNat']
    omega
  apply UInt32.toNat_inj.mp
  rw [packScroll_toNat, UInt16.toUInt16_toInt16, UInt16.toUInt16_toInt16, hlow, hhigh]
  omega

theorem halves_packScroll (horizontal vertical : Int16) :
    (lowHalf (packScroll horizontal vertical)).toInt16 = horizontal ∧
      (highHalf (packScroll horizontal vertical)).toInt16 = vertical := by
  have hlow : horizontal.toUInt16.toNat < 2 ^ 16 := horizontal.toUInt16.toNat_lt
  unfold lowHalf highHalf
  rw [packScroll_toNat]
  constructor
  · have hmod : (horizontal.toUInt16.toNat + 2 ^ 16 * vertical.toUInt16.toNat) % 2 ^ 16 =
        horizontal.toUInt16.toNat := by
      omega
    rw [hmod, UInt16.ofNat_toNat, Int16.toInt16_toUInt16]
  · have hdiv : (horizontal.toUInt16.toNat + 2 ^ 16 * vertical.toUInt16.toNat) / 2 ^ 16 =
        vertical.toUInt16.toNat := by
      omega
    rw [hdiv, UInt16.ofNat_toNat, Int16.toInt16_toUInt16]

theorem packScroll_inj {horizontal vertical horizontal' vertical' : Int16}
    (h : packScroll horizontal vertical = packScroll horizontal' vertical') :
    horizontal = horizontal' ∧ vertical = vertical' := by
  obtain ⟨hlow, hhigh⟩ := halves_packScroll horizontal vertical
  obtain ⟨hlow', hhigh'⟩ := halves_packScroll horizontal' vertical'
  rw [h] at hlow hhigh
  exact ⟨hlow.symm.trans hlow', hhigh.symm.trans hhigh'⟩

theorem validScroll_eq (data : UInt32) :
    validScroll data = true ↔
      (InputEvent.pointerScroll (lowHalf data).toInt16 (highHalf data).toInt16).check = .ok () := by
  unfold validScroll InputEvent.check
  rw [toU16_low, toU16_high]
  dsimp only
  split
  · rename_i hbad
    refine iff_of_false (fun h => ?_) (by intro h; cases h)
    simp only [Bool.and_eq_true, Bool.or_eq_true, decide_eq_true_eq] at h
    obtain ⟨⟨hsome, hhorizontal⟩, hvertical⟩ := h
    rcases hbad with ⟨hzero, hzero'⟩ | hlarge | hlarge
    · exact hsome.elim (fun hne => hne hzero) fun hne => hne hzero'
    · omega
    · omega
  · rename_i hgood
    refine iff_of_true ?_ rfl
    rw [not_or, not_or, not_and_or, not_lt, not_lt] at hgood
    simp only [Bool.and_eq_true, Bool.or_eq_true, decide_eq_true_eq]
    exact ⟨⟨hgood.1, hgood.2.1⟩, hgood.2.2⟩

theorem validScroll_iff {data : UInt32} :
    validScroll data = true ↔ ∃ horizontal vertical,
      (InputEvent.pointerScroll horizontal vertical).check = .ok () ∧
        packScroll horizontal vertical = data := by
  constructor
  · intro h
    exact ⟨_, _, (validScroll_eq data).mp h, packScroll_halves data⟩
  · rintro ⟨horizontal, vertical, hcheck, rfl⟩
    obtain ⟨hlow, hhigh⟩ := halves_packScroll horizontal vertical
    rw [validScroll_eq, hlow, hhigh]
    exact hcheck

theorem validButton_iff {data : UInt32} :
    (1 ≤ data && data ≤ 3) = true ↔ ∃ button, pointerButtonCode button = .ok data := by
  rw [Bool.and_eq_true, decide_eq_true_eq, decide_eq_true_eq]
  constructor
  · rintro ⟨hlo, hhi⟩
    have hlo' : 1 ≤ data.toNat := UInt32.le_iff_toNat_le.mp hlo
    have hhi' : data.toNat ≤ 3 := UInt32.le_iff_toNat_le.mp hhi
    have hdata : ∀ n : ℕ, data.toNat = n → UInt32.ofNat n = data := by
      rintro n rfl
      exact UInt32.ofNat_toNat
    obtain hn | hn | hn : data.toNat = 1 ∨ data.toNat = 2 ∨ data.toNat = 3 := by omega
    · exact ⟨.primary, congrArg Except.ok (hdata 1 hn)⟩
    · exact ⟨.secondary, congrArg Except.ok (hdata 2 hn)⟩
    · exact ⟨.middle, congrArg Except.ok (hdata 3 hn)⟩
  · rintro ⟨button, hbutton⟩
    cases button with
    | _ =>
      obtain rfl := Except.ok.inj hbutton
      decide

theorem pointerButtonCode_inj {button button' : PointerButton} {data : UInt32}
    (h : pointerButtonCode button = .ok data) (h' : pointerButtonCode button' = .ok data) :
    button = button' := by
  have heq := h.trans h'.symm
  cases button <;> cases button' <;> first | rfl | cases heq

theorem keyCode_inj {key key' : Key} {code : UInt32} (hcheck : key.check = .ok ())
    (hcheck' : key'.check = .ok ()) (h : keyCode key = .ok code) (h' : keyCode key' = .ok code) :
    key = key' :=
  Option.some.inj ((keyOf_keyCode hcheck h).symm.trans (keyOf_keyCode hcheck' h'))

/-! ### What is encoded -/

inductive Heads : InputEvent → Option (Int32 × Int32) → Header → Prop
  | pointerMove (position : Core.Point) (x y : Int32) :
      Heads (.pointerMove position) (some (x, y)) ⟨pointerMove, x.toUInt32, y.toUInt32, 0, 0⟩
  | pointerPress {button : PointerButton} {code : UInt32} (x y : Int32) :
      pointerButtonCode button = .ok code →
      Heads (.pointerPress button) (some (x, y)) ⟨pointerPress, x.toUInt32, y.toUInt32, code, 0⟩
  | pointerRelease {button : PointerButton} {code : UInt32} (x y : Int32) :
      pointerButtonCode button = .ok code →
      Heads (.pointerRelease button) (some (x, y)) ⟨pointerRelease, x.toUInt32, y.toUInt32, code, 0⟩
  | pointerScroll (horizontal vertical : Int16) (x y : Int32) :
      Heads (.pointerScroll horizontal vertical) (some (x, y))
        ⟨pointerScroll, x.toUInt32, y.toUInt32, packScroll horizontal vertical, 0⟩
  | keyPress {key : Key} {code : UInt32} (point : Option (Int32 × Int32)) : keyCode key = .ok code →
      Heads (.keyPress key) point ⟨keyPress, 0, 0, code, 0⟩
  | keyRelease {key : Key} {code : UInt32} (point : Option (Int32 × Int32)) :
      keyCode key = .ok code → Heads (.keyRelease key) point ⟨keyRelease, 0, 0, code, 0⟩
  | text (t : String) (point : Option (Int32 × Int32)) :
      Heads (.text t) point ⟨text, 0, 0, 0, UInt32.ofNat (Utf16.encode t.toList).length⟩

def payload : InputEvent → List UInt8
  | .text t => (Utf16.encode t.toList).flatMap fun unit => LittleEndian.bytes 2 unit.toNat
  | _ => []

def eventKind : InputEvent → Option UInt32
  | .pointerMove _ => some pointerMove
  | .pointerPress _ => some pointerPress
  | .pointerRelease _ => some pointerRelease
  | .pointerScroll .. => some pointerScroll
  | .keyPress _ => some keyPress
  | .keyRelease _ => some keyRelease
  | .text _ => some text
  | .delay _ => none

def eventUnits : InputEvent → ℕ
  | .text t => (Utf16.encode t.toList).length
  | _ => 0

theorem check_text {t : String} :
    (InputEvent.text t).check = .ok () ↔ 0 < t.toList.length ∧
      t.toList.length ≤ InputEvent.maxTextChars := by
  unfold InputEvent.check
  dsimp only
  rw [String.length_toList]
  split
  · rename_i hbad
    exact iff_of_false (by intro h; cases h) (by omega)
  · rename_i hgood
    exact iff_of_true rfl (by omega)

theorem units_bounds {chars : List Char} (h : 0 < chars.length ∧ chars.length ≤ InputEvent.maxTextChars) :
    0 < (Utf16.encode chars).length ∧ (Utf16.encode chars).length ≤ 8192 := by
  have hunits := Utf16.length_encode chars
  have hmax : InputEvent.maxTextChars = 4096 := rfl
  omega

theorem encodePointer_eq_ok {kind : UInt32} {data : Except InputFault UInt32}
    {point : Option (Int32 × Int32)} {packet : List UInt8} :
    encodePointer kind data point = .ok packet ↔ ∃ x y code, point = some (x, y) ∧ data = .ok code ∧
      packet = encodeHeader kind x y code 0 := by
  unfold encodePointer
  constructor
  · intro h
    split at h
    · cases h
    · rename_i x y
      cases data with
      | error fault => cases h
      | ok code => exact ⟨x, y, code, rfl, rfl, (Except.ok.inj h).symm⟩
  · rintro ⟨x, y, code, rfl, rfl, rfl⟩
    rfl

theorem encodeKey_eq_ok {kind : UInt32} {key : Key} {packet : List UInt8} :
    ((keyCode key).map fun code => encodeHeader kind 0 0 code 0) = .ok packet ↔
      ∃ code, keyCode key = .ok code ∧ packet = encodeHeader kind 0 0 code 0 := by
  cases keyCode key with
  | error fault => exact iff_of_false (by intro h; cases h) (by rintro ⟨code, h, -⟩; cases h)
  | ok code =>
    constructor
    · intro h
      exact ⟨code, rfl, (Except.ok.inj h).symm⟩
    · rintro ⟨other, hcode, rfl⟩
      obtain rfl := Except.ok.inj hcode
      rfl

/-- **What `encode_event` writes**: the header of an event within its bounds, and its payload. -/
theorem encodeEvent_eq_ok {event : InputEvent} {point : Option (Int32 × Int32)}
    {packet : List UInt8} :
    encodeEvent event point = .ok packet ↔ event.check = .ok () ∧
      ∃ h, Heads event point h ∧ packet = h.bytes ++ payload event := by
  unfold encodeEvent
  cases hcheck : event.check with
  | error fault => exact iff_of_false (by intro h; cases h) (by rintro ⟨h, -⟩; cases h)
  | ok u =>
    rw [and_iff_right rfl]
    dsimp only
    cases event with
    | pointerMove position =>
      rw [encodePointer_eq_ok]
      constructor
      · rintro ⟨x, y, code, rfl, hcode, rfl⟩
        obtain rfl := Except.ok.inj hcode
        exact ⟨_, .pointerMove position x y, (List.append_nil _).symm⟩
      · rintro ⟨h, hheads, rfl⟩
        cases hheads with
        | pointerMove _ x y => exact ⟨x, y, 0, rfl, rfl, List.append_nil _⟩
    | pointerPress button =>
      rw [encodePointer_eq_ok]
      constructor
      · rintro ⟨x, y, code, rfl, hcode, rfl⟩
        exact ⟨_, .pointerPress x y hcode, (List.append_nil _).symm⟩
      · rintro ⟨h, hheads, rfl⟩
        cases hheads with
        | pointerPress x y hcode => exact ⟨x, y, _, rfl, hcode, List.append_nil _⟩
    | pointerRelease button =>
      rw [encodePointer_eq_ok]
      constructor
      · rintro ⟨x, y, code, rfl, hcode, rfl⟩
        exact ⟨_, .pointerRelease x y hcode, (List.append_nil _).symm⟩
      · rintro ⟨h, hheads, rfl⟩
        cases hheads with
        | pointerRelease x y hcode => exact ⟨x, y, _, rfl, hcode, List.append_nil _⟩
    | pointerScroll horizontal vertical =>
      rw [encodePointer_eq_ok]
      constructor
      · rintro ⟨x, y, code, rfl, hcode, rfl⟩
        obtain rfl := Except.ok.inj hcode
        exact ⟨_, .pointerScroll horizontal vertical x y, (List.append_nil _).symm⟩
      · rintro ⟨h, hheads, rfl⟩
        cases hheads with
        | pointerScroll _ _ x y => exact ⟨x, y, _, rfl, rfl, List.append_nil _⟩
    | keyPress key =>
      rw [encodeKey_eq_ok]
      constructor
      · rintro ⟨code, hcode, rfl⟩
        exact ⟨_, .keyPress point hcode, (List.append_nil _).symm⟩
      · rintro ⟨h, hheads, rfl⟩
        cases hheads with
        | keyPress _ hcode => exact ⟨_, hcode, List.append_nil _⟩
    | keyRelease key =>
      rw [encodeKey_eq_ok]
      constructor
      · rintro ⟨code, hcode, rfl⟩
        exact ⟨_, .keyRelease point hcode, (List.append_nil _).symm⟩
      · rintro ⟨h, hheads, rfl⟩
        cases hheads with
        | keyRelease _ hcode => exact ⟨_, hcode, List.append_nil _⟩
    | text t =>
      have hunits := units_bounds (check_text.mp hcheck)
      have hsize : ¬ UInt32.size ≤ (Utf16.encode t.toList).length := by
        have hbig : (8192 : ℕ) < UInt32.size := by decide
        omega
      dsimp only
      rw [if_neg hsize]
      constructor
      · intro h
        obtain rfl := Except.ok.inj h
        exact ⟨_, .text t point, rfl⟩
      · rintro ⟨h, hheads, rfl⟩
        cases hheads
        rfl
    | delay duration =>
      refine iff_of_false (by intro h; cases h) ?_
      rintro ⟨h, hheads, -⟩
      cases hheads

theorem heads_kind {event : InputEvent} {point : Option (Int32 × Int32)} {h : Header}
    (hcheck : event.check = .ok ()) (hheads : Heads event point h) :
    eventKind event = some h.kind ∧ h.textUnits.toNat = eventUnits event := by
  cases hheads with
  | text t point =>
    have hunits := units_bounds (check_text.mp hcheck)
    refine ⟨rfl, ?_⟩
    show (UInt32.ofNat (Utf16.encode t.toList).length).toNat = (Utf16.encode t.toList).length
    rw [UInt32.toNat_ofNat']
    omega
  | _ => exact ⟨rfl, rfl⟩

theorem toUInt32_inj {x y x' y' : Int32} (hx : x.toUInt32 = x'.toUInt32)
    (hy : y.toUInt32 = y'.toUInt32) : some (x, y) = some (x', y') := by
  have hx' := congrArg UInt32.toInt32 hx
  have hy' := congrArg UInt32.toInt32 hy
  rw [Int32.toInt32_toUInt32, Int32.toInt32_toUInt32] at hx' hy'
  rw [hx', hy']

/-- **A header and a payload determine the event and the point**, but for the coordinate of a pointer
move and the point of other events. -/
theorem heads_inj {event event' : InputEvent} {point point' : Option (Int32 × Int32)}
    {h h' : Header} (hcheck : event.check = .ok ()) (hcheck' : event'.check = .ok ())
    (hheads : Heads event point h) (hheads' : Heads event' point' h') (hsame : h = h')
    (hpayload : payload event = payload event') :
    (event = event' ∨ ∃ p p', event = .pointerMove p ∧ event' = .pointerMove p') ∧
      (event.operationKind = some .pointer → point = point') := by
  have hkind : eventKind event = eventKind event' := by
    rw [(heads_kind hcheck hheads).1, (heads_kind hcheck' hheads').1, hsame]
  -- events of two kinds have no header in common
  cases hheads <;> cases hheads' <;>
    try (simp [eventKind, pointerMove, pointerPress, pointerRelease, pointerScroll, keyPress,
      keyRelease, text] at hkind; done)
  case pointerMove.pointerMove p x y p' x' y' =>
    obtain ⟨-, hx, hy, -, -⟩ := Header.mk.inj hsame
    exact ⟨Or.inr ⟨p, p', rfl, rfl⟩, fun _ => toUInt32_inj hx hy⟩
  case pointerPress.pointerPress x y hcode _ _ x' y' hcode' =>
    obtain ⟨-, hx, hy, hdata, -⟩ := Header.mk.inj hsame
    rw [hdata] at hcode
    rw [pointerButtonCode_inj hcode hcode']
    exact ⟨Or.inl rfl, fun _ => toUInt32_inj hx hy⟩
  case pointerRelease.pointerRelease x y hcode _ _ x' y' hcode' =>
    obtain ⟨-, hx, hy, hdata, -⟩ := Header.mk.inj hsame
    rw [hdata] at hcode
    rw [pointerButtonCode_inj hcode hcode']
    exact ⟨Or.inl rfl, fun _ => toUInt32_inj hx hy⟩
  case pointerScroll.pointerScroll =>
    obtain ⟨-, hx, hy, hdata, -⟩ := Header.mk.inj hsame
    obtain ⟨rfl, rfl⟩ := packScroll_inj hdata
    exact ⟨Or.inl rfl, fun _ => toUInt32_inj hx hy⟩
  case keyPress.keyPress hcode _ _ hcode' =>
    obtain ⟨-, -, -, hdata, -⟩ := Header.mk.inj hsame
    rw [hdata] at hcode
    rw [keyCode_inj hcheck hcheck' hcode hcode']
    exact ⟨Or.inl rfl, fun hpointer => by cases hpointer⟩
  case keyRelease.keyRelease hcode _ _ hcode' =>
    obtain ⟨-, -, -, hdata, -⟩ := Header.mk.inj hsame
    rw [hdata] at hcode
    rw [keyCode_inj hcheck hcheck' hcode hcode']
    exact ⟨Or.inl rfl, fun hpointer => by cases hpointer⟩
  case text.text t t' =>
    have hunits : Utf16.encode t.toList = Utf16.encode t'.toList := by
      have hchunks := congrArg LittleEndian.chunks hpayload
      unfold payload at hchunks
      rwa [LittleEndian.chunks_bytes, LittleEndian.chunks_bytes] at hchunks
    have ht : t = t' := String.toList_injective (Utf16.encode_inj hunits)
    rw [ht]
    exact ⟨Or.inl rfl, fun hpointer => by cases hpointer⟩

theorem heads_other {event event' : InputEvent} {point point' : Option (Int32 × Int32)} {h : Header}
    (hheads : Heads event point h)
    (hevent : event = event' ∨ ∃ p p', event = .pointerMove p ∧ event' = .pointerMove p')
    (hpoint : event.operationKind = some .pointer → point = point') :
    Heads event' point' h ∧ payload event = payload event' := by
  rcases hevent with rfl | ⟨p, p', rfl, rfl⟩
  · refine ⟨?_, rfl⟩
    cases hheads with
    | pointerMove position x y =>
      rw [← hpoint rfl]
      exact .pointerMove position x y
    | pointerPress x y hcode =>
      rw [← hpoint rfl]
      exact .pointerPress x y hcode
    | pointerRelease x y hcode =>
      rw [← hpoint rfl]
      exact .pointerRelease x y hcode
    | pointerScroll horizontal vertical x y =>
      rw [← hpoint rfl]
      exact .pointerScroll horizontal vertical x y
    | keyPress _ hcode => exact .keyPress point' hcode
    | keyRelease _ hcode => exact .keyRelease point' hcode
    | text t _ => exact .text t point'
  · rw [← hpoint rfl]
    cases hheads with
    | pointerMove _ x y => exact ⟨.pointerMove p' x y, rfl⟩

/-! ### What is accepted -/

structure Header.Accepts (h : Header) (body : List UInt8) : Prop where
  scalar : h.validScalarPayload = true
  plain : h.kind ≠ text → h.textUnits = 0 ∧ body = []
  text : h.kind = text → 0 < h.textUnits.toNat ∧ h.textUnits.toNat ≤ InputEvent.maxTextChars * 2 ∧
    body.length = h.textUnits.toNat * 2 ∧ validText body = true

theorem expected_text {h : Header} {expected : ℕ} (hkind : h.kind = text) :
    h.expected = some expected ↔ h.a = 0 ∧ h.b = 0 ∧ h.data = 0 ∧ 0 < h.textUnits.toNat ∧
      h.textUnits.toNat ≤ InputEvent.maxTextChars * 2 ∧
      expected = headerBytes + h.textUnits.toNat * 2 := by
  have hmax : InputEvent.maxTextChars = 4096 := rfl
  have husize : Capture.usizeMax = 2 ^ 64 - 1 := rfl
  have hheader : headerBytes = 24 := rfl
  have hzero : h.textUnits = 0 ↔ h.textUnits.toNat = 0 := UInt32.toNat_inj.symm
  unfold Header.expected
  rw [if_pos hkind]
  split
  · rename_i hbad
    refine iff_of_false (by intro h; cases h) ?_
    rintro ⟨ha, hb, hdata, hpos, hle, -⟩
    rw [hzero] at hbad
    rcases hbad with hbad | hbad | hbad | hbad | hbad
    · exact hbad ha
    · exact hbad hb
    · exact hbad hdata
    · omega
    · omega
  · rename_i hgood
    rw [hzero] at hgood
    push Not at hgood
    obtain ⟨ha, hb, hdata, hpos, hle⟩ := hgood
    have hmul : checkedMul Capture.usizeMax h.textUnits.toNat 2 = some (h.textUnits.toNat * 2) :=
      if_pos (by omega)
    rw [hmul, Option.bind_some,
      checkedAdd_eq_some.mpr ⟨rfl, by omega⟩]
    constructor
    · intro h
      obtain rfl := Option.some.inj h
      exact ⟨ha, hb, hdata, by omega, hle, rfl⟩
    · rintro ⟨-, -, -, -, -, rfl⟩
      rfl

theorem expected_plain {h : Header} {expected : ℕ} (hkind : h.kind ≠ text) :
    h.expected = some expected ↔ h.textUnits = 0 ∧ expected = headerBytes := by
  unfold Header.expected
  rw [if_neg hkind]
  split
  · rename_i hunits
    exact iff_of_false (by intro h; cases h) fun hzero => hunits hzero.1
  · rename_i hunits
    rw [not_not] at hunits
    constructor
    · intro h
      exact ⟨hunits, (Option.some.inj h).symm⟩
    · rintro ⟨-, rfl⟩
      rfl

/-! The checks of the fields, one lemma for each kind. -/

section Scalars

variable {h : Header}

theorem scalar_query (hkind : h.kind = query) :
    h.validScalarPayload = true ↔ h.a = 0 ∧ h.b = 0 ∧ h.data = 0 := by
  unfold Header.validScalarPayload
  rw [hkind, if_pos rfl]
  simp only [Bool.and_eq_true, decide_eq_true_eq]
  tauto

theorem scalar_move (hkind : h.kind = pointerMove) :
    h.validScalarPayload = true ↔ h.data = 0 := by
  unfold Header.validScalarPayload
  rw [hkind, if_neg (by decide), if_pos rfl, decide_eq_true_eq]

theorem scalar_button (hkind : h.kind = pointerPress ∨ h.kind = pointerRelease) :
    h.validScalarPayload = true ↔ ∃ button, pointerButtonCode button = .ok h.data := by
  rw [← validButton_iff]
  unfold Header.validScalarPayload
  rcases hkind with hkind | hkind
  · rw [hkind, if_neg (by decide), if_neg (by decide), if_pos (Or.inl rfl)]
  · rw [hkind, if_neg (by decide), if_neg (by decide), if_pos (Or.inr rfl)]

theorem scalar_scroll (hkind : h.kind = pointerScroll) :
    h.validScalarPayload = true ↔ ∃ horizontal vertical,
      (InputEvent.pointerScroll horizontal vertical).check = .ok () ∧
        packScroll horizontal vertical = h.data := by
  rw [← validScroll_iff]
  unfold Header.validScalarPayload
  rw [hkind, if_neg (by decide), if_neg (by decide), if_neg (by decide), if_pos rfl]

theorem scalar_key (hkind : h.kind = keyPress ∨ h.kind = keyRelease) :
    h.validScalarPayload = true ↔ h.a = 0 ∧ h.b = 0 ∧
      ∃ key : Key, key.check = .ok () ∧ keyCode key = .ok h.data := by
  rw [← validKeyCode_iff, ← and_assoc]
  unfold Header.validScalarPayload
  rcases hkind with hkind | hkind
  · rw [hkind, if_neg (by decide), if_neg (by decide), if_neg (by decide), if_neg (by decide),
      if_pos (Or.inl rfl)]
    simp only [Bool.and_eq_true, decide_eq_true_eq]
  · rw [hkind, if_neg (by decide), if_neg (by decide), if_neg (by decide), if_neg (by decide),
      if_pos (Or.inr rfl)]
    simp only [Bool.and_eq_true, decide_eq_true_eq]

theorem scalar_text (hkind : h.kind = text) :
    h.validScalarPayload = true ↔ h.a = 0 ∧ h.b = 0 ∧ h.data = 0 := by
  unfold Header.validScalarPayload
  rw [hkind, if_neg (by decide), if_neg (by decide), if_neg (by decide), if_neg (by decide),
    if_neg (by decide), if_pos rfl]
  simp only [Bool.and_eq_true, decide_eq_true_eq]
  tauto

end Scalars

theorem sliceFrom_header (h : Header) (body : List UInt8) :
    sliceFrom (h.bytes ++ body) headerBytes = .ok body := by
  unfold sliceFrom
  rw [if_pos (by rw [List.length_append, h.length_bytes]; omega), List.drop_left' h.length_bytes]

theorem summarize_header (h : Header) (body : List UInt8) :
    (h.Accepts body → summarize (h.bytes ++ body) = .ok (some ⟨h.kind, h.textUnits⟩)) ∧
      (¬ h.Accepts body → summarize (h.bytes ++ body) = .ok none) := by
  have hlength : (h.bytes ++ body).length = headerBytes + body.length := by
    rw [List.length_append, h.length_bytes]
  have hread : readHeader (h.bytes ++ body) = some h := readHeader_eq_some.mpr ⟨body, rfl⟩
  have hmax : maxPacketBytes = headerBytes + 16384 := rfl
  have hchars : InputEvent.maxTextChars = 4096 := rfl
  unfold summarize
  rw [hlength, hread]
  dsimp only
  rw [sliceFrom_header]
  constructor
  · intro haccepts
    by_cases hkind : h.kind = text
    · obtain ⟨hpos, hle, hbody, htext⟩ := haccepts.text hkind
      obtain ⟨ha, hb, hdata⟩ := (scalar_text hkind).mp haccepts.scalar
      rw [if_neg (by omega), (expected_text hkind).mpr ⟨ha, hb, hdata, hpos, hle, rfl⟩]
      dsimp only
      rw [if_neg (by rw [haccepts.scalar, hbody]; simp), if_pos hkind]
      show Except.ok (if validText body = true then _ else _) = _
      rw [if_pos htext]
    · obtain ⟨hunits, rfl⟩ := haccepts.plain hkind
      have hempty : ([] : List UInt8).length = 0 := rfl
      rw [if_neg (by omega), (expected_plain hkind).mpr ⟨hunits, rfl⟩]
      dsimp only
      rw [if_neg (by rw [haccepts.scalar, hempty]; simp), if_neg hkind]
  · intro hrefuses
    split
    · rfl
    · cases hexpected : h.expected with
      | none => rfl
      | some expected =>
        dsimp only
        split
        · rfl
        · rename_i hpasses
          rw [not_or, not_not, Bool.not_eq_false] at hpasses
          obtain ⟨hsame, hscalar⟩ := hpasses
          by_cases hkind : h.kind = text
          · obtain ⟨-, -, -, hpos, hle, hexpect⟩ := (expected_text hkind).mp hexpected
            have hinvalid : ¬ validText body = true := fun htext =>
              hrefuses ⟨hscalar, fun hne => absurd hkind hne, fun _ => ⟨hpos, hle, by omega, htext⟩⟩
            rw [if_pos hkind]
            show Except.ok (if validText body = true then _ else _) = _
            rw [if_neg hinvalid]
          · obtain ⟨hunits, hexpect⟩ := (expected_plain hkind).mp hexpected
            have hempty : body = [] := List.eq_nil_of_length_eq_zero (by omega)
            exact absurd ⟨hscalar, fun _ => ⟨hunits, hempty⟩, fun h => absurd h hkind⟩ hrefuses

theorem summarize_eq (packet : List UInt8) :
    (∃ result, summarize packet = .ok result) ∧
      ∀ summary, summarize packet = .ok (some summary) ↔ ∃ (h : Header) (body : List UInt8),
        packet = h.bytes ++ body ∧
        h.Accepts body ∧ summary = ⟨h.kind, h.textUnits⟩ := by
  by_cases hheader : ∃ h, readHeader packet = some h
  · obtain ⟨h, hread⟩ := hheader
    obtain ⟨body, rfl⟩ := readHeader_eq_some.mp hread
    obtain ⟨haccepted, hrefused⟩ := summarize_header h body
    by_cases haccepts : h.Accepts body
    · refine ⟨⟨_, haccepted haccepts⟩, fun summary => ?_⟩
      rw [haccepted haccepts]
      constructor
      · intro hsummary
        exact ⟨h, body, rfl, haccepts, (Option.some.inj (Except.ok.inj hsummary)).symm⟩
      · rintro ⟨h', body', hsame, -, rfl⟩
        rw [(Header.bytes_inj hsame).1]
    · refine ⟨⟨_, hrefused haccepts⟩, fun summary => ?_⟩
      rw [hrefused haccepts]
      refine iff_of_false (by intro h; cases h) ?_
      rintro ⟨h', body', hsame, haccepts', -⟩
      obtain ⟨rfl, rfl⟩ := Header.bytes_inj hsame
      exact haccepts haccepts'
  · have hnone : readHeader packet = none := by
      cases hread : readHeader packet with
      | none => rfl
      | some h => exact absurd ⟨h, hread⟩ hheader
    have hsummarize : summarize packet = .ok none := by
      unfold summarize
      rw [hnone]
      split
      · rfl
      · rfl
    refine ⟨⟨_, hsummarize⟩, fun summary => ?_⟩
    rw [hsummarize]
    refine iff_of_false (by intro h; cases h) ?_
    rintro ⟨h, body, rfl, -, -⟩
    exact hheader ⟨h, readHeader_eq_some.mpr ⟨body, rfl⟩⟩

theorem validText_iff {body : List UInt8} {count : ℕ} (hbody : body.length = count * 2) :
    validText body = true ↔ ∃ t : String, (InputEvent.text t).check = .ok () ∧
      payload (.text t) = body ∧ (Utf16.encode t.toList).length = count := by
  obtain ⟨hbytes, hcount⟩ := LittleEndian.bytes_chunks hbody
  unfold validText
  constructor
  · intro h
    split at h
    · cases h
    · rename_i chars hdecode
      have hunits := Utf16.encode_decode hdecode
      rw [Bool.and_eq_true, decide_eq_true_eq, decide_eq_true_eq] at h
      refine ⟨String.ofList chars, check_text.mpr ?_, ?_, ?_⟩
      · rw [String.toList_ofList]
        exact h
      · unfold payload
        dsimp only
        rw [String.toList_ofList, hunits, hbytes]
      · rw [String.toList_ofList, hunits, hcount]
  · rintro ⟨t, hcheck, rfl, -⟩
    unfold payload
    dsimp only
    rw [LittleEndian.chunks_bytes, Utf16.decode_encode]
    dsimp only
    rw [Bool.and_eq_true, decide_eq_true_eq, decide_eq_true_eq]
    exact check_text.mp hcheck

def queryHeader : Header := ⟨query, 0, 0, 0, 0⟩

theorem kinds_cases {h : Header} (hscalar : h.validScalarPayload = true) :
    h.kind = query ∨ h.kind = pointerMove ∨ h.kind = pointerPress ∨ h.kind = pointerRelease ∨
      h.kind = pointerScroll ∨ h.kind = keyPress ∨ h.kind = keyRelease ∨ h.kind = text := by
  unfold Header.validScalarPayload at hscalar
  by_contra hnone
  push Not at hnone
  obtain ⟨h0, h1, h2, h3, h4, h5, h6, h7⟩ := hnone
  rw [if_neg h0, if_neg h1, if_neg (by tauto), if_neg h4, if_neg (by tauto), if_neg h7] at hscalar
  cases hscalar

theorem accepts_plain {h : Header} {body : List UInt8} (hkind : h.kind ≠ text) :
    h.Accepts body ↔ h.validScalarPayload = true ∧ h.textUnits = 0 ∧ body = [] := by
  constructor
  · intro haccepts
    exact ⟨haccepts.scalar, haccepts.plain hkind⟩
  · rintro ⟨hscalar, hplain⟩
    exact ⟨hscalar, fun _ => hplain, fun h => absurd h hkind⟩

theorem Header.eq_of {h : Header} {kind a b data textUnits : UInt32} (hkind : h.kind = kind)
    (ha : h.a = a) (hb : h.b = b) (hdata : h.data = data) (hunits : h.textUnits = textUnits) :
    h = ⟨kind, a, b, data, textUnits⟩ := by
  cases h
  subst hkind ha hb hdata hunits
  rfl

theorem encoded_of_accepts {h : Header} {body : List UInt8} (haccepts : h.Accepts body) :
    (h = queryHeader ∧ body = []) ∨
      ∃ event point, event.check = .ok () ∧ Heads event point h ∧ payload event = body := by
  have hscalar := haccepts.scalar
  have ha : h.a = h.a.toInt32.toUInt32 := (UInt32.toUInt32_toInt32 _).symm
  have hb : h.b = h.b.toInt32.toUInt32 := (UInt32.toUInt32_toInt32 _).symm
  by_cases htext : h.kind = text
  · obtain ⟨hzero, hzero', hdata⟩ := (scalar_text htext).mp hscalar
    obtain ⟨-, -, hbody, hvalid⟩ := haccepts.text htext
    obtain ⟨t, hcheck, hpayload, hcount⟩ := (validText_iff hbody).mp hvalid
    have hheads := Heads.text t none
    rw [hcount, UInt32.ofNat_toNat, ← Header.eq_of htext hzero hzero' hdata rfl] at hheads
    exact Or.inr ⟨_, _, hcheck, hheads, hpayload⟩
  obtain ⟨hunits, rfl⟩ := haccepts.plain htext
  rcases kinds_cases hscalar with hkind | hkind | hkind | hkind | hkind | hkind | hkind | hkind
  · obtain ⟨hzero, hzero', hdata⟩ := (scalar_query hkind).mp hscalar
    exact Or.inl ⟨Header.eq_of hkind hzero hzero' hdata hunits, rfl⟩
  · have hdata := (scalar_move hkind).mp hscalar
    have hheads := Heads.pointerMove ⟨.capturePixels, 0, 0⟩ h.a.toInt32 h.b.toInt32
    rw [← Header.eq_of hkind ha hb hdata hunits] at hheads
    exact Or.inr ⟨_, _, rfl, hheads, rfl⟩
  · obtain ⟨button, hbutton⟩ := (scalar_button (Or.inl hkind)).mp hscalar
    have hheads := Heads.pointerPress h.a.toInt32 h.b.toInt32 hbutton
    rw [← Header.eq_of hkind ha hb rfl hunits] at hheads
    exact Or.inr ⟨_, _, rfl, hheads, rfl⟩
  · obtain ⟨button, hbutton⟩ := (scalar_button (Or.inr hkind)).mp hscalar
    have hheads := Heads.pointerRelease h.a.toInt32 h.b.toInt32 hbutton
    rw [← Header.eq_of hkind ha hb rfl hunits] at hheads
    exact Or.inr ⟨_, _, rfl, hheads, rfl⟩
  · obtain ⟨horizontal, vertical, hcheck, hpack⟩ := (scalar_scroll hkind).mp hscalar
    have hheads := Heads.pointerScroll horizontal vertical h.a.toInt32 h.b.toInt32
    rw [← Header.eq_of hkind ha hb hpack.symm hunits] at hheads
    exact Or.inr ⟨_, _, hcheck, hheads, rfl⟩
  · obtain ⟨hzero, hzero', key, hcheck, hkey⟩ := (scalar_key (Or.inl hkind)).mp hscalar
    have hheads := Heads.keyPress none hkey
    rw [← Header.eq_of hkind hzero hzero' rfl hunits] at hheads
    exact Or.inr ⟨.keyPress key, none, hcheck, hheads, rfl⟩
  · obtain ⟨hzero, hzero', key, hcheck, hkey⟩ := (scalar_key (Or.inr hkind)).mp hscalar
    have hheads := Heads.keyRelease none hkey
    rw [← Header.eq_of hkind hzero hzero' rfl hunits] at hheads
    exact Or.inr ⟨.keyRelease key, none, hcheck, hheads, rfl⟩
  · exact absurd hkind htext

theorem accepts_of_encoded {event : InputEvent} {point : Option (Int32 × Int32)} {h : Header}
    (hcheck : event.check = .ok ()) (hheads : Heads event point h) : h.Accepts (payload event) := by
  cases hheads with
  | pointerMove position x y =>
    exact (accepts_plain (by dsimp only; decide)).mpr ⟨(scalar_move rfl).mpr rfl, rfl, rfl⟩
  | pointerPress x y hcode =>
    exact (accepts_plain (by dsimp only; decide)).mpr
      ⟨(scalar_button (Or.inl rfl)).mpr ⟨_, hcode⟩, rfl, rfl⟩
  | pointerRelease x y hcode =>
    exact (accepts_plain (by dsimp only; decide)).mpr
      ⟨(scalar_button (Or.inr rfl)).mpr ⟨_, hcode⟩, rfl, rfl⟩
  | pointerScroll horizontal vertical x y =>
    exact (accepts_plain (by dsimp only; decide)).mpr
      ⟨(scalar_scroll rfl).mpr ⟨_, _, hcheck, rfl⟩, rfl, rfl⟩
  | keyPress point hcode =>
    exact (accepts_plain (by dsimp only; decide)).mpr
      ⟨(scalar_key (Or.inl rfl)).mpr ⟨rfl, rfl, _, hcheck, hcode⟩, rfl, rfl⟩
  | keyRelease point hcode =>
    exact (accepts_plain (by dsimp only; decide)).mpr
      ⟨(scalar_key (Or.inr rfl)).mpr ⟨rfl, rfl, _, hcheck, hcode⟩, rfl, rfl⟩
  | text t point =>
    have hunits := units_bounds (check_text.mp hcheck)
    have hcount : (UInt32.ofNat (Utf16.encode t.toList).length).toNat =
        (Utf16.encode t.toList).length := by
      rw [UInt32.toNat_ofNat']
      omega
    have hbody : (payload (.text t)).length = (Utf16.encode t.toList).length * 2 :=
      LittleEndian.length_chunk_bytes _
    refine ⟨(scalar_text rfl).mpr ⟨rfl, rfl, rfl⟩, fun hne => absurd rfl hne, fun _ => ?_⟩
    dsimp only
    rw [hcount]
    exact ⟨hunits.1, hunits.2, hbody, (validText_iff hbody).mpr ⟨t, hcheck, rfl, rfl⟩⟩

theorem accepts_query : queryHeader.Accepts [] :=
  (accepts_plain (by decide)).mpr ⟨rfl, rfl, rfl⟩

/-! ### The result -/

/-- **The grammar of the packets.**  On no byte string does the parser panic.  It accepts a byte string
exactly when that is the query packet or the packet of an event within its bounds, and then summarises
it as that event's kind and text units.  Two events with their points have the same packet exactly when
they are the same, but for the coordinate that a pointer move carries and the point of an event that is
not a pointer's. -/
theorem fixture_grammar (packet : List UInt8) :
    (∃ result, summarize packet = .ok result) ∧
    (∀ summary, summarize packet = .ok (some summary) ↔
      packet = queryPacket ∧ summary = ⟨query, 0⟩ ∨
      ∃ event point, event.check = .ok () ∧ encodeEvent event point = .ok packet ∧
        eventKind event = some summary.kind ∧ summary.textUnits.toNat = eventUnits event) ∧
    ∀ event point event' point', encodeEvent event point = .ok packet → event'.check = .ok () →
      (encodeEvent event' point' = .ok packet ↔
        (event = event' ∨ ∃ p p', event = .pointerMove p ∧ event' = .pointerMove p') ∧
          (event.operationKind = some .pointer → point = point')) := by
  obtain ⟨htotal, haccepted⟩ := summarize_eq packet
  refine ⟨htotal, fun summary => ?_, ?_⟩
  · rw [haccepted]
    constructor
    · rintro ⟨h, body, rfl, haccepts, rfl⟩
      rcases encoded_of_accepts haccepts with ⟨rfl, rfl⟩ | ⟨event, point, hcheck, hheads, rfl⟩
      · exact Or.inl ⟨List.append_nil _, rfl⟩
      · obtain ⟨hkind, hunits⟩ := heads_kind hcheck hheads
        exact Or.inr ⟨event, point, hcheck, encodeEvent_eq_ok.mpr ⟨hcheck, h, hheads, rfl⟩, hkind,
          hunits⟩
    · rintro (⟨rfl, rfl⟩ | ⟨event, point, hcheck, hencode, hkind, hunits⟩)
      · exact ⟨queryHeader, [], (List.append_nil _).symm, accepts_query, rfl⟩
      · obtain ⟨-, h, hheads, rfl⟩ := encodeEvent_eq_ok.mp hencode
        refine ⟨h, _, rfl, accepts_of_encoded hcheck hheads, ?_⟩
        obtain ⟨hkind', hunits'⟩ := heads_kind hcheck hheads
        obtain ⟨kind, units⟩ := summary
        obtain rfl := Option.some.inj (hkind.symm.trans hkind')
        obtain rfl := UInt32.toNat_inj.mp (hunits.trans hunits'.symm)
        rfl
  · intro event point event' point' hencode hcheck'
    obtain ⟨hcheck, h, hheads, rfl⟩ := encodeEvent_eq_ok.mp hencode
    constructor
    · intro hencode'
      obtain ⟨-, h', hheads', hsame⟩ := encodeEvent_eq_ok.mp hencode'
      obtain ⟨hheader, hpayload⟩ := Header.bytes_inj hsame
      exact heads_inj hcheck hcheck' hheads hheads' hheader hpayload
    · rintro ⟨hevent, hpoint⟩
      obtain ⟨hheads', hpayload⟩ := heads_other hheads hevent hpoint
      exact encodeEvent_eq_ok.mpr ⟨hcheck', h, hheads', by rw [hpayload]⟩

def enterPacket : List UInt8 := encodeHeader keyPress 0 0 0x301 0

theorem fixture_grammar_sample :
    summarize enterPacket = .ok (some ⟨keyPress, 0⟩) ∧
      encodeEvent (.keyPress .enter) (some (640, 480)) = .ok enterPacket := by
  have hencode : encodeEvent (.keyPress .enter) none = .ok enterPacket := rfl
  obtain ⟨-, haccepted, hsame⟩ := fixture_grammar enterPacket
  constructor
  · exact (haccepted _).mpr (Or.inr ⟨.keyPress .enter, none, rfl, hencode, rfl, rfl⟩)
  · exact (hsame _ _ _ _ hencode rfl).mpr ⟨Or.inl rfl, fun hpointer => by cases hpointer⟩

/-- The packet of a key carries no point: two points give the same packet. -/
theorem key_packet_drops_point :
    ¬ ∀ (event event' : InputEvent) (point point' : Option (Int32 × Int32)) (packet : List UInt8),
      event.check = .ok () → event'.check = .ok () → encodeEvent event point = .ok packet →
      encodeEvent event' point' = .ok packet → event = event' ∧ point = point' := by
  intro h
  have hboth := h (.keyPress .enter) (.keyPress .enter) none (some (1, 2)) _ rfl rfl rfl rfl
  cases hboth.2

end MadoPilot.Platform.Fixture
