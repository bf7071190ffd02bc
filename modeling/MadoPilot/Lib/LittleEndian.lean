import Mathlib.Algebra.Ring.Nat
import Mathlib.Data.List.Basic
import Mathlib.Data.Nat.Basic
import Mathlib.Tactic.Common

/-!
# Little-endian byte strings

A number of a fixed width as bytes, least significant first, and the number that bytes denote.

* `value_bytes`, `bytes_value` : the two are inverse to each other on numbers of the width;
* `read_eq_some` : a field is read exactly where the bytes of its value stand;
* `chunks_bytes`, `bytes_chunks` : a string of numbers of one width and its bytes.
-/

namespace MadoPilot.Lib.LittleEndian

def bytes : ℕ → ℕ → List UInt8
  | 0, _ => []
  | width + 1, n => UInt8.ofNat n :: bytes width (n / 256)

def value : List UInt8 → ℕ
  | [] => 0
  | b :: bs => b.toNat + 256 * value bs

/-- The field of a width at an offset, if the string has one there. -/
def read (width : ℕ) (packet : List UInt8) (offset : ℕ) : Option ℕ :=
  if offset + width ≤ packet.length then some (value ((packet.drop offset).take width)) else none

@[simp] theorem length_bytes (width n : ℕ) : (bytes width n).length = width := by
  induction width generalizing n with
  | zero => rfl
  | succ width ih => simp [bytes, ih]

theorem value_lt (bs : List UInt8) : value bs < 256 ^ bs.length := by
  induction bs with
  | nil => exact Nat.one_pos
  | cons b bs ih =>
    have hb : b.toNat < 256 := b.toNat_lt
    show b.toNat + 256 * value bs < 256 ^ (bs.length + 1)
    rw [Nat.pow_succ]
    omega

theorem value_bytes {width n : ℕ} (h : n < 256 ^ width) : value (bytes width n) = n := by
  induction width generalizing n with
  | zero =>
    have hzero : n = 0 := by
      rw [Nat.pow_zero] at h
      omega
    rw [hzero]
    rfl
  | succ width ih =>
    have hrest : n / 256 < 256 ^ width := by
      rw [Nat.pow_succ] at h
      omega
    show (UInt8.ofNat n).toNat + 256 * value (bytes width (n / 256)) = n
    rw [ih hrest, UInt8.toNat_ofNat']
    omega

theorem bytes_value (bs : List UInt8) : bytes bs.length (value bs) = bs := by
  induction bs with
  | nil => rfl
  | cons b bs ih =>
    have hb : b.toNat < 256 := b.toNat_lt
    have hhead : UInt8.ofNat (b.toNat + 256 * value bs) = b := by
      apply UInt8.toNat_inj.mp
      rw [UInt8.toNat_ofNat']
      omega
    have hrest : (b.toNat + 256 * value bs) / 256 = value bs := by
      omega
    show UInt8.ofNat (b.toNat + 256 * value bs) ::
      bytes bs.length ((b.toNat + 256 * value bs) / 256) = b :: bs
    rw [hhead, hrest, ih]

/-! ### Fields -/

theorem read_eq_some {width offset n : ℕ} {packet : List UInt8} :
    read width packet offset = some n ↔
      offset + width ≤ packet.length ∧ n < 256 ^ width ∧
        packet.drop offset = bytes width n ++ packet.drop (offset + width) := by
  unfold read
  constructor
  · intro h
    split at h
    · rename_i hle
      have hlength : ((packet.drop offset).take width).length = width := by
        rw [List.length_take, List.length_drop]
        omega
      obtain rfl := Option.some.inj h
      refine ⟨hle, ?_, ?_⟩
      · have hlt := value_lt ((packet.drop offset).take width)
        rwa [hlength] at hlt
      · have hbytes := bytes_value ((packet.drop offset).take width)
        rw [hlength] at hbytes
        rw [hbytes, ← List.drop_drop, List.take_append_drop]
    · cases h
  · rintro ⟨hle, hlt, hdrop⟩
    rw [if_pos hle, hdrop, List.take_left' (length_bytes width n), value_bytes hlt]

/-! ### Strings of numbers -/

/-- The numbers of two bytes each; a last single byte is left out. -/
def chunks : List UInt8 → List UInt16
  | a :: b :: rest => UInt16.ofNat (value [a, b]) :: chunks rest
  | _ => []

theorem chunks_bytes (units : List UInt16) : chunks (units.flatMap fun u => bytes 2 u.toNat) = units := by
  induction units with
  | nil => rfl
  | cons u units ih =>
    have hu : u.toNat < 256 ^ 2 := u.toNat_lt
    rw [List.flatMap_cons]
    show UInt16.ofNat (value (bytes 2 u.toNat)) ::
      chunks (units.flatMap fun u => bytes 2 u.toNat) = u :: units
    rw [ih, value_bytes hu, UInt16.ofNat_toNat]

theorem length_chunk_bytes (units : List UInt16) :
    (units.flatMap fun u => bytes 2 u.toNat).length = units.length * 2 := by
  induction units with
  | nil => rfl
  | cons u units ih =>
    rw [List.flatMap_cons, List.length_append, length_bytes, ih, List.length_cons]
    omega

theorem bytes_chunks {bs : List UInt8} {count : ℕ} (h : bs.length = count * 2) :
    ((chunks bs).flatMap fun u => bytes 2 u.toNat) = bs ∧ (chunks bs).length = count := by
  induction count generalizing bs with
  | zero =>
    rw [Nat.zero_mul, List.length_eq_zero_iff] at h
    rw [h]
    exact ⟨rfl, rfl⟩
  | succ count ih =>
    match bs, h with
    | a :: b :: rest, h =>
      have hrest : rest.length = count * 2 := by
        rw [List.length_cons, List.length_cons] at h
        omega
      have hvalue : value [a, b] < 256 ^ 2 := value_lt [a, b]
      have hunit : (UInt16.ofNat (value [a, b])).toNat = value [a, b] := by
        rw [UInt16.toNat_ofNat']
        exact Nat.mod_eq_of_lt hvalue
      obtain ⟨hbytes, hlength⟩ := ih hrest
      constructor
      · show bytes 2 (UInt16.ofNat (value [a, b])).toNat ++
          ((chunks rest).flatMap fun u => bytes 2 u.toNat) = [a, b] ++ rest
        rw [hunit, hbytes]
        exact congrArg (· ++ rest) (bytes_value [a, b])
      · show (chunks rest).length + 1 = count + 1
        rw [hlength]
    | [], h => simp at h
    | [_], h => simp at h; omega

end MadoPilot.Lib.LittleEndian
