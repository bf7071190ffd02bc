import Mathlib.Data.Nat.Bitwise
import MadoPilot.Core.Identity

/-!
# Diagnostic levels and loss counters

Losses are counted twice: in a pair of counters behind the stream's mutex, and in one atomic word for
each level that producers reach without the mutex.  The high bit of such a word says that the level
admits no more losses, the other bits count.

* `countLoss_pack`, `drain_pack`, `seal_pack` : what the three read-modify-write operations do to a word's
  high bit and its count.
-/

namespace MadoPilot.Diagnostic

open MadoPilot.Core MadoPilot.Lib

/-! ### Levels -/

/-- The amount of diagnostic detail an engine retains, and the level of a record. -/
inductive DiagnosticLevel where
  | off | normal | debug
  deriving DecidableEq, Repr

namespace DiagnosticLevel

def admits : DiagnosticLevel → DiagnosticLevel → Bool
  | .normal, .normal | .debug, .normal | .debug, .debug => true
  | _, _ => false

theorem admits_off (level : DiagnosticLevel) : level.admits .off = false := by
  cases level <;> rfl

end DiagnosticLevel

/-! ### Losses behind the mutex -/

/-- A count for each enabled level. -/
structure DiagnosticLosses where
  normal : ℕ
  debug : ℕ
  deriving DecidableEq, Repr

namespace DiagnosticLosses

def none : DiagnosticLosses := ⟨0, 0⟩

variable (l : DiagnosticLosses) (level : DiagnosticLevel)

def isEmpty : Bool := l.normal == 0 && l.debug == 0

def get : ℕ :=
  match level with
  | .off => 0
  | .normal => l.normal
  | .debug => l.debug

def increment : DiagnosticLosses :=
  match level with
  | .normal => { l with normal := saturatingAdd u64Max l.normal 1 }
  | .debug => { l with debug := saturatingAdd u64Max l.debug 1 }
  | .off => l

def saturatingSum (l l' : DiagnosticLosses) : DiagnosticLosses :=
  ⟨saturatingAdd u64Max l.normal l'.normal, saturatingAdd u64Max l.debug l'.debug⟩

/-- One more, without a bound. -/
def succ : DiagnosticLosses :=
  match level with
  | .normal => { l with normal := l.normal + 1 }
  | .debug => { l with debug := l.debug + 1 }
  | .off => l

variable {l level}

@[simp] theorem none_get : none.get level = 0 := by
  cases level <;> rfl

theorem isEmpty_get (level : DiagnosticLevel) (h : l.isEmpty = true) : l.get level = 0 := by
  unfold isEmpty at h
  rw [Bool.and_eq_true, beq_iff_eq, beq_iff_eq] at h
  cases level with
  | off => rfl
  | normal => exact h.1
  | debug => exact h.2

@[simp] theorem succ_get (l : DiagnosticLosses) (level other : DiagnosticLevel) :
    (l.succ level).get other = l.get other + if level = other ∧ level ≠ .off then 1 else 0 := by
  cases level <;> cases other <;> rfl

theorem increment_eq_succ (h : l.get level < u64Max) : l.increment level = l.succ level := by
  cases level with
  | off => rfl
  | normal =>
    unfold increment succ
    rw [saturatingAdd_of_le (show l.normal + 1 ≤ u64Max from h)]
  | debug =>
    unfold increment succ
    rw [saturatingAdd_of_le (show l.debug + 1 ≤ u64Max from h)]

theorem saturatingSum_get {l' : DiagnosticLosses} (h : l.get level + l'.get level ≤ u64Max) :
    (l.saturatingSum l').get level = l.get level + l'.get level := by
  cases level with
  | off => rfl
  | normal => exact saturatingAdd_of_le h
  | debug => exact saturatingAdd_of_le h

theorem eq_none_of_sum {l' : DiagnosticLosses} (h : (l.saturatingSum l').isEmpty = true) :
    l = none := by
  have hmax : 0 < u64Max := by decide
  unfold isEmpty saturatingSum saturatingAdd at h
  rw [Bool.and_eq_true, beq_iff_eq, beq_iff_eq] at h
  cases l with
  | mk normal debug =>
    have hnormal : normal = 0 := by
      have hzero := h.1
      dsimp only at hzero
      omega
    have hdebug : debug = 0 := by
      have hzero := h.2
      dsimp only at hzero
      omega
    rw [hnormal, hdebug]
    rfl

end DiagnosticLosses

/-! ### Losses counted by producers -/

def lossAdmissionSealed : ℕ := 1 <<< 63

def pendingLossMask : ℕ := lossAdmissionSealed - 1

namespace LossWord

/-- `fetch_update` of `count_loss`. -/
def countLoss (w : ℕ) : ℕ := if w < pendingLossMask then w + 1 else w

def pack (fenced : Bool) (count : ℕ) : ℕ := (if fenced then lossAdmissionSealed else 0) + count

theorem sealed_eq : lossAdmissionSealed = 2 ^ 63 := by decide

theorem mask_eq : pendingLossMask = 2 ^ 63 - 1 := by decide

variable {fenced : Bool} {count : ℕ}

theorem countLoss_pack (h : count < pendingLossMask) :
    countLoss (pack false count) = pack false (count + 1) := by
  unfold countLoss pack
  simp only [Bool.false_eq_true, if_false, Nat.zero_add]
  rw [if_pos h]

theorem countLoss_fenced : countLoss (pack true count) = pack true count := by
  unfold countLoss pack
  rw [mask_eq, sealed_eq, if_pos rfl, if_neg (by omega)]

theorem drain_pack (h : count ≤ pendingLossMask) :
    pack fenced count &&& lossAdmissionSealed = pack fenced 0 := by
  have hlt : count < 2 ^ 63 := by
    rw [mask_eq] at h
    omega
  unfold pack
  rw [sealed_eq, Nat.and_two_pow]
  cases fenced with
  | false => simp [Nat.testBit_lt_two_pow hlt]
  | true =>
    rw [if_pos rfl, Nat.testBit_two_pow_add_eq, Nat.testBit_lt_two_pow hlt]
    rfl

theorem taken_pack (h : count ≤ pendingLossMask) : pack fenced count &&& pendingLossMask = count := by
  have hlt : count < 2 ^ 63 := by
    rw [mask_eq] at h
    omega
  unfold pack
  rw [mask_eq, sealed_eq, Nat.and_two_pow_sub_one_eq_mod]
  cases fenced with
  | false => simpa using Nat.mod_eq_of_lt hlt
  | true => simpa using Nat.mod_eq_of_lt hlt

theorem seal_pack (h : count ≤ pendingLossMask) :
    pack fenced count ||| lossAdmissionSealed = pack true count := by
  have hlt : count < 2 ^ 63 := by
    rw [mask_eq] at h
    omega
  have hor : 2 ^ 63 + count = 2 ^ 63 ||| count := by
    have hsplit := Nat.two_pow_add_eq_or_of_lt hlt 1
    rwa [Nat.mul_one] at hsplit
  unfold pack
  rw [sealed_eq, if_pos rfl, hor]
  cases fenced with
  | false =>
    rw [if_neg Bool.false_ne_true, Nat.zero_add]
    exact Nat.or_comm count (2 ^ 63)
  | true =>
    rw [if_pos rfl, hor, Nat.or_comm (2 ^ 63) count, Nat.or_assoc, Nat.or_self]

end LossWord

end MadoPilot.Diagnostic
