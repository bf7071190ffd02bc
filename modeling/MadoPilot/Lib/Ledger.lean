import Mathlib.Data.List.Nodup

/-!
# Accounts of items that are taken in and written off

A component takes items in, holds some of them and writes the others off.  In its *accounts* the
items taken in are those held and those written off, each once; an item that is written off while it
is still held is booked apart, as *early*.

* `Accounts.step` : what one step books, the accounts of a run book;
* `Accounts.once_iff` : every item is held or written off, once, exactly when none was written off
  early.
-/

namespace MadoPilot.Lib

variable {α : Type*}

/-- The items taken in, and those written off early once more, are those held and those written
off. -/
def Accounts (taken early held off : List α) : Prop := (taken ++ early).Perm (held ++ off)

namespace Accounts

variable {taken early held held' off taken' early' off' : List α}

theorem start : Accounts ([] : List α) [] [] [] := .refl _

/-- A step takes `taken'` in, writes `off'` off, `early'` of them early, and goes from holding `held`
to holding `held'`. -/
theorem step (h : Accounts taken early held off)
    (hs : (held ++ taken' ++ early').Perm (held' ++ off')) :
    Accounts (taken ++ taken') (early ++ early') held' (off ++ off') := by
  classical
  unfold Accounts at *
  rw [List.perm_iff_count] at *
  intro a
  have h₁ := h a
  have h₂ := hs a
  simp only [List.count_append] at *
  omega

theorem length (h : Accounts taken early held off) :
    taken.length + early.length = held.length + off.length := by
  have hlen := List.Perm.length_eq h
  simpa only [List.length_append] using hlen

variable [DecidableEq α]

/-- **Each item once.**  Where different items are taken in, each is held or written off exactly once
if and only if none was written off early. -/
theorem once_iff (h : Accounts taken early held off) (hnodup : taken.Nodup)
    (hearly : ∀ x ∈ early, x ∈ taken) :
    (∀ x ∈ taken, (held ++ off).count x = 1) ↔ early = [] := by
  have hcount : ∀ x ∈ taken, (held ++ off).count x = 1 + early.count x := by
    intro x hx
    have hx' := (List.perm_iff_count.mp h) x
    rw [List.count_append, List.count_eq_one_of_mem hnodup hx] at hx'
    exact hx'.symm
  constructor
  · intro honce
    rw [List.eq_nil_iff_forall_not_mem]
    intro x hx
    have h₁ := honce x (hearly x hx)
    have h₂ := hcount x (hearly x hx)
    have h₃ := List.count_pos_iff.mpr hx
    omega
  · rintro rfl x hx
    rw [hcount x hx, List.count_nil]

end Accounts

end MadoPilot.Lib
