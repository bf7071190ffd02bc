import Mathlib.Logic.Function.Basic
import Mathlib.Tactic.Common

/-!
# A result computed by one thread at a time

Threads share a cell that holds a result once one of them has computed it.  A flag says that a
computation is under way; whoever sets it clears it again, with a result or without one.

* `Flight.Move` : what a thread may do to the cell;
* `Flight.Fits` : the flag and the cell describe the threads that compute;
* `Fits.move`, `Fits.cached` : a move keeps that, and a result that is there.
-/

namespace MadoPilot.Lib

variable {τ α : Type*}

/-- The flag and the cell. -/
structure Flight (α : Type*) where
  active : Bool
  cached : Option α

namespace Flight

/-- What a thread may do to the cell, and whether it computes before and after. -/
inductive Move : Flight α → Bool → Flight α → Bool → Prop
  | stay (f : Flight α) (b : Bool) : Move f b f b
  | takeOff {f : Flight α} :
      f.active = false → f.cached = none → Move f false { f with active := true } true
  | land (f : Flight α) (result : Option α) : Move f true ⟨false, result⟩ false

/-- The cell describes the threads. -/
structure Fits (f : Flight α) (flying : τ → Bool) : Prop where
  active : f.active = true ↔ ∃ t, flying t = true
  unique : ∀ t u, flying t = true → flying u = true → t = u
  empty : f.active = true → f.cached = none

namespace Fits

variable {f f' : Flight α} {flying : τ → Bool} {t : τ} {b : Bool} {a : α}

theorem start : Fits (⟨false, none⟩ : Flight α) fun _ : τ => false :=
  ⟨by simp, fun _ _ h => absurd h (by simp), fun _ => rfl⟩

theorem active_of (h : f.Fits flying) (ht : flying t = true) : f.active = true :=
  h.active.mpr ⟨t, ht⟩

theorem empty_of (h : f.Fits flying) (ht : flying t = true) : f.cached = none :=
  h.empty (h.active_of ht)

theorem grounded (h : f.Fits flying) (hc : f.cached = some a) (t : τ) : flying t = false := by
  by_contra hne
  have ht : flying t = true := by simpa using hne
  rw [h.empty_of ht] at hc
  cases hc

theorem cached (h : f.Fits flying) (hm : Move f (flying t) f' b) (hc : f.cached = some a) :
    f'.cached = some a := by
  have hground := h.grounded hc t
  rw [hground] at hm
  cases hm with
  | stay => exact hc
  | takeOff _ hn =>
    rw [hn] at hc
    cases hc

variable [DecidableEq τ]

theorem move (h : f.Fits flying) (hm : Move f (flying t) f' b) :
    f'.Fits (Function.update flying t b) := by
  generalize hp : flying t = p at hm
  cases hm with
  | stay =>
    rw [← hp, Function.update_eq_self]
    exact h
  | takeOff hactive hcached =>
    have hnone : ∀ u, flying u = false := fun u => by
      by_contra hne
      have hu := h.active_of (t := u) (by simpa using hne)
      rw [hactive] at hu
      cases hu
    refine ⟨iff_of_true rfl ⟨t, Function.update_self ..⟩, fun u v hu hv => ?_, fun _ => hcached⟩
    have hat : ∀ x, Function.update flying t true x = true → x = t := by
      intro x hx
      by_contra hxt
      rw [Function.update_of_ne hxt, hnone x] at hx
      cases hx
    rw [hat u hu, hat v hv]
  | land result =>
    have hnone : ∀ u, Function.update flying t false u = false := by
      intro u
      by_cases hu : u = t
      · rw [hu, Function.update_self]
      · rw [Function.update_of_ne hu]
        by_contra hne
        exact hu (h.unique u t (by simpa using hne) hp)
    refine ⟨iff_of_false (by simp) ?_, fun u _ hu => ?_, fun hc => by cases hc⟩
    · rintro ⟨u, hu⟩
      rw [hnone u] at hu
      cases hu
    · rw [hnone u] at hu
      cases hu

end Fits

end Flight

end MadoPilot.Lib
