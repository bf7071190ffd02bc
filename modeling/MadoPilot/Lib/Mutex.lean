import MadoPilot.Lib.Threads

/-!
# A mutex

Threads share a mutex, known by its holder.  A thread that holds it knows so by its place.

* `Mutex.Move` : what a thread may do to the mutex;
* `Mutex.Fits` : the mutex describes the threads, and every move keeps that;
* `Mutex.reachable` : it describes them in every reachable state;
* `Mutex.Counted` : the same where a thread knows by how many of its places hold the mutex.
-/

namespace MadoPilot.Lib.Mutex

variable {τ : Type*}

/-- What the thread `t` may do to the mutex, and whether it holds it before and after. -/
inductive Move (t : τ) : Option τ → Bool → Option τ → Bool → Prop
  | stay (holder : Option τ) (b : Bool) : Move t holder b holder b
  | lock : Move t none false (some t) true
  | unlock (holder : Option τ) : Move t holder true none false

def Fits (holder : Option τ) (holds : τ → Bool) : Prop := ∀ t, holds t = true ↔ holder = some t

namespace Fits

variable {holder holder' : Option τ} {holds : τ → Bool} {t u : τ} {b : Bool}

theorem start : Fits (none : Option τ) fun _ => false := fun _ => iff_of_false nofun nofun

theorem unique (h : Fits holder holds) (ht : holds t = true) (hu : holds u = true) : t = u := by
  have h₁ := (h t).mp ht
  have h₂ := (h u).mp hu
  exact Option.some.inj (h₁.symm.trans h₂)

theorem free (h : Fits holder holds) (hfree : holder = none) (t : τ) : holds t = false := by
  by_contra hne
  have ht := (h t).mp (by simpa using hne)
  rw [hfree] at ht
  cases ht

theorem move [DecidableEq τ] (h : Fits holder holds) (hm : Move t holder (holds t) holder' b) :
    Fits holder' (Function.update holds t b) := by
  generalize hp : holds t = p at hm
  intro u
  cases hm with
  | stay =>
    rw [← hp, Function.update_eq_self]
    exact h u
  | lock =>
    by_cases hu : u = t
    · subst hu
      rw [Function.update_self]
      exact iff_of_true rfl rfl
    · rw [Function.update_of_ne hu, h.free rfl u]
      refine iff_of_false Bool.false_ne_true fun hsome => hu ?_
      exact (Option.some.inj hsome).symm
  | unlock =>
    by_cases hu : u = t
    · subst hu
      rw [Function.update_self]
      exact iff_of_false Bool.false_ne_true nofun
    · rw [Function.update_of_ne hu]
      refine iff_of_false (fun hb => hu (h.unique hb hp)) nofun

end Fits

theorem Fits.step {σ κ : Type*} [DecidableEq τ] {w : World τ σ κ} {t : τ} {s' : σ} {pc' : κ}
    {f : σ → Option τ} {b : κ → Bool} (h : Fits (f w.shared) fun u => b (w.pc u))
    (hm : Move t (f w.shared) (b (w.pc t)) (f s') (b pc')) :
    Fits (f (w.move t s' pc').shared) fun u => b ((w.move t s' pc').pc u) := by
  have hsame : (fun u => b ((w.move t s' pc').pc u)) =
      Function.update (fun u => b (w.pc u)) t (b pc') := Function.comp_update b w.pc t pc'
  rw [hsame]
  exact h.move hm

theorem reachable {σ κ ε : Type*} [DecidableEq τ] {act : τ → σ → κ → ε → σ → κ → Prop}
    {start w : World τ σ κ} {f : σ → Option τ} {b : κ → Bool}
    (h₀ : Fits (f start.shared) fun u => b (start.pc u))
    (hm : ∀ t s pc e s' pc', act t s pc e s' pc' → Move t (f s) (b pc) (f s') (b pc'))
    (hw : (threads act start).Reachable w) : Fits (f w.shared) fun u => b (w.pc u) :=
  threads_invariant (P := fun w => Fits (f w.shared) fun u => b (w.pc u)) h₀
    (fun _ _ _ _ _ _ hfits ha => hfits.step (hm _ _ _ _ _ _ ha)) hw

/-! ### Holding, counted -/

/-- The mutex describes the threads: its holder has one place that holds it, and nobody else has
one. -/
def Counted (holder : Option τ) (count : τ → ℕ) : Prop :=
  ∀ t, holder = some t ∧ count t = 1 ∨ holder ≠ some t ∧ count t = 0

/-- What the thread `t` may do to the mutex, and how many of its places hold it before and after. -/
inductive CountedMove (t : τ) : Option τ → ℕ → Option τ → ℕ → Prop
  | stay (holder : Option τ) (n : ℕ) : CountedMove t holder n holder n
  | lock (n : ℕ) : CountedMove t none n (some t) (n + 1)
  | unlock (holder : Option τ) (n : ℕ) : CountedMove t holder (n + 1) none n

namespace Counted

variable {holder holder' : Option τ} {count : τ → ℕ} {t u : τ} {n : ℕ}

theorem holds (h : Counted holder count) (ht : count t ≠ 0) : holder = some t := by
  rcases h t with ⟨hsome, -⟩ | ⟨-, hzero⟩
  · exact hsome
  · exact absurd hzero ht

theorem unique (h : Counted holder count) (ht : count t ≠ 0) (hu : count u ≠ 0) : t = u := by
  have h₁ := h.holds ht
  have h₂ := h.holds hu
  exact Option.some.inj (h₁.symm.trans h₂)

theorem free (h : Counted holder count) (hfree : holder = none) (t : τ) : count t = 0 := by
  rcases h t with ⟨hsome, -⟩ | ⟨-, hzero⟩
  · rw [hfree] at hsome
    cases hsome
  · exact hzero

theorem move [DecidableEq τ] (h : Counted holder count)
    (hm : CountedMove t holder (count t) holder' n) :
    Counted holder' (Function.update count t n) := by
  generalize hp : count t = m at hm
  intro u
  cases hm with
  | stay =>
    rw [← hp, Function.update_eq_self]
    exact h u
  | lock =>
    have hzero := h.free rfl
    by_cases hu : u = t
    · subst hu
      rw [Function.update_self, ← hp, hzero u]
      exact Or.inl ⟨rfl, rfl⟩
    · rw [Function.update_of_ne hu, hzero u]
      exact Or.inr ⟨fun hsome => hu (Option.some.inj hsome).symm, rfl⟩
  | unlock =>
    refine Or.inr ⟨nofun, ?_⟩
    by_cases hu : u = t
    · subst hu
      rw [Function.update_self]
      rcases h u with ⟨-, hone⟩ | ⟨-, hzero⟩ <;> omega
    · rw [Function.update_of_ne hu]
      by_contra hne
      have hpos : count t ≠ 0 := by omega
      exact hu (h.unique hne hpos)

end Counted

end MadoPilot.Lib.Mutex
