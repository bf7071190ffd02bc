import Mathlib.Data.List.Basic

/-!
# Bounded work lists

A list of fallible actions carried out in order under a count bound and a check before each of
them: the run ends at the end of the list, at a bound, or at the first action that is refused.

* `Worklist.run` carries the list out, and says how many actions succeeded and why it stopped;
* `Script` is what an environment answers, one check and one action at a time;
* `Script.Plays.run_ended` says what a run against a script does, and `Ended.stop_bound`,
  `Ended.stop_refused` read the reason of its end off the script.
-/

namespace MadoPilot.Lib

/-- Why a run ended before its list did. -/
inductive Stop (φ : Type*) where
  | bound
  | refused (fault : φ)
  deriving DecidableEq

variable {X α ι φ : Type*}

namespace Worklist

section Run

variable (bound : ℕ) (check : X → Option ι × X) (act : α → X → Except φ Unit × X)

/-- The run over a list of actions, from the count `n` on. -/
def run : List α → ℕ → X → (ℕ × Option (Stop φ)) × X
  | [], n, x => ((n, none), x)
  | a :: as, n, x =>
    if bound ≤ n then ((n, some .bound), x)
    else
      match check x with
      | (some _, x) => ((n, some .bound), x)
      | (none, x) =>
        match act a x with
        | (.error fault, x) => ((n, some (.refused fault)), x)
        | (.ok (), x) => run as (n + 1) x

variable {bound check act} {a : α} {as : List α} {n : ℕ} {i : ι} {fault : φ} {x y z : X}

lemma run_of_bound (h : bound ≤ n) : run bound check act (a :: as) n x = ((n, some .bound), x) := by
  rw [run, if_pos h]

lemma run_of_check (h : n < bound) (hcheck : check x = (some i, y)) :
    run bound check act (a :: as) n x = ((n, some .bound), y) := by
  rw [run, if_neg (by omega), hcheck]

lemma run_of_refused (h : n < bound) (hcheck : check x = (none, y))
    (hact : act a y = (.error fault, z)) :
    run bound check act (a :: as) n x = ((n, some (.refused fault)), z) := by
  rw [run, if_neg (by omega), hcheck]
  simp only [hact]

lemma run_of_ok (h : n < bound) (hcheck : check x = (none, y)) (hact : act a y = (.ok (), z)) :
    run bound check act (a :: as) n x = run bound check act as (n + 1) z := by
  rw [run, if_neg (by omega), hcheck]
  simp only [hact]

lemma run_map {β : Type*} (f : β → α) (bs : List β) (n : ℕ) (x : X) :
    run bound check (fun b => act (f b)) bs n x = run bound check act (bs.map f) n x := by
  induction bs generalizing n x with
  | nil => rfl
  | cons b bs ih =>
    simp only [run, List.map_cons, ih]

lemma run_preserves {P : X → Prop} (hcheck : ∀ x, P x → P (check x).2)
    (hact : ∀ a x, P x → P (act a x).2) (as : List α) (n : ℕ) (x : X) (hx : P x) :
    P (run bound check act as n x).2 := by
  induction as generalizing n x with
  | nil => exact hx
  | cons a as ih =>
    by_cases h : bound ≤ n
    · rw [run_of_bound h]
      exact hx
    have hy := hcheck x hx
    rcases hcx : check x with ⟨i, y⟩
    rw [hcx] at hy
    cases i with
    | some i =>
      rw [run_of_check (by omega) hcx]
      exact hy
    | none =>
      have hz := hact a y hy
      rcases hay : act a y with ⟨r, z⟩
      rw [hay] at hz
      cases r with
      | error fault =>
        rw [run_of_refused (by omega) hcx hay]
        exact hz
      | ok u =>
        rw [run_of_ok (by omega) hcx hay]
        exact ih (n + 1) z hz

variable (bound) in
lemma run_project {Y : Type*} (f : X → Y) {check' : Y → Option ι × Y}
    {act' : α → Y → Except φ Unit × Y} (hcheck : ∀ x, check' (f x) = ((check x).1, f (check x).2))
    (hact : ∀ a x, act' a (f x) = ((act a x).1, f (act a x).2)) (as : List α) (n : ℕ) (x : X) :
    run bound check' act' as n (f x) =
      ((run bound check act as n x).1, f (run bound check act as n x).2) := by
  induction as generalizing n x with
  | nil => rfl
  | cons a as ih =>
    by_cases h : bound ≤ n
    · rw [run_of_bound h, run_of_bound h]
    have hc := hcheck x
    rcases hx : check x with ⟨i, y⟩
    rw [hx] at hc
    cases i with
    | some i => rw [run_of_check (by omega) hc, run_of_check (by omega) hx]
    | none =>
      have ha := hact a y
      rcases hy : act a y with ⟨r, z⟩
      rw [hy] at ha
      cases r with
      | error fault => rw [run_of_refused (by omega) hc ha, run_of_refused (by omega) hx hy]
      | ok u =>
        rw [run_of_ok (by omega) hc ha, run_of_ok (by omega) hx hy]
        exact ih (n + 1) z

end Run

end Worklist

/-- What an environment answers: at each position, whether the check stops the run, and what the
action returns. -/
structure Script (φ : Type*) where
  expired : ℕ → Bool
  result : ℕ → Except φ Unit

namespace Script

variable (t : Script φ) (bound : ℕ)

/-- The run passes position `k`. -/
def Clear (k : ℕ) : Prop := k < bound ∧ t.expired k = false ∧ t.result k = .ok ()

/-- The count or the check stops the run at position `k`. -/
def BoundAt (k : ℕ) : Prop := bound ≤ k ∨ t.expired k = true

/-- The action at position `k` is carried out and refused. -/
def RefusedAt (k : ℕ) (fault : φ) : Prop :=
  k < bound ∧ t.expired k = false ∧ t.result k = .error fault

/-- The run over `total` actions comes to position `k`. -/
def ComesTo (total k : ℕ) : Prop := k < total ∧ ∀ j < k, t.Clear bound j

variable {t bound} {k : ℕ} {fault fault' : φ}

lemma BoundAt.not_clear (h : t.BoundAt bound k) : ¬ t.Clear bound k := by
  rintro ⟨hlt, hexpired, -⟩
  rcases h with h | h
  · omega
  · rw [hexpired] at h
    cases h

lemma RefusedAt.not_clear (h : t.RefusedAt bound k fault) : ¬ t.Clear bound k := by
  rintro ⟨-, -, hok⟩
  rw [h.2.2] at hok
  cases hok

lemma RefusedAt.not_boundAt (h : t.RefusedAt bound k fault) : ¬ t.BoundAt bound k := by
  rintro (h' | h')
  · have := h.1
    omega
  · rw [h.2.1] at h'
    cases h'

lemma RefusedAt.unique (h : t.RefusedAt bound k fault) (h' : t.RefusedAt bound k fault') :
    fault = fault' := by
  have h₁ := h.2.2
  rw [h'.2.2] at h₁
  cases h₁
  rfl

lemma ComesTo.unique {total k' : ℕ} (h : t.ComesTo bound total k) (h' : t.ComesTo bound total k')
    (hclear : ¬ t.Clear bound k) (hclear' : ¬ t.Clear bound k') : k = k' := by
  rcases Nat.lt_trichotomy k k' with hlt | heq | hlt
  · exact absurd (h'.2 k hlt) hclear
  · exact heq
  · exact absurd (h.2 k' hlt) hclear'

/-- **How a run against a script ended**, after `n` actions that succeeded and the tries `tried`. -/
structure Ended (t : Script φ) (bound : ℕ) (as : List α) (n : ℕ) (stop : Option (Stop φ))
    (tried : List α) : Prop where
  count_le : n ≤ as.length
  clear : ∀ j < n, t.Clear bound j
  tried_eq : tried = as.take tried.length
  tried_ge : n ≤ tried.length
  tried_le : tried.length ≤ n + 1
  tried_bound : tried.length ≤ bound
  stopped : match stop with
    | none => n = as.length
    | some .bound => n < as.length ∧ t.BoundAt bound n
    | some (.refused fault) => n < as.length ∧ t.RefusedAt bound n fault

namespace Ended

variable {as tried : List α} {n : ℕ} {stop : Option (Stop φ)}

lemma eq_of_comesTo (h : Ended t bound as n stop tried) (hk : t.ComesTo bound as.length k)
    (hclear : ¬ t.Clear bound k) : n = k := by
  have hle : n ≤ k := by
    by_contra hlt
    exact hclear (h.clear k (by omega))
  by_contra hne
  have hn : t.Clear bound n := hk.2 n (by omega)
  have hlt : n < as.length := by
    have := hk.1
    omega
  have hstop := h.stopped
  cases stop with
  | none => simp only at hstop; omega
  | some stop =>
    cases stop with
    | bound => exact hstop.2.not_clear hn
    | refused fault => exact hstop.2.not_clear hn

theorem stop_bound (h : Ended t bound as n stop tried) :
    stop = some .bound ↔ ∃ k, t.ComesTo bound as.length k ∧ t.BoundAt bound k := by
  constructor
  · rintro rfl
    exact ⟨n, ⟨h.stopped.1, h.clear⟩, h.stopped.2⟩
  · rintro ⟨k, hk, hbound⟩
    obtain rfl := h.eq_of_comesTo hk hbound.not_clear
    have hstop := h.stopped
    cases stop with
    | none =>
      have := hk.1
      simp only at hstop
      omega
    | some stop =>
      cases stop with
      | bound => rfl
      | refused fault => exact absurd hbound hstop.2.not_boundAt

theorem stop_refused (h : Ended t bound as n stop tried) (fault : φ) :
    stop = some (.refused fault) ↔
      ∃ k, t.ComesTo bound as.length k ∧ t.RefusedAt bound k fault := by
  constructor
  · rintro rfl
    exact ⟨n, ⟨h.stopped.1, h.clear⟩, h.stopped.2⟩
  · rintro ⟨k, hk, hrefused⟩
    obtain rfl := h.eq_of_comesTo hk hrefused.not_clear
    have hstop := h.stopped
    cases stop with
    | none =>
      have := hk.1
      simp only at hstop
      omega
    | some stop =>
      cases stop with
      | bound => exact absurd hstop.2 hrefused.not_boundAt
      | refused fault' => rw [hstop.2.unique hrefused]

theorem count_lt (h : Ended t bound as n stop tried) : stop ≠ none ↔ n < as.length := by
  have hstop := h.stopped
  cases stop with
  | none =>
    simp only at hstop
    simp [hstop]
  | some stop =>
    cases stop with
    | bound => simp [hstop.1]
    | refused fault => simp [hstop.1]

end Ended

section Intro

variable {as done : List α} {a : α}

lemma Ended.of_bound (hdone : done.length ≤ bound) (hclear : ∀ j < done.length, t.Clear bound j)
    (h : t.BoundAt bound done.length) :
    Ended t bound (done ++ a :: as) done.length (some .bound) done := by
  have hlt : done.length < (done ++ a :: as).length := by simp
  exact ⟨by omega, hclear, by simp, by omega, by omega, hdone, hlt, h⟩

lemma Ended.of_refused (hclear : ∀ j < done.length, t.Clear bound j)
    (h : t.RefusedAt bound done.length fault) :
    Ended t bound (done ++ a :: as) done.length (some (.refused fault)) (done ++ [a]) := by
  have hlt : done.length < (done ++ a :: as).length := by simp
  have hlen : (done ++ [a]).length = done.length + 1 := by simp
  have hbound := h.1
  refine ⟨by omega, hclear, ?_, by omega, by omega, by omega, hlt, h⟩
  rw [hlen, List.take_length_add_append]
  simp

end Intro

/-- An environment that plays a script: its answers are the script's at the position its log has
reached, and each action it carries out is added to the log. -/
structure Plays (t : Script φ) (check : X → Option ι × X) (act : α → X → Except φ Unit × X)
    (log : X → List α) (ready : X → Prop) : Prop where
  check_isSome : ∀ x, ready x → (check x).1.isSome = t.expired (log x).length
  check_log : ∀ x, log (check x).2 = log x
  act_result : ∀ a x, (act a x).1 = t.result (log x).length
  act_log : ∀ a x, log (act a x).2 = log x ++ [a]
  ready_next : ∀ a x, ready x → ready (act a (check x).2).2

variable {check : X → Option ι × X} {act : α → X → Except φ Unit × X} {log : X → List α}
  {ready : X → Prop}

lemma Plays.run_ended_from (h : t.Plays check act log ready) (as done : List α) (x : X)
    (hx : ready x) (hlog : log x = done) (hclear : ∀ j < done.length, t.Clear bound j)
    (hdone : done.length ≤ bound) :
    Ended t bound (done ++ as) (Worklist.run bound check act as done.length x).1.1
      (Worklist.run bound check act as done.length x).1.2
      (log (Worklist.run bound check act as done.length x).2) := by
  induction as generalizing done x with
  | nil =>
    rw [Worklist.run, List.append_nil, hlog]
    exact ⟨Nat.le_refl _, hclear, by simp, Nat.le_refl _, Nat.le_succ _, hdone, rfl⟩
  | cons a as ih =>
    by_cases hbound : bound ≤ done.length
    · rw [Worklist.run_of_bound hbound, hlog]
      exact .of_bound hdone hclear (Or.inl hbound)
    have hsome := h.check_isSome x hx
    have hlog' := h.check_log x
    have hnext := h.ready_next a x hx
    rw [hlog] at hsome hlog'
    rcases hcheck : check x with ⟨i, y⟩
    rw [hcheck] at hsome hlog' hnext
    cases i with
    | some i =>
      rw [Worklist.run_of_check (by omega) hcheck]
      simp only at hlog' ⊢
      rw [hlog']
      exact .of_bound hdone hclear (Or.inr hsome.symm)
    | none =>
      have hresult := h.act_result a y
      have hadd := h.act_log a y
      simp only at hlog' hnext
      rw [hlog'] at hresult hadd
      rcases hact : act a y with ⟨r, z⟩
      rw [hact] at hresult hadd hnext
      simp only at hresult hadd hnext
      cases r with
      | error fault =>
        rw [Worklist.run_of_refused (by omega) hcheck hact]
        simp only
        rw [hadd]
        exact .of_refused hclear ⟨by omega, hsome.symm, hresult.symm⟩
      | ok u =>
        have hlen : (done ++ [a]).length = done.length + 1 := by simp
        have hstep : ∀ j < (done ++ [a]).length, t.Clear bound j := by
          intro j hj
          rw [hlen] at hj
          rcases Nat.lt_succ_iff_lt_or_eq.mp hj with hj | rfl
          · exact hclear j hj
          · exact ⟨by omega, hsome.symm, hresult.symm⟩
        have hrest := ih (done ++ [a]) z hnext hadd hstep (by omega)
        rw [hlen, List.append_assoc] at hrest
        rw [Worklist.run_of_ok (by omega) hcheck hact]
        exact hrest

/-- **A run against a script**: it passes the positions that the script clears, in the order of the
list and never more of them than the bound, and ends at the first one that is not clear. -/
theorem Plays.run_ended (h : t.Plays check act log ready) (as : List α) (x : X) (hx : ready x)
    (hlog : log x = []) :
    Ended t bound as (Worklist.run bound check act as 0 x).1.1
      (Worklist.run bound check act as 0 x).1.2 (log (Worklist.run bound check act as 0 x).2) :=
  h.run_ended_from as [] x hx hlog (by simp) (Nat.zero_le _)

end Script

end MadoPilot.Lib
