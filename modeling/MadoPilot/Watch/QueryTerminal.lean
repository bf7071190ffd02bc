import MadoPilot.Lib.Census
import MadoPilot.Watch.QueryMoves

/-!
# The terminal outcome of a query

However the calls of any number of threads interleave, a query gets at most one outcome, keeps it,
counts no work after it, and runs the hook of its commit once.

* `query_once` is the invariant: the outcomes committed, the hooks run and the threads that still
  owe a hook agree;
* `terminal_kept` is what a commit freezes;
* `query_terminal_once` is the result.
-/

namespace MadoPilot.Watch

open MadoPilot.Core MadoPilot.Lib

variable {τ : Type*} {R : Type}

/-- **The outcome and its hook**: there is at most one commit, the outcome is the one committed, and
each commit has had its hook or has one thread that owes it. -/
structure Once (w : QueryWorld τ R) : Prop where
  commits_le : w.shared.commits.length ≤ 1
  terminal_eq : w.shared.data.terminal = w.shared.commits.head?
  hooks : ∃ owed, Census (fun t => w.pc t = .committed) owed ∧
    w.shared.hookRuns + owed = w.shared.commits.length

lemma Once.start : Once (QueryWorld.start τ R) where
  commits_le := Nat.zero_le _
  terminal_eq := rfl
  hooks := ⟨0, Census.zero fun _ => by simp [QueryWorld.start], rfl⟩

variable [DecidableEq τ] {q : QueryShared}

lemma Once.turn {w : QueryWorld τ R} (hw : Once w) (t : τ) {s' : Desk R} {pc' : Pc R}
    (h : Turn w.shared (w.pc t) s' pc') : Once (w.move t s' pc') := by
  obtain ⟨owed, hcensus, hsum⟩ := hw.hooks
  cases h with
  | quiet hterminal hcommits hruns hpc hpc' =>
    refine ⟨?_, ?_, owed, hcensus.stay (P := (· = Pc.committed)) (iff_of_false hpc' hpc), ?_⟩
    · rw [World.move_shared, hcommits]
      exact hw.commits_le
    · rw [World.move_shared, hterminal, hcommits]
      exact hw.terminal_eq
    · rw [World.move_shared, hruns, hcommits]
      exact hsum
  | commit o hnone hterminal hcommits hruns hpc hpc' =>
    have hempty : w.shared.commits = [] := by
      have hhead := hw.terminal_eq
      rw [hnone] at hhead
      exact List.head?_eq_none_iff.mp hhead.symm
    rw [hempty] at hcommits hsum
    refine ⟨?_, ?_, owed + 1, hcensus.enter (P := (· = Pc.committed)) hpc hpc', ?_⟩
    · rw [World.move_shared, hcommits]
      exact Nat.le_refl 1
    · rw [World.move_shared, hterminal, hcommits]
      rfl
    · rw [World.move_shared, hruns, hcommits, ← Nat.add_assoc, hsum]
      rfl
  | hook hpc hpc' hs =>
    subst hs
    have hpos : 0 < owed := hcensus.pos (t := t) hpc
    have hleft : pc' ≠ .committed := by
      rw [hpc']
      simp
    refine ⟨hw.commits_le, hw.terminal_eq, owed - 1,
      hcensus.leave (P := (· = Pc.committed)) hpc hleft, ?_⟩
    show w.shared.hookRuns + 1 + (owed - 1) = w.shared.commits.length
    omega

theorem query_once {w : QueryWorld τ R} (hw : (querySystem τ R q).Reachable w) : Once w := by
  refine threads_invariant .start ?_ hw
  intro w t e s' pc' _ hw hact
  obtain ⟨entry, hstep⟩ := perform_step hact
  exact hw.turn t hstep.turn

theorem terminal_kept {w w' : QueryWorld τ R} (hw : (querySystem τ R q).Reachable w)
    (h : (querySystem τ R q).Leads w w') {o : TemplateTerminalOutcome R}
    (ho : w.shared.data.terminal = some o) :
    w'.shared.data.terminal = some o ∧ w'.shared.data.work = w.shared.data.work := by
  refine h.preserves (P := fun v => v.shared.data.terminal = some o ∧
    v.shared.data.work = w.shared.data.work) ?_ hw ⟨ho, rfl⟩
  rintro v ⟨t, e⟩ v' - ⟨hterminal, hwork⟩ ⟨s', pc', hact, rfl⟩
  obtain ⟨entry, hstep⟩ := perform_step hact
  have hfrozen := hstep.sec.frozen (by rw [hterminal]; rfl)
  exact ⟨hstep.turn.keeps hterminal, hfrozen.trans hwork⟩

lemma committed_step {w w' : QueryWorld τ R} {t : τ} {e : Event R} (hpc : w.pc t = .committed)
    (h : (querySystem τ R q).step w (t, e) w') :
    e = .afterTerminalCommit ∧ w'.shared.hookRuns = w.shared.hookRuns + 1 := by
  obtain ⟨s', pc', hact, rfl⟩ := h
  unfold QueryAct at hact
  rw [hpc] at hact
  cases e <;> simp only [perform, reduceCtorEq, Option.some.injEq, Prod.mk.injEq] at hact
  obtain ⟨rfl, rfl⟩ := hact
  exact ⟨rfl, rfl⟩

/-- What a query with an outcome says of its hook: it has run and nobody owes it, or one thread owes
it and, when it goes on, runs it. -/
def HookOnce (q : QueryShared) (w : QueryWorld τ R) : Prop :=
  (w.shared.hookRuns = 1 ∧ ∀ t, w.pc t ≠ .committed) ∨
  (w.shared.hookRuns = 0 ∧ ∃ t, (∀ u, w.pc u = .committed ↔ u = t) ∧
    (∃ w', (querySystem τ R q).step w (t, .afterTerminalCommit) w') ∧
    ∀ e w', (querySystem τ R q).step w (t, e) w' → w'.shared.hookRuns = 1)

lemma Once.hookOnce {w : QueryWorld τ R} (hw : Once w)
    (hterminal : w.shared.data.terminal.isSome = true) : HookOnce q w := by
  obtain ⟨owed, hcensus, hsum⟩ := hw.hooks
  have hone : w.shared.commits.length = 1 := by
    have hle := hw.commits_le
    rw [hw.terminal_eq] at hterminal
    cases hc : w.shared.commits with
    | nil =>
      rw [hc] at hterminal
      cases hterminal
    | cons o commits =>
      rw [hc, List.length_cons] at hle
      rw [List.length_cons]
      omega
  rw [hone] at hsum
  by_cases howed : owed = 0
  · refine Or.inl ⟨by omega, ?_⟩
    exact hcensus.eq_zero_iff.mp howed
  · have hruns : w.shared.hookRuns = 0 := by omega
    obtain ⟨t, ht⟩ := hcensus.exists_of_pos (Nat.pos_of_ne_zero howed)
    refine Or.inr ⟨hruns, t, ?_, ?_, ?_⟩
    · intro u
      constructor
      · exact fun hu => hcensus.unique (by omega) hu ht
      · rintro rfl
        exact ht
    · refine ⟨_, { w.shared with hookRuns := w.shared.hookRuns + 1 }, .idle, ?_, rfl⟩
      show perform q w.shared (w.pc t) .afterTerminalCommit = _
      rw [ht]
      rfl
    · intro e w' hstep
      rw [(committed_step ht hstep).2, hruns]

/-- **The terminal outcome is written once.**  In every reachable state at most one outcome was
committed and it is the query's; from then on it never changes and no work is counted; its hook has
run once, or one thread is about to run it; and without an outcome no hook has run. -/
theorem query_terminal_once (w : QueryWorld τ R) (hw : (querySystem τ R q).Reachable w) :
    w.shared.commits.length ≤ 1 ∧ w.shared.data.terminal = w.shared.commits.head? ∧
    (∀ o, w.shared.data.terminal = some o → HookOnce q w ∧
      ∀ w', (querySystem τ R q).Leads w w' → w'.shared.data.terminal = some o ∧
        w'.shared.data.work = w.shared.data.work) ∧
    (w.shared.data.terminal = none → w.shared.hookRuns = 0 ∧ ∀ t, w.pc t ≠ .committed) := by
  have hinv := query_once hw
  refine ⟨hinv.commits_le, hinv.terminal_eq, ?_, ?_⟩
  · intro o ho
    exact ⟨hinv.hookOnce (by rw [ho]; rfl), fun w' h => terminal_kept hw h ho⟩
  · intro hnone
    obtain ⟨owed, hcensus, hsum⟩ := hinv.hooks
    have hempty : w.shared.commits = [] := by
      have hhead := hinv.terminal_eq
      rw [hnone] at hhead
      exact List.head?_eq_none_iff.mp hhead.symm
    rw [hempty, List.length_nil] at hsum
    refine ⟨by omega, ?_⟩
    exact hcensus.eq_zero_iff.mp (by omega)

/-- Two calls of `terminate` race: the second finds the outcome of the first. -/
def terminateRace : List (Bool × Event Unit) :=
  [(false, .callTerminate .cancelled), (true, .callTerminate .sessionClosed),
    (true, .terminate none), (false, .terminate none)]

/-- The race leaves the session's end, which stays, and one thread that owes the hook. -/
theorem query_terminal_once_sample : ∃ w : QueryWorld Bool Unit,
    play (plainQuery 0) terminateRace (.start Bool Unit) = some w ∧
    w.shared.commits = [.sessionClosed] ∧ HookOnce (plainQuery 0) w ∧
    ∀ w', (querySystem Bool Unit (plainQuery 0)).Leads w w' →
      w'.shared.data.terminal = some .sessionClosed := by
  refine ⟨_, rfl, rfl, ?_⟩
  have hw := play_reachable (plainQuery 0) (show play _ terminateRace _ = some _ from rfl)
  obtain ⟨-, -, hsome, -⟩ := query_terminal_once _ hw
  obtain ⟨hhook, hkept⟩ := hsome .sessionClosed rfl
  exact ⟨hhook, fun w' h => (hkept w' h).1⟩

end MadoPilot.Watch
