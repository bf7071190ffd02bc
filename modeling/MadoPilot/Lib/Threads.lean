import Mathlib.Logic.Function.Basic
import MadoPilot.Lib.System

/-!
# Threads over shared data

Any number of threads share a value of `σ` and each stands at a point `κ` of its code.  One step
lets one thread act: `act t s pc e s' pc'` reads "at `pc`, over the shared value `s`, the thread `t`
may do `e`, leaving `s'` and standing at `pc'`".

* `threads_invariant`, `threads_along` : the invariant rules, stated for one acting thread;
* `Solo.path` : what a thread does while the others rest is a run of all of them;
* `replay_path` : the threads of a program that computes its steps, played one after the other.
-/

namespace MadoPilot.Lib

variable {τ σ κ ε : Type*}

structure World (τ σ κ : Type*) where
  shared : σ
  pc : τ → κ

def events (trail : List (World τ σ κ × (τ × ε))) : List ε := trail.map fun x => x.2.2

@[simp] theorem events_append (trail trail' : List (World τ σ κ × (τ × ε))) :
    events (trail ++ trail') = events trail ++ events trail' := List.map_append

@[simp] theorem events_singleton (w : World τ σ κ) (t : τ) (e : ε) :
    events [(w, (t, e))] = [e] := rfl

variable [DecidableEq τ]

/-- The thread `t` moves to `pc` and leaves the shared value `s`. -/
def World.move (w : World τ σ κ) (t : τ) (s : σ) (pc : κ) : World τ σ κ :=
  ⟨s, Function.update w.pc t pc⟩

namespace World

variable (w : World τ σ κ) (t : τ) (s : σ) (pc : κ)

@[simp] theorem move_shared : (w.move t s pc).shared = s := rfl

@[simp] theorem move_pc_self : (w.move t s pc).pc t = pc := Function.update_self ..

@[simp] theorem move_pc_of_ne {u : τ} (h : u ≠ t) : (w.move t s pc).pc u = w.pc u :=
  Function.update_of_ne h ..

@[simp] theorem move_move (s' : σ) (pc' : κ) : (w.move t s pc).move t s' pc' = w.move t s' pc' := by
  simp [move]

theorem move_self : w.move t w.shared (w.pc t) = w := by
  simp [move]

theorem forall_move {P : κ → Prop} (ht : P pc) (hu : ∀ u, u ≠ t → P (w.pc u)) (u : τ) :
    P ((w.move t s pc).pc u) := by
  by_cases h : u = t
  · subst h
    simpa using ht
  · simpa [h] using hu u h

end World

variable (act : τ → σ → κ → ε → σ → κ → Prop) (start : World τ σ κ)

def threads : System (World τ σ κ) (τ × ε) where
  init w := w = start
  step w label w' := ∃ s' pc', act label.1 w.shared (w.pc label.1) label.2 s' pc' ∧
    w' = w.move label.1 s' pc'

variable {act start}

theorem threads_invariant {P : World τ σ κ → Prop} (h₀ : P start)
    (hs : ∀ w t e s' pc', (threads act start).Reachable w → P w →
      act t w.shared (w.pc t) e s' pc' → P (w.move t s' pc'))
    {w : World τ σ κ} (hw : (threads act start).Reachable w) : P w := by
  refine hw.invariant (fun w h => h ▸ h₀) fun w i w' hr hP hstep => ?_
  obtain ⟨s', pc', hact, rfl⟩ := hstep
  exact hs w i.1 i.2 s' pc' hr hP hact

theorem threads_along {P : List ε → World τ σ κ → Prop} (h₀ : P [] start)
    (hs : ∀ es w t e s' pc', (threads act start).Reachable w → P es w →
      act t w.shared (w.pc t) e s' pc' → P (es ++ [e]) (w.move t s' pc'))
    {trail : List (World τ σ κ × (τ × ε))} {w : World τ σ κ}
    (hw : (threads act start).Path start trail w) : P (events trail) w := by
  refine hw.along (P := fun trail w => P (events trail) w) h₀ fun trail w i w' hpath hP hstep => ?_
  obtain ⟨s', pc', hact, rfl⟩ := hstep
  rw [events_append]
  exact hs _ w i.1 i.2 s' pc' ⟨_, rfl, hpath.leads⟩ hP hact

variable (act) in
/-- What the thread `t` does on its own. -/
inductive Solo (t : τ) : σ → κ → List ε → σ → κ → Prop
  | nil (s : σ) (pc : κ) : Solo t s pc [] s pc
  | cons {s s' s'' : σ} {pc pc' pc'' : κ} {e : ε} {es : List ε} :
      act t s pc e s' pc' → Solo t s' pc' es s'' pc'' → Solo t s pc (e :: es) s'' pc''

omit [DecidableEq τ] in
theorem Solo.append {t : τ} {s s' s'' : σ} {pc pc' pc'' : κ} {es es' : List ε}
    (h : Solo act t s pc es s' pc') (h' : Solo act t s' pc' es' s'' pc'') :
    Solo act t s pc (es ++ es') s'' pc'' := by
  induction h with
  | nil => exact h'
  | cons ha _ ih => exact .cons ha (ih h')

theorem Solo.path {t : τ} {s s' : σ} {pc pc' : κ} {es : List ε} (h : Solo act t s pc es s' pc')
    {w₀ w : World τ σ κ} {trail : List (World τ σ κ × (τ × ε))}
    (hp : (threads act start).Path w₀ trail w) (hs : w.shared = s) (hpc : w.pc t = pc) :
    ∃ trail', (threads act start).Path w₀ trail' (w.move t s' pc') ∧
      events trail' = events trail ++ es := by
  induction h generalizing w trail with
  | nil s pc =>
    subst hs hpc
    exact ⟨trail, by rwa [World.move_self], by simp⟩
  | @cons s s₁ s₂ pc pc₁ pc₂ e es hact _ ih =>
    subst hs hpc
    have hstep : (threads act start).step w (t, e) (w.move t s₁ pc₁) := ⟨s₁, pc₁, hact, rfl⟩
    obtain ⟨trail', hpath, hes⟩ := ih (hp.snoc hstep) rfl (World.move_pc_self ..)
    rw [World.move_move] at hpath
    exact ⟨trail', hpath, by simp [hes]⟩

theorem Solo.leads {t : τ} {w : World τ σ κ} {s' : σ} {pc' : κ} {es : List ε}
    (h : Solo act t w.shared (w.pc t) es s' pc') :
    (threads act start).Leads w (w.move t s' pc') := by
  obtain ⟨trail', hp, -⟩ := h.path (System.Path.nil (S := threads act start) w) rfl rfl
  exact ⟨trail', hp⟩

theorem Solo.path_step {t : τ} {w₀ w : World τ σ κ} {s s' s'' : σ} {pc pc' pc'' : κ} {es : List ε}
    {e : ε} {trail : List (World τ σ κ × (τ × ε))} (h : Solo act t s pc es s' pc')
    (ha : act t s' pc' e s'' pc'') (hp : (threads act start).Path w₀ trail w) (hs : w.shared = s)
    (hpc : w.pc t = pc) :
    ∃ trail', (threads act start).Path w₀ trail' (w.move t s' pc') ∧
      events trail' = events trail ++ es ∧
      (threads act start).step (w.move t s' pc') (t, e) (w.move t s'' pc'') := by
  obtain ⟨trail', hpath, hes⟩ := h.path hp hs hpc
  refine ⟨trail', hpath, hes, s'', pc'', ?_, (World.move_move ..).symm⟩
  rw [World.move_pc_self]
  exact ha

theorem Solo.leads_step {t : τ} {w : World τ σ κ} {s' s'' : σ} {pc' pc'' : κ} {es : List ε} {e : ε}
    (h : Solo act t w.shared (w.pc t) es s' pc') (ha : act t s' pc' e s'' pc'') :
    (threads act start).Leads w (w.move t s' pc') ∧
      (threads act start).step (w.move t s' pc') (t, e) (w.move t s'' pc'') := by
  obtain ⟨trail', hpath, -, hstep⟩ := h.path_step ha (.nil w) rfl rfl
  exact ⟨hpath.leads, hstep⟩

variable (act) in
/-- The same, with every step taken from a point of `P`. -/
inductive SoloIn (P : κ → Prop) (t : τ) : σ → κ → List ε → σ → κ → Prop
  | nil (s : σ) (pc : κ) : SoloIn P t s pc [] s pc
  | cons {s s' s'' : σ} {pc pc' pc'' : κ} {e : ε} {es : List ε} :
      P pc → act t s pc e s' pc' → SoloIn P t s' pc' es s'' pc'' → SoloIn P t s pc (e :: es) s'' pc''

theorem SoloIn.path {P : κ → Prop} {t : τ} {s s' : σ} {pc pc' : κ} {es : List ε}
    (h : SoloIn act P t s pc es s' pc') {w₀ w : World τ σ κ} {trail : List (World τ σ κ × (τ × ε))}
    (hp : (threads act start).Path w₀ trail w) (htrail : ∀ x ∈ trail, P (x.1.pc t))
    (hs : w.shared = s) (hpc : w.pc t = pc) :
    ∃ trail', (threads act start).Path w₀ trail' (w.move t s' pc') ∧ ∀ x ∈ trail', P (x.1.pc t) := by
  induction h generalizing w trail with
  | nil s pc =>
    subst hs hpc
    exact ⟨trail, by rwa [World.move_self], htrail⟩
  | @cons s s₁ s₂ pc pc₁ pc₂ e es hP hact _ ih =>
    subst hs hpc
    have hstep : (threads act start).step w (t, e) (w.move t s₁ pc₁) := ⟨s₁, pc₁, hact, rfl⟩
    have hnext : ∀ x ∈ trail ++ [(w, (t, e))], P (x.1.pc t) := by
      intro x hx
      rcases List.mem_append.mp hx with hx | hx
      · exact htrail x hx
      · obtain rfl := List.mem_singleton.mp hx
        exact hP
    obtain ⟨trail', hpath, hall⟩ := ih (hp.snoc hstep) hnext rfl (World.move_pc_self ..)
    rw [World.move_move] at hpath
    exact ⟨trail', hpath, hall⟩

/-! ### Programs -/

section Programs

/-- The steps a program computes: the value it leaves and where the thread stands then. -/
def Performs (perform : τ → σ → κ → ε → Option (σ × κ)) (t : τ) (s : σ) (pc : κ) (e : ε) (s' : σ)
    (pc' : κ) : Prop :=
  perform t s pc e = some (s', pc')

variable {perform : τ → σ → κ → ε → Option (σ × κ)}

variable (perform) in
def replay : List (τ × ε) → World τ σ κ → Option (World τ σ κ)
  | [], w => some w
  | (t, e) :: steps, w =>
    (perform t w.shared (w.pc t) e).bind fun r => replay steps (w.move t r.1 r.2)

variable (perform) in
def replayTrail : List (τ × ε) → World τ σ κ → List (World τ σ κ × (τ × ε))
  | [], _ => []
  | (t, e) :: steps, w =>
    (w, (t, e)) :: ((perform t w.shared (w.pc t) e).elim [] fun r =>
      replayTrail steps (w.move t r.1 r.2))

theorem mem_replayTrail {steps : List (τ × ε)} {w : World τ σ κ} {x : World τ σ κ × (τ × ε)}
    (h : x ∈ replayTrail perform steps w) : x.2 ∈ steps := by
  induction steps generalizing w with
  | nil => cases h
  | cons step steps ih =>
    rcases List.mem_cons.mp h with rfl | hrest
    · exact List.mem_cons_self
    · cases hp : perform step.1 w.shared (w.pc step.1) step.2 with
      | none =>
        rw [hp] at hrest
        cases hrest
      | some r =>
        rw [hp] at hrest
        exact List.mem_cons_of_mem _ (ih hrest)

theorem replay_path {steps : List (τ × ε)} {w₀ w w' : World τ σ κ}
    {trail : List (World τ σ κ × (τ × ε))} (h : replay perform steps w = some w')
    (hpath : (threads (Performs perform) start).Path w₀ trail w) :
    (threads (Performs perform) start).Path w₀ (trail ++ replayTrail perform steps w) w' := by
  induction steps generalizing w trail with
  | nil =>
    obtain rfl : w = w' := Option.some.inj h
    rw [replayTrail, List.append_nil]
    exact hpath
  | cons step steps ih =>
    obtain ⟨t, e⟩ := step
    obtain ⟨⟨s, pc⟩, hp, hrest⟩ := Option.bind_eq_some_iff.mp h
    have hstep : (threads (Performs perform) start).step w (t, e) (w.move t s pc) := ⟨s, pc, hp, rfl⟩
    rw [replayTrail, hp, List.append_cons]
    exact ih hrest (hpath.snoc hstep)

theorem replay_leads {steps : List (τ × ε)} {w w' : World τ σ κ}
    (h : replay perform steps w = some w') : (threads (Performs perform) start).Leads w w' :=
  (replay_path h (.nil w)).leads

theorem replay_reachable {steps : List (τ × ε)} {w : World τ σ κ}
    (h : replay perform steps start = some w) : (threads (Performs perform) start).Reachable w :=
  ⟨_, rfl, replay_leads h⟩

end Programs

end MadoPilot.Lib

/-! ### The calls of a thread

The trail of a run mixes the events of all threads.  `own` picks out one thread, and `current` what
it has done since its last call ended.

* `calls_reachable`, `calls_along` : what a thread's place has to do with its current call.
-/

namespace MadoPilot.Lib

variable {τ σ κ ε : Type*} [DecidableEq τ]

def own (t : τ) (trail : List (World τ σ κ × (τ × ε))) : List ε :=
  (trail.filter (·.2.1 = t)).map (·.2.2)

/-- The events since the last one that ended a call, newest first. -/
def current (ends : ε → Bool) (es : List ε) : List ε := es.reverse.takeWhile fun e => !ends e

theorem own_snoc (t u : τ) (trail : List (World τ σ κ × (τ × ε))) (w : World τ σ κ) (e : ε) :
    own u (trail ++ [(w, (t, e))]) = if t = u then own u trail ++ [e] else own u trail := by
  unfold own
  rw [List.filter_append, List.map_append]
  by_cases h : t = u
  · simp [h]
  · simp [h]

omit [DecidableEq τ] in
theorem current_snoc (ends : ε → Bool) (es : List ε) (e : ε) :
    current ends (es ++ [e]) = if ends e then [] else e :: current ends es := by
  unfold current
  rw [List.reverse_append, List.reverse_singleton, List.singleton_append, List.takeWhile_cons]
  cases ends e <;> rfl

variable {act : τ → σ → κ → ε → σ → κ → Prop} {start : World τ σ κ} {ends : ε → Bool}

/-- **What a thread's place has to do with its current call.**  A thread keeps `P` by what it does,
and what the others do leaves it, in every reachable world. -/
theorem calls_reachable {P : σ → κ → List ε → Prop} (h₀ : ∀ t, P start.shared (start.pc t) [])
    (hself : ∀ w t e s' pc' es, (threads act start).Reachable w → act t w.shared (w.pc t) e s' pc' →
      P w.shared (w.pc t) es → P s' pc' (if ends e then [] else e :: es))
    (hother : ∀ w t e s' pc' pcu es, (threads act start).Reachable w →
      act t w.shared (w.pc t) e s' pc' → P w.shared pcu es → P s' pcu es)
    {trail : List (World τ σ κ × (τ × ε))} {w : World τ σ κ}
    (hw : (threads act start).Path start trail w) (t : τ) :
    P w.shared (w.pc t) (current ends (own t trail)) := by
  revert t
  refine hw.along (P := fun trail w => ∀ t, P w.shared (w.pc t) (current ends (own t trail))) ?_ ?_
  · exact h₀
  · rintro trail w ⟨t, e⟩ w' hpath hP ⟨s', pc', hact, rfl⟩ u
    have hr : (threads act start).Reachable w := ⟨_, rfl, hpath.leads⟩
    rw [own_snoc]
    by_cases h : t = u
    · subst h
      rw [if_pos rfl, current_snoc, World.move_shared, World.move_pc_self]
      exact hself w t e s' pc' _ hr hact (hP t)
    · rw [if_neg h, World.move_shared, World.move_pc_of_ne _ _ _ _ (Ne.symm h)]
      exact hother w t e s' pc' _ _ hr hact (hP u)

theorem calls_along {P : σ → κ → List ε → Prop} (h₀ : ∀ t, P start.shared (start.pc t) [])
    (hself : ∀ t s pc e s' pc' es, act t s pc e s' pc' → P s pc es →
      P s' pc' (if ends e then [] else e :: es))
    (hother : ∀ t s pc e s' pc' pcu es, act t s pc e s' pc' → P s pcu es → P s' pcu es)
    {trail : List (World τ σ κ × (τ × ε))} {w : World τ σ κ}
    (hw : (threads act start).Path start trail w) (t : τ) :
    P w.shared (w.pc t) (current ends (own t trail)) :=
  calls_reachable h₀ (fun _ t e s' pc' es _ ha => hself t _ _ e s' pc' es ha)
    (fun _ t e s' pc' pcu es _ ha => hother t _ _ e s' pc' pcu es ha) hw t

end MadoPilot.Lib
