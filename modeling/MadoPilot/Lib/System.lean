import Mathlib.Data.List.Basic

/-!
# Labelled systems: paths, reachable states, invariants

A *system* is a set of initial states and a labelled step relation; nothing here says what a state
or a label is.  A *path* records, for every step it takes, the state the step was taken in and its
label, so that a condition on the steps of a run can be stated on the path.

* `Reachable.invariant` : a property of the initial states that every step keeps holds of every
  reachable state;
* `Leads.preserves`, `Leads.mono` : what every step of a reachable state keeps, and how every step
  moves, is kept and moved by whole runs;
* `Path.guarded` : the same for the runs whose steps all meet a condition;
* `Path.exactly` : a property that exactly the steps meeting a condition keep holds along exactly the
  runs whose steps all meet it;
* `Path.along` : the same for what a state has to do with the run that led to it;
* `Path.simulated` : a system whose steps another system matches has its runs matched;
* `trace_path` : what a function computes step by step is a run;
* `Since` : something that a run has done, and what has held of it ever since.
-/

namespace MadoPilot.Lib

structure System (σ ι : Type*) where
  init : σ → Prop
  step : σ → ι → σ → Prop

namespace System

variable {σ ι : Type*} (S : System σ ι)

/-- `Path s trail t`: a run from `s` to `t`; `trail` lists the steps it takes, each as the state it
is taken in and its label. -/
inductive Path : σ → List (σ × ι) → σ → Prop
  | nil (s : σ) : Path s [] s
  | snoc {s t u : σ} {trail : List (σ × ι)} {i : ι} :
      Path s trail t → S.step t i u → Path s (trail ++ [(t, i)]) u

/-- Some run goes from `s` to `t`. -/
def Leads (s t : σ) : Prop := ∃ trail, S.Path s trail t

/-- Some run from an initial state ends in `t`. -/
def Reachable (t : σ) : Prop := ∃ s, S.init s ∧ S.Leads s t

variable {S}

/-! ### Runs -/

theorem Leads.refl (s : σ) : S.Leads s s := ⟨[], .nil s⟩

theorem Leads.snoc {s t u : σ} {i : ι} (h : S.Leads s t) (hu : S.step t i u) : S.Leads s u := by
  obtain ⟨trail, hp⟩ := h
  exact ⟨_, hp.snoc hu⟩

theorem Leads.single {s t : σ} {i : ι} (h : S.step s i t) : S.Leads s t := (Leads.refl s).snoc h

theorem Leads.trans {s t u : σ} (h : S.Leads s t) (h' : S.Leads t u) : S.Leads s u := by
  obtain ⟨trail, hp⟩ := h'
  induction hp with
  | nil => exact h
  | snoc _ hu ih => exact ih.snoc hu

theorem Leads.cons {s t u : σ} {i : ι} (h : S.step s i t) (h' : S.Leads t u) : S.Leads s u :=
  (Leads.single h).trans h'

theorem Reachable.of_init {s : σ} (h : S.init s) : S.Reachable s := ⟨s, h, Leads.refl s⟩

theorem Reachable.leads {s t : σ} (h : S.Reachable s) (h' : S.Leads s t) : S.Reachable t := by
  obtain ⟨s₀, h₀, hs⟩ := h
  exact ⟨s₀, h₀, hs.trans h'⟩

theorem Reachable.step {s t : σ} {i : ι} (h : S.Reachable s) (h' : S.step s i t) : S.Reachable t :=
  h.leads (Leads.single h')

theorem Path.leads {s t : σ} {trail : List (σ × ι)} (h : S.Path s trail t) : S.Leads s t := ⟨_, h⟩

theorem Path.split {s t : σ} {front back : List (σ × ι)} (h : S.Path s (front ++ back) t) :
    ∃ u, S.Path s front u ∧ S.Path u back t := by
  generalize htrail : front ++ back = trail at h
  induction h generalizing back with
  | nil =>
    obtain ⟨rfl, rfl⟩ := List.append_eq_nil_iff.mp htrail
    exact ⟨_, .nil _, .nil _⟩
  | @snoc t u trail i hpath hu ih =>
    rcases List.eq_nil_or_concat back with rfl | ⟨back', last, rfl⟩
    · rw [List.append_nil] at htrail
      subst htrail
      exact ⟨_, hpath.snoc hu, .nil _⟩
    · rw [List.concat_eq_append, ← List.append_assoc] at htrail
      obtain ⟨htrail, hlast⟩ := List.append_inj' htrail rfl
      obtain ⟨v, hfront, hback⟩ := ih htrail
      obtain rfl := List.singleton_inj.mp hlast
      rw [List.concat_eq_append]
      exact ⟨v, hfront, hback.snoc hu⟩

theorem Path.eq_of_nil {s t : σ} (h : S.Path s [] t) : t = s := by
  generalize hnil : ([] : List (σ × ι)) = trail at h
  cases h with
  | nil => rfl
  | snoc => exact absurd hnil.symm (List.append_ne_nil_of_right_ne_nil _ (List.cons_ne_nil _ _))

theorem Path.uncons {s t : σ} {x : σ × ι} {trail : List (σ × ι)} (h : S.Path s (x :: trail) t) :
    ∃ u, x.1 = s ∧ S.step s x.2 u ∧ S.Path u trail t := by
  have happ : S.Path s ([x] ++ trail) t := h
  obtain ⟨u, hfront, hback⟩ := happ.split
  generalize hone : [x] = one at hfront
  cases hfront with
  | nil => cases hone
  | @snoc v _ before i hbefore hu =>
    have happend : [] ++ [x] = before ++ [(v, i)] := hone
    obtain ⟨hnil, hlast⟩ := List.append_inj' happend rfl
    subst hnil
    obtain rfl := List.singleton_inj.mp hlast
    exact ⟨u, hbefore.eq_of_nil, hbefore.eq_of_nil ▸ hu, hback⟩

theorem Path.around {s t : σ} {front back : List (σ × ι)} {x : σ × ι}
    (h : S.Path s (front ++ x :: back) t) :
    ∃ u, S.Path s front x.1 ∧ S.step x.1 x.2 u ∧ S.Path u back t := by
  obtain ⟨v, hfront, hrest⟩ := h.split
  obtain ⟨u, rfl, hu, hback⟩ := hrest.uncons
  exact ⟨u, hfront, hu, hback⟩

theorem Path.mem_trail {s t : σ} {trail : List (σ × ι)} (h : S.Path s trail t) {x : σ × ι}
    (hx : x ∈ trail) :
    ∃ before u, S.Path s before x.1 ∧ before <+: trail ∧ S.step x.1 x.2 u := by
  obtain ⟨front, back, rfl⟩ := List.append_of_mem hx
  obtain ⟨u, hfront, hu, -⟩ := h.around
  exact ⟨front, u, hfront, List.prefix_append .., hu⟩

/-! ### What steps keep, runs keep -/

theorem Path.along {P : List (σ × ι) → σ → Prop} {s : σ} (h₀ : P [] s)
    (hs : ∀ trail t i u, S.Path s trail t → P trail t → S.step t i u → P (trail ++ [(t, i)]) u)
    {trail : List (σ × ι)} {t : σ} (h : S.Path s trail t) : P trail t := by
  induction h with
  | nil => exact h₀
  | snoc hpath hu ih => exact hs _ _ _ _ hpath ih hu

theorem Reachable.invariant {P : σ → Prop} (h₀ : ∀ s, S.init s → P s)
    (hs : ∀ s i t, S.Reachable s → P s → S.step s i t → P t) {t : σ} (ht : S.Reachable t) :
    P t := by
  obtain ⟨s, hi, trail, hp⟩ := ht
  induction hp with
  | nil => exact h₀ _ hi
  | snoc hpath hu ih => exact hs _ _ _ ⟨_, hi, _, hpath⟩ ih hu

theorem Leads.preserves {P : σ → Prop} (hs : ∀ s i t, S.Reachable s → P s → S.step s i t → P t)
    {s t : σ} (hr : S.Reachable s) (h : S.Leads s t) (hP : P s) : P t := by
  obtain ⟨trail, hp⟩ := h
  induction hp with
  | nil => exact hP
  | snoc hpath hu ih => exact hs _ _ _ (hr.leads ⟨_, hpath⟩) ih hu

theorem Leads.mono {R : σ → σ → Prop} (hrefl : ∀ s, R s s) (htrans : ∀ s t u, R s t → R t u → R s u)
    (hs : ∀ s i t, S.Reachable s → S.step s i t → R s t) {s t : σ} (hr : S.Reachable s)
    (h : S.Leads s t) : R s t := by
  obtain ⟨trail, hp⟩ := h
  induction hp with
  | nil => exact hrefl _
  | snoc hpath hu ih => exact htrans _ _ _ ih (hs _ _ _ (hr.leads ⟨_, hpath⟩) hu)

theorem Path.guarded {P : σ → Prop} {G : σ → ι → Prop}
    (hs : ∀ s i t, S.Reachable s → P s → G s i → S.step s i t → P t) {s t : σ}
    {trail : List (σ × ι)} (hr : S.Reachable s) (h : S.Path s trail t) (hP : P s)
    (hG : ∀ x ∈ trail, G x.1 x.2) : P t := by
  induction h with
  | nil => exact hP
  | snoc hpath hu ih =>
    have hpre := ih fun x hx => hG x (List.mem_append_left _ hx)
    have hlast := hG _ (List.mem_append_right _ (List.mem_singleton_self _))
    exact hs _ _ _ (hr.leads ⟨_, hpath⟩) hpre hlast hu

/-- **Exactly guarded runs.**  A property that a step keeps exactly when it meets the condition `G`
holds in every state of a run exactly when every step of the run meets it. -/
theorem Path.exactly {P : σ → Prop} {G : σ → ι → Prop}
    (hs : ∀ s i t, S.Reachable s → P s → S.step s i t → (P t ↔ G s i)) {s t : σ}
    {trail : List (σ × ι)} (hr : S.Reachable s) (h : S.Path s trail t) (hP : P s) :
    ((∀ x ∈ trail, P x.1) ∧ P t) ↔ ∀ x ∈ trail, G x.1 x.2 := by
  induction h with
  | nil => exact iff_of_true ⟨fun x hx => (by cases hx), hP⟩ fun x hx => (by cases hx)
  | @snoc t u trail i hpath hu ih =>
    have hstep : P t → (P u ↔ G t i) := fun ht => hs _ _ _ (hr.leads ⟨_, hpath⟩) ht hu
    rw [List.forall_mem_append, List.forall_mem_append, List.forall_mem_singleton,
      List.forall_mem_singleton, ← ih]
    constructor
    · rintro ⟨⟨htrail, ht⟩, hu⟩
      exact ⟨⟨htrail, ht⟩, (hstep ht).mp hu⟩
    · rintro ⟨⟨htrail, ht⟩, hG⟩
      exact ⟨⟨htrail, ht⟩, (hstep ht).mpr hG⟩

/-! ### Simulation -/

theorem Path.simulated {σ' : Type*} {S' : System σ' ι} {R : σ' → σ → Prop}
    (hs : ∀ a s i t, R a s → S.step s i t → ∃ b, S'.step a i b ∧ R b t) {s t : σ}
    {trail : List (σ × ι)} (h : S.Path s trail t) {a : σ'} (hR : R a s) :
    ∃ trail' b, S'.Path a trail' b ∧ trail'.map Prod.snd = trail.map Prod.snd ∧ R b t := by
  induction h with
  | nil => exact ⟨[], a, .nil a, rfl, hR⟩
  | @snoc t u trail i _ hu ih =>
    obtain ⟨trail', b, hpath, hsame, hb⟩ := ih
    obtain ⟨c, hstep, hc⟩ := hs _ _ _ _ hb hu
    refine ⟨_, c, hpath.snoc hstep, ?_, hc⟩
    rw [List.map_append, List.map_append, hsame]
    rfl

/-! ### Computed systems -/

def computed (start : σ) (perform : σ → ι → Option σ) : System σ ι :=
  ⟨fun s => s = start, fun s i t => perform s i = some t⟩

def trace (perform : σ → ι → Option σ) : List ι → σ → Option (List (σ × ι) × σ)
  | [], s => some ([], s)
  | i :: labels, s =>
    (perform s i).bind fun t => (trace perform labels t).map fun r => ((s, i) :: r.1, r.2)

theorem Path.cons {s t u : σ} {i : ι} {trail : List (σ × ι)} (h : S.step s i t)
    (h' : S.Path t trail u) : S.Path s ((s, i) :: trail) u := by
  induction h' with
  | nil => exact (Path.nil s).snoc h
  | snoc _ hu ih => exact ih.snoc hu

theorem trace_path {start : σ} {perform : σ → ι → Option σ} {labels : List ι} {s t : σ}
    {trail : List (σ × ι)} (h : trace perform labels s = some (trail, t)) :
    (computed start perform).Path s trail t := by
  induction labels generalizing s trail with
  | nil =>
    obtain ⟨rfl, rfl⟩ := Prod.mk.inj (Option.some.inj h)
    exact .nil s
  | cons i labels ih =>
    obtain ⟨u, hu, hrest⟩ := Option.bind_eq_some_iff.mp h
    obtain ⟨⟨trail', t'⟩, htrace, hsame⟩ := Option.map_eq_some_iff.mp hrest
    obtain ⟨rfl, rfl⟩ := Prod.mk.inj hsame
    exact (ih htrace).cons hu

end System

/-! ### What a run has done since -/

/-- Something that meets `P` is in the list, and everything after it meets `Q`. -/
def Since {α : Type*} (trail : List α) (P Q : α → Prop) : Prop :=
  ∃ front x back, trail = front ++ x :: back ∧ P x ∧ ∀ y ∈ back, Q y

namespace Since

variable {α : Type*} {trail : List α} {P Q : α → Prop} {x : α}

theorem last (h : P x) : Since (trail ++ [x]) P Q :=
  ⟨trail, x, [], rfl, h, fun _ hy => absurd hy List.not_mem_nil⟩

theorem concat (h : Since trail P Q) (hx : Q x) : Since (trail ++ [x]) P Q := by
  obtain ⟨front, first, back, rfl, hfirst, hback⟩ := h
  refine ⟨front, first, back ++ [x], by simp, hfirst, fun y hy => ?_⟩
  rcases List.mem_append.mp hy with hy | hy
  · exact hback y hy
  · rw [List.mem_singleton.mp hy]
    exact hx

end Since

end MadoPilot.Lib

/-! ### Two machines in lockstep

Two machines that compute their steps take the same events, one after the other.

* `Throughout.preserves` : a relation that every event keeps, where it meets a condition, holds at the
  end of every script whose events all meet it.
-/

namespace MadoPilot.Lib

variable {σ σ' ε : Type*}

/-- Every event of a script meets a condition on the states that it finds. -/
def Throughout (step : σ → ε → σ) (step' : σ' → ε → σ') (C : σ → σ' → ε → Prop) :
    List ε → σ → σ' → Prop
  | [], _, _ => True
  | e :: es, s, s' => C s s' e ∧ Throughout step step' C es (step s e) (step' s' e)

variable {step : σ → ε → σ} {step' : σ' → ε → σ'} {C : σ → σ' → ε → Prop} {R : σ → σ' → Prop}

instance Throughout.decidable [∀ s s' e, Decidable (C s s' e)] :
    ∀ (es : List ε) (s : σ) (s' : σ'), Decidable (Throughout step step' C es s s')
  | [], _, _ => inferInstanceAs (Decidable True)
  | _ :: es, _, _ =>
    have := Throughout.decidable es
    inferInstanceAs (Decidable (_ ∧ _))

theorem Throughout.preserves (hstep : ∀ s s' e, R s s' → C s s' e → R (step s e) (step' s' e))
    {es : List ε} {s : σ} {s' : σ'} (h : Throughout step step' C es s s') (hR : R s s') :
    R (es.foldl step s) (es.foldl step' s') := by
  induction es generalizing s s' with
  | nil => exact hR
  | cons e es ih =>
    obtain ⟨hC, hrest⟩ := h
    exact ih hrest (hstep s s' e hR hC)

end MadoPilot.Lib
