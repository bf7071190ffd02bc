import MadoPilot.Platform.WindowsCallbacks

/-!
# The callback fence of a Windows session

* `drain_can_succeed` : from every state the session can be in, a drain may still succeed;
* `callback_fence` : the law of the callbacks.
-/

namespace MadoPilot.Platform.WindowsCallbacks

open MadoPilot.Core MadoPilot.Lib

def Event.succeeds : Event → Bool
  | drained (.ok _) | swept => true
  | _ => false

variable {τ : Type*} [DecidableEq τ] {w : CallbackWorld τ}

/-! ### Runs -/

section Runs

variable {t : τ} {s s' : Shared} {pc pc' : Pc} {e : Event}

omit [DecidableEq τ] in
theorem Act.succeeds (h : Act t s pc e s' pc') (hpc : pc.Fits s.control) (he : e.succeeds = true) :
    s'.control.fenced = true := by
  cases h with
  | fence | sweepFence => rfl
  | sweepFenced hfenced => exact hfenced
  | confirms => exact hpc
  | _ => cases he

omit [DecidableEq τ] in
theorem Act.admitted (h : Act t s pc .admitted s' pc') : s.control.fenced = false := by
  cases h with
  | enter hadmits =>
    unfold CallbackState.admits at hadmits
    simp only [Bool.not_or, Bool.not_not, Bool.and_eq_true, Bool.not_eq_true'] at hadmits
    exact hadmits.2

theorem fenced_along {trail : List (CallbackWorld τ × (τ × Event))}
    (hw : (callbackSystem τ).Path (CallbackWorld.start τ) trail w) :
    ((∃ e ∈ events trail, e.succeeds = true) → w.shared.control.fenced = true) ∧
      (events trail).Pairwise fun e later => e.succeeds = true → later ≠ .admitted := by
  refine threads_along (P := fun es w =>
    ((∃ e ∈ es, e.succeeds = true) → w.shared.control.fenced = true) ∧
      es.Pairwise fun e later => e.succeeds = true → later ≠ .admitted) ?_ ?_ hw
  · exact ⟨(fun ⟨_, hmem, _⟩ => by cases hmem), List.Pairwise.nil⟩
  rintro es w t e s' pc' hr ⟨hfenced, hpair⟩ hact
  refine ⟨?_, List.pairwise_append.mpr ⟨hpair, List.pairwise_singleton .., ?_⟩⟩
  · rintro ⟨found, hmem, hfound⟩
    rcases List.mem_append.mp hmem with hold | hnew
    · exact hact.change.flags.2 (hfenced ⟨found, hold, hfound⟩)
    · rw [List.mem_singleton.mp hnew] at hfound
      exact hact.succeeds ((inv_reachable hr).fits t) hfound
  · intro found hmem last hlast hfound hadmitted
    rw [List.mem_singleton.mp hlast] at hadmitted
    subst hadmitted
    have hopen := hact.admitted
    rw [hfenced ⟨found, hmem, hfound⟩] at hopen
    cases hopen

end Runs

/-! ### A later drain -/

section Later

theorem callbacks_return {n : ℕ} (hr : (callbackSystem τ).Reachable w)
    (hactive : w.shared.control.active = n) {t : τ} (ht : w.pc t = .idle) :
    ∃ v, (callbackSystem τ).Leads w v ∧ v.shared.control.active = 0 ∧ v.pc t = .idle := by
  induction n generalizing w with
  | zero => exact ⟨w, .refl w, hactive, ht⟩
  | succ n ih =>
    have hinv := inv_reachable hr
    obtain ⟨u, hu⟩ := hinv.census.exists_of_pos (by omega)
    have hne : t ≠ u := by
      rintro rfl
      rw [ht] at hu
      cases hu
    have hact : Act u w.shared (w.pc u) .dropped { w.shared with control := w.shared.control.leave }
        .idle := hu ▸ .drop
    have hstep : (callbackSystem τ).step w (u, .dropped)
        (w.move u { w.shared with control := w.shared.control.leave } .idle) := ⟨_, _, hact, rfl⟩
    have hleft : w.shared.control.active - 1 = n := by omega
    obtain ⟨v, hleads, hzero, hv⟩ := ih (hr.step hstep) hleft
      ((World.move_pc_of_ne _ _ _ _ hne).trans ht)
    exact ⟨v, .cons hstep hleads, hzero, hv⟩

omit [DecidableEq τ] in
theorem drain_solo (t : τ) {s : Shared} (hzero : s.control.active = 0) :
    ∃ s' pc es s'', Solo Act t s .idle es s' pc ∧ Act t s' pc (.drained (.ok ())) s'' .drained := by
  have hbegin : ∀ {es : List Event} {pc : Pc},
      Solo Act t { s with control := s.control.stopAdmission } (.looking ⟨none⟩) es
        { s with control := s.control.stopAdmission } pc →
      Solo Act t s .idle (.stopped :: .silent :: .consulted none :: es)
        { s with control := s.control.stopAdmission } pc := fun h =>
    .cons .stop <| .cons .drain <| .cons (.begin none rfl) h
  cases hfenced : s.control.fenced with
  | true => exact ⟨_, _, _, _, hbegin (.cons (.seesFence hfenced) (.nil ..)), .confirms none rfl⟩
  | false =>
    have hlast := hbegin <| .cons (.seesZero hfenced hzero) <| .cons (.commits none rfl) (.nil ..)
    exact ⟨_, _, _, _, hlast, .fence⟩

theorem drain_can_succeed (hr : (callbackSystem τ).Reachable w) {t : τ} (ht : w.pc t = .idle) :
    ∃ v v', (callbackSystem τ).Leads w v ∧ (callbackSystem τ).step v (t, .drained (.ok ())) v' := by
  obtain ⟨v, hleads, hzero, hv⟩ := callbacks_return hr rfl ht
  obtain ⟨s', pc, es, s'', hsolo, hact⟩ := drain_solo t hzero
  rw [← hv] at hsolo
  obtain ⟨hlast, hstep⟩ : (callbackSystem τ).Leads v _ ∧ (callbackSystem τ).step _ _ _ :=
    Solo.leads_step hsolo hact
  exact ⟨_, _, hleads.trans hlast, hstep⟩

end Later

/-! ### The law -/

structure FenceLaw (trail : List (CallbackWorld τ × (τ × Event))) (w : CallbackWorld τ) : Prop where
  /-- Once a drain has succeeded no callback runs. -/
  nobody : (∃ e ∈ events trail, e.succeeds = true) →
    w.shared.control.active = 0 ∧ ∀ t, w.pc t ≠ .running
  /-- Once a drain has succeeded no callback is admitted. -/
  after : (events trail).Pairwise fun e later => e.succeeds = true → later ≠ .admitted
  /-- The fence goes up with no callback active. -/
  fences : ∀ label w', (callbackSystem τ).step w label w' → w.shared.control.fenced = false →
    w'.shared.control.fenced = true → w.shared.control.active = 0 ∧ w'.shared.control.active = 0
  /-- The count is that of the running callbacks. -/
  counted : Census (fun t => w.pc t = .running) w.shared.control.active
  /-- The count does not underflow. -/
  drops : ∀ t w', (callbackSystem τ).step w (t, .dropped) w' →
    w'.shared.control.active + 1 = w.shared.control.active
  /-- What the assertion of `drain` says. -/
  asserted : ∀ t, w.pc t = .fencing → w.shared.control.active = 0
  /-- An interrupted drain leaves the control. -/
  interrupted : ∀ t error w', (callbackSystem τ).step w (t, .drained (.error error)) w' →
    w'.shared = w.shared ∧ w'.pc t = .idle
  /-- A thread at rest, such as one whose drain was interrupted, may drain to the end. -/
  retries : ∀ t, w.pc t = .idle →
    ∃ v v', (callbackSystem τ).Leads w v ∧ (callbackSystem τ).step v (t, .drained (.ok ())) v'
  /-- The native resources are released with no callback running. -/
  releases : ∀ t w', (callbackSystem τ).step w (t, .released) w' →
    w.shared.control.active = 0 ∧ ∀ u, w.pc u ≠ .running

omit [DecidableEq τ] in
theorem Inv.nobody (h : Inv w) (hfenced : w.shared.control.fenced = true) :
    w.shared.control.active = 0 ∧ ∀ t, w.pc t ≠ .running := by
  have hzero := h.quiet hfenced
  exact ⟨hzero, h.census.eq_zero_iff.mp hzero⟩

/-- **The callback fence**: in every interleaving of callbacks, of threads that close or drop the session
and of teardown workers, a drain that succeeds leaves no callback behind and none ever comes. -/
theorem callback_fence {trail : List (CallbackWorld τ × (τ × Event))}
    (hw : (callbackSystem τ).Path (CallbackWorld.start τ) trail w) : FenceLaw trail w := by
  have hr : (callbackSystem τ).Reachable w := ⟨_, rfl, hw.leads⟩
  have hinv := inv_reachable hr
  obtain ⟨hfenced, hpair⟩ := fenced_along hw
  refine ⟨fun h => hinv.nobody (hfenced h), hpair, ?_, hinv.census, ?_, fun t ht => ?_, ?_,
    fun t ht => drain_can_succeed hr ht, ?_⟩
  · rintro ⟨t, e⟩ w' ⟨s', pc', hact, rfl⟩ hopen hup
    have hstep : (callbackSystem τ).step w (t, e) (w.move t s' pc') := ⟨s', pc', hact, rfl⟩
    have hquiet := (inv_reachable (hr.step hstep)).quiet hup
    refine ⟨?_, hquiet⟩
    have hchange := hact.change
    have hup' : s'.control.fenced = true := hup
    have hzero : s'.control.active = 0 := hquiet
    generalize s'.control = c' at hchange hup' hzero
    generalize w.pc (t, e).1 = pc at hchange
    cases hchange with
    | fence => exact hzero
    | enter | leave | stay | stop =>
      rw [show w.shared.control.fenced = true from hup'] at hopen
      cases hopen
  · rintro t w' ⟨s', pc', hact, rfl⟩
    have hpos : w.pc t = .running → 0 < w.shared.control.active := fun h => hinv.census.pos h
    generalize w.pc t = pc at hact hpos
    cases hact with
    | drop =>
      show w.shared.control.active - 1 + 1 = w.shared.control.active
      have hlt := hpos rfl
      omega
  · have hfits := hinv.fits t
    rw [ht] at hfits
    exact hfits.2
  · rintro t error w' ⟨s', pc', hact, rfl⟩
    generalize w.pc t = pc at hact
    cases hact with
    | turnedAway | confirmsLate | commitsLate | expires => exact ⟨rfl, World.move_pc_self ..⟩
  · rintro t w' ⟨s', pc', hact, rfl⟩
    have hfits := hinv.fits t
    generalize w.pc t = pc at hact hfits
    cases hact with
    | release => exact hinv.nobody hfits

/-- A callback is admitted and returns, then a thread closes the session and the job of its close is
run. -/
theorem callback_fence_sample :
    ∃ (trail : List (CallbackWorld Bool × (Bool × Event))) (w : CallbackWorld Bool),
      events trail = [.admitted, .dropped, .stopped, .silent, .consulted none, .silent, .consulted none,
        .drained (.ok ()), .silent, .silent, .released] ∧ FenceLaw trail w := by
  have hcallback : Solo Act true (CallbackWorld.start Bool).shared .idle [.admitted, .dropped] _ .idle :=
    .cons (.enter rfl) <| .cons .drop (.nil ..)
  have hclose : Solo Act false ⟨⟨true, 0, false⟩, []⟩ .idle
      [.stopped, .silent, .consulted none, .silent, .consulted none, .drained (.ok ()), .silent,
        .silent, .released] _ .idle :=
    .cons .stop <| .cons .drain <| .cons (.begin none rfl) <| .cons (.seesZero rfl rfl) <|
    .cons (.commits none rfl) <| .cons .fence <| .cons .send <| .cons (.work rfl) <|
    .cons .release (.nil ..)
  obtain ⟨trail₁, hpath₁, hes₁⟩ := hcallback.path
    (System.Path.nil (S := callbackSystem Bool) (CallbackWorld.start Bool)) rfl rfl
  obtain ⟨trail₂, hpath₂, hes₂⟩ := hclose.path hpath₁ rfl rfl
  refine ⟨trail₂, _, ?_, callback_fence hpath₂⟩
  rw [hes₂, hes₁]
  rfl

end MadoPilot.Platform.WindowsCallbacks
