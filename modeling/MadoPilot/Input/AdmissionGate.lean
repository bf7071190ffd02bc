import MadoPilot.Input.AdmissionInvariant

/-!
# One guard at a time

What the admission gate promises its callers, over every run of any number of threads: one guard at
a time, refusals that leave nothing behind, drains that succeed only on an empty gate, a lifecycle
that moves one way, and no thread blocked on an admission it acquired itself.

* `refused_restores`, `drained_empty`, `reentry_refused` : the parts;
* `admission_gate` : all of it;
* `moved_guard_blocks` : a thread that was handed a guard can wait for itself.
-/

namespace MadoPilot.Input

open MadoPilot.Core MadoPilot.Lib

section Runs

variable {τ : Type*} [DecidableEq τ] {w w' : GateWorld τ} {t : τ}

/-- **A refused `admit` leaves nothing behind.**  It was refused at its first section and changed
nothing, or its thread stands in no call any more, entered nowhere and with no guard held back. -/
theorem refused_restores {error : Error} (hw : (gateSystem τ).Reachable w)
    (h : (gateSystem τ).step w (t, .refused error) w') :
    w'.shared = w.shared ∨
      w'.pc t = [] ∧ t ∉ w'.shared.state.entering ∧ ⟨t, none⟩ ∉ w'.shared.guards := by
  have hi' := gateInv_reachable (hw.step h)
  have hshape := (gateInv_reachable hw).shape t
  -- a thread that stands in no call has no role
  have hgone : w'.pc t = [] → w'.pc t = [] ∧ t ∉ w'.shared.state.entering ∧
      ⟨t, none⟩ ∉ w'.shared.guards := fun hnil => by
    refine ⟨hnil, ?_, ?_⟩
    · rw [hi'.entering t, hnil]
      simp [role, Role.Registered]
    · rw [← hi'.claiming t, hnil]
      simp [role]
  obtain ⟨s', k', hact, rfl⟩ := h
  generalize w.pc t = k at hact hshape
  cases hact with
  | drain h => cases h
  | guard h => cases h
  | admission h =>
    cases h with
    | reentered | closed => exact Or.inl rfl
    | releases | fails =>
      refine Or.inr (hgone ?_)
      rw [World.move_pc_self]
      exact hshape.eq_nil (by simp [Point.role])

theorem gate_lifecycle_mono (hw : (gateSystem τ).Reachable w) (h : (gateSystem τ).Leads w w') :
    w.shared.state.lifecycle.rank ≤ w'.shared.state.lifecycle.rank := by
  refine h.mono (R := fun w w' : GateWorld τ =>
    w.shared.state.lifecycle.rank ≤ w'.shared.state.lifecycle.rank) (fun _ => le_rfl)
    (fun _ _ _ => le_trans) ?_ hw
  rintro a ⟨t, e⟩ b ha ⟨s', k', hact, rfl⟩
  have hi := gateInv_reachable ha
  exact (hact.effect (hi.local t) hi.exclusive.owner).1.lifecycle.1

theorem closed_empty (hw : (gateSystem τ).Reachable w)
    (hc : w.shared.state.lifecycle = .closed) : w.shared.guards = [] ∧ w.shared.state.Idle := by
  have hi := gateInv_reachable hw
  have hidle := hi.closed hc
  refine ⟨?_, hidle⟩
  by_contra hne
  have hbusy := hi.exclusive.busy_iff.2 hne
  simp [hidle.1] at hbusy

theorem drained_empty (hw : (gateSystem τ).Reachable w)
    (h : (gateSystem τ).step w (t, .drained (.ok ())) w') {v : GateWorld τ}
    (hv : (gateSystem τ).Leads w' v) :
    v.shared.state.lifecycle = .closed ∧ v.shared.guards = [] ∧ v.shared.state.Idle := by
  have hw' := hw.step h
  have hclosed : w'.shared.state.lifecycle = .closed := by
    have hdrain := (gateInv_reachable hw).draining t
    obtain ⟨s', k', hact, rfl⟩ := h
    generalize w.pc t = k at hact hdrain
    cases hact with
    | admission h => cases h
    | guard h => cases h
    | drain h =>
      cases h with
      | returns hu =>
        have hl := (AdmissionState.unregister_eq_some hu).2.2.2.2.2
        exact hl.trans (hdrain _ List.mem_cons_self)
  have hc : v.shared.state.lifecycle = .closed := by
    have := gate_lifecycle_mono hw' hv
    rw [hclosed] at this
    exact Lifecycle.eq_closed_of_rank this
  exact ⟨hc, closed_empty (hw'.leads hv) hc⟩

/-- **Re-entry is refused, not blocked.**  A call of a thread that acquired the guard that is alive,
or is entering, has one step to take: it returns the refusal and changes nothing. -/
theorem reentry_refused {p : Point} {k : List Point} (hw : (gateSystem τ).Reachable w)
    (hpc : w.pc t = p :: k) (hp : p = .admitEntry ∨ p = .drainEntry)
    (ht : (∃ g ∈ w.shared.guards, g.owner = t) ∨ (role k).Registered) :
    (∃ e w', (gateSystem τ).step w (t, e) w') ∧
      ∀ e w', (gateSystem τ).step w (t, e) w' →
        (e = .refused InputFault.submissionFailed.toError ∨
          e = .drained (.error InputFault.submissionFailed.toError)) ∧
        w'.shared = w.shared ∧ w'.pc t = k := by
  have hi := gateInv_reachable hw
  have hre : w.shared.state.reentrant t = true := by
    rw [AdmissionState.reentrant_eq_true]
    rcases ht with ⟨g, hg, rfl⟩ | hreg
    · exact Or.inl (hi.exclusive.owner g hg)
    · right
      rw [hi.entering t, hpc]
      rcases hp with rfl | rfl <;> exact hreg
  constructor
  · rcases hp with rfl | rfl
    · have hact := GateAct.admission (AdmitAct.reentered (k := k) hre)
      rw [← hpc] at hact
      exact ⟨_, _, _, _, hact, rfl⟩
    · have hact := GateAct.drain (DrainAct.reentered (k := k) hre)
      rw [← hpc] at hact
      exact ⟨_, _, _, _, hact, rfl⟩
  · rintro e w' ⟨s', k', hact, rfl⟩
    simp only [hpc] at hact
    rcases hp with rfl | rfl
    · cases hact with
      | guard h => cases h <;> simp_all [runsOwnCode, Point.callsOut]
      | drain h => cases h <;> simp_all [runsOwnCode, Point.callsOut]
      | admission h =>
        cases h with
        | reentered => exact ⟨Or.inl rfl, rfl, by simp⟩
        | call hrun => simp [runsOwnCode, Point.callsOut] at hrun
        | closed hr | register hr => simp [hre] at hr
    · cases hact with
      | guard h => cases h <;> simp_all [runsOwnCode, Point.callsOut]
      | admission h => cases h; simp_all [runsOwnCode, Point.callsOut]
      | drain h =>
        cases h with
        | reentered => exact ⟨Or.inr rfl, rfl, by simp⟩
        | beginClose hrun | call hrun => simp [runsOwnCode, Point.callsOut] at hrun
        | register hr => simp [hre] at hr

/-- The books of the gate: the counters are the threads in the counted roles, the entering list
holds the registered threads once each, and the gate is busy exactly when a guard is alive. -/
def Booked (w : GateWorld τ) : Prop :=
  Census (fun t => role (w.pc t) = .waiting) w.shared.state.waiters ∧
    Census (fun t => (role (w.pc t)).Admitting) w.shared.state.pendingAdmissions ∧
    w.shared.state.entering.Nodup ∧
    (∀ t, t ∈ w.shared.state.entering ↔ (role (w.pc t)).Registered) ∧
    (w.shared.state.busy = true ↔ w.shared.guards ≠ []) ∧
    ∀ g ∈ w.shared.guards, w.shared.state.owner = some g.owner

/-- **Input admission gate.**  In every reachable world at most one guard is alive and the books are
exact; a refused `admit` leaves nothing behind; a drain succeeds only on a gate that is empty and
stays so; the lifecycle moves one way; a thread that acquired the live guard or is entering is
refused rather than blocked; and no step panics. -/
theorem admission_gate (hw : (gateSystem τ).Reachable w) :
    w.shared.guards.length ≤ 1 ∧ Booked w ∧
      (∀ t error w', (gateSystem τ).step w (t, .refused error) w' → w'.shared = w.shared ∨
        w'.pc t = [] ∧ t ∉ w'.shared.state.entering ∧ ⟨t, none⟩ ∉ w'.shared.guards) ∧
      (∀ t w', (gateSystem τ).step w (t, .drained (.ok ())) w' → ∀ v, (gateSystem τ).Leads w' v →
        v.shared.state.lifecycle = .closed ∧ v.shared.guards = [] ∧ v.shared.state.Idle) ∧
      (∀ w', (gateSystem τ).Leads w w' →
        w.shared.state.lifecycle.rank ≤ w'.shared.state.lifecycle.rank) ∧
      (∀ t p k, w.pc t = p :: k → p = .admitEntry ∨ p = .drainEntry →
        (∃ g ∈ w.shared.guards, g.owner = t) ∨ (role k).Registered →
        (∃ e w', (gateSystem τ).step w (t, e) w') ∧
          ∀ e w', (gateSystem τ).step w (t, e) w' →
            (e = .refused InputFault.submissionFailed.toError ∨
              e = .drained (.error InputFault.submissionFailed.toError)) ∧
            w'.shared = w.shared ∧ w'.pc t = k) ∧
      (∀ t w', ¬ (gateSystem τ).step w (t, .panicked) w') := by
  have hi := gateInv_reachable hw
  refine ⟨hi.exclusive.length_le,
    ⟨hi.waiters, hi.pending, hi.nodup, hi.entering, hi.exclusive.busy_iff, hi.exclusive.owner⟩,
    fun t error w' h => refused_restores hw h, fun t w' h v hv => drained_empty hw h hv,
    fun w' h => gate_lifecycle_mono hw h, fun t p k hpc hp ht => reentry_refused hw hpc hp ht, ?_⟩
  rintro t w' ⟨s', k', hact, -⟩
  exact (hact.effect (hi.local t) hi.exclusive.owner).2.2 rfl

end Runs

/-! ### A thread that waits for itself -/

theorem solo_admit : Solo GateAct false (GateWorld.start Bool).shared []
    [.silent, .silent, .silent, .silent, .admitted]
    ⟨⟨true, some false, 0, 0, .opened, []⟩, [⟨false, some false⟩]⟩ [] :=
  .cons (.admission (.call rfl)) <| .cons (.admission (.register rfl rfl)) <|
    .cons (.admission (.contextAdmitted none rfl)) <|
    .cons (.admission (.claim rfl rfl rfl)) <| .cons (.admission (.commits none rfl)) <| .nil ..

/-- One thread waits for the guard of the other, which then asks for a second one: it does not wait for
itself, and its refusal leaves the gate as it was. -/
theorem admission_gate_sample : ∃ w : GateWorld Bool,
    (w.shared.guards = [⟨false, some false⟩] ∧ w.shared.state.waiters = 1) ∧
    (w.pc true = [.admitWaiting ⟨none⟩] ∧ w.pc false = [.admitEntry]) ∧
    (∃ e w', (gateSystem Bool).step w (false, e) w') ∧
      ∀ e w', (gateSystem Bool).step w (false, e) w' →
        (e = .refused InputFault.submissionFailed.toError ∨
          e = .drained (.error InputFault.submissionFailed.toError)) ∧
        w'.shared = w.shared ∧ w'.pc false = [] := by
  have hwait : Solo GateAct true ⟨⟨true, some false, 0, 0, .opened, []⟩, [⟨false, some false⟩]⟩ []
      [.silent, .silent, .silent, .silent]
      ⟨⟨true, some false, 1, 1, .opened, [true]⟩, [⟨false, some false⟩]⟩ [.admitWaiting ⟨none⟩] :=
    .cons (.admission (.call rfl)) <| .cons (.admission (.register rfl rfl)) <|
      .cons (.admission (.contextAdmitted none rfl)) <|
      .cons (.admission (.waits rfl rfl)) <| .nil ..
  have hcall : Solo GateAct false
      ⟨⟨true, some false, 1, 1, .opened, [true]⟩, [⟨false, some false⟩]⟩ [] [.silent]
      ⟨⟨true, some false, 1, 1, .opened, [true]⟩, [⟨false, some false⟩]⟩ [.admitEntry] :=
    .cons (.admission (.call rfl)) (.nil ..)
  have hw := (((System.Reachable.of_init rfl).leads (S := gateSystem Bool) solo_admit.leads).leads
    hwait.leads).leads hcall.leads
  obtain ⟨-, -, -, -, -, hreentry, -⟩ := admission_gate hw
  obtain ⟨hsteps, hrefused⟩ := hreentry false .admitEntry [] (World.move_pc_self ..) (Or.inl rfl)
    (Or.inl ⟨_, List.mem_singleton_self _, rfl⟩)
  exact ⟨_, ⟨rfl, rfl⟩, ⟨rfl, World.move_pc_self ..⟩, hsteps, hrefused⟩

/-- **A handed-over guard.**  A thread that keeps a guard another thread acquired is not refused: it
can come to wait for the guard it keeps. -/
theorem moved_guard_blocks : ¬ ∀ (w : GateWorld Bool) t, (gateSystem Bool).Reachable w →
    (∃ g ∈ w.shared.guards, g.keeper = some t) → ∀ op, w.pc t ≠ [.admitWaiting op] := by
  intro h
  have hmove : Solo GateAct false (GateWorld.start Bool).shared []
      [.silent, .silent, .silent, .silent, .admitted, .moved]
      ⟨⟨true, some false, 0, 0, .opened, []⟩, [⟨false, some true⟩]⟩ [] :=
    .cons (.admission (.call rfl)) <| .cons (.admission (.register rfl rfl)) <|
      .cons (.admission (.contextAdmitted none rfl)) <|
      .cons (.admission (.claim rfl rfl rfl)) <| .cons (.admission (.commits none rfl)) <|
      .cons (.guard (.move false true rfl (by decide))) <| .nil ..
  have hwait : Solo GateAct true ⟨⟨true, some false, 0, 0, .opened, []⟩, [⟨false, some true⟩]⟩ []
      [.silent, .silent, .silent, .silent]
      ⟨⟨true, some false, 1, 1, .opened, [true]⟩, [⟨false, some true⟩]⟩ [.admitWaiting ⟨none⟩] :=
    .cons (.admission (.call rfl)) <| .cons (.admission (.register rfl rfl)) <|
      .cons (.admission (.contextAdmitted none rfl)) <|
      .cons (.admission (.waits rfl rfl)) <| .nil ..
  have hw := ((System.Reachable.of_init rfl).leads (S := gateSystem Bool) hmove.leads).leads
    hwait.leads
  exact h _ true hw ⟨⟨false, some true⟩, by decide, rfl⟩ ⟨none⟩ (World.move_pc_self ..)

end MadoPilot.Input
