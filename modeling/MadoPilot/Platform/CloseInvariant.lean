import MadoPilot.Platform.WindowsClose

/-!
# Where the native resources of a Windows session are

* `Act.counts`, `Act.rights` : a step moves the resources, and the right to remove the frame handler,
  from one place to another;
* `inv_reachable` : the invariant.
-/

namespace MadoPilot.Platform.WindowsClose

open MadoPilot.Core MadoPilot.Capture MadoPilot.Lib

/-- The resources have been taken from the runtime state `earlier`, and nothing else has changed. -/
structure Took (r earlier : RuntimeState) : Prop where
  now : r = { earlier with resources := false }
  had : earlier.resources = true
  task : earlier.closeTask = false
  result : earlier.closeResult = none

theorem Took.restored {r earlier : RuntimeState} (h : Took r earlier) :
    { r with resources := true } = earlier := by
  rw [h.now]
  show ({ earlier with resources := true } : RuntimeState) = earlier
  rw [← h.had]

section Places

variable {τ : Type*}

def Pc.Fits (s : Shared τ) : Pc → Prop
  | removingNative => s.runtime.resources = true
  | starting drop => drop = true → s.alive = false
  | abandoning => s.alive = false
  | sending drop earlier => (drop = true → s.alive = false) ∧ Took s.runtime earlier
  | restarting earlier | resending earlier => Took s.runtime earlier
  | committing result | settling result => s.runtime.closeResult = some result
  | finishing => ∃ result, s.runtime.closeResult = some result ∧
      (result = none ∨ s.runtime.closeFaultReported = true)
  | _ => True

/-- The parts of a sum that count the resources apart from those that threads carry. -/
def Shared.held (s : Shared τ) : ℕ :=
  s.runtime.resources.toNat + s.queue.length + s.quarantined + s.released

/-- The right to remove the frame handler, unused, on its way in the queue, or used. -/
def Shared.handler (s : Shared τ) : ℕ :=
  (!s.runtime.frameHandlerRemoved).toNat + s.queue.countP TeardownJob.removeFrameHandler + s.removed

variable {t : τ} {s s' : Shared τ} {pc pc' pcu : Pc} {e : Event}

theorem Act.counts (h : Act t s pc e s' pc') (hfits : pc.Fits s) :
    s'.held + pc'.carries.toNat = s.held + pc.carries.toNat := by
  have hrestore : ∀ {earlier : RuntimeState}, Took s.runtime earlier →
      s.restore.held = s.held + 1 := by
    intro earlier htook
    have hnone : s.runtime.resources = false := by rw [htook.now]
    unfold Shared.held Shared.restore
    simp only [hnone, Bool.toNat_true, Bool.toNat_false]
    omega
  cases h with
  | marksRemoved =>
    cases s.runtime.resources with
    | true => rfl
    | false => rfl
  | @started drop | @nothingLeft drop =>
    cases drop with
    | true => rfl
    | false => rfl
  | takes _ _ hresources =>
    unfold Shared.held Shared.take
    simp only [hresources, Bool.toNat_true, Bool.toNat_false, Pc.carries]
    omega
  | @sends drop =>
    have hpc : (afterStart drop).carries = false := by cases drop <;> rfl
    rw [hpc]
    unfold Shared.held Shared.sent
    simp only [List.length_append, List.length_singleton, Pc.carries, Bool.toNat_true, Bool.toNat_false]
    omega
  | resends =>
    unfold Shared.held Shared.sent
    simp only [List.length_append, List.length_singleton, Pc.carries, Bool.toNat_true,
      Bool.toNat_false]
    omega
  | unsent | unsentDrop =>
    have hone := hrestore hfits.2
    exact hone
  | restartFails | unsentAgain =>
    have hone := hrestore hfits
    exact hone
  | abandons =>
    unfold Shared.held
    cases s.runtime.resources with
    | true =>
      simp only [Bool.toNat_true, Bool.toNat_false, if_true, Pc.carries]
      omega
    | false =>
      simp only [Bool.toNat_false, Bool.false_eq_true, if_false, Pc.carries]
      omega
  | work hqueue =>
    unfold Shared.held
    simp only [hqueue, List.length_cons, Pc.carries, Bool.toNat_true, Bool.toNat_false]
    omega
  | workCloses =>
    unfold Shared.held
    simp only [Pc.carries, Bool.toNat_true, Bool.toNat_false]
    omega
  | _ => rfl

theorem Act.rights (h : Act t s pc e s' pc') (hfits : pc.Fits s)
    (hthere : pc = .removing → s.runtime.frameHandlerRemoved = false → s.runtime.resources = true) :
    s'.handler + pc'.removes.toNat = s.handler + pc.removes.toNat := by
  have hsent : ∀ {drop : Bool} {earlier : RuntimeState}, Took s.runtime earlier →
      (s.sent (jobOf drop earlier)).handler = s.handler := by
    intro drop earlier htook
    have hflag : s.runtime.frameHandlerRemoved = earlier.frameHandlerRemoved := by rw [htook.now]
    unfold Shared.handler Shared.sent jobOf
    rw [List.countP_append, hflag]
    cases earlier.frameHandlerRemoved with
    | true =>
      simp
    | false =>
      simp
      omega
  cases h with
  | marksRemoved hflag =>
    rw [if_pos (hthere rfl hflag)]
    unfold Shared.handler
    simp only [hflag, Pc.removes, Bool.not_true, Bool.not_false, Bool.toNat_true, Bool.toNat_false]
    omega
  | @started drop | @nothingLeft drop =>
    cases drop with
    | true => rfl
    | false => rfl
  | @sends drop =>
    have hpc : (afterStart drop).removes = false := by cases drop <;> rfl
    rw [hpc, hsent hfits.2]
    rfl
  | resends =>
    rw [hsent hfits]
    rfl
  | removes | workRemoves =>
    unfold Shared.handler
    simp only [Pc.removes, Bool.toNat_true, Bool.toNat_false]
    omega
  | @work job queue hqueue =>
    unfold Shared.handler
    rw [hqueue, List.countP_cons]
    simp only [Pc.removes, Bool.toNat_false]
    cases job.removeFrameHandler with
    | true =>
      simp only [Bool.toNat_true, if_true]
      omega
    | false => rfl
  | _ => rfl

theorem Act.calls (h : Act t s pc e s' pc') (hpos : pc.calling = true → 0 < s.calls) :
    s'.calls + pc.calling.toNat = s.calls + pc'.calling.toNat := by
  have hleave : pc.calling = true → s.calls - 1 + pc.calling.toNat = s.calls + Bool.toNat false := by
    intro hcalling
    have hlt := hpos hcalling
    rw [hcalling]
    show s.calls - 1 + 1 = s.calls + 0
    omega
  cases h with
  | marksRemoved =>
    cases s.runtime.resources with
    | true => rfl
    | false => rfl
  | @started drop | @nothingLeft drop | @takes drop | @sends drop =>
    cases drop with
    | true => rfl
    | false => rfl
  | gateLate | drainLate | admitLate | unsent | restartFails | unsentAgain | expires | commitLate |
    reports | finishLate | finishes => exact hleave rfl
  | _ => rfl

theorem Act.alive (h : Act t s pc e s' pc') (hdead : s.alive = false) : s'.alive = false := by
  cases h with
  | drop => rfl
  | _ => exact hdead

theorem Act.dropped (h : Act t s pc e s' pc') (hcalls : s.alive = false → s.calls = 0)
    (hdead : s'.alive = false) : s'.calls = 0 := by
  have hless : s.alive = false → s.calls - 1 = 0 := fun hd => by rw [hcalls hd]
  cases h with
  | call halive =>
    rw [show s.alive = false from hdead] at halive
    cases halive
  | gateLate | drainLate | admitLate | unsent | restartFails | unsentAgain | expires | commitLate |
    reports | finishLate | finishes => exact hless hdead
  | drop _ hzero => exact hzero
  | _ => exact hcalls hdead

theorem Act.quarantined (h : Act t s pc e s' pc') (hfits : pc.Fits s)
    (hold : 0 < s.quarantined → s.alive = false) (hnew : 0 < s'.quarantined) : s'.alive = false := by
  cases h with
  | abandons => exact hfits
  | drop => rfl
  | _ => exact hold hnew

theorem Act.stays_unsent (h : Act t s pc e s' pc')
    (hold : s.runtime.frameHandlerRemoved = false →
      s.queue = [] ∧ s.released = 0 ∧ pc.tears = false)
    (hflag : s'.runtime.frameHandlerRemoved = false) :
    s.runtime.frameHandlerRemoved = false ∧ s'.queue = [] ∧ s'.released = 0 ∧ pc'.tears = false := by
  cases h with
  | marksRemoved | sends | resends => cases hflag
  | @started drop | @nothingLeft drop =>
    obtain ⟨hqueue, hreleased, -⟩ := hold hflag
    cases drop with
    | true => exact ⟨hflag, hqueue, hreleased, rfl⟩
    | false => exact ⟨hflag, hqueue, hreleased, rfl⟩
  | work hqueue =>
    have hempty := (hold hflag).1
    rw [hqueue] at hempty
    cases hempty
  | workRemoves | workSkips | workDrains | workCloses => cases (hold hflag).2.2
  | _ => exact ⟨hflag, (hold hflag).1, (hold hflag).2.1, rfl⟩

theorem Act.told (h : Act t s pc e s' pc') (hfits : pc.Fits s)
    (hold : s.runtime.closeFaultReported = true → ∃ fault, s.runtime.closeResult = some (some fault))
    (hreported : s'.runtime.closeFaultReported = true) :
    ∃ fault, s'.runtime.closeResult = some (some fault) := by
  have hkept : s.runtime.closeFaultReported = true →
      ∃ fault, s'.runtime.closeResult = some (some fault) := by
    intro hbefore
    obtain ⟨fault, hresult⟩ := hold hbefore
    exact ⟨fault, h.recorded_stays hresult⟩
  cases h with
  | reports => exact ⟨_, hfits⟩
  | _ => exact hkept hreported

theorem Act.fits (h : Act t s pc e s' pc') (hfits : pc.Fits s) : pc'.Fits s' := by
  cases h with
  | marksRemoved =>
    cases hresources : s.runtime.resources with
    | true => exact hresources
    | false => trivial
  | admits => exact nofun
  | @started drop | @nothingLeft drop =>
    cases drop with
    | true => exact hfits rfl
    | false => trivial
  | takes htask hresult hresources => exact ⟨hfits, rfl, hresources, htask, hresult⟩
  | @sends drop =>
    cases drop with
    | true => exact hfits.1 rfl
    | false => trivial
  | unsentDrop => exact hfits.1 rfl
  | disconnected => exact hfits.2
  | restarts => exact hfits
  | recorded hresult => exact hresult
  | receives | lost | untasked => rfl
  | commits => exact hfits
  | clean => exact ⟨none, hfits, Or.inl rfl⟩
  | toldBefore hreported => exact ⟨_, hfits, Or.inr hreported⟩
  | drop => exact fun _ => rfl
  | _ => trivial

theorem Pc.Fits.other (h : pcu.Fits s) (hruntime : pcu.gated = true → s'.runtime = s.runtime)
    (halive : s.alive = false → s'.alive = false) : pcu.Fits s' := by
  cases pcu with
  | removingNative | restarting | resending | committing | settling | finishing =>
    unfold Pc.Fits
    rw [hruntime rfl]
    exact h
  | starting => exact fun hdrop => halive (h hdrop)
  | abandoning => exact halive h
  | sending =>
    refine ⟨fun hdrop => halive (h.1 hdrop), ?_⟩
    rw [hruntime rfl]
    exact h.2
  | _ => trivial

end Places

/-! ### The invariant -/

structure Inv {τ : Type*} (w : CloseWorld τ) : Prop where
  gate : Mutex.Fits w.shared.gate fun t => (w.pc t).gated
  calls : Census (fun t => (w.pc t).calling = true) w.shared.calls
  dropped : w.shared.alive = false → w.shared.calls = 0
  quarantined : 0 < w.shared.quarantined → w.shared.alive = false
  resources : ∃ n, Census (fun t => (w.pc t).carries = true) n ∧ w.shared.held + n = 1
  handler : ∃ n, Census (fun t => (w.pc t).removes = true) n ∧ w.shared.handler + n = 1
  /-- Nothing has been sent while the handler is there. -/
  unsent : w.shared.runtime.frameHandlerRemoved = false →
    w.shared.queue = [] ∧ w.shared.released = 0 ∧ ∀ t, (w.pc t).tears = false
  told : w.shared.runtime.closeFaultReported = true →
    ∃ fault, w.shared.runtime.closeResult = some (some fault)
  fits : ∀ t, (w.pc t).Fits w.shared

section Inv

variable {τ : Type*} [DecidableEq τ] {w : CloseWorld τ} {t : τ} {s' : Shared τ} {pc' : Pc} {e : Event}

omit [DecidableEq τ] in
theorem Inv.there (h : Inv w) (hpc : w.pc t = .removing)
    (hflag : w.shared.runtime.frameHandlerRemoved = false) : w.shared.runtime.resources = true := by
  obtain ⟨n, hcensus, hsum⟩ := h.resources
  obtain ⟨hqueue, hreleased, htears⟩ := h.unsent hflag
  have hgated : (w.pc t).gated = true := by rw [hpc]; rfl
  have hzero : n = 0 := by
    refine hcensus.eq_zero_iff.mpr fun u hu => ?_
    -- a thread that carries the resources is behind the gate too, or works on a job
    have hnotears := htears u
    have hcarries : (w.pc u).gated = true := by
      cases hpcu : w.pc u with
      | working | workingDrain | workingClose =>
        rw [hpcu] at hnotears
        cases hnotears
      | sending | restarting | resending => rfl
      | _ =>
        rw [hpcu] at hu
        cases hu
    obtain rfl : u = t := h.gate.unique hcarries hgated
    rw [hpc] at hu
    cases hu
  have halive : w.shared.quarantined = 0 := by
    by_contra hne
    have hnobody := h.dropped (h.quarantined (Nat.pos_of_ne_zero hne))
    have hcalling : (w.pc t).calling = true := by rw [hpc]; rfl
    have hpos := h.calls.pos hcalling
    omega
  unfold Shared.held at hsum
  rw [hqueue, hreleased, halive, hzero] at hsum
  cases hresources : w.shared.runtime.resources with
  | true => rfl
  | false =>
    rw [hresources] at hsum
    cases hsum

theorem Inv.step (h : Inv w) (ha : Act t w.shared (w.pc t) e s' pc') : Inv (w.move t s' pc') := by
  have hfits := h.fits t
  refine ⟨Mutex.Fits.step (f := Shared.gate) (b := Pc.gated) h.gate ha.move, ?_,
    ha.dropped h.dropped, ha.quarantined hfits h.quarantined, ?_, ?_, ?_, ?_, fun u => ?_⟩
  · obtain ⟨n, hcensus, hcount⟩ := h.calls.move (t := t) (a := pc')
    have hcalls := ha.calls fun hcalling => h.calls.pos hcalling
    have hsame : n = s'.calls := by omega
    exact hsame ▸ hcensus
  · obtain ⟨n, hcensus, hsum⟩ := h.resources
    obtain ⟨n', hcensus', hcount⟩ := hcensus.move (t := t) (a := pc')
    refine ⟨n', hcensus', ?_⟩
    have hcounts := ha.counts hfits
    show s'.held + n' = 1
    omega
  · obtain ⟨n, hcensus, hsum⟩ := h.handler
    obtain ⟨n', hcensus', hcount⟩ := hcensus.move (t := t) (a := pc')
    refine ⟨n', hcensus', ?_⟩
    have hrights := ha.rights hfits fun hpc hflag => h.there hpc hflag
    show s'.handler + n' = 1
    omega
  · intro hflag
    have hflag' : s'.runtime.frameHandlerRemoved = false := hflag
    have hold : w.shared.runtime.frameHandlerRemoved = false →
        w.shared.queue = [] ∧ w.shared.released = 0 ∧ (w.pc t).tears = false := by
      intro hback
      obtain ⟨hqueue, hreleased, htears⟩ := h.unsent hback
      exact ⟨hqueue, hreleased, htears t⟩
    obtain ⟨hback, hqueue, hreleased, htears⟩ := ha.stays_unsent hold hflag'
    exact ⟨hqueue, hreleased, World.forall_move w t s' pc' (P := fun pc => Pc.tears pc = false) htears
      fun u _ => (h.unsent hback).2.2 u⟩
  · exact ha.told hfits h.told
  · refine World.forall_move w t s' pc' (P := Pc.Fits s') (ha.fits hfits) (fun u hu => ?_) u
    refine (h.fits u).other (fun hgated => ha.runtime ?_) ha.alive
    by_contra hne
    exact hu (h.gate.unique hgated (by simpa using hne))

theorem inv_reachable (hw : (closeSystem τ).Reachable w) : Inv w := by
  refine threads_invariant (P := Inv) ?_ (fun w t e s' pc' _ hinv ha => hinv.step ha) hw
  exact ⟨Mutex.Fits.start, Census.zero fun _ => Bool.false_ne_true, nofun, nofun,
    ⟨0, Census.zero fun _ => Bool.false_ne_true, rfl⟩, ⟨0, Census.zero fun _ => Bool.false_ne_true, rfl⟩,
    fun _ => ⟨rfl, rfl, fun _ => rfl⟩, nofun, fun _ => trivial⟩

end Inv

end MadoPilot.Platform.WindowsClose
