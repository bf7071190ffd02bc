import MadoPilot.Core.Operation
import MadoPilot.Lib.Census
import MadoPilot.Lib.Threads

/-!
# The frame callbacks of a Windows session

Callbacks are admitted by the `CallbackControl` of their session; `close` and `drop` stop the admission,
and the native resources are torn down behind a drain.  A step is one section under the mutex of the
control, one consultation of the caller's context or one hand-over of a teardown job.  Any thread may be
a callback, call `close` or `drop`, or work for the teardown executor, and any number of drains may run
at the same time.

* `Act.change` : what a step does to the control;
* `inv_reachable` : the invariant.
-/

namespace MadoPilot.Platform.WindowsCallbacks

open MadoPilot.Core MadoPilot.Lib

structure CallbackState where
  accepting : Bool
  active : ℕ
  fenced : Bool

namespace CallbackState

def default : CallbackState := ⟨true, 0, false⟩

def admits (c : CallbackState) : Bool := !(!c.accepting || c.fenced)

def enter (c : CallbackState) : CallbackState := { c with active := c.active + 1 }

def stopAdmission (c : CallbackState) : CallbackState := { c with accepting := false }

/-- A `CallbackLease` is dropped; the subtraction saturates. -/
def leave (c : CallbackState) : CallbackState := { c with active := c.active - 1 }

def fence (c : CallbackState) : CallbackState := { c with fenced := true }

end CallbackState

/-- The control, and the teardown jobs on their way to a worker, each with its `drain_callbacks`. -/
structure Shared where
  control : CallbackState
  jobs : List Bool

/-- Where a thread stands: in a callback, in `close` or `drop`, or in `TeardownJob::run`. -/
inductive Pc where
  | idle
  | running
  | stopped
  | admitting
  | looking (attempt : Operation)
  | confirming (attempt : Operation)
  | committing (attempt : Operation)
  | fencing
  | waiting (attempt : Operation)
  | drained
  | sweeping
  | sweptZero
  | sweepWaiting
  | tearing

/-- What a step shows.  `drained` is an answer of `drain`, `swept` the end of
`drain_uninterruptible`. -/
inductive Event where
  | silent
  | admitted
  | refused
  | dropped
  | stopped
  | consulted (seen : Option Interruption)
  | drained (result : Except Error Unit)
  | swept
  | released

section Acts

variable {τ : Type*}

/-- The steps of a thread.  `seen` is what the caller's context answers when it is consulted. -/
inductive Act (t : τ) : Shared → Pc → Event → Shared → Pc → Prop
  | enter {s : Shared} : s.control.admits = true →
      Act t s .idle .admitted { s with control := s.control.enter } .running
  | refuse {s : Shared} : s.control.admits = false → Act t s .idle .refused s .idle
  | drop {s : Shared} : Act t s .running .dropped { s with control := s.control.leave } .idle
  /-- `fail_native`, or the handler of `Closed`. -/
  | stopInside {s : Shared} :
      Act t s .running .stopped { s with control := s.control.stopAdmission } .running
  | stop {s : Shared} :
      Act t s .idle .stopped { s with control := s.control.stopAdmission } .stopped
  /-- The gate of `close` is not reached, or nothing is left to tear down. -/
  | turnBack {s : Shared} : Act t s .stopped .silent s .idle
  | drain {s : Shared} : Act t s .stopped .silent s .admitting
  | turnedAway {s : Shared} (seen : Option Interruption) {i : Interruption} :
      Operation.admitContext seen = .error i →
      Act t s .admitting (.drained (.error i.toError)) s .idle
  | begin {s : Shared} (seen : Option Interruption) {op : Operation} :
      Operation.admitContext seen = .ok op →
      Act t s .admitting (.consulted seen) s (.looking op)
  | seesFence {s : Shared} {op : Operation} : s.control.fenced = true →
      Act t s (.looking op) .silent s (.confirming op)
  | seesZero {s : Shared} {op : Operation} : s.control.fenced = false → s.control.active = 0 →
      Act t s (.looking op) .silent s (.committing op)
  | seesActive {s : Shared} {op : Operation} : s.control.fenced = false → s.control.active ≠ 0 →
      Act t s (.looking op) .silent s (.waiting op)
  | confirms {s : Shared} {op : Operation} (seen : Option Interruption) :
      op.commit seen () = .ok () →
      Act t s (.confirming op) (.drained (.ok ())) s .drained
  | confirmsLate {s : Shared} {op : Operation} (seen : Option Interruption) {i : Interruption} :
      op.commit seen () = .error i →
      Act t s (.confirming op) (.drained (.error i.toError)) s .idle
  | commits {s : Shared} {op : Operation} (seen : Option Interruption) :
      op.commit seen () = .ok () →
      Act t s (.committing op) (.consulted seen) s .fencing
  | commitsLate {s : Shared} {op : Operation} (seen : Option Interruption) {i : Interruption} :
      op.commit seen () = .error i →
      Act t s (.committing op) (.drained (.error i.toError)) s .idle
  | fence {s : Shared} :
      Act t s .fencing (.drained (.ok ())) { s with control := s.control.fence } .drained
  | expires {s : Shared} {op op' : Operation} (seen : Option Interruption) {i : Interruption} :
      op.checkpoint seen = (.error i, op') →
      Act t s (.waiting op) (.drained (.error i.toError)) s .idle
  | wakes {s : Shared} {op op' : Operation} (seen : Option Interruption) :
      op.checkpoint seen = (.ok (), op') →
      Act t s (.waiting op) (.consulted seen) s (.looking op')
  /-- `close` starts the native close behind its drain, or does not get that far. -/
  | send {s : Shared} : Act t s .drained .silent { s with jobs := s.jobs ++ [false] } .idle
  | keep {s : Shared} : Act t s .drained .silent s .idle
  /-- `drop` has not drained. -/
  | abandon {s : Shared} : Act t s .stopped .silent { s with jobs := s.jobs ++ [true] } .idle
  | work {s : Shared} {jobs : List Bool} : s.jobs = false :: jobs →
      Act t s .idle .silent { s with jobs := jobs } .tearing
  | workDrain {s : Shared} {jobs : List Bool} : s.jobs = true :: jobs →
      Act t s .idle .silent { s with jobs := jobs } .sweeping
  | sweepFenced {s : Shared} : s.control.fenced = true → Act t s .sweeping .swept s .tearing
  | sweepZero {s : Shared} : s.control.fenced = false → s.control.active = 0 →
      Act t s .sweeping .silent s .sweptZero
  | sweepActive {s : Shared} : s.control.fenced = false → s.control.active ≠ 0 →
      Act t s .sweeping .silent s .sweepWaiting
  | sweepFence {s : Shared} : s.control.active = 0 →
      Act t s .sweptZero .swept { s with control := s.control.fence } .tearing
  | sweepAgain {s : Shared} : s.control.active ≠ 0 → Act t s .sweptZero .silent s .sweeping
  | sweepWakes {s : Shared} : Act t s .sweepWaiting .silent s .sweeping
  | release {s : Shared} : Act t s .tearing .released s .idle

end Acts

abbrev CallbackWorld (τ : Type*) := World τ Shared Pc

def CallbackWorld.start (τ : Type*) : CallbackWorld τ := ⟨⟨.default, []⟩, fun _ => .idle⟩

abbrev callbackSystem (τ : Type*) [DecidableEq τ] : System (CallbackWorld τ) (τ × Event) :=
  threads Act (CallbackWorld.start τ)

/-! ### What a step does to the control -/

/-- The changes of the control, with where the thread stands before and after and what it shows. -/
inductive Change : CallbackState → Pc → Event → CallbackState → Pc → Prop
  | stay {c : CallbackState} {pc pc' : Pc} {e : Event} : (pc' = .running ↔ pc = .running) →
      e ≠ .admitted → e ≠ .dropped → Change c pc e c pc'
  | enter {c : CallbackState} : c.accepting = true → c.fenced = false →
      Change c .idle .admitted c.enter .running
  | leave {c : CallbackState} : Change c .running .dropped c.leave .idle
  | stop {c : CallbackState} {pc pc' : Pc} : (pc' = .running ↔ pc = .running) →
      Change c pc .stopped c.stopAdmission pc'
  | fence {c : CallbackState} {pc pc' : Pc} {e : Event} : pc = .fencing ∨ c.active = 0 →
      pc ≠ .running → pc' ≠ .running → e ≠ .admitted → e ≠ .dropped → Change c pc e c.fence pc'

section Steps

variable {τ : Type*} {t : τ} {s s' : Shared} {pc pc' : Pc} {e : Event}

theorem Act.change (h : Act t s pc e s' pc') : Change s.control pc e s'.control pc' := by
  have hrest : ∀ {p p' : Pc}, p ≠ .running → p' ≠ .running → (p' = .running ↔ p = .running) :=
    fun hp hp' => iff_of_false hp' hp
  cases h with
  | enter hadmits =>
    unfold CallbackState.admits at hadmits
    simp only [Bool.not_or, Bool.not_not, Bool.and_eq_true, Bool.not_eq_true'] at hadmits
    exact .enter hadmits.1 hadmits.2
  | drop => exact .leave
  | stopInside => exact .stop Iff.rfl
  | stop => exact .stop (hrest nofun nofun)
  | fence => exact .fence (Or.inl rfl) nofun nofun nofun nofun
  | sweepFence hzero => exact .fence (Or.inr hzero) nofun nofun nofun nofun
  | refuse => exact .stay Iff.rfl nofun nofun
  | _ => exact .stay (hrest nofun nofun) nofun nofun

end Steps

/-! ### The invariant -/

/-- What holds at the place of a thread. -/
def Pc.Fits (c : CallbackState) : Pc → Prop
  | idle | running => True
  | stopped | admitting | looking _ | waiting _ | sweeping | sweptZero | sweepWaiting =>
    c.accepting = false
  | committing _ | fencing => c.accepting = false ∧ c.active = 0
  | confirming _ | drained | tearing => c.fenced = true

def JobFits (c : CallbackState) (drain : Bool) : Prop :=
  if drain = true then c.accepting = false else c.fenced = true

structure Inv {τ : Type*} (w : CallbackWorld τ) : Prop where
  census : Census (fun t => w.pc t = .running) w.shared.control.active
  quiet : w.shared.control.fenced = true → w.shared.control.active = 0
  fits : ∀ t, (w.pc t).Fits w.shared.control
  jobs : ∀ drain ∈ w.shared.jobs, JobFits w.shared.control drain

section Inv

variable {c c' : CallbackState} {pc pc' pcu : Pc} {e : Event}

theorem Change.flags (h : Change c pc e c' pc') :
    (c.accepting = false → c'.accepting = false) ∧ (c.fenced = true → c'.fenced = true) := by
  cases h with
  | stop => exact ⟨fun _ => rfl, id⟩
  | fence => exact ⟨id, fun _ => rfl⟩
  | _ => exact ⟨id, id⟩

theorem Change.zero (h : Change c pc e c' pc') (hstop : c.accepting = false) (hzero : c.active = 0) :
    c'.active = 0 := by
  cases h with
  | enter haccepting =>
    rw [hstop] at haccepting
    cases haccepting
  | leave =>
    show c.active - 1 = 0
    rw [hzero]
  | _ => exact hzero

theorem Change.fits (h : Change c pc e c' pc') (hu : pcu.Fits c) : pcu.Fits c' := by
  cases pcu with
  | idle | running => trivial
  | committing | fencing => exact ⟨h.flags.1 hu.1, h.zero hu.1 hu.2⟩
  | confirming | drained | tearing => exact h.flags.2 hu
  | stopped | admitting | looking | waiting | sweeping | sweptZero | sweepWaiting => exact h.flags.1 hu

theorem Change.jobFits {drain : Bool} (h : Change c pc e c' pc') (hjob : JobFits c drain) :
    JobFits c' drain := by
  unfold JobFits at hjob ⊢
  split_ifs at hjob ⊢ with hdrain
  · exact h.flags.1 hjob
  · exact h.flags.2 hjob

variable {τ : Type*} {t : τ} {s s' : Shared}

theorem Act.fits (h : Act t s pc e s' pc') (hpc : pc.Fits s.control)
    (hjobs : ∀ drain ∈ s.jobs, JobFits s.control drain) : pc'.Fits s'.control := by
  cases h with
  | stop => rfl
  | seesFence hfenced | sweepFenced hfenced => exact hfenced
  | seesZero _ hzero => exact ⟨hpc, hzero⟩
  | fence | sweepFence => rfl
  | work hjob => exact hjobs false (by rw [hjob]; exact List.mem_cons_self)
  | workDrain hjob => exact hjobs true (by rw [hjob]; exact List.mem_cons_self)
  | enter | refuse | drop | stopInside | turnBack | turnedAway | confirmsLate | commitsLate | expires |
    send | keep | abandon | release => trivial
  | _ => exact hpc

theorem Act.jobs (h : Act t s pc e s' pc') (hpc : pc.Fits s.control)
    (hjobs : ∀ drain ∈ s.jobs, JobFits s.control drain) : ∀ drain ∈ s'.jobs, JobFits s'.control drain := by
  have hkept : ∀ drain ∈ s.jobs, JobFits s'.control drain := fun drain hmem =>
    h.change.jobFits (hjobs drain hmem)
  cases h with
  | send =>
    intro drain hmem
    rcases List.mem_append.mp hmem with hold | hnew
    · exact hkept drain hold
    · rw [List.mem_singleton.mp hnew]
      exact hpc
  | abandon =>
    intro drain hmem
    rcases List.mem_append.mp hmem with hold | hnew
    · exact hkept drain hold
    · rw [List.mem_singleton.mp hnew]
      exact hpc
  | work hjob | workDrain hjob =>
    intro drain hmem
    exact hkept drain (by rw [hjob]; exact List.mem_cons_of_mem _ hmem)
  | _ => exact hkept

variable [DecidableEq τ] {w : CallbackWorld τ}

theorem Change.census (h : Change w.shared.control (w.pc t) e c' pc')
    (hcensus : Census (fun u => w.pc u = .running) w.shared.control.active) :
    Census (fun u => Function.update w.pc t pc' u = .running) c'.active := by
  have hstay : (pc' = .running ↔ w.pc t = .running) →
      Census (fun u => Function.update w.pc t pc' u = .running) w.shared.control.active := fun hiff =>
    Census.stay (P := fun p : Pc => p = .running) hcensus hiff
  generalize hold : w.pc t = pc at h hstay
  cases h with
  | enter =>
    have hidle : ¬ w.pc t = .running := by
      rw [hold]
      nofun
    exact Census.enter (P := fun p : Pc => p = .running) hcensus hidle rfl
  | leave => exact Census.leave (P := fun p : Pc => p = .running) hcensus hold nofun
  | stay hiff | stop hiff => exact hstay hiff
  | fence _ hne hne' => exact hstay (iff_of_false hne' hne)

theorem Inv.step {s' : Shared} (h : Inv w) (ha : Act t w.shared (w.pc t) e s' pc') :
    Inv (w.move t s' pc') := by
  refine ⟨ha.change.census h.census, fun hfenced => ?_, fun u => ?_, ha.jobs (h.fits t) h.jobs⟩
  · have hchange := ha.change
    have hfits := h.fits t
    have hquiet := h.quiet
    have hfenced' : s'.control.fenced = true := hfenced
    show s'.control.active = 0
    generalize hc' : s'.control = c' at hchange hfenced' ⊢
    generalize hpc : w.pc t = pc at hchange hfits
    cases hchange with
    | enter _ hopen =>
      rw [show w.shared.control.fenced = true from hfenced'] at hopen
      cases hopen
    | leave =>
      show w.shared.control.active - 1 = 0
      rw [hquiet hfenced']
    | stay | stop => exact hquiet hfenced'
    | fence hzero =>
      rcases hzero with rfl | hzero
      · exact hfits.2
      · exact hzero
  · exact World.forall_move _ _ _ _ (P := Pc.Fits s'.control) (ha.fits (h.fits t) h.jobs)
      (fun u _ => ha.change.fits (h.fits u)) u

theorem inv_reachable (hw : (callbackSystem τ).Reachable w) : Inv w := by
  refine threads_invariant (P := Inv) ?_ (fun w t e s' pc' _ hinv ha => hinv.step ha) hw
  exact ⟨Census.zero fun _ => nofun, nofun, fun _ => trivial, (fun _ hmem => by cases hmem)⟩

end Inv

end MadoPilot.Platform.WindowsCallbacks
