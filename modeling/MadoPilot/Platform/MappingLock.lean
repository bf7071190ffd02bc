import MadoPilot.Lib.Mutex
import MadoPilot.Platform.MacosMapping
import MadoPilot.Platform.WindowsFlight
import MadoPilot.Platform.WindowsMapping

/-!
# The caller's context and the mapping mutex

The mappings of both platforms once more, with the sections under the mapping mutex opened: taking the
mutex, looking at the cache, consulting the context and giving the mutex back are steps of their own.
Outside these sections a thread does what it does in the models of the mappings.

* `Windows.consults_locked_iff` : where a Windows mapping consults the context under the mutex;
* `context_and_mutex` : the law of the consultations.
-/

namespace MadoPilot.Platform.MappingLock

open MadoPilot.Core MadoPilot.Lib
open MadoPilot.Capture (CaptureFault)

/-! ### Windows -/

namespace Windows

open WindowsMapping (Shared Event)

/-- Where a thread stands: outside the opened sections, or under the mutex in one of them. -/
inductive Pc where
  | outside (pc : WindowsMapping.Pc)
  | locked (attempt : Operation)
  | cached (attempt : Operation) (pixels : ℕ)
  | woken (attempt : Operation)

/-- The next step takes the mutex of a section opened here. -/
def takes : WindowsMapping.Pc → Bool
  | .searching _ | .waiting _ => true
  | _ => false

def Pc.holds : Pc → Bool
  | outside (.clearing _) | outside (.caching _) => true
  | outside _ => false
  | locked _ | cached .. | woken _ => true

/-- The step consults the caller's context, itself or inside `read_texture`. -/
def consults : Event → Bool
  | .consulted .. | .converted _ => true
  | _ => false

variable {τ : Type*}

/-- The steps of a thread in `read_cpu`. -/
inductive Act (t : τ) : Shared τ → Pc → Event → Shared τ → Pc → Prop
  | outside {s s' : Shared τ} {pc pc' : WindowsMapping.Pc} {e : Event} : takes pc = false →
      WindowsMapping.Act t s pc e s' pc' → Act t s (.outside pc) e s' (.outside pc')
  | lock {s : Shared τ} {op : Operation} : s.holder = none →
      Act t s (.outside (.searching op)) .silent { s with holder := some t } (.locked op)
  | hit {s : Shared τ} {op : Operation} {p : ℕ} : s.pixels = some p →
      Act t s (.locked op) .silent s (.cached op p)
  /-- The guard is dropped on the way out, after the commit. -/
  | commitHit {s : Shared τ} {op : Operation} {p : ℕ} (seen : Option Interruption) :
      Act t s (.cached op p) (.consulted seen none) { s with holder := none }
        (.outside (.returning ((op.commit seen p).mapError Interruption.toError)))
  | terminal {s : Shared τ} {op : Operation} {fault : CaptureFault} :
      s.pixels = none → s.terminal.fault = some fault →
      Act t s (.locked op) (.observed fault none) { s with holder := none }
        (.outside (.returning (.error fault.toError)))
  | start {s : Shared τ} {op : Operation} :
      s.pixels = none → s.terminal.fault = none → s.active = false →
      Act t s (.locked op) .silent { s with active := true, holder := none }
        (.outside (.converting op))
  | waits {s : Shared τ} {op : Operation} :
      s.pixels = none → s.terminal.fault = none → s.active = true →
      Act t s (.locked op) .silent { s with holder := none } (.outside (.waiting op))
  /-- `wait_timeout` returns with the mutex. -/
  | wakes {s : Shared τ} {op : Operation} : s.holder = none →
      Act t s (.outside (.waiting op)) .silent { s with holder := some t } (.woken op)
  | expires {s : Shared τ} {op op' : Operation} (seen : Option Interruption) {i : Interruption} :
      op.checkpoint seen = (.error i, op') →
      Act t s (.woken op) (.consulted seen none) { s with holder := none }
        (.outside (.returning (.error i.toError)))
  | again {s : Shared τ} {op op' : Operation} (seen : Option Interruption) :
      op.checkpoint seen = (.ok (), op') →
      Act t s (.woken op) (.consulted seen none) { s with holder := none }
        (.outside (.searching op'))

/-- The callers of one storage and what they share. -/
abbrev MappingWorld (τ : Type*) := World τ (Shared τ) Pc

/-- A storage nobody has mapped, on a device that may have failed before. -/
def MappingWorld.start (τ : Type*) (terminal : WindowsMapping.DeviceTerminal) : MappingWorld τ :=
  ⟨⟨false, none, none, terminal, 0⟩, fun _ => .outside .idle⟩

abbrev mappingSystem (τ : Type*) [DecidableEq τ] (terminal : WindowsMapping.DeviceTerminal) :
    System (MappingWorld τ) (τ × Event) :=
  threads Act (MappingWorld.start τ terminal)

variable {t : τ} {s s' : Shared τ} {pc pc' : Pc} {e : Event}

theorem Act.move (h : Act t s pc e s' pc') :
    Mutex.Move t s.holder pc.holds s'.holder pc'.holds := by
  cases h with
  | outside htakes ha =>
    cases ha with
    | lock hfree =>
      rw [hfree]
      exact .lock
    | finishTerminal | finishError | withdraw | keep => exact .unlock _
    | hit | terminal | start | waits | expires | wakes => cases htakes
    | _ => exact .stay ..
  | lock hfree | wakes hfree =>
    rw [hfree]
    exact .lock
  | hit => exact .stay ..
  | _ => exact .unlock _

/-- **Where the context is consulted under the mutex**: on the cached path and while waiting. -/
theorem Act.consults_locked (h : Act t s pc e s' pc') (he : consults e = true) :
    pc.holds = true ↔ (∃ op p, pc = .cached op p) ∨ ∃ op, pc = .woken op := by
  have hneither : ∀ {p : WindowsMapping.Pc}, (Pc.outside p).holds = false →
      ((Pc.outside p).holds = true ↔ (∃ op q, Pc.outside p = .cached op q) ∨
        ∃ op, Pc.outside p = .woken op) := by
    intro p hp
    rw [hp]
    refine iff_of_false Bool.false_ne_true ?_
    rintro (⟨op, q, hsame⟩ | ⟨op, hsame⟩)
    · cases hsame
    · cases hsame
  cases h with
  | outside htakes ha =>
    refine hneither ?_
    cases ha with
    | refused | admitted | commit | readTexture | readFails => rfl
    | hit | expires | wakes => cases htakes
    | _ => cases he
  | commitHit => exact iff_of_true rfl (Or.inl ⟨_, _, rfl⟩)
  | expires | again => exact iff_of_true rfl (Or.inr ⟨_, rfl⟩)
  | lock | hit | terminal | start | waits | wakes => cases he

/-- The thread, if it looks at the cache, neither finds pixels there nor waits for another
conversion. -/
def Misses (s : Shared τ) (pc : Pc) : Prop :=
  ∀ op, pc = .locked op → s.pixels = none ∧ (s.terminal.fault = none → s.active = false)

def Pc.strays : Pc → Bool
  | cached .. | woken _ | outside (.waiting _) => true
  | _ => false

theorem Act.strays (h : Act t s pc e s' pc') (hmiss : Misses s pc) (hpc : pc.strays = false) :
    pc'.strays = false := by
  cases h with
  | outside htakes ha =>
    cases ha with
    | waits => cases htakes
    | _ => rfl
  | hit hpixels =>
    have hnone := (hmiss _ rfl).1
    rw [hpixels] at hnone
    cases hnone
  | waits _ hfault hactive =>
    have hfree := (hmiss _ rfl).2 hfault
    rw [hactive] at hfree
    cases hfree
  | wakes => cases hpc
  | _ => rfl

variable [DecidableEq τ] {terminal : WindowsMapping.DeviceTerminal} {w : MappingWorld τ}

theorem holder_reachable (hw : (mappingSystem τ terminal).Reachable w) :
    Mutex.Fits w.shared.holder fun t => (w.pc t).holds := by
  have hstart : Mutex.Fits (MappingWorld.start τ terminal).shared.holder fun t =>
      ((MappingWorld.start τ terminal).pc t).holds := Mutex.Fits.start
  exact Mutex.reachable (f := Shared.holder) (b := Pc.holds) hstart (fun _ _ _ _ _ _ ha => ha.move) hw

theorem consults_locked_iff (hw : (mappingSystem τ terminal).Reachable w) {t : τ} {e : Event}
    {w' : MappingWorld τ} (hstep : (mappingSystem τ terminal).step w (t, e) w')
    (he : consults e = true) :
    w.shared.holder = some t ↔ (∃ op p, w.pc t = .cached op p) ∨ ∃ op, w.pc t = .woken op := by
  obtain ⟨s', pc', hact, rfl⟩ := hstep
  exact (holder_reachable hw t).symm.trans (hact.consults_locked he)

end Windows

/-! ### macOS -/

namespace Macos

open MacosMapping (Shared Event)

/-- Where a thread stands: outside the opened sections, or under the mutex in one of them. -/
inductive Pc where
  | outside (pc : MacosMapping.Pc)
  | locked (attempt : Operation)
  | woken (attempt : Operation)
  | publishing (result : Except Error ℕ)

def takes : MacosMapping.Pc → Bool
  | .searching _ | .waiting _ | .finishing _ => true
  | _ => false

def Pc.holds : Pc → Bool
  | outside _ => false
  | locked _ | woken _ | publishing _ => true

/-- The step consults the caller's context. -/
def consults : Event → Bool
  | .consulted .. => true
  | _ => false

/-- What the callers of one storage share, with the owner of the mapping mutex. -/
structure Guarded (τ : Type*) where
  holder : Option τ
  state : Shared

variable {τ : Type*}

/-- The steps of a thread in `read_cpu`. -/
inductive Act (t : τ) : Guarded τ → Pc → Event → Guarded τ → Pc → Prop
  | outside {holder : Option τ} {s s' : Shared} {pc pc' : MacosMapping.Pc} {e : Event} :
      takes pc = false → MacosMapping.Act t s pc e s' pc' →
      Act t ⟨holder, s⟩ (.outside pc) e ⟨holder, s'⟩ (.outside pc')
  | lock {s : Shared} {op : Operation} :
      Act t ⟨none, s⟩ (.outside (.searching op)) .silent ⟨some t, s⟩ (.locked op)
  | hit {holder : Option τ} {s : Shared} {op : Operation} {p : ℕ} : s.pixels = some p →
      Act t ⟨holder, s⟩ (.locked op) .silent ⟨none, s⟩ (.outside (.found op p))
  | start {holder : Option τ} {s : Shared} {op : Operation} : s.pixels = none → s.active = false →
      Act t ⟨holder, s⟩ (.locked op) .silent ⟨none, { s with active := true }⟩
        (.outside (.converting op))
  | waits {holder : Option τ} {s : Shared} {op : Operation} : s.pixels = none → s.active = true →
      Act t ⟨holder, s⟩ (.locked op) .silent ⟨none, s⟩ (.outside (.waiting op))
  /-- `wait_timeout` returns with the mutex. -/
  | wakes {s : Shared} {op : Operation} :
      Act t ⟨none, s⟩ (.outside (.waiting op)) .silent ⟨some t, s⟩ (.woken op)
  | drops {holder : Option τ} {s : Shared} {op : Operation} :
      Act t ⟨holder, s⟩ (.woken op) .silent ⟨none, s⟩ (.outside (.woken op))
  | lockLast {s : Shared} {result : Except Error ℕ} :
      Act t ⟨none, s⟩ (.outside (.finishing result)) .silent ⟨some t, s⟩ (.publishing result)
  | finish {holder : Option τ} {s : Shared} {result : Except Error ℕ} :
      Act t ⟨holder, s⟩ (.publishing result) .silent
        ⟨none, { s with active := false, pixels := s.cache result }⟩
        (.outside (.returning (MacosMapping.readBack (s.cache result) result)))

/-- The callers of one storage and what they share. -/
abbrev MappingWorld (τ : Type*) := World τ (Guarded τ) Pc

/-- A storage nobody has mapped. -/
def MappingWorld.start (τ : Type*) : MappingWorld τ :=
  ⟨⟨none, ⟨false, none, 0⟩⟩, fun _ => .outside .idle⟩

abbrev mappingSystem (τ : Type*) [DecidableEq τ] : System (MappingWorld τ) (τ × Event) :=
  threads Act (MappingWorld.start τ)

variable {t : τ} {s s' : Guarded τ} {pc pc' : Pc} {e : Event}

theorem Act.move (h : Act t s pc e s' pc') :
    Mutex.Move t s.holder pc.holds s'.holder pc'.holds := by
  cases h with
  | outside => exact .stay ..
  | lock | wakes | lockLast => exact .lock
  | _ => exact .unlock _

theorem Act.consults_unlocked (h : Act t s pc e s' pc') (he : consults e = true) :
    pc.holds = false := by
  cases h with
  | outside => rfl
  | _ => cases he

variable [DecidableEq τ] {w : MappingWorld τ}

theorem holder_reachable (hw : (mappingSystem τ).Reachable w) :
    Mutex.Fits w.shared.holder fun t => (w.pc t).holds := by
  have hstart : Mutex.Fits (MappingWorld.start τ).shared.holder fun t =>
      ((MappingWorld.start τ).pc t).holds := Mutex.Fits.start
  exact Mutex.reachable (f := Guarded.holder) (b := Pc.holds) hstart (fun _ _ _ _ _ _ ha => ha.move) hw

theorem consults_released (hw : (mappingSystem τ).Reachable w) {t : τ} {e : Event}
    {w' : MappingWorld τ} (hstep : (mappingSystem τ).step w (t, e) w') (he : consults e = true) :
    w.shared.holder ≠ some t := by
  obtain ⟨s', pc', hact, rfl⟩ := hstep
  intro hholder
  have hholds : (w.pc t).holds = true := (holder_reachable hw t).mpr hholder
  rw [hact.consults_unlocked he] at hholds
  cases hholds

end Macos

/-! ### The law -/

section Law

variable {τ : Type*} [DecidableEq τ] {terminal : WindowsMapping.DeviceTerminal}

theorem Windows.strays_along {trail : List (Windows.MappingWorld τ × (τ × WindowsMapping.Event))}
    {w : Windows.MappingWorld τ}
    (hw : (Windows.mappingSystem τ terminal).Path (Windows.MappingWorld.start τ terminal) trail w)
    (hmiss : ∀ x ∈ trail, Windows.Misses x.1.shared (x.1.pc x.2.1)) (t : τ) :
    (w.pc t).strays = false := by
  revert t
  refine hw.guarded (P := fun w => ∀ t, (w.pc t).strays = false)
    (G := fun w label => Windows.Misses w.shared (w.pc label.1)) ?_ (.of_init rfl) (fun _ => rfl) hmiss
  rintro w ⟨t, e⟩ w' - hstrays hmisses ⟨s', pc', hact, rfl⟩
  exact World.forall_move _ _ _ _ (P := fun pc => Windows.Pc.strays pc = false)
    (hact.strays hmisses (hstrays t)) fun u _ => hstrays u

/-- **The context is consulted with the mapping mutex released**: on macOS in every run, on Windows in
every run in which each look at the cache neither finds pixels nor has to wait, and there exactly
outside the cached path and the wait. -/
theorem context_and_mutex :
    (∀ (trail : List (Macos.MappingWorld τ × (τ × MacosMapping.Event))) (w : Macos.MappingWorld τ),
      (Macos.mappingSystem τ).Path (Macos.MappingWorld.start τ) trail w →
        ∀ x ∈ trail, Macos.consults x.2.2 = true → x.1.shared.holder ≠ some x.2.1) ∧
    (∀ (trail : List (Windows.MappingWorld τ × (τ × WindowsMapping.Event))) (w : Windows.MappingWorld τ),
      (Windows.mappingSystem τ terminal).Path (Windows.MappingWorld.start τ terminal) trail w →
        (∀ x ∈ trail, Windows.Misses x.1.shared (x.1.pc x.2.1)) →
        ∀ x ∈ trail, Windows.consults x.2.2 = true → x.1.shared.holder ≠ some x.2.1) ∧
    ∀ (trail : List (Windows.MappingWorld τ × (τ × WindowsMapping.Event))) (w : Windows.MappingWorld τ),
      (Windows.mappingSystem τ terminal).Path (Windows.MappingWorld.start τ terminal) trail w →
        ∀ x ∈ trail, Windows.consults x.2.2 = true →
          (x.1.shared.holder = some x.2.1 ↔
            (∃ op p, x.1.pc x.2.1 = .cached op p) ∨ ∃ op, x.1.pc x.2.1 = .woken op) := by
  refine ⟨fun trail w hw x hx he => ?_, fun trail w hw hmiss x hx he => ?_, fun trail w hw x hx he => ?_⟩
  · obtain ⟨before, u, hbefore, -, hstep⟩ := hw.mem_trail hx
    exact Macos.consults_released ⟨_, rfl, hbefore.leads⟩ hstep he
  · obtain ⟨before, u, hbefore, hpart, hstep⟩ := hw.mem_trail hx
    have hstrays := Windows.strays_along hbefore (fun y hy => hmiss y (hpart.subset hy)) x.2.1
    intro hholder
    rcases (Windows.consults_locked_iff ⟨_, rfl, hbefore.leads⟩ hstep he).mp hholder with
      ⟨op, p, hpc⟩ | ⟨op, hpc⟩
    · rw [hpc] at hstrays
      cases hstrays
    · rw [hpc] at hstrays
      cases hstrays
  · obtain ⟨before, u, hbefore, -, hstep⟩ := hw.mem_trail hx
    exact Windows.consults_locked_iff ⟨_, rfl, hbefore.leads⟩ hstep he

end Law

/-- A Windows frame is mapped for the first time: the context is consulted, and then again by the
conversion. -/
theorem context_and_mutex_sample :
    ∃ (trail : List (Windows.MappingWorld Unit × (Unit × WindowsMapping.Event)))
      (w : Windows.MappingWorld Unit),
      (Windows.mappingSystem Unit ⟨0⟩).Path (Windows.MappingWorld.start Unit ⟨0⟩) trail w ∧
      events trail = [.silent, .consulted none none, .silent, .silent, .converted (.ok 0)] ∧
      ∀ x ∈ trail, Windows.consults x.2.2 = true → x.1.shared.holder ≠ some x.2.1 := by
  let start := Windows.MappingWorld.start Unit ⟨0⟩
  have hpath := ((((System.Path.nil (S := Windows.mappingSystem Unit ⟨0⟩) start).snoc
    (i := ((), .silent)) ⟨_, _, .outside rfl .call, rfl⟩).snoc
    (i := ((), .consulted none none)) ⟨_, _, .outside rfl (.admitted none rfl), rfl⟩).snoc
    (i := ((), .silent)) ⟨_, _, .lock rfl, rfl⟩).snoc
    (i := ((), .silent)) ⟨_, _, .start rfl rfl rfl, rfl⟩
  have hlast := hpath.snoc (i := ((), .converted (.ok 0))) ⟨_, _, .outside rfl .readTexture, rfl⟩
  refine ⟨_, _, hlast, rfl, context_and_mutex.2.1 _ _ hlast ?_⟩
  simp only [List.nil_append, List.forall_mem_append, List.forall_mem_singleton]
  refine ⟨⟨⟨⟨?_, ?_⟩, ?_⟩, ?_⟩, ?_⟩
  · exact fun _ hpc => by cases hpc
  · exact fun _ hpc => by cases hpc
  · exact fun _ hpc => by cases hpc
  · exact fun _ _ => ⟨rfl, fun _ => rfl⟩
  · exact fun _ hpc => by cases hpc

/-- A Windows frame is mapped a second time: the pixels are committed under the mutex, and a clock that
maps the frame once more does not get past it. -/
theorem cached_commit_is_locked :
    ∃ (trail : List (Windows.MappingWorld Unit × (Unit × WindowsMapping.Event)))
      (w : Windows.MappingWorld Unit),
      (Windows.mappingSystem Unit ⟨0⟩).Path (Windows.MappingWorld.start Unit ⟨0⟩) trail w ∧
      ∃ x ∈ trail, Windows.consults x.2.2 = true ∧ x.1.shared.holder = some x.2.1 ∧
        ∀ op e s' pc', ¬ Windows.Act x.2.1 x.1.shared (.outside (.searching op)) e s' pc' := by
  have hfirst : Solo (@Windows.Act Unit) () (Windows.MappingWorld.start Unit ⟨0⟩).shared
      (.outside .idle) _ ⟨false, some 0, none, ⟨0⟩, 1⟩ (.outside (.returning (.ok 0))) :=
    .cons (.outside rfl .call) <| .cons (.outside rfl (.admitted none rfl)) <| .cons (.lock rfl) <|
    .cons (.start rfl rfl rfl) <| .cons (.outside rfl .readTexture) <|
    .cons (.outside rfl .deviceFine) <| .cons (.outside rfl (.commit none)) <|
    .cons (.outside rfl (.lock rfl)) <| .cons (.outside rfl (.assign rfl)) <|
    .cons (.outside rfl (.keep rfl)) (.nil ..)
  have hsecond : Solo (@Windows.Act Unit) () ⟨false, some 0, none, ⟨0⟩, 1⟩
      (.outside (.returning (.ok 0))) _ ⟨false, some 0, some (), ⟨0⟩, 1⟩ (.cached ⟨none⟩ 0) :=
    .cons (.outside rfl .returns) <| .cons (.outside rfl .call) <|
    .cons (.outside rfl (.admitted none rfl)) <| .cons (.lock rfl) <| .cons (.hit rfl) (.nil ..)
  obtain ⟨trail₁, hpath₁, -⟩ := hfirst.path
    (System.Path.nil (S := Windows.mappingSystem Unit ⟨0⟩) (Windows.MappingWorld.start Unit ⟨0⟩)) rfl rfl
  obtain ⟨trail₂, hpath₂, -⟩ := hsecond.path hpath₁ rfl rfl
  have hcommit : ∀ w : Windows.MappingWorld Unit, w.shared = ⟨false, some 0, some (), ⟨0⟩, 1⟩ →
      w.pc () = .cached ⟨none⟩ 0 →
      (Windows.mappingSystem Unit ⟨0⟩).step w ((), .consulted none none)
        (w.move () ⟨false, some 0, none, ⟨0⟩, 1⟩ (.outside (.returning (.ok 0)))) := by
    intro w hshared hpc
    refine ⟨_, _, ?_, rfl⟩
    rw [hshared, hpc]
    exact .commitHit none
  have hlast := hpath₂.snoc (hcommit _ rfl rfl)
  refine ⟨_, _, hlast, _, List.mem_append_right _ (List.mem_singleton_self _), rfl, rfl, ?_⟩
  intro op e s' pc' hact
  cases hact with
  | outside htakes => cases htakes
  | lock hfree => cases hfree

end MadoPilot.Platform.MappingLock

/-! ### Native mappings are single-flight

The result for the storages of both platforms, over every run of any number of callers.
-/

namespace MadoPilot.Platform

open MadoPilot.Core MadoPilot.Capture MadoPilot.Lib

end MadoPilot.Platform
