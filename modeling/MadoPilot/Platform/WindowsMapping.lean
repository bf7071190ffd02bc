import MadoPilot.Capture.Frame
import MadoPilot.Lib.Fallible
import MadoPilot.Lib.SingleFlight
import MadoPilot.Lib.Threads

/-!
# The CPU mapping of a Windows frame

Threads call `read_cpu` on one `WindowsFrameStorage`, and anyone records device faults in the session's
`DeviceTerminal`.  A step is one section under the mapping mutex, one access to the fault cell, one
consultation of the caller's context or one call into the device.  `finish_mapping_cache` keeps the
mutex over several steps, because it reads the fault cell twice and that cell is not under the mutex.

An `Arc<CpuPixels>` is the number of its allocation.

* `MappingInv.moves` : every step is a move of a single flight;
* `mappingInv_reachable` : the invariant.
-/

namespace MadoPilot.Platform.WindowsMapping

open MadoPilot.Core MadoPilot.Capture MadoPilot.Lib

structure DeviceTerminal where
  cell : ℕ
  deriving DecidableEq

namespace DeviceTerminal

def record (d : DeviceTerminal) (fault : CaptureFault) : DeviceTerminal :=
  match fault with
  | .deviceRemoved => if d.cell = 0 then ⟨1⟩ else d
  | .deviceReset => if d.cell = 0 then ⟨2⟩ else d
  | _ => d

def fault (d : DeviceTerminal) : Option CaptureFault :=
  match d.cell with
  | 1 => some .deviceRemoved
  | 2 => some .deviceReset
  | _ => none

end DeviceTerminal

/-- What the callers of one storage share, with the owner of the mapping mutex where a section takes
several steps. -/
structure Shared (τ : Type*) where
  active : Bool
  pixels : Option ℕ
  holder : Option τ
  terminal : DeviceTerminal
  allocations : ℕ

/-- Where a thread stands in `read_cpu`. -/
inductive Pc where
  | idle
  | admitting
  | searching (attempt : Operation)
  | waiting (attempt : Operation)
  | converting (attempt : Operation)
  | converted (attempt : Operation) (result : Except Error ℕ)
  | faulted (attempt : Operation) (fault : CaptureFault)
  | recorded (attempt : Operation) (fault : CaptureFault)
  | committing (attempt : Operation) (result : Except Error ℕ)
  | finishing (result : Except Error ℕ)
  | clearing (result : Except Error ℕ)
  | caching (pixels : ℕ)
  | returning (result : Except Error ℕ)

/-- What a step shows.  An observation that bears on a conversion of the caller's own names the pixels
it has, if it has any. -/
inductive Event where
  | silent
  | consulted (seen : Option Interruption) (own : Option ℕ)
  | converted (result : Except Error ℕ)
  | observed (fault : CaptureFault) (own : Option ℕ)
  | recorded (fault : CaptureFault)
  | storageFailed (fault : CaptureFault)
  | returned (result : Except Error ℕ)

section Acts

variable {τ : Type*}

/-- The steps of a thread.  `seen` is what the caller's context answers when it is consulted. -/
inductive Act (t : τ) : Shared τ → Pc → Event → Shared τ → Pc → Prop
  | record {s : Shared τ} (fault : CaptureFault) :
      Act t s .idle (.recorded fault) { s with terminal := s.terminal.record fault } .idle
  | call {s : Shared τ} : Act t s .idle .silent s .admitting
  | refused {s : Shared τ} (seen : Option Interruption) {i : Interruption} :
      Operation.admitContext seen = .error i →
      Act t s .admitting (.consulted seen none) s (.returning (.error i.toError))
  | admitted {s : Shared τ} (seen : Option Interruption) {op : Operation} :
      Operation.admitContext seen = .ok op →
      Act t s .admitting (.consulted seen none) s (.searching op)
  | hit {s : Shared τ} {op : Operation} {p : ℕ} (seen : Option Interruption) :
      s.holder = none → s.pixels = some p →
      Act t s (.searching op) (.consulted seen none) s
        (.returning ((op.commit seen p).mapError Interruption.toError))
  | terminal {s : Shared τ} {op : Operation} {fault : CaptureFault} :
      s.holder = none → s.pixels = none → s.terminal.fault = some fault →
      Act t s (.searching op) (.observed fault none) s (.returning (.error fault.toError))
  | start {s : Shared τ} {op : Operation} :
      s.holder = none → s.pixels = none → s.terminal.fault = none → s.active = false →
      Act t s (.searching op) .silent { s with active := true } (.converting op)
  | waits {s : Shared τ} {op : Operation} :
      s.holder = none → s.pixels = none → s.terminal.fault = none → s.active = true →
      Act t s (.searching op) .silent s (.waiting op)
  | expires {s : Shared τ} {op op' : Operation} (seen : Option Interruption) {i : Interruption} :
      s.holder = none → op.checkpoint seen = (.error i, op') →
      Act t s (.waiting op) (.consulted seen none) s (.returning (.error i.toError))
  | wakes {s : Shared τ} {op op' : Operation} (seen : Option Interruption) :
      s.holder = none → op.checkpoint seen = (.ok (), op') →
      Act t s (.waiting op) (.consulted seen none) s (.searching op')
  | readTexture {s : Shared τ} {op : Operation} :
      Act t s (.converting op) (.converted (.ok s.allocations))
        { s with allocations := s.allocations + 1 } (.converted op (.ok s.allocations))
  | readFails {s : Shared τ} {op : Operation} (error : Error) :
      Act t s (.converting op) (.converted (.error error)) s (.converted op (.error error))
  | deviceFault {s : Shared τ} {op : Operation} {result : Except Error ℕ} (fault : CaptureFault) :
      Act t s (.converted op result) (.observed fault result.toOption) s (.faulted op fault)
  | deviceFine {s : Shared τ} {op : Operation} {result : Except Error ℕ} :
      Act t s (.converted op result) .silent s (.committing op result)
  | recordOwn {s : Shared τ} {op : Operation} {fault : CaptureFault} :
      Act t s (.faulted op fault) (.recorded fault)
        { s with terminal := s.terminal.record fault } (.recorded op fault)
  | reportFailure {s : Shared τ} {op : Operation} {fault : CaptureFault} :
      Act t s (.recorded op fault) (.storageFailed fault) s (.committing op (.error fault.toError))
  | sinkGone {s : Shared τ} {op : Operation} {fault : CaptureFault} :
      Act t s (.recorded op fault) .silent s (.committing op (.error fault.toError))
  | commit {s : Shared τ} {op : Operation} {p : ℕ} (seen : Option Interruption) :
      Act t s (.committing op (.ok p)) (.consulted seen (some p)) s
        (.finishing ((op.commit seen p).mapError Interruption.toError))
  | keepError {s : Shared τ} {op : Operation} {error : Error} :
      Act t s (.committing op (.error error)) .silent s (.finishing (.error error))
  | lock {s : Shared τ} {result : Except Error ℕ} :
      s.holder = none →
      Act t s (.finishing result) .silent { s with active := false, holder := some t }
        (.clearing result)
  | finishTerminal {s : Shared τ} {result : Except Error ℕ} {fault : CaptureFault} :
      s.terminal.fault = some fault →
      Act t s (.clearing result) (.observed fault result.toOption) { s with holder := none }
        (.returning (.error fault.toError))
  | finishError {s : Shared τ} {error : Error} :
      s.terminal.fault = none →
      Act t s (.clearing (.error error)) .silent { s with holder := none }
        (.returning (.error error))
  | assign {s : Shared τ} {p : ℕ} :
      s.terminal.fault = none →
      Act t s (.clearing (.ok p)) .silent { s with pixels := some p } (.caching p)
  | withdraw {s : Shared τ} {p : ℕ} {fault : CaptureFault} :
      s.terminal.fault = some fault →
      Act t s (.caching p) (.observed fault (some p)) { s with pixels := none, holder := none }
        (.returning (.error fault.toError))
  | keep {s : Shared τ} {p : ℕ} :
      s.terminal.fault = none →
      Act t s (.caching p) .silent { s with holder := none } (.returning (.ok p))
  | returns {s : Shared τ} {result : Except Error ℕ} :
      Act t s (.returning result) (.returned result) s .idle

end Acts

/-- The callers of one storage and what they share. -/
abbrev MappingWorld (τ : Type*) := World τ (Shared τ) Pc

/-- A storage nobody has mapped, on a device that may have failed before. -/
def MappingWorld.start (τ : Type*) (terminal : DeviceTerminal) : MappingWorld τ :=
  ⟨⟨false, none, none, terminal, 0⟩, fun _ => .idle⟩

abbrev mappingSystem (τ : Type*) [DecidableEq τ] (terminal : DeviceTerminal) :
    System (MappingWorld τ) (τ × Event) :=
  threads Act (MappingWorld.start τ terminal)

/-! ### The single flight -/

/-- The thread has set the active flag and not cleared it yet. -/
def Pc.owner : Pc → Bool
  | converting _ | converted .. | faulted .. | recorded .. | committing .. | finishing _ => true
  | _ => false

/-- The thread is in its last section, which keeps the mutex. -/
def Pc.landing : Pc → Bool
  | clearing _ | caching _ => true
  | _ => false

/-- Pixels that the thread has converted itself and not returned yet. -/
def Pc.held : Pc → Option ℕ
  | converted _ result | committing _ result | finishing result | clearing result => result.toOption
  | caching p => some p
  | _ => none

/-- The pixels that the storage has cached, as far as anyone without the mutex can tell. -/
def Shared.cached {τ : Type*} (s : Shared τ) : Option ℕ := if s.holder = none then s.pixels else none

/-- The cell that the callers share: a last section counts as a part of the flight. -/
def Shared.flight {τ : Type*} (s : Shared τ) : Flight ℕ :=
  ⟨s.active || s.holder.isSome, s.cached⟩

def Pc.flying (pc : Pc) : Bool := pc.owner || pc.landing

section Invariant

variable {τ : Type*}

/-- The invariant of the callers of one storage. -/
structure MappingInv (w : MappingWorld τ) : Prop where
  holder : ∀ t, (w.pc t).landing = true ↔ w.shared.holder = some t
  cleared : w.shared.holder ≠ none → w.shared.active = false
  fits : w.shared.flight.Fits fun t => (w.pc t).flying
  clearing : ∀ t result, w.pc t = .clearing result → w.shared.pixels = none
  caching : ∀ t p, w.pc t = .caching p → w.shared.pixels = some p
  fresh : ∀ t p, (w.pc t).held = some p → p < w.shared.allocations
  known : ∀ p, w.shared.pixels = some p → p < w.shared.allocations
  answered : ∀ t p, w.pc t = .returning (.ok p) → w.shared.cached = some p

theorem Pc.flying_of_owner {pc : Pc} (h : pc.owner = true) : pc.flying = true := by
  unfold Pc.flying
  rw [h]
  rfl

theorem Pc.flying_of_landing {pc : Pc} (h : pc.landing = true) : pc.flying = true := by
  unfold Pc.flying
  rw [h, Bool.or_true]

theorem Shared.cached_of_free {s : Shared τ} (h : s.holder = none) : s.cached = s.pixels := if_pos h

theorem Shared.flight_of_free {s : Shared τ} (hfree : s.holder = none) (hactive : s.active = false) :
    s.flight = ⟨false, s.pixels⟩ := by
  unfold Shared.flight
  rw [hactive, hfree, Shared.cached_of_free hfree]
  rfl

namespace MappingInv

variable {w : MappingWorld τ} {t u : τ}

theorem active_of_owner (h : MappingInv w) (ht : (w.pc t).owner = true) : w.shared.active = true := by
  have hactive := h.fits.active_of (Pc.flying_of_owner ht)
  by_contra hne
  have hfree : w.shared.holder ≠ none := by
    intro hn
    unfold Shared.flight at hactive
    rw [hn] at hactive
    simp [hne] at hactive
  obtain ⟨u, hu⟩ := Option.ne_none_iff_exists'.mp hfree
  have hlanding := (h.holder u).mpr hu
  have hsame := h.fits.unique t u (Pc.flying_of_owner ht) (Pc.flying_of_landing hlanding)
  subst hsame
  cases hpc : w.pc t <;> simp [hpc, Pc.owner, Pc.landing] at ht hlanding

theorem active_of_landing (h : MappingInv w) (ht : (w.pc t).landing = true) :
    w.shared.holder = some t ∧ w.shared.active = false := by
  have hholder := (h.holder t).mp ht
  exact ⟨hholder, h.cleared (by simp [hholder])⟩

theorem pixels_of_owner (h : MappingInv w) (ht : (w.pc t).owner = true) :
    w.shared.holder = none ∧ w.shared.pixels = none := by
  have hactive := h.active_of_owner ht
  have hfree : w.shared.holder = none := by
    by_contra hne
    have hcleared := h.cleared hne
    rw [hactive] at hcleared
    cases hcleared
  have hempty : w.shared.cached = none := h.fits.empty_of (Pc.flying_of_owner ht)
  rw [Shared.cached_of_free hfree] at hempty
  exact ⟨hfree, hempty⟩

theorem moves (h : MappingInv w) {e : Event} {s' : Shared τ} {pc' : Pc}
    (ha : Act t w.shared (w.pc t) e s' pc') :
    Flight.Move w.shared.flight (w.pc t).flying s'.flight pc'.flying := by
  have howner : (w.pc t).owner = true → w.shared.active = true ∧ w.shared.holder = none ∧
      w.shared.pixels = none := fun ht => ⟨h.active_of_owner ht, h.pixels_of_owner ht⟩
  have hlanding : (w.pc t).landing = true → w.shared.holder = some t ∧ w.shared.active = false :=
    h.active_of_landing
  generalize w.pc t = pc at ha howner hlanding
  cases ha with
  | record | call | refused | admitted | hit | terminal | waits | expires | wakes | readTexture
  | readFails | deviceFault | deviceFine | recordOwn | reportFailure | sinkGone | commit
  | keepError | returns => exact .stay _ _
  | start hfree hnone _ hactive =>
    have hflight : w.shared.flight = ⟨false, none⟩ := by
      unfold Shared.flight Shared.cached
      simp [hfree, hnone, hactive]
    have hnext : Shared.flight { w.shared with active := true } = ⟨true, none⟩ := by
      unfold Shared.flight Shared.cached
      simp [hfree, hnone]
    rw [hflight, hnext]
    exact .takeOff rfl rfl
  | lock hfree =>
    obtain ⟨hactive, -, hnone⟩ := howner rfl
    have hsame : Shared.flight { w.shared with active := false, holder := some t } =
        w.shared.flight := by
      unfold Shared.flight Shared.cached
      simp [hfree, hnone, hactive]
    rw [hsame]
    exact .stay _ _
  | finishTerminal | finishError | withdraw | keep =>
    obtain ⟨-, hactive⟩ := hlanding rfl
    have hfree : ∀ pixels terminal allocations,
        (⟨w.shared.active, pixels, none, terminal, allocations⟩ : Shared τ).flight = ⟨false, pixels⟩ :=
      fun _ _ _ => Shared.flight_of_free rfl hactive
    rw [hfree]
    exact .land _ _
  | assign =>
    obtain ⟨hholder, -⟩ := hlanding rfl
    have hsame : ∀ p, Shared.flight { w.shared with pixels := some p } = w.shared.flight := fun p => by
      unfold Shared.flight Shared.cached
      simp [hholder]
    rw [hsame]
    exact .stay _ _

theorem cached_step (h : MappingInv w) {e : Event} {s' : Shared τ} {pc' : Pc} {p : ℕ}
    (ha : Act t w.shared (w.pc t) e s' pc') (hc : w.shared.cached = some p) : s'.cached = some p :=
  h.fits.cached (h.moves ha) hc

end MappingInv

/-- What a step leaves to the thread that takes it, and what it may change for the others. -/
structure Effect (t : τ) (s : Shared τ) (pc : Pc) (s' : Shared τ) (pc' : Pc) : Prop where
  holder : s'.holder = if pc'.landing then some t else if pc.landing then none else s.holder
  entered : pc.landing = false → pc'.landing = true → s.holder = none
  cleared : s'.holder ≠ none → s'.active = false
  pixels : pc.landing = false → s'.pixels = s.pixels
  allocations : s.allocations ≤ s'.allocations
  clearing : ∀ result, pc' = .clearing result → s'.pixels = none
  caching : ∀ p, pc' = .caching p → s'.pixels = some p
  fresh : ∀ p, pc'.held = some p → p < s'.allocations
  known : ∀ p, s'.pixels = some p → p < s'.allocations
  answered : ∀ p, pc' = .returning (.ok p) → s'.cached = some p

theorem MappingInv.effect {w : MappingWorld τ} {t : τ} (h : MappingInv w) {e : Event} {s' : Shared τ}
    {pc' : Pc} (ha : Act t w.shared (w.pc t) e s' pc') : Effect t w.shared (w.pc t) s' pc' := by
  have howner : (w.pc t).owner = true → w.shared.pixels = none := fun ht => (h.pixels_of_owner ht).2
  have hlanding : (w.pc t).landing = true → w.shared.holder = some t := fun ht => (h.holder t).mp ht
  have hclearing := h.clearing t
  have hcaching := h.caching t
  have hfresh := h.fresh t
  have hanswered := h.answered t
  have hknown := h.known
  have hcleared := h.cleared
  generalize w.pc t = pc at ha howner hlanding hclearing hcaching hfresh hanswered
  -- a step outside the last section and away from the pixels
  have hplain : ∀ {s' : Shared τ} {pc' : Pc}, pc.landing = false → pc'.landing = false →
      s'.holder = w.shared.holder → (s'.holder ≠ none → s'.active = false) →
      s'.pixels = w.shared.pixels → w.shared.allocations ≤ s'.allocations →
      (∀ p, pc'.held = some p → p < s'.allocations) →
      (∀ p, pc' = .returning (.ok p) → s'.cached = some p) → Effect t w.shared pc s' pc' := by
    intro s' pc' hbefore hafter hholder hflag hpixels halloc hheld hreturn
    refine ⟨?_, fun _ ht => ?_, hflag, fun _ => hpixels, halloc, fun _ ht => ?_, fun _ ht => ?_, hheld,
      fun p hp => (hknown p (hpixels ▸ hp)).trans_le halloc, hreturn⟩
    · rw [hbefore, hafter, hholder]
      rfl
    · rw [hafter] at ht
      cases ht
    · rw [ht] at hafter
      cases hafter
    · rw [ht] at hafter
      cases hafter
  cases ha with
  | record | call | refused | admitted | terminal | waits | expires | wakes | readFails | deviceFault
  | recordOwn | reportFailure | sinkGone | keepError | returns =>
    exact hplain rfl rfl rfl hcleared rfl le_rfl (fun _ => nofun) fun _ => nofun
  | deviceFine => exact hplain rfl rfl rfl hcleared rfl le_rfl hfresh fun _ => nofun
  | hit seen hfree hpixels =>
    refine hplain rfl rfl rfl hcleared rfl le_rfl (fun _ => nofun) fun q hq => ?_
    rw [(Operation.commit_eq_ok (Pc.returning.inj hq)).1, Shared.cached_of_free hfree]
    exact hpixels
  | start hfree =>
    exact hplain rfl rfl rfl (fun hne => absurd hfree hne) rfl le_rfl (fun _ => nofun) fun _ => nofun
  | readTexture =>
    refine hplain rfl rfl rfl hcleared rfl (Nat.le_succ _) (fun q hq => ?_) fun _ => nofun
    rw [← Option.some.inj hq]
    exact Nat.lt_succ_self _
  | commit seen =>
    refine hplain rfl rfl rfl hcleared rfl le_rfl (fun q hq => ?_) fun _ => nofun
    rw [(Operation.commit_eq_ok (toOption_eq_some.mp hq)).1]
    exact hfresh _ rfl
  | lock hfree =>
    exact ⟨rfl, fun _ _ => hfree, fun _ => rfl, fun _ => rfl, le_rfl, fun _ _ => howner rfl,
      fun _ => nofun, hfresh, hknown, fun _ => nofun⟩
  | finishTerminal | finishError =>
    exact ⟨rfl, nofun, fun hne => absurd rfl hne, nofun, le_rfl, fun _ => nofun, fun _ => nofun,
      fun _ => nofun, hknown, fun _ => nofun⟩
  | assign =>
    refine ⟨hlanding rfl, nofun, hcleared, nofun, le_rfl, fun _ => nofun, fun q hq => ?_, hfresh,
      hfresh, fun _ => nofun⟩
    rw [← Pc.caching.inj hq]
  | withdraw =>
    exact ⟨rfl, nofun, fun hne => absurd rfl hne, nofun, le_rfl, fun _ => nofun, fun _ => nofun,
      fun _ => nofun, fun _ => nofun, fun _ => nofun⟩
  | keep =>
    refine ⟨rfl, nofun, fun hne => absurd rfl hne, nofun, le_rfl, fun _ => nofun, fun _ => nofun,
      fun _ => nofun, hknown, fun q hq => ?_⟩
    rw [← Except.ok.inj (Pc.returning.inj hq), Shared.cached_of_free rfl]
    exact hcaching _ rfl

section Step

variable [DecidableEq τ] {w : MappingWorld τ} {t : τ} {e : Event} {s' : Shared τ} {pc' : Pc}

theorem MappingInv.step (h : MappingInv w) (ha : Act t w.shared (w.pc t) e s' pc') :
    MappingInv (w.move t s' pc') := by
  have heffect := h.effect ha
  have hlanding : (w.pc t).landing = true → w.shared.holder = some t := fun ht => (h.holder t).mp ht
  -- a thread that is not the one in its last section has left the pixels alone
  have hpixels : ∀ u, u ≠ t → (w.pc u).landing = true → s'.pixels = w.shared.pixels := by
    intro u hu hul
    refine heffect.pixels ?_
    by_contra hne
    have ht := hlanding (by simpa using hne)
    rw [(h.holder u).mp hul] at ht
    exact hu (Option.some.inj ht)
  refine ⟨fun u => ?_, heffect.cleared, ?_, fun u result hu => ?_, fun u p hu => ?_,
    fun u p hu => ?_, heffect.known, fun u p hu => ?_⟩
  · by_cases hut : u = t
    · subst hut
      rw [World.move_pc_self, World.move_shared, heffect.holder]
      cases hpc : pc'.landing with
      | true => simp
      | false =>
        cases hold : (w.pc u).landing with
        | true => simp
        | false =>
          have hnot := h.holder u
          rw [hold] at hnot
          simpa using hnot
    · rw [World.move_pc_of_ne _ _ _ _ hut, World.move_shared, heffect.holder, h.holder u]
      cases hpc : pc'.landing with
      | true =>
        cases hold : (w.pc t).landing with
        | true => simp [hlanding hold]
        | false => simp [heffect.entered hold hpc, Ne.symm hut]
      | false =>
        cases hold : (w.pc t).landing with
        | true => simp [hlanding hold, Ne.symm hut]
        | false => simp
  · have hfits := h.fits.move (h.moves ha)
    have hsame : (fun u => ((w.move t s' pc').pc u).flying) =
        Function.update (fun u => (w.pc u).flying) t pc'.flying := by
      funext u
      by_cases hut : u = t
      · subst hut
        simp
      · simp [hut]
    rw [World.move_shared, hsame]
    exact hfits
  · by_cases hut : u = t
    · subst hut
      rw [World.move_pc_self] at hu
      exact heffect.clearing result hu
    · rw [World.move_pc_of_ne _ _ _ _ hut] at hu
      rw [World.move_shared, hpixels u hut (by rw [hu]; rfl)]
      exact h.clearing u result hu
  · by_cases hut : u = t
    · subst hut
      rw [World.move_pc_self] at hu
      exact heffect.caching p hu
    · rw [World.move_pc_of_ne _ _ _ _ hut] at hu
      rw [World.move_shared, hpixels u hut (by rw [hu]; rfl)]
      exact h.caching u p hu
  · by_cases hut : u = t
    · subst hut
      rw [World.move_pc_self] at hu
      exact heffect.fresh p hu
    · rw [World.move_pc_of_ne _ _ _ _ hut] at hu
      exact (h.fresh u p hu).trans_le heffect.allocations
  · by_cases hut : u = t
    · subst hut
      rw [World.move_pc_self] at hu
      exact heffect.answered p hu
    · rw [World.move_pc_of_ne _ _ _ _ hut] at hu
      exact h.cached_step ha (h.answered u p hu)

theorem mappingInv_reachable {terminal : DeviceTerminal} {w : MappingWorld τ}
    (h : (mappingSystem τ terminal).Reachable w) : MappingInv w := by
  refine threads_invariant ?_ (fun w t e s' pc' _ hw ha => hw.step ha) h
  exact ⟨fun _ => iff_of_false nofun nofun, fun _ => rfl, .start, fun _ _ => nofun, fun _ _ => nofun,
    fun _ _ => nofun, fun _ => nofun, fun _ _ => nofun⟩

end Step

end Invariant

end MadoPilot.Platform.WindowsMapping
