import MadoPilot.Capture.Frame
import MadoPilot.Lib.Fallible
import MadoPilot.Lib.SingleFlight
import MadoPilot.Lib.Threads

/-!
# The CPU mapping of a macOS frame

Threads call `read_cpu` on one `MacosFrameStorage`.  A step is one section under the mapping mutex, one
consultation of the caller's context or one conversion.  A conversion runs on the detached buffer of the
frame itself, so there is no device to fail under it.

An `Arc<CpuPixels>` is the number of its allocation.

* `mappingInv_reachable` : the flag and the cache are a single flight;
* `single_flight` : what the callers are told.
-/

namespace MadoPilot.Platform.MacosMapping

open MadoPilot.Core MadoPilot.Capture MadoPilot.Lib

structure Shared where
  active : Bool
  pixels : Option ℕ
  allocations : ℕ

/-- Where a thread stands in `read_cpu`. -/
inductive Pc where
  | idle
  | admitting
  | searching (attempt : Operation)
  | found (attempt : Operation) (pixels : ℕ)
  | waiting (attempt : Operation)
  | woken (attempt : Operation)
  | converting (attempt : Operation)
  | converted (attempt : Operation) (result : Except CaptureFault ℕ)
  | finishing (result : Except Error ℕ)
  | returning (result : Except Error ℕ)

/-- What a step shows.  A consultation on a conversion of the caller's own names its pixels. -/
inductive Event where
  | silent
  | consulted (seen : Option Interruption) (own : Option ℕ)
  | converted (result : Except CaptureFault ℕ)
  | returned (result : Except Error ℕ)

def Shared.cache (s : Shared) (result : Except Error ℕ) : Option ℕ :=
  match result with
  | .ok pixels => some pixels
  | .error _ => s.pixels

def readBack (cached : Option ℕ) (result : Except Error ℕ) : Except Error ℕ :=
  match cached, result with
  | some cached, .ok pixels => if cached ≠ pixels then .ok cached else result
  | _, _ => result

/-- The steps of a thread.  `seen` is what the caller's context answers when it is consulted. -/
inductive Act {τ : Type*} (t : τ) : Shared → Pc → Event → Shared → Pc → Prop
  | call {s : Shared} : Act t s .idle .silent s .admitting
  | refused {s : Shared} (seen : Option Interruption) {i : Interruption} :
      Operation.admitContext seen = .error i →
      Act t s .admitting (.consulted seen none) s (.returning (.error i.toError))
  | admitted {s : Shared} (seen : Option Interruption) {op : Operation} :
      Operation.admitContext seen = .ok op →
      Act t s .admitting (.consulted seen none) s (.searching op)
  | hit {s : Shared} {op : Operation} {p : ℕ} :
      s.pixels = some p → Act t s (.searching op) .silent s (.found op p)
  | commitFound {s : Shared} {op : Operation} {p : ℕ} (seen : Option Interruption) :
      Act t s (.found op p) (.consulted seen none) s
        (.returning ((op.commit seen p).mapError Interruption.toError))
  | start {s : Shared} {op : Operation} :
      s.pixels = none → s.active = false →
      Act t s (.searching op) .silent { s with active := true } (.converting op)
  | waits {s : Shared} {op : Operation} :
      s.pixels = none → s.active = true → Act t s (.searching op) .silent s (.waiting op)
  | wakes {s : Shared} {op : Operation} : Act t s (.waiting op) .silent s (.woken op)
  | expires {s : Shared} {op op' : Operation} (seen : Option Interruption) {i : Interruption} :
      op.checkpoint seen = (.error i, op') →
      Act t s (.woken op) (.consulted seen none) s (.returning (.error i.toError))
  | continues {s : Shared} {op op' : Operation} (seen : Option Interruption) :
      op.checkpoint seen = (.ok (), op') →
      Act t s (.woken op) (.consulted seen none) s (.searching op')
  | convert {s : Shared} {op : Operation} :
      Act t s (.converting op) (.converted (.ok s.allocations))
        { s with allocations := s.allocations + 1 } (.converted op (.ok s.allocations))
  | convertFails {s : Shared} {op : Operation} (fault : CaptureFault) :
      Act t s (.converting op) (.converted (.error fault)) s (.converted op (.error fault))
  | commit {s : Shared} {op : Operation} {p : ℕ} (seen : Option Interruption) :
      Act t s (.converted op (.ok p)) (.consulted seen (some p)) s
        (.finishing ((op.commit seen p).mapError Interruption.toError))
  | keepFault {s : Shared} {op : Operation} {fault : CaptureFault} :
      Act t s (.converted op (.error fault)) .silent s (.finishing (.error fault.toError))
  | finish {s : Shared} {result : Except Error ℕ} :
      Act t s (.finishing result) .silent { s with active := false, pixels := s.cache result }
        (.returning (readBack (s.cache result) result))
  | returns {s : Shared} {result : Except Error ℕ} :
      Act t s (.returning result) (.returned result) s .idle

/-- The callers of one storage and what they share. -/
abbrev MappingWorld (τ : Type*) := World τ Shared Pc

/-- A storage nobody has mapped. -/
def MappingWorld.start (τ : Type*) : MappingWorld τ := ⟨⟨false, none, 0⟩, fun _ => .idle⟩

abbrev mappingSystem (τ : Type*) [DecidableEq τ] : System (MappingWorld τ) (τ × Event) :=
  threads Act (MappingWorld.start τ)

/-! ### The single flight -/

/-- The thread has set the active flag and not cleared it yet. -/
def Pc.owner : Pc → Bool
  | converting _ | converted .. | finishing _ => true
  | _ => false

/-- Pixels that the thread has converted itself and not returned yet. -/
def Pc.held : Pc → Option ℕ
  | converted _ result => result.toOption
  | finishing result => result.toOption
  | _ => none

/-- Cached pixels that the thread is about to return. -/
def Pc.answer : Pc → Option ℕ
  | found _ p => some p
  | returning result => result.toOption
  | _ => none

def Shared.flight (s : Shared) : Flight ℕ := ⟨s.active, s.pixels⟩

theorem readBack_cache (s : Shared) (result : Except Error ℕ) : readBack (s.cache result) result = result := by
  cases result with
  | ok p => exact if_neg (not_not.mpr rfl)
  | error error =>
    unfold readBack
    cases s.cache (.error error) <;> rfl

section Steps

variable {τ : Type*} {t : τ} {e : Event} {s s' : Shared} {pc pc' : Pc} {p : ℕ}

theorem Act.held (h : Act t s pc e s' pc') (hp : pc'.held = some p) :
    pc.held = some p ∨ s.allocations ≤ p := by
  cases h with
  | convert => exact Or.inr (Option.some.inj hp).le
  | commit seen => exact Or.inl (congrArg some (Operation.commit_eq_ok (toOption_eq_some.mp hp)).1.symm)
  | call | refused | admitted | hit | commitFound | start | waits | wakes | expires | continues
  | convertFails | keepFault | finish | returns => exact nomatch hp

/-- Pixels that the thread has committed and not returned yet. -/
def Pc.committed : Pc → Option ℕ
  | finishing result => result.toOption
  | _ => none

theorem Pc.held_of_committed (h : pc.committed = some p) : pc.held = some p := by
  cases pc with
  | finishing => exact h
  | _ => exact nomatch h

theorem Act.pixels (h : Act t s pc e s' pc') (hp : s'.pixels = some p) :
    s.pixels = some p ∨ pc.committed = some p := by
  cases h with
  | @finish result =>
    cases result with
    | ok q => exact Or.inr hp
    | error error => exact Or.inl hp
  | call | refused | admitted | hit | commitFound | start | waits | wakes | expires | continues
  | convert | convertFails | commit | keepFault | returns => exact Or.inl hp

theorem Act.origin (h : Act t s pc e s' pc') :
    (pc'.held = some p → pc.held = some p ∨ e = .converted (.ok p)) ∧
      (pc'.committed = some p → pc.committed = some p ∨ e = .consulted none (some p)) := by
  cases h with
  | convert => exact ⟨fun hp => Or.inr (Option.some.inj hp ▸ rfl), nofun⟩
  | commit seen =>
    refine ⟨fun hp => Or.inl ?_, fun hp => Or.inr ?_⟩
    · exact congrArg some (Operation.commit_eq_ok (toOption_eq_some.mp hp)).1.symm
    · obtain ⟨rfl, rfl⟩ := Operation.commit_eq_ok (toOption_eq_some.mp hp)
      rfl
  | call | refused | admitted | hit | commitFound | start | waits | wakes | expires | continues
  | convertFails | keepFault | finish | returns => exact ⟨nofun, nofun⟩

theorem Act.answer (h : Act t s pc e s' pc') (hp : pc'.answer = some p) :
    pc.answer = some p ∨ s'.pixels = some p := by
  cases h with
  | hit hpixels =>
    obtain rfl := Option.some.inj hp
    exact Or.inr hpixels
  | commitFound seen =>
    exact Or.inl (congrArg some (Operation.commit_eq_ok (toOption_eq_some.mp hp)).1.symm)
  | @finish result =>
    have hresult := toOption_eq_some.mp hp
    rw [readBack_cache] at hresult
    rw [hresult]
    exact Or.inr rfl
  | call | refused | admitted | start | waits | wakes | expires | continues | convert | convertFails
  | commit | keepFault | returns => exact nomatch hp

theorem Act.allocations (h : Act t s pc e s' pc') : s.allocations ≤ s'.allocations := by
  cases h with
  | convert => exact Nat.le_succ _
  | call | refused | admitted | hit | commitFound | start | waits | wakes | expires | continues
  | convertFails | commit | keepFault | finish | returns => exact le_rfl

theorem Act.moves (h : Act t s pc e s' pc') (hempty : pc.owner = true → s.pixels = none) :
    Flight.Move s.flight pc.owner s'.flight pc'.owner := by
  cases h with
  | start hnone hactive => exact .takeOff hactive hnone
  | finish => exact .land _ _
  | call | refused | admitted | hit | commitFound | waits | wakes | expires | continues | convert
  | convertFails | commit | keepFault | returns => exact .stay _ _

end Steps

/-! ### The invariant -/

/-- The invariant of the callers of one storage. -/
structure MappingInv {τ : Type*} (w : MappingWorld τ) : Prop where
  fits : w.shared.flight.Fits fun t => (w.pc t).owner
  fresh : ∀ t p, (w.pc t).held = some p → p < w.shared.allocations
  known : ∀ p, w.shared.pixels = some p → p < w.shared.allocations
  answered : ∀ t p, (w.pc t).answer = some p → w.shared.pixels = some p

section Runs

variable {τ : Type*} [DecidableEq τ] {w : MappingWorld τ} {t : τ} {e : Event} {s' : Shared} {pc' : Pc}

omit [DecidableEq τ] in
theorem MappingInv.moves (h : MappingInv w) (ha : Act t w.shared (w.pc t) e s' pc') :
    Flight.Move w.shared.flight (w.pc t).owner s'.flight pc'.owner :=
  ha.moves fun ht => h.fits.empty_of ht

omit [DecidableEq τ] in
theorem MappingInv.cached_step (h : MappingInv w) {p : ℕ} (ha : Act t w.shared (w.pc t) e s' pc')
    (hc : w.shared.pixels = some p) : s'.pixels = some p :=
  h.fits.cached (h.moves ha) hc

theorem MappingInv.step (h : MappingInv w) (ha : Act t w.shared (w.pc t) e s' pc')
    (hheld : ∀ p, pc'.held = some p → p < s'.allocations) : MappingInv (w.move t s' pc') := by
  refine ⟨?_, fun u p hu => ?_, fun p hp => ?_, fun u p hu => ?_⟩
  · have hsame : (fun u => ((w.move t s' pc').pc u).owner) =
        Function.update (fun u => (w.pc u).owner) t pc'.owner := by
      funext u
      by_cases hut : u = t
      · subst hut
        simp
      · simp [hut]
    rw [World.move_shared, hsame]
    exact h.fits.move (h.moves ha)
  · by_cases hut : u = t
    · subst hut
      rw [World.move_pc_self] at hu
      exact hheld p hu
    · rw [World.move_pc_of_ne _ _ _ _ hut] at hu
      exact (h.fresh u p hu).trans_le ha.allocations
  · rcases ha.pixels hp with hp | hp
    · exact (h.known p hp).trans_le ha.allocations
    · exact (h.fresh t p (Pc.held_of_committed hp)).trans_le ha.allocations
  · by_cases hut : u = t
    · subst hut
      rw [World.move_pc_self] at hu
      rcases ha.answer hu with hold | hnew
      · exact h.cached_step ha (h.answered u p hold)
      · exact hnew
    · rw [World.move_pc_of_ne _ _ _ _ hut] at hu
      exact h.cached_step ha (h.answered u p hu)

theorem mappingInv_reachable (h : (mappingSystem τ).Reachable w) : MappingInv w := by
  refine threads_invariant ?_ (fun w t e s' pc' _ hw ha => ?_) h
  · exact ⟨.start, fun _ _ => nofun, fun _ => nofun, fun _ _ => nofun⟩
  · refine hw.step ha fun p hp => ?_
    have hfresh := hw.fresh t p
    generalize w.pc t = pc at ha hfresh
    cases ha with
    | convert =>
      obtain rfl := Option.some.inj hp
      exact Nat.lt_succ_self _
    | commit seen =>
      rw [(Operation.commit_eq_ok (toOption_eq_some.mp hp)).1] at hfresh ⊢
      exact hfresh rfl
    | call | refused | admitted | hit | commitFound | start | waits | wakes | expires | continues
    | convertFails | keepFault | finish | returns => exact nomatch hp

/-! ### Pixels that their owner gave up -/

variable {trail : List (MappingWorld τ × (τ × Event))}

theorem answers_along (h : (mappingSystem τ).Path (MappingWorld.start τ) trail w) :
    ∀ p, Event.returned (.ok p) ∈ events trail → w.shared.pixels = some p := by
  refine threads_along (P := fun es w => ∀ p, Event.returned (.ok p) ∈ es → w.shared.pixels = some p)
    (fun _ => nofun) (fun es w t e s' pc' hr hans hact p hp => ?_) h
  have hinv := mappingInv_reachable hr
  refine hinv.cached_step hact ?_
  rcases List.mem_append.mp hp with hp | hp
  · exact hans p hp
  · obtain rfl := List.mem_singleton.mp hp
    have hanswered := hinv.answered t p
    generalize w.pc t = pc at hact hanswered
    cases hact
    exact hanswered rfl

def Event.ends : Event → Bool
  | returned _ => true
  | _ => false

/-- The call has seen what the error reports: an interruption of its own context or a failure of its
own conversion. -/
def Blamed (error : Error) (es : List Event) : Prop :=
  (∃ i own, Event.consulted (some i) own ∈ es ∧ error = i.toError) ∨
    ∃ fault, Event.converted (.error fault) ∈ es ∧ error = fault.toError

theorem Blamed.cons {error : Error} {es : List Event} (h : Blamed error es) (e : Event) :
    Blamed error (e :: es) := by
  rcases h with ⟨i, own, hi, he⟩ | ⟨fault, hf, he⟩
  · exact Or.inl ⟨i, own, List.mem_cons_of_mem _ hi, he⟩
  · exact Or.inr ⟨fault, List.mem_cons_of_mem _ hf, he⟩

def Pc.failure : Pc → Option Error
  | converted _ (.error fault) => some fault.toError
  | finishing result | returning result =>
    match result with
    | .error error => some error
    | .ok _ => none
  | _ => none

def Pc.attempt : Pc → Option Operation
  | searching op | found op _ | waiting op | woken op | converting op | converted op _ => some op
  | _ => none

def Seen (_ : Shared) (pc : Pc) (es : List Event) : Prop :=
  (∀ op, pc.attempt = some op → op.terminal = none) ∧ ∀ error, pc.failure = some error → Blamed error es

omit [DecidableEq τ] in
theorem Seen.step {s : Shared} {pc : Pc} {es : List Event} (h : Seen s pc es)
    (ha : Act t s pc e s' pc') : Seen s' pc' (if e.ends then [] else e :: es) := by
  obtain ⟨hattempt, hfailure⟩ := h
  have hconsulted : ∀ (op : Operation) (seen : Option Interruption) (p : ℕ) (own : Option ℕ)
      (error : Error), op.terminal = none →
      (op.commit seen p).mapError Interruption.toError = .error error →
      Blamed error (Event.consulted seen own :: es) := by
    intro op seen p own error hop herror
    obtain ⟨i, rfl, rfl⟩ := Operation.commit_eq_error hop herror
    exact Or.inl ⟨i, own, List.mem_cons_self, rfl⟩
  cases ha with
  | call | returns => exact ⟨fun _ => nofun, fun _ => nofun⟩
  | refused seen hi =>
    refine ⟨fun _ => nofun, fun error herror => ?_⟩
    obtain rfl := Option.some.inj herror
    obtain rfl := Operation.admitContext_eq_error hi
    exact Or.inl ⟨_, none, List.mem_cons_self, rfl⟩
  | admitted seen hi =>
    refine ⟨fun op hop => ?_, fun _ => nofun⟩
    obtain rfl := Option.some.inj hop
    exact (Operation.admitContext_eq_ok hi).2
  | hit | start | waits | wakes | convert => exact ⟨hattempt, fun _ => nofun⟩
  | @commitFound op p seen =>
    refine ⟨fun _ => nofun, fun error herror => ?_⟩
    cases hc : (op.commit seen p).mapError Interruption.toError with
    | ok q =>
      rw [hc] at herror
      cases herror
    | error error' =>
      rw [hc] at herror
      obtain rfl := Option.some.inj herror
      exact hconsulted op seen p none error' (hattempt op rfl) hc
  | expires seen hi =>
    refine ⟨fun _ => nofun, fun error herror => ?_⟩
    obtain rfl := Option.some.inj herror
    obtain rfl := Operation.checkpoint_eq_error (hattempt _ rfl) hi
    exact Or.inl ⟨_, none, List.mem_cons_self, rfl⟩
  | continues seen hi =>
    rw [Operation.checkpoint_eq_ok hi]
    exact ⟨hattempt, fun _ => nofun⟩
  | convertFails fault =>
    refine ⟨hattempt, fun error herror => ?_⟩
    exact Or.inr ⟨fault, List.mem_cons_self, (Option.some.inj herror).symm⟩
  | @commit op p seen =>
    refine ⟨fun _ => nofun, fun error herror => ?_⟩
    cases hc : (op.commit seen p).mapError Interruption.toError with
    | ok q =>
      rw [hc] at herror
      cases herror
    | error error' =>
      rw [hc] at herror
      obtain rfl := Option.some.inj herror
      exact hconsulted op seen p (some p) error' (hattempt op rfl) hc
  | keepFault => exact ⟨fun _ => nofun, fun error herror => (hfailure error herror).cons _⟩
  | finish =>
    rw [readBack_cache]
    exact ⟨fun _ => nofun, fun error herror => (hfailure error herror).cons _⟩

end Runs

end MadoPilot.Platform.MacosMapping
