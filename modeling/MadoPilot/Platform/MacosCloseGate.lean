import MadoPilot.Core.Operation
import MadoPilot.Lib.Mutex
import MadoPilot.Lib.SwapRemove
import Mathlib.Data.List.Count

/-!
# The gate before closing a session

Closing a session goes through a gate that one thread owns at a time.  A thread that enters leaves a
marker before it asks its operation, since asking runs code of the caller, and that code may close the
session again on the same thread.  Such a call finds the marker, or the owner, and is refused.

A thread has the calls of `enter` it is in, the innermost first, and the owners that its calls have
returned.

* `GateAct.keeps` : what one step keeps;
* `gate_sound` : what holds in every reachable state;
* `gate_law` : the law of the gate.
-/

namespace MadoPilot.Platform.Macos

open MadoPilot.Core MadoPilot.Lib

variable {τ : Type*} [DecidableEq τ]

/-! ### The gate -/

/-- `CloseGateState`. -/
structure CloseGate (τ : Type*) where
  owner : Option τ
  entering : List τ

/-- Where a call of `enter` stands. -/
inductive Enter where
  | start
  | admission
  | claim
  | wait
  | checkpoint
  | commit
  /-- The owner is dropped that the operation did not commit. -/
  | discard
  /-- The marker is dropped; whether the call returns an owner. -/
  | leave (owner : Bool)
  /-- The branch that is marked as unreachable. -/
  | unreachable
  /-- The marker that is dropped is not there. -/
  | unregistered
  deriving DecidableEq

namespace CloseGate

variable (s : CloseGate τ) (t : τ)

/-- A thread that owns the gate or enters it already. -/
def refuses : Bool := s.owner == some t || s.entering.contains t

def register : CloseGate τ := { s with entering := s.entering ++ [t] }

/-- One pass of the loop. -/
def claim : CloseGate τ × Enter :=
  match s.owner with
  | none => ({ s with owner := some t }, .commit)
  | some owner => if owner = t then (s, .unreachable) else (s, .wait)

/-- Dropping an entry. -/
def unregister : Option (CloseGate τ) :=
  (s.entering.idxOf? t).map fun index => { s with entering := swapRemove s.entering index }

/-- Dropping an owner. -/
def release : CloseGate τ := { s with owner := none }

end CloseGate

/-! ### Threads -/

namespace Enter

/-- The call runs code of the caller: it asks its operation. -/
def asks : Enter → Bool
  | .admission | .checkpoint | .commit => true
  | _ => false

def answered (seen : Option Interruption) : Enter → Enter
  | .commit => if seen.isSome then .discard else .leave true
  | _ => if seen.isSome then .leave false else .claim

def marked : Enter → Bool
  | .start => false
  | _ => true

def owns : Enter → Bool
  | .commit | .discard => true
  | .leave owner => owner
  | _ => false

end Enter

/-- The owners that a thread has been returned, and the calls it is in. -/
structure Closer where
  owners : ℕ
  calls : List Enter

namespace Closer

/-- The thread runs code of the caller. -/
def foreign (pc : Closer) : Bool :=
  match pc.calls with
  | [] => true
  | call :: _ => call.asks

def alive (pc : Closer) : ℕ := pc.owners + pc.calls.countP (·.owns)

def markers (pc : Closer) : ℕ := pc.calls.countP (·.marked)

end Closer

inductive GateEvent where
  | called
  | refused
  | registered
  | answered (seen : Option Interruption)
  | claimed
  | woken
  | dropped
  | left (owner : Bool)
  | lost
  deriving DecidableEq

/-- What the thread `t` may do. -/
inductive GateAct (t : τ) (s : CloseGate τ) : Closer → GateEvent → CloseGate τ → Closer → Prop
  | call {pc : Closer} : pc.foreign = true →
      GateAct t s pc .called s { pc with calls := .start :: pc.calls }
  | refuse {n : ℕ} {rest : List Enter} : s.refuses t = true →
      GateAct t s ⟨n, .start :: rest⟩ .refused s ⟨n, rest⟩
  | register {n : ℕ} {rest : List Enter} : s.refuses t = false →
      GateAct t s ⟨n, .start :: rest⟩ .registered (s.register t) ⟨n, .admission :: rest⟩
  | ask {n : ℕ} {call : Enter} {rest : List Enter} (seen : Option Interruption) : call.asks = true →
      GateAct t s ⟨n, call :: rest⟩ (.answered seen) s ⟨n, call.answered seen :: rest⟩
  | claim {n : ℕ} {rest : List Enter} :
      GateAct t s ⟨n, .claim :: rest⟩ .claimed (s.claim t).1 ⟨n, (s.claim t).2 :: rest⟩
  | wake {n : ℕ} {rest : List Enter} :
      GateAct t s ⟨n, .wait :: rest⟩ .woken s ⟨n, .checkpoint :: rest⟩
  | discard {n : ℕ} {rest : List Enter} :
      GateAct t s ⟨n, .discard :: rest⟩ .dropped s.release ⟨n, .leave false :: rest⟩
  | leave {n : ℕ} {rest : List Enter} {owner : Bool} {s' : CloseGate τ} :
      s.unregister t = some s' →
      GateAct t s ⟨n, .leave owner :: rest⟩ (.left owner) s' ⟨n + owner.toNat, rest⟩
  | lose {n : ℕ} {rest : List Enter} {owner : Bool} : s.unregister t = none →
      GateAct t s ⟨n, .leave owner :: rest⟩ .lost s ⟨n, .unregistered :: rest⟩
  | drop {pc : Closer} {n : ℕ} : pc.foreign = true → pc.owners = n + 1 →
      GateAct t s pc .dropped s.release { pc with owners := n }

/-- Before anything. -/
def gateStart : World τ (CloseGate τ) Closer := ⟨⟨none, []⟩, fun _ => ⟨0, []⟩⟩

def gateSystem (τ : Type*) [DecidableEq τ] :
    System (World τ (CloseGate τ) Closer) (τ × GateEvent) :=
  threads GateAct gateStart

/-! ### What a thread looks like -/

/-- Inside of `enter`, behind the marker, and not in a branch that is never taken. -/
def Enter.inside : Enter → Bool
  | .start | .unreachable | .unregistered => false
  | _ => true

/-- **A thread is in one call behind its marker, at most**, and has been returned no owner then.  A
further call stands before its marker. -/
inductive Closer.Sound : Closer → Prop
  | idle (n : ℕ) : Sound ⟨n, []⟩
  | starting (n : ℕ) : Sound ⟨n, [.start]⟩
  | inside {call : Enter} : call.inside = true → Sound ⟨0, [call]⟩
  | nested {call : Enter} : call.asks = true → Sound ⟨0, [.start, call]⟩

variable {s s' : CloseGate τ} {t u : τ} {pc pc' : Closer} {e : GateEvent}

theorem Enter.inside_of_asks {call : Enter} (h : call.asks = true) : call.inside = true := by
  cases call with
  | admission | checkpoint | commit => rfl
  | _ => cases h

theorem Enter.marked_of_inside {call : Enter} (h : call.inside = true) : call.marked = true := by
  cases call with
  | start => cases h
  | _ => rfl

namespace CloseGate

theorem refuses_eq_true : s.refuses t = true ↔ s.owner = some t ∨ t ∈ s.entering := by
  simp [refuses]

theorem refuses_eq_false : s.refuses t = false ↔ s.owner ≠ some t ∧ t ∉ s.entering := by
  simp [refuses]

theorem unregister_spec (h : s.unregister t = some s') :
    s'.owner = s.owner ∧ s'.entering.Perm (s.entering.erase t) := by
  unfold unregister at h
  obtain ⟨index, hindex, rfl⟩ := Option.map_eq_some_iff.mp h
  exact ⟨rfl, swapRemove_idxOf hindex⟩

theorem unregister_ne_none (h : t ∈ s.entering) : s.unregister t ≠ none := by
  unfold unregister
  intro hnone
  exact List.idxOf?_eq_none_iff.mp (Option.map_eq_none_iff.mp hnone) h

end CloseGate

/-! ### One step -/

structure Fits (s : CloseGate τ) (t : τ) (pc : Closer) : Prop where
  sound : pc.Sound
  marked : s.entering.count t = pc.markers
  owner : s.owner = some t ∧ pc.alive = 1 ∨ s.owner ≠ some t ∧ pc.alive = 0

/-- What a step of the thread `t` keeps: what the gate says of it, the markers of the others, and that
the owner is recorded. -/
structure Keeps (t : τ) (s : CloseGate τ) (pc : Closer) (s' : CloseGate τ) (pc' : Closer) : Prop where
  sound : pc'.Sound
  marked : s'.entering.count t = pc'.markers
  others : ∀ u, u ≠ t → s'.entering.count u = s.entering.count u
  owner : Mutex.CountedMove t s.owner pc.alive s'.owner pc'.alive

theorem Fits.mem (h : Fits s t pc) (hm : pc.markers ≠ 0) : t ∈ s.entering := by
  refine List.count_pos_iff.mp ?_
  rw [h.marked]
  omega

theorem Keeps.call (h : Fits s t pc) (hforeign : pc.foreign = true) :
    Keeps t s pc s { pc with calls := .start :: pc.calls } := by
  obtain ⟨hsound, hmarked, -⟩ := h
  refine ⟨?_, hmarked, fun _ _ => rfl, .stay _ _⟩
  cases hsound with
  | idle n => exact .starting n
  | starting n => cases hforeign
  | inside hinside => exact .nested hforeign
  | nested hasks => cases hforeign

theorem Keeps.refuse {n : ℕ} {rest : List Enter} (h : Fits s t ⟨n, .start :: rest⟩) :
    Keeps t s ⟨n, .start :: rest⟩ s ⟨n, rest⟩ := by
  obtain ⟨hsound, hmarked, -⟩ := h
  refine ⟨?_, hmarked, fun _ _ => rfl, .stay _ _⟩
  cases hsound with
  | starting n => exact .idle n
  | inside hinside => cases hinside
  | nested hasks => exact .inside (Enter.inside_of_asks hasks)

theorem Keeps.register {n : ℕ} {rest : List Enter} (h : Fits s t ⟨n, .start :: rest⟩)
    (hrefuses : s.refuses t = false) :
    Keeps t s ⟨n, .start :: rest⟩ (s.register t) ⟨n, .admission :: rest⟩ := by
  obtain ⟨howner, hmem⟩ := CloseGate.refuses_eq_false.mp hrefuses
  have hothers : ∀ u, u ≠ t → (s.entering ++ [t]).count u = s.entering.count u := by
    intro u hu
    rw [List.count_append, List.count_singleton, if_neg (by simpa using Ne.symm hu), Nat.add_zero]
  have hself : (s.entering ++ [t]).count t = 1 := by
    rw [List.count_append, List.count_eq_zero.mpr hmem, List.count_singleton_self]
  have halive : (⟨n, .start :: rest⟩ : Closer).alive = 0 := by
    rcases h.owner with ⟨hsome, -⟩ | ⟨-, hzero⟩
    · exact absurd hsome howner
    · exact hzero
  have hmarked := h.marked
  rw [List.count_eq_zero.mpr hmem] at hmarked
  cases h.sound with
  | starting n =>
    have hzero : n = 0 := halive
    subst hzero
    exact ⟨.inside rfl, hself, hothers, .stay _ _⟩
  | inside hinside => cases hinside
  | nested hasks =>
    -- the call below has left its marker
    have hbelow := Enter.marked_of_inside (Enter.inside_of_asks hasks)
    unfold Closer.markers at hmarked
    rw [List.countP_cons_of_neg (by decide), List.countP_singleton, if_pos hbelow] at hmarked
    cases hmarked

theorem Keeps.ask {n : ℕ} {call : Enter} {rest : List Enter} (h : Fits s t ⟨n, call :: rest⟩)
    (seen : Option Interruption) (hasks : call.asks = true) :
    Keeps t s ⟨n, call :: rest⟩ s ⟨n, call.answered seen :: rest⟩ := by
  obtain ⟨hsound, hmarked, -⟩ := h
  cases hsound with
  | starting n => cases hasks
  | nested hasks' => cases hasks
  | inside hinside =>
    have hkeep : (call.answered seen).inside = true ∧ (call.answered seen).owns = call.owns := by
      cases call with
      | admission | checkpoint | commit => cases seen <;> exact ⟨rfl, rfl⟩
      | _ => cases hasks
    have hbefore := Enter.marked_of_inside hinside
    have hafter := Enter.marked_of_inside hkeep.1
    have halive : (⟨0, [call.answered seen]⟩ : Closer).alive = (⟨0, [call]⟩ : Closer).alive := by
      unfold Closer.alive
      rw [List.countP_singleton, List.countP_singleton, hkeep.2]
    have hmarkers : (⟨0, [call.answered seen]⟩ : Closer).markers =
        (⟨0, [call]⟩ : Closer).markers := by
      unfold Closer.markers
      rw [List.countP_singleton, List.countP_singleton, hbefore, hafter]
    refine ⟨.inside hkeep.1, hmarked.trans hmarkers.symm, fun _ _ => rfl, ?_⟩
    rw [halive]
    exact .stay _ _

theorem Keeps.claim {n : ℕ} {rest : List Enter} (h : Fits s t ⟨n, .claim :: rest⟩) :
    Keeps t s ⟨n, .claim :: rest⟩ (s.claim t).1 ⟨n, (s.claim t).2 :: rest⟩ := by
  obtain ⟨hsound, hmarked, howner⟩ := h
  cases hsound with
  | inside hinside =>
    unfold CloseGate.claim
    cases hs : s.owner with
    | none =>
      refine ⟨.inside rfl, hmarked, fun _ _ => rfl, ?_⟩
      rw [hs]
      exact .lock 0
    | some owner =>
      have hne : owner ≠ t := by
        rintro rfl
        rcases howner with ⟨-, halive⟩ | ⟨hne, -⟩
        · cases halive
        · exact hne hs
      dsimp only
      rw [if_neg hne]
      exact ⟨.inside rfl, hmarked, fun _ _ => rfl, .stay _ _⟩

theorem Keeps.wake {n : ℕ} {rest : List Enter} (h : Fits s t ⟨n, .wait :: rest⟩) :
    Keeps t s ⟨n, .wait :: rest⟩ s ⟨n, .checkpoint :: rest⟩ := by
  obtain ⟨hsound, hmarked, -⟩ := h
  cases hsound with
  | inside hinside => exact ⟨.inside rfl, hmarked, fun _ _ => rfl, .stay _ _⟩

theorem Keeps.discard {n : ℕ} {rest : List Enter} (h : Fits s t ⟨n, .discard :: rest⟩) :
    Keeps t s ⟨n, .discard :: rest⟩ s.release ⟨n, .leave false :: rest⟩ := by
  obtain ⟨hsound, hmarked, -⟩ := h
  cases hsound with
  | inside hinside => exact ⟨.inside rfl, hmarked, fun _ _ => rfl, .unlock _ 0⟩

theorem Keeps.leave {n : ℕ} {rest : List Enter} {owner : Bool}
    (h : Fits s t ⟨n, .leave owner :: rest⟩) (hs : s.unregister t = some s') :
    Keeps t s ⟨n, .leave owner :: rest⟩ s' ⟨n + owner.toNat, rest⟩ := by
  obtain ⟨hsame, hperm⟩ := CloseGate.unregister_spec hs
  obtain ⟨hsound, hmarked, -⟩ := h
  cases hsound with
  | inside hinside =>
    refine ⟨.idle _, ?_, ?_, ?_⟩
    · rw [hperm.count_eq, List.count_erase_self, hmarked]
      rfl
    · intro u hu
      rw [hperm.count_eq, List.count_erase_of_ne hu]
    · rw [hsame]
      cases owner with
      | true => exact .stay _ _
      | false => exact .stay _ _

theorem Keeps.drop {n : ℕ} (h : Fits s t pc) (hforeign : pc.foreign = true)
    (howners : pc.owners = n + 1) : Keeps t s pc s.release { pc with owners := n } := by
  obtain ⟨hsound, hmarked, -⟩ := h
  cases hsound with
  | idle k =>
    obtain rfl : k = n + 1 := howners
    exact ⟨.idle n, hmarked, fun _ _ => rfl, .unlock _ n⟩
  | starting k => cases hforeign
  | inside hinside => cases howners
  | nested hasks => cases howners

theorem GateAct.keeps (h : GateAct t s pc e s' pc') (hfits : Fits s t pc) : Keeps t s pc s' pc' := by
  cases h with
  | call hforeign => exact .call hfits hforeign
  | refuse hrefuses => exact .refuse hfits
  | register hrefuses => exact .register hfits hrefuses
  | ask seen hasks => exact .ask hfits seen hasks
  | claim => exact .claim hfits
  | wake => exact .wake hfits
  | discard => exact .discard hfits
  | leave hs => exact .leave hfits hs
  | lose hs =>
    have hmem : t ∈ s.entering := hfits.mem (by
      unfold Closer.markers
      rw [List.countP_cons_of_pos (by rfl)]
      omega)
    exact absurd hs (CloseGate.unregister_ne_none hmem)
  | drop hforeign howners => exact .drop hfits hforeign howners

/-! ### Every state -/

variable {w : World τ (CloseGate τ) Closer}

theorem gate_sound (hw : (gateSystem τ).Reachable w) (t : τ) : Fits w.shared t (w.pc t) := by
  have hinv : (∀ t, (w.pc t).Sound) ∧ (∀ t, w.shared.entering.count t = (w.pc t).markers) ∧
      Mutex.Counted w.shared.owner fun t => (w.pc t).alive := by
    refine threads_invariant (P := fun w : World τ (CloseGate τ) Closer => (∀ t, (w.pc t).Sound) ∧
      (∀ t, w.shared.entering.count t = (w.pc t).markers) ∧
        Mutex.Counted w.shared.owner fun t => (w.pc t).alive) ?_ ?_ hw
    · exact ⟨fun _ => .idle 0, fun _ => rfl, fun _ => Or.inr ⟨nofun, rfl⟩⟩
    · intro w t e s' pc' _ hI hact
      obtain ⟨hsound, hmarked, hcounted⟩ := hI
      have hkeeps := hact.keeps ⟨hsound t, hmarked t, hcounted t⟩
      refine ⟨?_, ?_, ?_⟩
      · exact World.forall_move w t s' pc' hkeeps.sound fun u _ => hsound u
      · intro u
        by_cases hu : u = t
        · subst hu
          rw [World.move_pc_self]
          exact hkeeps.marked
        · rw [World.move_pc_of_ne _ _ _ _ hu]
          exact (hkeeps.others u hu).trans (hmarked u)
      · have hsame : (fun u => ((w.move t s' pc').pc u).alive) =
            Function.update (fun u => (w.pc u).alive) t pc'.alive :=
          Function.comp_update Closer.alive w.pc t pc'
        rw [hsame]
        exact hcounted.move hkeeps.owner
  exact ⟨hinv.1 t, hinv.2.1 t, hinv.2.2 t⟩

/-! ### The law -/

/-- The thread is in a call that has left its marker. -/
def Closer.entering (pc : Closer) : Prop := ∃ call ∈ pc.calls, call.marked = true

theorem Closer.entering_iff : pc.entering ↔ pc.markers ≠ 0 := by
  unfold Closer.entering Closer.markers
  rw [← Nat.pos_iff_ne_zero, List.countP_pos_iff]

theorem Closer.Sound.markers_le (h : pc.Sound) : pc.markers ≤ 1 := by
  cases h with
  | idle n => exact Nat.zero_le 1
  | starting n => exact Nat.zero_le 1
  | inside hinside =>
    unfold Closer.markers
    rw [List.countP_singleton]
    split <;> omega
  | nested hasks =>
    unfold Closer.markers
    rw [List.countP_cons_of_neg (by decide), List.countP_singleton]
    split <;> omega

theorem Closer.Sound.reached (h : pc.Sound) :
    Enter.unreachable ∉ pc.calls ∧ Enter.unregistered ∉ pc.calls := by
  cases h with
  | idle n => simp
  | starting n => simp
  | inside hinside =>
    constructor
    · intro hmem
      rw [← List.mem_singleton.mp hmem] at hinside
      cases hinside
    · intro hmem
      rw [← List.mem_singleton.mp hmem] at hinside
      cases hinside
  | nested hasks =>
    constructor
    · intro hmem
      simp only [List.mem_cons, reduceCtorEq, List.not_mem_nil, or_false, false_or] at hmem
      rw [← hmem] at hasks
      cases hasks
    · intro hmem
      simp only [List.mem_cons, reduceCtorEq, List.not_mem_nil, or_false, false_or] at hmem
      rw [← hmem] at hasks
      cases hasks

theorem Fits.entering_iff (h : Fits s t pc) : pc.entering ↔ t ∈ s.entering := by
  rw [Closer.entering_iff, ← h.marked, ← Nat.pos_iff_ne_zero, List.count_pos_iff]

theorem Fits.refuses_iff (h : Fits s t pc) :
    s.refuses t = true ↔ pc.entering ∨ pc.alive ≠ 0 := by
  rw [CloseGate.refuses_eq_true, h.entering_iff, or_comm]
  refine or_congr_right ⟨fun hsome => ?_, fun halive => ?_⟩
  · rcases h.owner with ⟨-, hone⟩ | ⟨hne, -⟩
    · rw [hone]
      exact Nat.succ_ne_zero 0
    · exact absurd hsome hne
  · rcases h.owner with ⟨hsome, -⟩ | ⟨-, hzero⟩
    · exact hsome
    · exact absurd hzero halive

theorem GateAct.of_refuses {n : ℕ} {rest : List Enter} (hrefuses : s.refuses t = true)
    (hact : GateAct t s ⟨n, .start :: rest⟩ e s' pc') : e = .refused ∧ s' = s ∧ pc' = ⟨n, rest⟩ := by
  cases hact with
  | call hforeign => cases hforeign
  | refuse hrefused => exact ⟨rfl, rfl, rfl⟩
  | register hnot =>
    rw [hrefuses] at hnot
    cases hnot
  | ask seen hasks => cases hasks
  | drop hforeign => cases hforeign

/-- **A call that returns** takes out its own marker and no other, and one that fails does not leave the
gate to its thread. -/
theorem Fits.left {owner : Bool} (h : Fits s t pc) (hact : GateAct t s pc (.left owner) s' pc') :
    s'.entering.Perm (s.entering.erase t) ∧ t ∈ s.entering ∧ t ∉ s'.entering ∧ s'.owner = s.owner ∧
      (owner = false → s'.owner ≠ some t ∧ pc'.alive = 0) := by
  cases hact with
  | @leave n rest _ _ hs =>
    obtain ⟨hsame, hperm⟩ := CloseGate.unregister_spec hs
    have hkeeps := Keeps.leave h hs
    have hmarked := hkeeps.marked
    have hentering : t ∈ s.entering := h.entering_iff.mp ⟨_, List.mem_cons_self, rfl⟩
    rw [hsame]
    obtain ⟨hsound, -, howner⟩ := h
    cases hsound with
    | inside hinside =>
      refine ⟨hperm, hentering, List.count_eq_zero.mp hmarked, rfl, ?_⟩
      rintro rfl
      rcases howner with ⟨-, hone⟩ | ⟨hne, -⟩
      · cases hone
      · exact ⟨hne, rfl⟩

theorem Fits.dropped (h : Fits s t pc) (hact : GateAct t s pc .dropped s' pc') :
    s.owner = some t := by
  have hpos : pc.alive ≠ 0 := by
    unfold Closer.alive
    cases hact with
    | discard =>
      rw [List.countP_cons_of_pos (by rfl)]
      omega
    | drop hforeign howners => omega
  rcases h.owner with ⟨hsome, -⟩ | ⟨-, hzero⟩
  · exact hsome
  · exact absurd hzero hpos

theorem Fits.waits {n : ℕ} {rest : List Enter} (h : Fits s t ⟨n, .wait :: rest⟩) :
    s.owner ≠ some t := by
  intro hsome
  obtain ⟨hsound, -, howner⟩ := h
  rcases howner with ⟨-, hone⟩ | ⟨hne, -⟩
  · cases hsound with
    | inside hinside => cases hone
  · exact hne hsome

/-- **The law of the gate**, of a state and of the steps that may follow. -/
structure GateLaw (w : World τ (CloseGate τ) Closer) : Prop where
  /-- At most one owner is alive, and the gate records its thread. -/
  owner : ∀ t, (w.pc t).alive ≠ 0 → w.shared.owner = some t ∧ (w.pc t).alive = 1
  one : ∀ t u, (w.pc t).alive ≠ 0 → (w.pc u).alive ≠ 0 → t = u
  recorded : ∀ t, w.shared.owner = some t → (w.pc t).alive = 1
  /-- A thread has one marker while it is in a call behind it, and none otherwise. -/
  marker : ∀ t, ((w.pc t).entering ∧ w.shared.entering.count t = 1) ∨
    (¬ (w.pc t).entering ∧ t ∉ w.shared.entering)
  /-- The call of a thread that is entering or owns the gate is refused at once: whatever the others do,
  it can take this step, and no other one. -/
  refused : ∀ t n rest, w.pc t = ⟨n, .start :: rest⟩ → (w.pc t).entering ∨ (w.pc t).alive ≠ 0 →
    GateAct t w.shared (w.pc t) .refused w.shared ⟨n, rest⟩ ∧
    ∀ e s' pc', GateAct t w.shared (w.pc t) e s' pc' →
      e = .refused ∧ s' = w.shared ∧ pc' = ⟨n, rest⟩
  /-- The call of any other thread is not refused. -/
  entered : ∀ t n rest e s' pc', w.pc t = ⟨n, .start :: rest⟩ → ¬ (w.pc t).entering →
    (w.pc t).alive = 0 → GateAct t w.shared (w.pc t) e s' pc' → e = .registered
  /-- A thread that waits does not wait for itself. -/
  waits : ∀ t n rest, w.pc t = ⟨n, .wait :: rest⟩ → w.shared.owner ≠ some t
  /-- A call that is refused changes nothing; a call that returns takes out its own marker and no
  other, and one that fails does not leave the gate to its thread. -/
  leaves : ∀ t e s' pc', GateAct t w.shared (w.pc t) e s' pc' →
    (e = .refused → s' = w.shared) ∧
    ∀ owner, e = .left owner → s'.entering.Perm (w.shared.entering.erase t) ∧
      t ∈ w.shared.entering ∧ t ∉ s'.entering ∧ s'.owner = w.shared.owner ∧
      (owner = false → s'.owner ≠ some t ∧ pc'.alive = 0)
  /-- An owner that is dropped is the one the gate records. -/
  drops : ∀ t s' pc', GateAct t w.shared (w.pc t) .dropped s' pc' → w.shared.owner = some t
  /-- The branch that is marked as unreachable is not reached, and no marker is lost. -/
  reached : ∀ t, Enter.unreachable ∉ (w.pc t).calls ∧ Enter.unregistered ∉ (w.pc t).calls

/-- **The close gate**, with any threads and in any order of their steps. -/
theorem gate_law (hw : (gateSystem τ).Reachable w) : GateLaw w := by
  have hfits := gate_sound hw
  have howner : ∀ t, (w.pc t).alive ≠ 0 → w.shared.owner = some t ∧ (w.pc t).alive = 1 := by
    intro t ht
    rcases (hfits t).owner with hsome | ⟨-, hzero⟩
    · exact hsome
    · exact absurd hzero ht
  have hmarker : ∀ t, ((w.pc t).entering ∧ w.shared.entering.count t = 1) ∨
      (¬ (w.pc t).entering ∧ t ∉ w.shared.entering) := by
    intro t
    have hle := (hfits t).sound.markers_le
    rw [Closer.entering_iff, not_not, ← List.count_eq_zero, (hfits t).marked]
    omega
  refine ⟨howner, ?_, ?_, hmarker, ?_, ?_, ?_, ?_, ?_, fun t => (hfits t).sound.reached⟩
  · intro t u ht hu
    have hsame := (howner t ht).1.symm.trans (howner u hu).1
    exact Option.some.inj hsame
  · intro t hsome
    rcases (hfits t).owner with ⟨-, hone⟩ | ⟨hne, -⟩
    · exact hone
    · exact absurd hsome hne
  · intro t n rest hpc hself
    have hrefuses := (hfits t).refuses_iff.mpr hself
    rw [hpc]
    exact ⟨.refuse hrefuses, fun e s' pc' hact => hact.of_refuses hrefuses⟩
  · intro t n rest e s' pc' hpc hout hfree hact
    have hrefuses : ¬ w.shared.refuses t = true := by
      rw [(hfits t).refuses_iff, not_or, not_not]
      exact ⟨hout, hfree⟩
    rw [hpc] at hact
    cases hact with
    | call hforeign => cases hforeign
    | refuse hrefused => exact absurd hrefused hrefuses
    | register hnot => rfl
    | ask seen hasks => cases hasks
    | drop hforeign => cases hforeign
  · intro t n rest hpc
    have hf := hfits t
    rw [hpc] at hf
    exact hf.waits
  · intro t e s' pc' hact
    have hf := hfits t
    generalize w.pc t = pc at hact hf
    refine ⟨?_, ?_⟩
    · rintro rfl
      cases hact with
      | refuse => rfl
    · rintro owner rfl
      exact hf.left hact
  · intro t s' pc' hact
    exact (hfits t).dropped hact

/-- **A thread that closes again** at each question of its call and with the owner in hand, while another
thread waits for the gate. -/
theorem gate_law_nested : ∃ w w' : World ℕ (CloseGate ℕ) Closer, (gateSystem ℕ).Reachable w ∧
    (w.pc 0).calls = [.start, .commit] ∧ w.shared = ⟨some 0, [0]⟩ ∧
    GateAct 0 w.shared (w.pc 0) .refused w.shared ⟨0, [.commit]⟩ ∧
    (gateSystem ℕ).Leads w w' ∧ w'.pc 0 = ⟨1, [.start]⟩ ∧ w'.pc 1 = ⟨0, [.wait]⟩ ∧
    w'.shared = ⟨some 0, [1]⟩ ∧ GateAct 0 w'.shared (w'.pc 0) .refused w'.shared ⟨1, []⟩ := by
  have hfirst : Solo GateAct 0 (⟨none, []⟩ : CloseGate ℕ) ⟨0, []⟩
      [.called, .registered, .called, .refused, .answered none, .claimed, .called]
      ⟨some 0, [0]⟩ ⟨0, [.start, .commit]⟩ :=
    .cons (.call rfl) <| .cons (.register rfl) <| .cons (.call rfl) <| .cons (.refuse rfl) <|
      .cons (.ask none rfl) <| .cons .claim <| .cons (.call rfl) <| .nil ..
  have howns : Solo GateAct 0 (⟨some 0, [0]⟩ : CloseGate ℕ) ⟨0, [.start, .commit]⟩
      [.refused, .answered none, .left true, .called] ⟨some 0, []⟩ ⟨1, [.start]⟩ :=
    .cons (.refuse rfl) <| .cons (.ask none rfl) <| .cons (.leave rfl) <| .cons (.call rfl) <| .nil ..
  have hwaits : Solo GateAct 1 (⟨some 0, []⟩ : CloseGate ℕ) ⟨0, []⟩
      [.called, .registered, .answered none, .claimed] ⟨some 0, [1]⟩ ⟨0, [.wait]⟩ :=
    .cons (.call rfl) <| .cons (.register rfl) <| .cons (.ask none rfl) <| .cons .claim <| .nil ..
  have hw : (gateSystem ℕ).Reachable ((gateStart : World ℕ (CloseGate ℕ) Closer).move 0
      ⟨some 0, [0]⟩ ⟨0, [.start, .commit]⟩) := ⟨gateStart, rfl, hfirst.leads⟩
  have hleads : (gateSystem ℕ).Leads (gateStart.move 0 ⟨some 0, [0]⟩ ⟨0, [.start, .commit]⟩)
      (((gateStart.move 0 ⟨some 0, [0]⟩ ⟨0, [.start, .commit]⟩).move 0 ⟨some 0, []⟩
        ⟨1, [.start]⟩).move 1 ⟨some 0, [1]⟩ ⟨0, [.wait]⟩) := .trans howns.leads hwaits.leads
  exact ⟨_, _, hw, rfl, rfl, ((gate_law hw).refused 0 0 [.commit] rfl (.inr (by decide))).1, hleads, rfl,
    rfl, rfl, ((gate_law (hw.leads hleads)).refused 0 1 [] rfl (.inr (by decide))).1⟩

end MadoPilot.Platform.Macos
