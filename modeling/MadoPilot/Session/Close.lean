import MadoPilot.Diagnostic.Losses
import MadoPilot.Input.AdmissionGate
import MadoPilot.Lib.Dialogue
import MadoPilot.Session.Calls

/-!
# Closing a session

A close raises the session's flag, ends its watcher and then closes the input controller and the
capture session, each of which may answer anything.  With diagnostics it is observed first, and an
observation that is refused is the end of it.

Over an admission gate and a stream the two closes are their drains.  A call sees the others only
between and inside its own steps, so what happens meanwhile is any run of the gate and any run of the
stream.

* `close_spoken` : what a close asks, and what it returns;
* `gate_begun`, `stream_drained` : a drain that returns leaves its side closing;
* `Follows` : a call over both sides, while the others act;
* `session_close` : a close begins both sides exactly where its observation is not refused.
-/

namespace MadoPilot.Session.Close

open MadoPilot.Core MadoPilot.Lib MadoPilot.Diagnostic
open MadoPilot.Input (Gate GateWorld GateEvent GateAct AdmitAct DrainAct GuardAct InputFault
  gateSystem gateInv_reachable runsOwnCode)
open MadoPilot.Capture (StreamWorld streamSystem streamInv_reachable)

/-! ### The call -/

inductive Question where
  /-- `closing.swap(true)` -/
  | startClosing
  /-- `watcher.close`, if there is one -/
  | watcherClose
  /-- the admission of the observation, the load of `producer_released`, and the identity -/
  | admits
  | producerReleased
  | issueOperation
  /-- the caller's clock, and the diagnostic stream -/
  | now
  | started (id : ℕ) (timestamp : ℕ)
  | inputClose
  | captureClose
  | releasedSince
  | captureIsClosed
  | inputIsClosed
  | ended (id : ℕ) (timestamp : ℕ) (lifecycle : Lifecycle) (fault : Option Status)

/-- What comes back. -/
abbrev Answer : Question → Type
  | .startClosing | .watcherClose | .started .. | .ended .. => PUnit
  | .admits => Option Interruption
  | .producerReleased | .releasedSince | .captureIsClosed | .inputIsClosed => Bool
  | .issueOperation => Except Error ℕ
  | .now => ℕ
  | .inputClose | .captureClose => Except Error Unit

abbrev Program (α : Type) := Dialogue Answer Error α

/-- What a session was opened with: an input controller, and the level of its diagnostics. -/
structure Config where
  input : Bool
  level : DiagnosticLevel

/-- `DiagnosticSink::observe` of a sealed producer. -/
def producerSealed : Error := ⟨.closed, "diagnostic producer is sealed"⟩

open Dialogue (ask fail lift)

section Programs

variable (config : Config)

/-- `debug` of the record that an operation has started; `now` is read before the producer. -/
def debugStarted (id : ℕ) : Program PUnit :=
  match config.level with
  | .debug => do
    let timestamp ← ask Question.now
    let released ← ask Question.releasedSince
    if released then pure ⟨⟩ else ask (Question.started id timestamp)
  | _ => pure ⟨⟩

def observe : Program (Option ℕ) :=
  match config.level with
  | .off => pure none
  | _ => do
    let seen ← ask Question.admits
    let _ ← lift ((Operation.admitContext seen).mapError Interruption.toError)
    let released ← ask Question.producerReleased
    if released then fail producerSealed
    else do
      let issued ← ask Question.issueOperation
      let id ← lift issued
      let _ ← debugStarted config id
      pure (some id)

def isClosed : Program Bool := do
  let capture ← ask Question.captureIsClosed
  if capture then
    if config.input then ask Question.inputIsClosed else pure true
  else pure false

/-- `normal` of the record that a close has ended. -/
def normal (observed : Option ℕ) (result : Except Error Unit) : Program PUnit :=
  match observed with
  | none => pure ⟨⟩
  | some id => do
    let timestamp ← ask Question.now
    let released ← ask Question.releasedSince
    if released then pure ⟨⟩
    else do
      let closed ← isClosed config
      ask (Question.ended id timestamp (if closed then .closed else .closing)
        (match result with
          | .ok _ => none
          | .error error => some error.status))

/-- `close` of the input controller, where there is one. -/
def closeInput : Program (Except Error Unit) :=
  if config.input then ask Question.inputClose else pure (.ok ())

def close : Program Unit := do
  let _ ← ask Question.startClosing
  let _ ← ask Question.watcherClose
  let observed ← observe config
  let input ← closeInput config
  let capture ← ask Question.captureClose
  let result := andThen input capture
  let _ ← normal config observed result
  lift result

end Programs

/-! ### What a close asks -/

abbrev Said := List ((q : Question) × Answer q)

def Question.observes : Question → Bool
  | admits | producerReleased | issueOperation => true
  | _ => false

def Question.closes : Question → Bool
  | inputClose | captureClose => true
  | _ => false

/-- The observation was refused: the operation is interrupted already, the producer is sealed, or the
identities are exhausted. -/
inductive Refusal : (q : Question) × Answer q → Prop
  | interrupted (i : Interruption) : Refusal ⟨.admits, some i⟩
  | isSealed : Refusal ⟨.producerReleased, true⟩
  | exhausted (e : Error) : Refusal ⟨.issueOperation, .error e⟩

def Refused (said : Said) : Prop := ∃ x ∈ said, Refusal x

/-- Nothing of the observation is asked, and no side is closed. -/
def Aside (said : Said) : Prop := ∀ x ∈ said, x.1.observes = false ∧ x.1.closes = false

section Spoken

open Dialogue

variable {config : Config} {said : Said}

theorem Refusal.observes {x : (q : Question) × Answer q} (h : Refusal x) : x.1.observes = true := by
  cases h <;> rfl

theorem Aside.not_refused (h : Aside said) : ¬Refused said := by
  rintro ⟨x, hx, hrefusal⟩
  have hno := (h x hx).1
  rw [hrefusal.observes] at hno
  cases hno

theorem Aside.nil : Aside [] := fun _ hx => absurd hx List.not_mem_nil

theorem Aside.cons {x : (q : Question) × Answer q} (hx : x.1.observes = false ∧ x.1.closes = false)
    (h : Aside said) : Aside (x :: said) := by
  intro y hy
  rcases List.mem_cons.mp hy with rfl | hy
  · exact hx
  · exact h y hy

theorem Aside.append {said' : Said} (h : Aside said) (h' : Aside said') : Aside (said ++ said') := by
  intro x hx
  rcases List.mem_append.mp hx with hx | hx
  · exact h x hx
  · exact h' x hx

theorem spoken_ask {q : Question} {r : Except Error (Answer q)}
    (h : Spoken (ask q : Program (Answer q)) said r) : ∃ a, said = [⟨q, a⟩] ∧ r = .ok a := by
  obtain ⟨a, rest, rfl, hrest⟩ := spoken_call h
  obtain ⟨rfl, rfl⟩ := spoken_done hrest
  exact ⟨a, rfl, rfl⟩

theorem spoken_next {α : Type} {q : Question} {f : Answer q → Program α} {r : Except Error α}
    (h : Spoken (ask q >>= f) said r) :
    ∃ a rest, said = ⟨q, a⟩ :: rest ∧ Spoken (f a) rest r := by
  rw [ask_bind] at h
  exact spoken_call h

theorem debugStarted_spoken {id : ℕ} {r : Except Error PUnit}
    (h : Spoken (debugStarted config id) said r) : Aside said ∧ r = .ok ⟨⟩ := by
  unfold debugStarted at h
  split at h
  · obtain ⟨timestamp, rest, rfl, hnow⟩ := spoken_next h
    obtain ⟨released, rest, rfl, hreleased⟩ := spoken_next hnow
    cases released with
    | true =>
      obtain ⟨rfl, rfl⟩ := spoken_done hreleased
      exact ⟨.cons ⟨rfl, rfl⟩ (.cons ⟨rfl, rfl⟩ .nil), rfl⟩
    | false =>
      obtain ⟨a, rfl, rfl⟩ := spoken_ask hreleased
      exact ⟨.cons ⟨rfl, rfl⟩ (.cons ⟨rfl, rfl⟩ (.cons ⟨rfl, rfl⟩ .nil)), rfl⟩
  · obtain ⟨rfl, rfl⟩ := spoken_done h
    exact ⟨.nil, rfl⟩

theorem refused_cons {x : (q : Question) × Answer q} : Refused (x :: said) ↔ Refusal x ∨ Refused said := by
  unfold Refused
  simp only [List.mem_cons, exists_eq_or_imp]

theorem refused_append {said' : Said} : Refused (said ++ said') ↔ Refused said ∨ Refused said' := by
  unfold Refused
  simp only [List.mem_append, or_and_right, exists_or]

theorem observe_spoken {r : Except Error (Option ℕ)} (h : Spoken (observe config) said r) :
    (∀ x ∈ said, x.1.closes = false) ∧ ((∃ e, r = .error e) ↔ Refused said) := by
  unfold observe at h
  split at h
  · obtain ⟨rfl, rfl⟩ := spoken_done h
    exact ⟨fun _ hx => absurd hx List.not_mem_nil, iff_of_false (by simp) Aside.nil.not_refused⟩
  · obtain ⟨seen, rest, rfl, hadmitted⟩ := spoken_next h
    cases seen with
    | some i =>
      obtain ⟨rfl, rfl⟩ := spoken_done hadmitted
      exact ⟨by simp [Question.closes], iff_of_true ⟨_, rfl⟩ (refused_cons.mpr (Or.inl (.interrupted i)))⟩
    | none =>
      obtain ⟨released, rest, rfl, hreleased⟩ := spoken_next (f := fun released => _) hadmitted
      cases released with
      | true =>
        obtain ⟨rfl, rfl⟩ := spoken_done hreleased
        exact ⟨by simp [Question.closes],
          iff_of_true ⟨_, rfl⟩ (refused_cons.mpr (Or.inr (refused_cons.mpr (Or.inl .isSealed))))⟩
      | false =>
        obtain ⟨issued, rest, rfl, hissued⟩ := spoken_next hreleased
        cases issued with
        | error e =>
          obtain ⟨rfl, rfl⟩ := spoken_done hissued
          exact ⟨by simp [Question.closes], iff_of_true ⟨_, rfl⟩
            (refused_cons.mpr (Or.inr (refused_cons.mpr (Or.inr (refused_cons.mpr (Or.inl (.exhausted e)))))))⟩
        | ok id =>
          rw [lift_ok_bind] at hissued
          rcases spoken_bind hissued with ⟨e, hstarted, -⟩ | ⟨_, before, after, hstarted, hdone, rfl⟩
          · cases (debugStarted_spoken hstarted).2
          · obtain ⟨haside, -⟩ := debugStarted_spoken hstarted
            obtain ⟨rfl, rfl⟩ := spoken_done hdone
            rw [List.append_nil]
            refine ⟨?_, iff_of_false (by simp) ?_⟩
            · simp only [List.mem_cons, forall_eq_or_imp]
              exact ⟨rfl, rfl, rfl, fun x hx => (haside x hx).2⟩
            · rw [refused_cons, refused_cons, refused_cons]
              rintro (hrefusal | hrefusal | hrefusal | hrefusal)
              · cases hrefusal
              · cases hrefusal
              · cases hrefusal
              · exact haside.not_refused hrefusal

theorem isClosed_spoken {r : Except Error Bool} (h : Spoken (isClosed config) said r) :
    Aside said ∧ ∃ closed, r = .ok closed := by
  unfold isClosed at h
  obtain ⟨capture, rest, rfl, hcapture⟩ := spoken_next h
  cases capture with
  | false =>
    obtain ⟨rfl, rfl⟩ := spoken_done hcapture
    exact ⟨.cons ⟨rfl, rfl⟩ .nil, _, rfl⟩
  | true =>
    rw [if_pos rfl] at hcapture
    split at hcapture
    · obtain ⟨a, rfl, rfl⟩ := spoken_ask hcapture
      exact ⟨.cons ⟨rfl, rfl⟩ (.cons ⟨rfl, rfl⟩ .nil), _, rfl⟩
    · obtain ⟨rfl, rfl⟩ := spoken_done hcapture
      exact ⟨.cons ⟨rfl, rfl⟩ .nil, _, rfl⟩

theorem normal_spoken {observed : Option ℕ} {result : Except Error Unit} {r : Except Error PUnit}
    (h : Spoken (normal config observed result) said r) : Aside said ∧ r = .ok ⟨⟩ := by
  cases observed with
  | none =>
    obtain ⟨rfl, rfl⟩ := spoken_done h
    exact ⟨.nil, rfl⟩
  | some id =>
    obtain ⟨timestamp, rest, rfl, hnow⟩ := spoken_next h
    obtain ⟨released, rest, rfl, hreleased⟩ := spoken_next hnow
    cases released with
    | true =>
      obtain ⟨rfl, rfl⟩ := spoken_done hreleased
      exact ⟨.cons ⟨rfl, rfl⟩ (.cons ⟨rfl, rfl⟩ .nil), rfl⟩
    | false =>
      rw [if_neg Bool.false_ne_true] at hreleased
      rcases spoken_bind hreleased with ⟨e, hclosed, rfl⟩ | ⟨closed, before, after, hclosed, hended, rfl⟩
      · obtain ⟨-, closed, hok⟩ := isClosed_spoken hclosed
        cases hok
      · obtain ⟨haside, -⟩ := isClosed_spoken hclosed
        obtain ⟨a, rfl, rfl⟩ := spoken_ask hended
        exact ⟨.cons ⟨rfl, rfl⟩ (.cons ⟨rfl, rfl⟩ (haside.append (.cons ⟨rfl, rfl⟩ .nil))), rfl⟩

theorem closeInput_spoken {r : Except Error (Except Error Unit)}
    (h : Spoken (closeInput config) said r) : ∃ input, r = .ok input ∧
      (config.input = true ∧ said = [⟨.inputClose, input⟩] ∨
        config.input = false ∧ said = [] ∧ input = .ok ()) := by
  unfold closeInput at h
  split at h
  · rename_i hinput
    obtain ⟨a, rfl, rfl⟩ := spoken_ask h
    exact ⟨a, rfl, Or.inl ⟨hinput, rfl⟩⟩
  · rename_i hinput
    obtain ⟨rfl, rfl⟩ := spoken_done h
    exact ⟨_, rfl, Or.inr ⟨Bool.eq_false_iff.mpr hinput, rfl, rfl⟩⟩

/-- Both sides were asked to close, the input controller first, and the result is that of the two. -/
def ClosesBoth (config : Config) (said : Said) (r : Except Error Unit) : Prop :=
  ∃ before asked after input capture, said = before ++ (asked ++ ⟨.captureClose, capture⟩ :: after) ∧
    (∀ x ∈ before, x.1.closes = false) ∧ Aside after ∧
    (config.input = true ∧ asked = [⟨.inputClose, input⟩] ∨
      config.input = false ∧ asked = [] ∧ input = .ok ()) ∧ r = andThen input capture

/-- **What a close asks, and what it returns**: the observation is refused and is the end of it, or both
sides are closed, the input controller first, and the result is that of the two. -/
theorem close_spoken {r : Except Error Unit} (h : Spoken (close config) said r) :
    (Refused said ∧ config.level ≠ .off ∧ ∀ x ∈ said, x.1.closes = false) ∨
      ¬Refused said ∧ ClosesBoth config said r := by
  unfold close at h
  obtain ⟨_, rest, rfl, hstarted⟩ := spoken_next h
  obtain ⟨_, rest, rfl, hwatcher⟩ := spoken_next hstarted
  have hfirst : ∀ {a b rest}, Refused (⟨.startClosing, a⟩ :: ⟨.watcherClose, b⟩ :: rest) ↔ Refused rest := by
    intro a b rest
    rw [refused_cons, refused_cons]
    constructor
    · rintro (hrefusal | hrefusal | hrefusal)
      · cases hrefusal
      · cases hrefusal
      · exact hrefusal
    · exact fun hrefusal => Or.inr (Or.inr hrefusal)
  rcases spoken_bind hwatcher with ⟨e, hobserve, rfl⟩ | ⟨observed, observing, rest, hobserve, hrest, rfl⟩
  · obtain ⟨hcloses, hrefused⟩ := observe_spoken hobserve
    refine Or.inl ⟨hfirst.mpr (hrefused.mp ⟨e, rfl⟩), fun hoff => ?_, ?_⟩
    · unfold observe at hobserve
      rw [hoff] at hobserve
      cases (spoken_done hobserve).2
    · simp only [List.mem_cons, forall_eq_or_imp]
      exact ⟨rfl, rfl, hcloses⟩
  · obtain ⟨hcloses, hrefused⟩ := observe_spoken hobserve
    have hpassed : ¬Refused observing := fun h => by
      obtain ⟨e, he⟩ := hrefused.mpr h
      cases he
    rcases spoken_bind hrest with ⟨e, hinput, -⟩ | ⟨input, asked, rest, hinput, hcapture, rfl⟩
    · obtain ⟨_, hok, -⟩ := closeInput_spoken hinput
      cases hok
    obtain ⟨_, hok, hasked⟩ := closeInput_spoken hinput
    obtain rfl := Except.ok.inj hok
    obtain ⟨capture, rest, rfl, hended⟩ := spoken_next hcapture
    rcases spoken_bind hended with ⟨e, hnormal, -⟩ | ⟨_, after, rest, hnormal, hdone, rfl⟩
    · cases (normal_spoken hnormal).2
    obtain ⟨haside, -⟩ := normal_spoken hnormal
    obtain ⟨rfl, rfl⟩ := spoken_done hdone
    rw [List.append_nil]
    refine Or.inr ⟨?_, ⟨.startClosing, _⟩ :: ⟨.watcherClose, _⟩ :: observing, asked, after, input,
      capture, rfl, ?_, haside, hasked, rfl⟩
    · rw [hfirst, refused_append, refused_append, refused_cons]
      rintro (hrefusal | hrefusal | hrefusal | hrefusal)
      · exact hpassed hrefusal
      · rcases hasked with ⟨-, rfl⟩ | ⟨-, rfl, -⟩
        · obtain ⟨x, hx, hrefusal⟩ := hrefusal
          obtain rfl := List.mem_singleton.mp hx
          cases hrefusal
        · exact Aside.nil.not_refused hrefusal
      · cases hrefusal
      · exact haside.not_refused hrefusal
    · simp only [List.mem_cons, forall_eq_or_imp]
      exact ⟨rfl, rfl, hcloses⟩

end Spoken

/-! ### The gate -/

section Gate

variable {τ : Type} [DecidableEq τ] {w w' : GateWorld τ} {t : τ}

def begun : Input.Point → Bool
  | .drainContext | .drainLoop _ | .drainDone _ | .drainCommit _ | .drainFinal | .drainWaiting _
  | .drainWoken _ | .drainReturning _ => true
  | _ => false

theorem begun_of_act {s s' : Gate τ} {k k' : List Input.Point} {e : GateEvent}
    (h : GateAct t s k e s' k') :
    ∀ p ∈ k', begun p = true → (∃ q ∈ k, begun q = true) ∨ s'.state.lifecycle ≠ .opened := by
  have htail : ∀ {q : Input.Point} {j : List Input.Point}, k = q :: j → ∀ p ∈ j, begun p = true →
      (∃ q ∈ k, begun q = true) ∨ s'.state.lifecycle ≠ .opened := by
    intro q j hk p hp hb
    exact Or.inl ⟨p, hk ▸ List.mem_cons_of_mem _ hp, hb⟩
  have hsame : ∀ p ∈ k, begun p = true →
      (∃ q ∈ k, begun q = true) ∨ s'.state.lifecycle ≠ .opened :=
    fun p hp hb => Or.inl ⟨p, hp, hb⟩
  cases h with
  | guard h => cases h <;> exact hsame
  | admission h =>
    cases h with
    | call =>
      intro p hp hb
      rcases List.mem_cons.mp hp with rfl | hp
      · cases hb
      · exact hsame p hp hb
    | reentered | closed | claimPanics | commits | releases | fails | failPanics => exact htail rfl
    | _ =>
      intro p hp hb
      rcases List.mem_cons.mp hp with rfl | hp
      · cases hb
      · exact htail rfl p hp hb
  | drain h =>
    cases h with
    | beginClose => exact hsame
    | call =>
      intro p hp hb
      rcases List.mem_cons.mp hp with rfl | hp
      · cases hb
      · exact hsame p hp hb
    | reentered | returns | returnPanics => exact htail rfl
    | register =>
      intro p hp hb
      rcases List.mem_cons.mp hp with rfl | hp
      · cases hb
      · exact htail rfl p hp hb
    | close => exact fun p _ _ => Or.inr s.state.lifecycle.beginClose_ne_opened
    | _ => exact fun p _ _ => Or.inl ⟨_, List.mem_cons_self, rfl⟩

theorem gate_begun (hw : (gateSystem τ).Reachable w) :
    ∀ t, ∀ p ∈ w.pc t, begun p = true → w.shared.state.lifecycle ≠ .opened := by
  refine threads_invariant (P := fun w => ∀ t, ∀ p ∈ w.pc t, begun p = true →
    w.shared.state.lifecycle ≠ .opened) (fun t p hp => absurd hp List.not_mem_nil) ?_ hw
  intro w t e s' k' hr hbegun hact u p hp hb
  have hi := gateInv_reachable hr
  have hstays : w.shared.state.lifecycle ≠ .opened → s'.state.lifecycle ≠ .opened :=
    (hact.effect (hi.local t) hi.exclusive.owner).1.not_opened
  by_cases hu : u = t
  · subst hu
    rw [World.move_pc_self] at hp
    rcases begun_of_act hact p hp hb with ⟨q, hq, hbq⟩ | hclosing
    · exact hstays (hbegun u q hq hbq)
    · exact hclosing
  · rw [World.move_pc_of_ne _ _ _ _ hu] at hp
    exact hstays (hbegun u p hp hb)

theorem drain_called {w : GateWorld τ} {k : List Input.Point} (hrun : runsOwnCode k = true)
    (hpc : w.pc t = k) :
    (gateSystem τ).step w (t, .silent) (w.move t w.shared (.drainEntry :: k)) := by
  subst hpc
  exact ⟨_, _, .drain (.call hrun), rfl⟩

theorem drain_inside {result : List (GateWorld τ × (τ × GateEvent))} (hw : (gateSystem τ).Reachable w)
    (hpc : w.pc t = []) (hfree : w.shared.state.reentrant t = false)
    (hpath : (gateSystem τ).Path (w.move t w.shared [.drainEntry]) result w')
    (hinside : ∀ x ∈ result, x.1.pc t ≠ []) (hlast : w'.pc t ≠ []) :
    w'.pc t = [.drainEntry] ∧ w'.shared.state.reentrant t = false ∨ Input.role (w'.pc t) = .draining := by
  have hcalled := drain_called rfl hpc
  revert hinside hlast
  refine hpath.along (P := fun trail v => (∀ x ∈ trail, x.1.pc t ≠ []) → v.pc t ≠ [] →
    v.pc t = [.drainEntry] ∧ v.shared.state.reentrant t = false ∨ Input.role (v.pc t) = .draining)
    (fun _ _ => Or.inl ⟨World.move_pc_self .., hfree⟩) ?_
  rintro trail v ⟨u, e⟩ v' hpath hP ⟨s', k', hact, rfl⟩ hinside hlast
  obtain ⟨hbefore, hhere⟩ := List.forall_mem_append.mp hinside
  have hi := gateInv_reachable ((hw.step hcalled).leads hpath.leads)
  have hv := hP hbefore (hhere _ (List.mem_singleton_self _))
  rw [World.move_shared]
  by_cases hu : t = u
  · subst hu
    rw [World.move_pc_self] at hlast ⊢
    rcases hv with ⟨hentry, hr⟩ | hrole
    · rw [hentry] at hact
      cases hact with
      | admission h => cases h with | call hrun => cases hrun
      | guard h => cases h with | drop hrun => cases hrun | move _ _ hrun => cases hrun
      | drain h =>
        cases h with
        | beginClose hrun | call hrun => cases hrun
        | reentered => exact absurd rfl hlast
        | register => exact Or.inr rfl
    · exact Or.inr (hact.drains_on (hi.local t) hrole hlast)
  · rw [World.move_pc_of_ne _ _ _ _ hu]
    refine hv.imp (fun ⟨hentry, hr⟩ => ⟨hentry, ?_⟩) id
    exact ((hact.effect (hi.local u) hi.exclusive.owner).1).reentrant hu hr

theorem drained_ne_opened {result : Except Error Unit} (hw : (gateSystem τ).Reachable w)
    (h : (gateSystem τ).step w (t, .drained result) w')
    (hentered : w.pc t = [.drainEntry] ∧ w.shared.state.reentrant t = false ∨
      Input.role (w.pc t) = .draining) (hback : w'.pc t = []) :
    w'.shared.state.lifecycle ≠ .opened := by
  have hbegun := gate_begun hw t
  obtain ⟨s', k', hact, rfl⟩ := h
  rw [World.move_pc_self] at hback
  generalize w.pc t = k at hact hbegun hentered
  cases hact with
  | admission h => cases h
  | guard h => cases h
  | drain h =>
    cases h with
    | reentered hr =>
      subst hback
      rcases hentered with ⟨-, hfree⟩ | hrole
      · rw [hr] at hfree
        cases hfree
      · cases hrole
    | returns hu =>
      have hl := (Input.AdmissionState.unregister_eq_some hu).2.2.2.2.2
      have hclosing := hbegun _ List.mem_cons_self rfl
      rw [World.move_shared]
      exact hl.trans_ne hclosing

theorem effect_guards {s s' : Gate τ} {r r' : Input.Role} (h : Input.Effect t s r s' r')
    (hl : s.state.lifecycle ≠ .opened) (hclaiming : r = .claiming → ⟨t, none⟩ ∈ s.guards) :
    s'.guards.length ≤ s.guards.length := by
  have hpass : ∀ {owner : τ} {k k' : Option τ}, (⟨owner, k⟩ : Input.Guard τ) ∈ s.guards →
      (s.pass owner k k').guards.length ≤ s.guards.length := by
    intro owner k k' hmem
    have hpos := List.length_pos_of_mem hmem
    have herase := List.length_erase_of_mem hmem
    show (s.guards.erase ⟨owner, k⟩).length + 1 ≤ s.guards.length
    omega
  cases h with
  | claims ho => exact absurd ho hl
  | gives => exact hpass (hclaiming rfl)
  | moves _ hmem => exact hpass hmem
  | releases | drops => exact List.length_erase_le
  | _ => exact le_rfl

theorem gate_shut (hw : (gateSystem τ).Reachable w) (hl : w.shared.state.lifecycle ≠ .opened)
    (h : (gateSystem τ).Leads w w') :
    w'.shared.state.lifecycle ≠ .opened ∧ w'.shared.guards.length ≤ w.shared.guards.length := by
  refine h.preserves (P := fun v => v.shared.state.lifecycle ≠ .opened ∧
    v.shared.guards.length ≤ w.shared.guards.length) ?_ hw ⟨hl, le_rfl⟩
  rintro v ⟨u, e⟩ v' hv ⟨hshut, hle⟩ ⟨s', k', hact, rfl⟩
  have hi := gateInv_reachable hv
  have heffect := (hact.effect (hi.local u) hi.exclusive.owner).1
  exact ⟨heffect.not_opened hshut,
    (effect_guards heffect hshut (hi.claiming u).mp).trans hle⟩

end Gate

/-! ### The stream -/

section Stream

variable {round : ℚ → Option ℚ} {κ : Type} [DecidableEq κ] {stream : StreamId} {covers : Bool}
  {w w' : StreamWorld κ} {u : κ}

theorem stream_drained {seen : Option Interruption} {result : Except Error Unit}
    (hw : (streamSystem round κ stream covers).Reachable w)
    (h : (streamSystem round κ stream covers).step w (u, .drained seen result) w') :
    w'.shared.inner.lifecycle ≠ .opened := by
  cases result with
  | ok _ =>
    obtain ⟨-, hclosed, -⟩ := Capture.drained_ok hw h
    rw [hclosed]
    exact fun hopen => (by cases hopen)
  | error e => exact (Capture.drained_error hw h).2.2.1

theorem stream_shut (hw : (streamSystem round κ stream covers).Reachable w)
    (hl : w.shared.inner.lifecycle ≠ .opened) (h : (streamSystem round κ stream covers).Leads w w') :
    w'.shared.inner.lifecycle ≠ .opened := by
  rw [Lifecycle.ne_opened_iff_rank] at hl ⊢
  exact hl.trans (Capture.lifecycle_mono hw h).1

end Stream

/-! ### The sides of a session -/

section Sides

variable (round : ℚ → Option ℚ) {τ κ : Type} [DecidableEq τ] [DecidableEq κ] (stream : StreamId)
  (covers : Bool)

/-- The gate of the input controller and the stream of the capture session. -/
structure Sides (τ κ : Type) where
  gate : GateWorld τ
  stream : StreamWorld κ

def Meanwhile (s s' : Sides τ κ) : Prop :=
  (gateSystem τ).Leads s.gate s'.gate ∧ (streamSystem round κ stream covers).Leads s.stream s'.stream

/-- `Admission::drain` on the thread `t`: called from its own code, at the stack `k`, and back at it when
the drain returns; inside, the stack is higher. -/
def GateDrains (t : τ) (w : GateWorld τ) (result : Except Error Unit) (w' : GateWorld τ) : Prop :=
  ∃ k trail w₁, runsOwnCode k = true ∧ w.pc t = k ∧
    (gateSystem τ).Path (w.move t w.shared (.drainEntry :: k)) trail w₁ ∧
    (∀ x ∈ trail, ∃ p front, x.1.pc t = front ++ p :: k) ∧
    (gateSystem τ).step w₁ (t, .drained result) w' ∧ w'.pc t = k

/-- `StreamState::drain` of the caller `u`. -/
def StreamDrains (u : κ) (w : StreamWorld κ) (result : Except Error Unit) (w' : StreamWorld κ) : Prop :=
  ∃ trail w₁ seen, w.pc u = .idle ∧
    (streamSystem round κ stream covers).Path (w.move u w.shared.refuseDrops .drainClosing) trail w₁ ∧
    (∀ x ∈ trail, x.1.pc u ≠ .idle) ∧
    (streamSystem round κ stream covers).step w₁ (u, .drained seen result) w'

def Answers (t : τ) (u : κ) (s : Sides τ κ) : (q : Question) → Answer q → Sides τ κ → Prop
  | .inputClose, result, s' => GateDrains t s.gate result s'.gate ∧
      (streamSystem round κ stream covers).Leads s.stream s'.stream
  | .captureClose, result, s' => (gateSystem τ).Leads s.gate s'.gate ∧
      StreamDrains round stream covers u s.stream result s'.stream
  | .captureIsClosed, closed, s' => s' = s ∧
      (closed = true ↔ s.stream.shared.inner.lifecycle = .closed)
  | .inputIsClosed, closed, s' => s' = s ∧ (closed = true ↔ s.gate.shared.state.lifecycle = .closed)
  | _, _, s' => s' = s

/-- What a call asked, and how it found the sides each time. -/
abbrev Calls (τ κ : Type) := List (Sides τ κ × ((q : Question) × Answer q))

/-- A call over the sides, the others acting before each of its questions and after the last. -/
inductive Follows (t : τ) (u : κ) : Sides τ κ → Calls τ κ → Sides τ κ → Prop
  | nil {s s' : Sides τ κ} : Meanwhile round stream covers s s' → Follows t u s [] s'
  | cons {s s₁ s₂ s' : Sides τ κ} {q : Question} {answer : Answer q} {calls : Calls τ κ} :
      Meanwhile round stream covers s s₁ → Answers round stream covers t u s₁ q answer s₂ →
      Follows t u s₂ calls s' → Follows t u s ((s₁, ⟨q, answer⟩) :: calls) s'

structure Sides.Reachable (s : Sides τ κ) : Prop where
  gate : (gateSystem τ).Reachable s.gate
  stream : (streamSystem round κ stream covers).Reachable s.stream

section Follows

variable {round stream covers} {t : τ} {u : κ} {s s' : Sides τ κ} {calls : Calls τ κ}

theorem Sides.Reachable.meanwhile (hs : s.Reachable round stream covers)
    (h : Meanwhile round stream covers s s') : s'.Reachable round stream covers :=
  ⟨hs.gate.leads h.1, hs.stream.leads h.2⟩

theorem stream_drain_called {w : StreamWorld κ} (hpc : w.pc u = .idle) :
    (streamSystem round κ stream covers).step w (u, .silent)
      (w.move u w.shared.refuseDrops .drainClosing) :=
  ⟨_, _, .close (hpc ▸ .drainCall), rfl⟩

theorem GateDrains.leads {w w' : GateWorld τ} {result : Except Error Unit}
    (h : GateDrains t w result w') : (gateSystem τ).Leads w w' := by
  obtain ⟨k, trail, w₁, hrun, hpc, hpath, -, hstep, -⟩ := h
  exact (hpath.leads.cons (drain_called hrun hpc)).snoc hstep

theorem StreamDrains.leads {w w' : StreamWorld κ} {result : Except Error Unit}
    (h : StreamDrains round stream covers u w result w') :
    (streamSystem round κ stream covers).Leads w w' := by
  obtain ⟨trail, w₁, seen, hpc, hpath, -, hstep⟩ := h
  exact (hpath.leads.cons (stream_drain_called hpc)).snoc hstep

theorem Answers.meanwhile {q : Question} {answer : Answer q}
    (h : Answers round stream covers t u s q answer s') : Meanwhile round stream covers s s' := by
  have hstays : s' = s → Meanwhile round stream covers s s' := by
    rintro rfl
    exact ⟨.refl _, .refl _⟩
  cases q with
  | inputClose => exact ⟨h.1.leads, h.2⟩
  | captureClose => exact ⟨h.1, h.2.leads⟩
  | captureIsClosed | inputIsClosed => exact hstays h.1
  | _ => exact hstays h

theorem Follows.meanwhile (h : Follows round stream covers t u s calls s') :
    Meanwhile round stream covers s s' := by
  induction h with
  | nil h => exact h
  | cons hbefore hanswer _ ih =>
    have hhere := hanswer.meanwhile
    exact ⟨hbefore.1.trans (hhere.1.trans ih.1), hbefore.2.trans (hhere.2.trans ih.2)⟩

theorem Follows.answered (h : Follows round stream covers t u s calls s')
    (hs : s.Reachable round stream covers) {s₁ : Sides τ κ} {q : Question} {answer : Answer q}
    (hq : (s₁, (⟨q, answer⟩ : (q : Question) × Answer q)) ∈ calls) :
    s₁.Reachable round stream covers ∧ ∃ s₂ : Sides τ κ,
      Answers round stream covers t u s₁ q answer s₂ ∧ Meanwhile round stream covers s₂ s' := by
  induction h with
  | nil => exact absurd hq List.not_mem_nil
  | @cons s s₁ s₂ s' q₁ answer₁ calls hbefore hanswer hrest ih =>
    have hs₁ := hs.meanwhile hbefore
    rcases List.mem_cons.mp hq with heq | hq
    · cases heq
      exact ⟨hs₁, s₂, hanswer, hrest.meanwhile⟩
    · exact ih (hs₁.meanwhile hanswer.meanwhile) hq

omit [DecidableEq τ] [DecidableEq κ] in
theorem mem_said {x : (q : Question) × Answer q} (h : x ∈ calls.map Prod.snd) :
    ∃ s₁, (s₁, x) ∈ calls := by
  obtain ⟨⟨s₁, y⟩, hy, rfl⟩ := List.mem_map.mp h
  exact ⟨s₁, hy⟩

theorem Follows.stream_shut (h : Follows round stream covers t u s calls s')
    (hs : s.Reachable round stream covers) {result : Except Error Unit}
    (hq : (⟨.captureClose, result⟩ : (q : Question) × Answer q) ∈ calls.map Prod.snd) :
    s'.stream.shared.inner.lifecycle ≠ .opened := by
  obtain ⟨s₁, hmem⟩ := mem_said hq
  obtain ⟨hs₁, s₂, ⟨hgate, trail, w₁, seen, hpc, hpath, hinside, hstep⟩, hafter⟩ := h.answered hs hmem
  have hreach := (hs₁.stream.step (stream_drain_called hpc)).leads hpath.leads
  exact Close.stream_shut (hreach.step hstep) (stream_drained hreach hstep) hafter.2

/-- **The close of a gate** leaves it not open, unless its thread was in the gate already. -/
theorem Follows.gate_shut (h : Follows round stream covers t u s calls s')
    (hs : s.Reachable round stream covers) {s₁ : Sides τ κ} {result : Except Error Unit}
    (hq : (s₁, (⟨.inputClose, result⟩ : (q : Question) × Answer q)) ∈ calls)
    (hfree : s₁.gate.shared.state.reentrant t = false) :
    s'.gate.shared.state.lifecycle ≠ .opened := by
  obtain ⟨hs₁, s₂, ⟨⟨k, trail, w₁, hrun, hpc, hpath, hinside, hstep, hback⟩, hstream⟩, hafter⟩ :=
    h.answered hs hq
  have hcalled := hs₁.gate.step (drain_called hrun hpc)
  have hreach := hcalled.leads hpath.leads
  have hi := gateInv_reachable hcalled
  have hlocal := hi.local t
  rw [World.move_pc_self] at hlocal
  obtain rfl := hlocal.eq_nil rfl hi.exclusive.owner hfree
  have hlast : w₁.pc t ≠ [] := by
    intro hnil
    obtain ⟨s'', k', hact, -⟩ := hstep
    rw [hnil] at hact
    cases hact with
    | admission h => cases h
    | guard h => cases h
    | drain h => cases h
  have hentered := drain_inside hs₁.gate hpc hfree hpath (fun x hx => by
    obtain ⟨p, front, heq⟩ := hinside x hx
    simp [heq]) hlast
  exact (Close.gate_shut (hreach.step hstep) (drained_ne_opened hreach hstep hentered hback) hafter.1).1

theorem Follows.found_closed (h : Follows round stream covers t u s calls s')
    (hs : s.Reachable round stream covers) :
    ((⟨.captureIsClosed, true⟩ : (q : Question) × Answer q) ∈ calls.map Prod.snd →
      s'.stream.shared.inner.lifecycle = .closed) ∧
    ((⟨.inputIsClosed, true⟩ : (q : Question) × Answer q) ∈ calls.map Prod.snd →
      s'.gate.shared.state.lifecycle = .closed) := by
  refine ⟨fun hq => ?_, fun hq => ?_⟩
  · obtain ⟨s₁, hmem⟩ := mem_said hq
    obtain ⟨hs₁, s₂, ⟨rfl, hclosed⟩, hafter⟩ := h.answered hs hmem
    have hrank := (Capture.lifecycle_mono hs₁.stream hafter.2).1
    rw [hclosed.mp rfl] at hrank
    exact Lifecycle.eq_closed_of_rank hrank
  · obtain ⟨s₁, hmem⟩ := mem_said hq
    obtain ⟨hs₁, s₂, ⟨rfl, hclosed⟩, hafter⟩ := h.answered hs hmem
    have hrank := Input.gate_lifecycle_mono hs₁.gate hafter.1
    rw [hclosed.mp rfl] at hrank
    exact Lifecycle.eq_closed_of_rank hrank

end Follows

end Sides

/-! ### A close begins both sides -/

open Dialogue in
theorem isClosed_true {config : Config} {said : Said} (h : Spoken (isClosed config) said (.ok true)) :
    (⟨.captureIsClosed, true⟩ : (q : Question) × Answer q) ∈ said ∧
      (config.input = true → (⟨.inputIsClosed, true⟩ : (q : Question) × Answer q) ∈ said) := by
  unfold isClosed at h
  obtain ⟨capture, rest, rfl, hcapture⟩ := spoken_next h
  cases capture with
  | false => cases (spoken_done hcapture).2
  | true =>
    refine ⟨List.mem_cons_self, fun hinput => ?_⟩
    rw [if_pos rfl, if_pos hinput] at hcapture
    obtain ⟨a, rfl, hok⟩ := spoken_ask hcapture
    obtain rfl := Except.ok.inj hok
    exact List.mem_cons_of_mem _ List.mem_cons_self

theorem ClosesBoth.asks_capture {config : Config} {said : Said} {r : Except Error Unit}
    (h : ClosesBoth config said r) :
    ∃ capture, (⟨.captureClose, capture⟩ : (q : Question) × Answer q) ∈ said := by
  obtain ⟨before, asked, after, input, capture, rfl, -⟩ := h
  exact ⟨capture, List.mem_append_right _ (List.mem_append_right _ List.mem_cons_self)⟩

theorem ClosesBoth.asks_input {config : Config} {said : Said} {r : Except Error Unit}
    (h : ClosesBoth config said r) (hinput : config.input = true) :
    ∃ input, (⟨.inputClose, input⟩ : (q : Question) × Answer q) ∈ said := by
  obtain ⟨before, asked, after, input, capture, rfl, -, -, ⟨-, rfl⟩ | ⟨hnone, -⟩, -⟩ := h
  · exact ⟨input, List.mem_append_right _ (List.mem_append_left _ List.mem_cons_self)⟩
  · rw [hinput] at hnone
    cases hnone

open Dialogue in
/-- **A close begins both sides exactly where its observation is not refused**, so always without
diagnostics; otherwise it begins neither.  Then the stream is not open when the close has returned,
interrupted or not, and answers every later frame request with an error; the gate is not open and hands
out no guard any more, unless the thread was entering it already when it called the input close, or had
acquired the guard that was alive.  A session that is found to be closed is closed on both sides.  All of
it whatever the others do meanwhile. -/
theorem session_close (config : Config) (round : ℚ → Option ℚ) {τ κ : Type} [DecidableEq τ]
    [DecidableEq κ] (stream : StreamId) (covers : Bool) (t : τ) (u : κ) {s s' : Sides τ κ}
    {calls : Calls τ κ} (hs : s.Reachable round stream covers)
    (hfollows : Follows round stream covers t u s calls s') :
    (∀ r, Spoken (close config) (calls.map Prod.snd) r →
      (ClosesBoth config (calls.map Prod.snd) r ↔ ¬Refused (calls.map Prod.snd)) ∧
      (config.level = .off → ¬Refused (calls.map Prod.snd)) ∧
      (Refused (calls.map Prod.snd) → ∀ x ∈ calls, x.2.1.closes = false) ∧
      (¬Refused (calls.map Prod.snd) →
        (∀ w, (streamSystem round κ stream covers).Leads s'.stream w →
          w.shared.inner.lifecycle ≠ .opened ∧
          ∀ v sel seen result w',
            (streamSystem round κ stream covers).step w (v, .framed sel seen result) w' →
            ∃ e, result = .error e) ∧
        (config.input = true →
          (∀ x ∈ calls, x.2.1 = .inputClose → x.1.gate.shared.state.reentrant t = false) →
          ∀ w, (gateSystem τ).Leads s'.gate w → w.shared.state.lifecycle ≠ .opened ∧
            w.shared.guards.length ≤ s'.gate.shared.guards.length))) ∧
    (Spoken (isClosed config) (calls.map Prod.snd) (.ok true) →
      s'.stream.shared.inner.lifecycle = .closed ∧
        (config.input = true → s'.gate.shared.state.lifecycle = .closed)) := by
  have hs' := hs.meanwhile hfollows.meanwhile
  refine ⟨fun r h => ?_, fun h => ?_⟩
  · rcases close_spoken h with ⟨hrefused, hlevel, hnone⟩ | ⟨hpassed, hboth⟩
    · refine ⟨iff_of_false (fun hboth => ?_) (not_not.mpr hrefused), fun hoff => absurd hoff hlevel,
        fun _ x hx => hnone _ (List.mem_map_of_mem hx), fun hpassed => absurd hrefused hpassed⟩
      obtain ⟨capture, hmem⟩ := hboth.asks_capture
      cases hnone _ hmem
    · refine ⟨iff_of_true hboth hpassed, fun _ => hpassed, fun hrefused => absurd hrefused hpassed,
        fun _ => ⟨fun w hw => ?_, fun hinput hfree w hw => ?_⟩⟩
      · obtain ⟨capture, hmem⟩ := hboth.asks_capture
        have hshut := Close.stream_shut hs'.stream (hfollows.stream_shut hs hmem) hw
        exact ⟨hshut, fun v sel seen result w' hstep =>
          ⟨_, Capture.framed_of_not_opened (hs'.stream.leads hw) hshut hstep⟩⟩
      · obtain ⟨input, hmem⟩ := hboth.asks_input hinput
        obtain ⟨s₁, hcall⟩ := mem_said hmem
        exact Close.gate_shut hs'.gate (hfollows.gate_shut hs hcall (hfree _ hcall rfl)) hw
  · obtain ⟨hcapture, hinput⟩ := isClosed_true h
    obtain ⟨hstream, hgate⟩ := hfollows.found_closed hs
    exact ⟨hstream hcapture, fun h => hgate (hinput h)⟩

/-! ### One close -/

section Sample

def sampleSides : Sides Unit Unit :=
  ⟨GateWorld.start Unit, StreamWorld.start Unit .first false⟩

def sampleCalls (gate : GateWorld Unit) : Calls Unit Unit :=
  [(sampleSides, ⟨.startClosing, ⟨⟩⟩), (sampleSides, ⟨.watcherClose, ⟨⟩⟩),
    (sampleSides, ⟨.inputClose, .ok ()⟩), (⟨gate, sampleSides.stream⟩, ⟨.captureClose, .ok ()⟩)]

theorem sampleSides_reachable : sampleSides.Reachable some .first false :=
  ⟨.of_init rfl, .of_init rfl⟩

theorem sample_gate_drains : ∃ w : GateWorld Unit, GateDrains () (GateWorld.start Unit) (.ok ()) w := by
  have hsolo : SoloIn GateAct (fun k => ∃ p front, k = front ++ p :: ([] : List Input.Point)) ()
      (GateWorld.start Unit).shared [.drainEntry]
      [.silent, .silent, .silent, .silent, .silent, .silent]
      ⟨⟨false, none, 0, 0, .closed, [()]⟩, []⟩ [.drainReturning (.ok ())] :=
    .cons ⟨_, [], rfl⟩ (.drain (.register rfl)) <| .cons ⟨_, [], rfl⟩ (.drain .close) <|
      .cons ⟨_, [], rfl⟩ (.drain (.contextAdmitted none rfl)) <|
      .cons ⟨_, [], rfl⟩ (.drain (.seesIdle (by decide) rfl rfl rfl)) <|
      .cons ⟨_, [], rfl⟩ (.drain (.commits none rfl)) <|
      .cons ⟨_, [], rfl⟩ (.drain .final) <| .nil ..
  have hfrom : (gateSystem Unit).Path
      ((GateWorld.start Unit).move () (GateWorld.start Unit).shared [.drainEntry]) []
      ((GateWorld.start Unit).move () (GateWorld.start Unit).shared [.drainEntry]) := .nil _
  obtain ⟨trail, hpath, hinside⟩ := hsolo.path hfrom
    (fun _ hx => absurd hx List.not_mem_nil) rfl (World.move_pc_self ..)
  have hreturn : GateAct () ⟨⟨false, none, 0, 0, .closed, [()]⟩, []⟩ [.drainReturning (.ok ())]
      (.drained (.ok ())) ⟨⟨false, none, 0, 0, .closed, []⟩, []⟩ [] := .drain (.returns rfl)
  exact ⟨_, [], trail, _, rfl, rfl, hpath, hinside, ⟨_, _, hreturn, rfl⟩, rfl⟩

theorem sample_stream_drains : ∃ w : StreamWorld Unit, StreamDrains some .first false ()
    (StreamWorld.start Unit .first false) (.ok ()) w := by
  have hsolo : SoloIn (Capture.Act some) (fun pc => pc ≠ .idle) ()
      (StreamWorld.start Unit .first false).shared.refuseDrops .drainClosing
      [.silent, .silent, .silent, .silent] _ .drainFinal :=
    .cons (by decide) (.close (.drainClose rfl)) <|
      .cons (by decide) (.close (.drainAdmitted none rfl)) <|
      .cons (by decide) (.close (.drainSeesIdle rfl (by decide) rfl)) <|
      .cons (by decide) (.close (.drainCommits none rfl)) <| .nil ..
  have hfrom : (streamSystem some Unit .first false).Path
      ((StreamWorld.start Unit .first false).move ()
        (StreamWorld.start Unit .first false).shared.refuseDrops .drainClosing) []
      ((StreamWorld.start Unit .first false).move ()
        (StreamWorld.start Unit .first false).shared.refuseDrops .drainClosing) := .nil _
  obtain ⟨trail, hpath, hinside⟩ := hsolo.path hfrom
    (fun _ hx => absurd hx List.not_mem_nil) rfl (World.move_pc_self ..)
  have hreturn : ∀ w : StreamWorld Unit, w.pc () = .drainFinal → w.shared.holder = none →
      (streamSystem some Unit .first false).step w ((), .drained none (.ok ()))
        (w.move () (w.shared.setInner w.shared.inner.close) .idle) :=
    fun w hpc hfree => ⟨_, _, hpc ▸ .close (.drainFinal hfree), rfl⟩
  exact ⟨_, trail, _, none, rfl, hpath, hinside, hreturn _ (World.move_pc_self ..) rfl⟩

open Dialogue in
/-- An open session without diagnostics closes on both sides. -/
theorem session_close_sample :
    ∃ s' : Sides Unit Unit, ClosesBoth ⟨true, .off⟩ ((sampleCalls s'.gate).map Prod.snd) (.ok ()) ∧
      s'.stream.shared.inner.lifecycle ≠ .opened ∧ s'.gate.shared.state.lifecycle ≠ .opened := by
  obtain ⟨gate, hgate⟩ := sample_gate_drains
  obtain ⟨stream, hstream⟩ := sample_stream_drains
  have hstay : ∀ s : Sides Unit Unit, Meanwhile some .first false s s := fun s => ⟨.refl _, .refl _⟩
  have hinput : Answers some .first false () () sampleSides .inputClose (.ok ())
      ⟨gate, sampleSides.stream⟩ := ⟨hgate, .refl _⟩
  have hcapture : Answers some .first false () () ⟨gate, sampleSides.stream⟩ .captureClose (.ok ())
      ⟨gate, stream⟩ := ⟨.refl _, hstream⟩
  have hfollows : Follows some .first false () () sampleSides (sampleCalls gate) ⟨gate, stream⟩ :=
    .cons (hstay _) rfl <| .cons (hstay _) rfl <| .cons (hstay _) hinput <|
      .cons (hstay _) hcapture <| .nil (hstay _)
  have hspoken : Spoken (close ⟨true, .off⟩) ((sampleCalls gate).map Prod.snd) (.ok ()) :=
    .call _ <| .call _ <| .call _ <| .call _ <| .done _
  obtain ⟨hboth, hoff, -, hshut⟩ := (session_close ⟨true, .off⟩ some .first false () ()
    sampleSides_reachable hfollows).1 _ hspoken
  obtain ⟨hstreamShut, hgateShut⟩ := hshut (hoff rfl)
  refine ⟨⟨gate, stream⟩, hboth.mpr (hoff rfl), (hstreamShut _ (.refl _)).1,
    (hgateShut rfl ?_ _ (.refl _)).1⟩
  simp [sampleCalls, sampleSides, GateWorld.start, Input.AdmissionState.new,
    Input.AdmissionState.reentrant]

end Sample

end MadoPilot.Session.Close
