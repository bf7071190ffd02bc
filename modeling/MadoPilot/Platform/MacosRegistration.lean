import Mathlib.Data.PNat.Basic
import MadoPilot.Core.Operation
import MadoPilot.Lib.Fallible
import MadoPilot.Lib.System

/-!
# The callback registration of a macOS session

The strong reference that `Arc::into_raw` hands to the shim, from the guard of `open_inner` over the
session to the quarantine.  A step is one native call with its answer, one consultation of the caller's
context, or one change of the owner.  What other threads do to the reconfiguration worker shows only in
the answer of `drain_for_drop`.

* `report_accepted` : a report that the shim makes is one that the session accepts;
* `callback_registration` : the law of the reference.
-/

namespace MadoPilot.Platform.MacosRegistration

open MadoPilot.Core MadoPilot.Lib

inductive ShimStatus where
  | ok | invalidArgument | unsupported | permissionDenied | targetLost | platformFailure
  | nativeException | closed | timedOut | budgetExhausted | frameIncomplete | stoppedByUser
  | stoppedBySystem | geometryChanged | focusRequired | unrecognized (raw : UInt32)
  deriving DecidableEq

/-! ### The pacing that a native session reports -/

inductive ResolvedCapturePacing where
  | sourceDefault
  | preferred (nanos : ℕ+)
  | required (nanos : ℕ+)
  deriving DecidableEq

def ResolvedCapturePacing.interval : ResolvedCapturePacing → Option ℕ
  | sourceDefault => none
  | preferred nanos | required nanos => some nanos

inductive PacingOutcome where
  | sourceDefault | applied | unavailable
  deriving DecidableEq

structure NativeOpenReport where
  pacingOutcome : PacingOutcome
  configuredIntervalNanos : ℕ
  deriving DecidableEq

inductive CapturePacingReport where
  | sourceDefault
  | applied (request : ResolvedCapturePacing) (configured : ℕ)
  | preferredUnapplied (nanos : ℕ+)
  deriving DecidableEq

/-- `mp_shim_configure_capture_pacing`, on a configuration that has the two selectors or not and whose
interval reads back as `readback`. -/
def configureCapturePacing (pacing : ResolvedCapturePacing) (responds : Bool)
    (readback : Except ShimStatus ℕ) : Except ShimStatus NativeOpenReport :=
  match pacing.interval with
  | none => .ok ⟨.sourceDefault, 0⟩
  | some nanos =>
    if responds then
      match readback with
      | .error status => .error status
      | .ok configured =>
        if configured < nanos then .error .platformFailure else .ok ⟨.applied, configured⟩
    else
      match pacing with
      | .required _ => .error .unsupported
      | _ => .ok ⟨.unavailable, 0⟩

def NativeOpenReport.capturePacing (report : NativeOpenReport) (request : ResolvedCapturePacing) :
    Except ShimStatus CapturePacingReport :=
  match report.pacingOutcome, report.configuredIntervalNanos, request with
  | .sourceDefault, 0, .sourceDefault => .ok .sourceDefault
  | .applied, nanos + 1, .preferred interval | .applied, nanos + 1, .required interval =>
    if nanos + 1 < interval then .error .platformFailure else .ok (.applied request (nanos + 1))
  | .unavailable, 0, .preferred interval => .ok (.preferredUnapplied interval)
  | _, _, _ => .error .platformFailure

theorem report_accepted {pacing : ResolvedCapturePacing} {responds : Bool}
    {readback : Except ShimStatus ℕ} {report : NativeOpenReport}
    (h : configureCapturePacing pacing responds readback = .ok report) :
    ∃ accepted, report.capturePacing pacing = .ok accepted := by
  have happlied : ∀ (nanos : ℕ+) (configured : ℕ), ¬ configured < (nanos : ℕ) →
      ∃ n, configured = n + 1 ∧ ¬ n + 1 < (nanos : ℕ) := by
    intro nanos configured hle
    have hpos := nanos.pos
    exact ⟨configured - 1, by omega, by omega⟩
  have hpaced : ∀ nanos : ℕ+, pacing = .preferred nanos ∨ pacing = .required nanos → responds = true →
      ∃ accepted, report.capturePacing pacing = .ok accepted := by
    intro nanos hpacing hresponds
    have hinterval : pacing.interval = some (nanos : ℕ) := by
      rcases hpacing with rfl | rfl <;> rfl
    unfold configureCapturePacing at h
    rw [hinterval] at h
    dsimp only at h
    rw [if_pos hresponds] at h
    cases readback with
    | error status => cases h
    | ok configured =>
      dsimp only at h
      by_cases hshort : configured < (nanos : ℕ)
      · rw [if_pos hshort] at h
        cases h
      · rw [if_neg hshort] at h
        obtain rfl := Except.ok.inj h
        obtain ⟨n, rfl, hn⟩ := happlied nanos configured hshort
        rcases hpacing with rfl | rfl
        · exact ⟨_, if_neg hn⟩
        · exact ⟨_, if_neg hn⟩
  cases pacing with
  | sourceDefault =>
    obtain rfl := Except.ok.inj h
    exact ⟨_, rfl⟩
  | preferred nanos =>
    cases responds with
    | true => exact hpaced nanos (Or.inl rfl) rfl
    | false =>
      obtain rfl := Except.ok.inj h
      exact ⟨_, rfl⟩
  | required nanos =>
    cases responds with
    | true => exact hpaced nanos (Or.inr rfl) rfl
    | false => cases h

/-! ### The owners of the reference -/

/-- Who drops the registration. -/
inductive Owner where
  | pending | session | quarantine
  deriving DecidableEq

/-- Where the code stands that has the reference in hand. -/
inductive Pc where
  | start
  | guarded
  | opened
  | stored
  | spawning
  | starting
  | startTimedOut
  | startFailed
  | started
  | live
  | unwinding
  | disabling (owner : Owner)
  | draining (owner : Owner)
  | fencing (owner : Owner)
  | closing (owner : Owner) (fenced : Bool)
  | releasing (owner : Owner)
  | quarantining (owner : Owner)
  | abandoned
  | done
  deriving DecidableEq

/-- The reference: who has it in a field or a variable, and how often it was given back.  `native` says
that a native session was registered with it, `stored` that `core.session` is set; `fenced` and
`refused` are kept for the statements. -/
structure Registration where
  pc : Pc
  pending : Bool
  session : Bool
  quarantine : Bool
  released : ℕ
  native : Bool
  stored : Bool
  fenced : Bool
  refused : Bool

/-- What a step shows. -/
inductive Event where
  | silent
  | opened (answer : Except ShimStatus NativeOpenReport)
  | consulted (seen : Option Interruption)
  | started (status : ShimStatus)
  | drained (answer : Bool)
  | fenced (status : ShimStatus)
  | closed (status : ShimStatus)
  | spawned (answer : Bool)
  | released (owner : Owner)
  deriving DecidableEq

/-- The reference before `open_inner`. -/
def Registration.start : Registration := ⟨.start, false, false, false, 0, false, false, false, false⟩

/-- The owner hands the reference over or gives it back. -/
def Registration.without (s : Registration) : Owner → Registration
  | .pending => { s with pending := false }
  | .session => { s with session := false }
  | .quarantine => { s with quarantine := false }

/-- `Arc::from_raw` of the reference. -/
def Registration.release (s : Registration) (owner : Owner) : Registration :=
  { s.without owner with released := s.released + 1, pc := .done }

inductive Step (pacing : ResolvedCapturePacing) : Registration → Event → Registration → Prop
  | guard {s : Registration} : s.pc = .start →
      Step pacing s .silent { s with pc := .guarded, pending := true }
  | openFails {s : Registration} (status : ShimStatus) : s.pc = .guarded →
      Step pacing s (.opened (.error status)) { s with pc := .unwinding }
  | openContradicts {s : Registration} (responds : Bool) (readback : Except ShimStatus ℕ)
      {report : NativeOpenReport} {status : ShimStatus} : s.pc = .guarded →
      configureCapturePacing pacing responds readback = .ok report →
      report.capturePacing pacing = .error status →
      Step pacing s (.opened (.ok report)) { s with pc := .unwinding, native := true }
  | opens {s : Registration} (responds : Bool) (readback : Except ShimStatus ℕ)
      {report : NativeOpenReport} {accepted : CapturePacingReport} : s.pc = .guarded →
      configureCapturePacing pacing responds readback = .ok report →
      report.capturePacing pacing = .ok accepted →
      Step pacing s (.opened (.ok report)) { s with pc := .opened, native := true }
  | stores {s : Registration} : s.pc = .opened → s.stored = false →
      Step pacing s .silent { s with pc := .stored, stored := true }
  | storeFails {s : Registration} : s.pc = .opened → s.stored = true →
      Step pacing s .silent { s with pc := .unwinding }
  | overtaken {s : Registration} (i : Interruption) : s.pc = .stored →
      Step pacing s (.consulted (some i)) { s with pc := .unwinding }
  | continues {s : Registration} : s.pc = .stored →
      Step pacing s (.consulted none) { s with pc := .spawning }
  | intoOwned {s : Registration} : s.pc = .spawning →
      Step pacing s .silent { s with pc := .starting, pending := false, session := true }
  | starts {s : Registration} : s.pc = .starting →
      Step pacing s (.started .ok) { s with pc := .started }
  | startTimesOut {s : Registration} : s.pc = .starting →
      Step pacing s (.started .timedOut) { s with pc := .startTimedOut }
  | startFails {s : Registration} {status : ShimStatus} : s.pc = .starting →
      status ≠ .ok → status ≠ .timedOut →
      Step pacing s (.started status) { s with pc := .startFailed }
  | startRetries {s : Registration} : s.pc = .startTimedOut →
      Step pacing s (.consulted none) { s with pc := .starting }
  | startExpires {s : Registration} (i : Interruption) : s.pc = .startTimedOut →
      Step pacing s (.consulted (some i)) { s with pc := .disabling .session }
  | startReports {s : Registration} (seen : Option Interruption) : s.pc = .startFailed →
      Step pacing s (.consulted seen) { s with pc := .disabling .session }
  | serves {s : Registration} : s.pc = .started →
      Step pacing s (.consulted none) { s with pc := .live }
  | abandons {s : Registration} (i : Interruption) : s.pc = .started →
      Step pacing s (.consulted (some i)) { s with pc := .disabling .session }
  /-- `fence` and `close` of `fence_and_close`, which leave the reference. -/
  | callerFences {s : Registration} (status : ShimStatus) : s.pc = .live →
      Step pacing s (.fenced status) { s with fenced := s.fenced || status = .ok }
  | callerCloses {s : Registration} (status : ShimStatus) : s.pc = .live →
      Step pacing s (.closed status) s
  | drops {s : Registration} : s.pc = .live →
      Step pacing s .silent { s with pc := .disabling .session }
  | unregistered {s : Registration} : s.pc = .unwinding → s.stored = false →
      Step pacing s (.released .pending) (s.release .pending)
  | registered {s : Registration} : s.pc = .unwinding → s.stored = true →
      Step pacing s .silent { s with pc := .disabling .pending }
  | disables {s : Registration} {owner : Owner} : s.pc = .disabling owner →
      Step pacing s .silent
        { s with pc := if owner = .quarantine then .fencing owner else .draining owner }
  | drained {s : Registration} {owner : Owner} : s.pc = .draining owner →
      Step pacing s (.drained true)
        { s with pc := if owner = .quarantine then .disabling owner else .fencing owner }
  | drainFails {s : Registration} {owner : Owner} : s.pc = .draining owner →
      Step pacing s (.drained false)
        { s with pc := if owner = .quarantine then .draining owner else .quarantining owner }
  /-- The fence of `close_registered`, whatever it answers. -/
  | fences {s : Registration} {owner : Owner} (status : ShimStatus) :
      s.pc = .fencing owner → owner ≠ .quarantine →
      Step pacing s (.fenced status)
        { s with pc := .closing owner (status = .ok), fenced := s.fenced || status = .ok }
  | closesRefused {s : Registration} {owner : Owner} {fenced : Bool} (status : ShimStatus) :
      s.pc = .closing owner fenced → owner ≠ .quarantine → fenced = false ∨ status = .timedOut →
      Step pacing s (.closed status) { s with pc := .quarantining owner, refused := true }
  | closes {s : Registration} {owner : Owner} (status : ShimStatus) :
      s.pc = .closing owner true → owner ≠ .quarantine → status ≠ .timedOut →
      Step pacing s (.closed status) { s with pc := .releasing owner }
  | releases {s : Registration} {owner : Owner} : s.pc = .releasing owner →
      Step pacing s (.released owner) (s.release owner)
  | quarantines {s : Registration} {owner : Owner} : s.pc = .quarantining owner →
      Step pacing s (.spawned true)
        { s.without owner with pc := .draining .quarantine, quarantine := true }
  | spawnFails {s : Registration} {owner : Owner} : s.pc = .quarantining owner →
      Step pacing s (.spawned false) { s.without owner with pc := .abandoned, quarantine := true }
  /-- The fence of the quarantine worker, which is repeated while it times out. -/
  | workerFences {s : Registration} : s.pc = .fencing .quarantine →
      Step pacing s (.fenced .ok) { s with pc := .closing .quarantine true, fenced := true }
  | workerWaits {s : Registration} : s.pc = .fencing .quarantine →
      Step pacing s (.fenced .timedOut) s
  | workerGivesUp {s : Registration} (status : ShimStatus) : s.pc = .fencing .quarantine →
      status ≠ .ok → status ≠ .timedOut →
      Step pacing s (.fenced status) { s with pc := .abandoned }
  | workerRetries {s : Registration} : s.pc = .closing .quarantine true →
      Step pacing s (.closed .timedOut) s
  | workerCloses {s : Registration} (status : ShimStatus) : s.pc = .closing .quarantine true →
      status ≠ .timedOut → Step pacing s (.closed status) { s with pc := .releasing .quarantine }

abbrev registrationSystem (pacing : ResolvedCapturePacing) : System Registration Event :=
  ⟨fun s => s = .start, Step pacing⟩

/-! ### The invariant -/

/-- Who has the reference at a place. -/
def Pc.owner : Pc → Option Owner
  | guarded | opened | stored | spawning | unwinding => some .pending
  | starting | startTimedOut | startFailed | started | live => some .session
  | disabling owner | draining owner | fencing owner | closing owner _ | releasing owner
  | quarantining owner => some owner
  | abandoned => some .quarantine
  | start | done => none

/-- A fence has answered well before the code stands there. -/
def Pc.behindFence : Pc → Bool
  | closing _ fenced => fenced
  | releasing _ => true
  | _ => false

/-- The code has not stored a native session yet. -/
def Pc.early : Pc → Bool
  | start | guarded | opened => true
  | _ => false

/-- What holds in every state. -/
structure Inv (s : Registration) : Prop where
  pending : s.pending = true ↔ s.pc.owner = some .pending
  session : s.session = true ↔ s.pc.owner = some .session
  quarantine : s.quarantine = true ↔ s.pc.owner = some .quarantine
  released : s.released = if s.pc = .done then 1 else 0
  stored : s.pc.early = true → s.stored = false
  native : s.native = (s.stored || decide (s.pc = .opened))
  fenced : s.pc.behindFence = true → s.fenced = true
  done : s.pc = .done → s.fenced = true ∨ s.native = false
  refused : s.refused = true → s.pc.owner = some .quarantine ∨ (∃ owner, s.pc = .quarantining owner) ∨
    s.pc = .done

section Steps

variable {pacing : ResolvedCapturePacing} {s s' : Registration} {e : Event} {owner : Owner}

theorem Inv.keeps (h : Inv s) (hs : s.pc.owner = some owner) (hs' : s'.pc.owner = some owner)
    (hflags : s'.pending = s.pending ∧ s'.session = s.session ∧ s'.quarantine = s.quarantine ∧
      s'.released = s.released)
    (hstored : s'.pc.early = true → s'.stored = false)
    (hnative : s'.native = (s'.stored || decide (s'.pc = .opened)))
    (hfenced : s'.pc.behindFence = true → s'.fenced = true)
    (hrefused : s'.refused = true → owner = .quarantine ∨ s'.pc = .quarantining owner) : Inv s' := by
  obtain ⟨hpending, hsession, hquarantine, hreleased⟩ := hflags
  have hlive : s.pc ≠ .done := by
    rintro hdone
    rw [hdone] at hs
    cases hs
  have hlive' : s'.pc ≠ .done := by
    rintro hdone
    rw [hdone] at hs'
    cases hs'
  refine ⟨?_, ?_, ?_, ?_, hstored, hnative, hfenced, fun hdone => absurd hdone hlive', fun href => ?_⟩
  · rw [hpending, h.pending, hs, hs']
  · rw [hsession, h.session, hs, hs']
  · rw [hquarantine, h.quarantine, hs, hs']
  · rw [hreleased, h.released, if_neg hlive, if_neg hlive']
  · rcases hrefused href with rfl | hpc
    · exact Or.inl hs'
    · exact Or.inr (Or.inl ⟨owner, hpc⟩)

theorem Inv.held (h : Inv s) (hs : s.pc.owner = some owner) : s.released = 0 ∧
    (s.pending = true ↔ owner = .pending) ∧ (s.session = true ↔ owner = .session) ∧
    (s.quarantine = true ↔ owner = .quarantine) := by
  have hlive : s.pc ≠ .done := by
    rintro hdone
    rw [hdone] at hs
    cases hs
  have hreleased := h.released
  rw [if_neg hlive] at hreleased
  refine ⟨hreleased, ?_, ?_, ?_⟩
  · rw [h.pending, hs, Option.some.injEq]
  · rw [h.session, hs, Option.some.injEq]
  · rw [h.quarantine, hs, Option.some.injEq]

theorem Inv.without (h : Inv s) (hs : s.pc.owner = some owner) :
    (s.without owner).pending = false ∧ (s.without owner).session = false ∧
      (s.without owner).quarantine = false := by
  obtain ⟨-, hpending, hsession, hquarantine⟩ := h.held hs
  cases owner with
  | pending => exact ⟨rfl, show s.session = false by simpa using hsession,
      show s.quarantine = false by simpa using hquarantine⟩
  | session => exact ⟨show s.pending = false by simpa using hpending, rfl,
      show s.quarantine = false by simpa using hquarantine⟩
  | quarantine => exact ⟨show s.pending = false by simpa using hpending,
      show s.session = false by simpa using hsession, rfl⟩

theorem without_same (s : Registration) (owner : Owner) :
    (s.without owner).released = s.released ∧ (s.without owner).native = s.native ∧
      (s.without owner).stored = s.stored ∧ (s.without owner).fenced = s.fenced ∧
      (s.without owner).refused = s.refused := by
  cases owner <;> exact ⟨rfl, rfl, rfl, rfl, rfl⟩

theorem Inv.native_of_ne (h : Inv s) (hpc : s.pc ≠ .opened) : s.native = s.stored := by
  have hnative := h.native
  rw [decide_eq_false hpc, Bool.or_false] at hnative
  exact hnative

theorem Inv.release (h : Inv s) (hs : s.pc.owner = some owner) (hopened : s.pc ≠ .opened)
    (hsafe : s.fenced = true ∨ s.native = false) : Inv (s.release owner) := by
  obtain ⟨hpending, hsession, hquarantine⟩ := h.without hs
  obtain ⟨-, hnative, hstored, hfenced, -⟩ := without_same s owner
  have hnone : ∀ flag : Bool, flag = false → ∀ o : Owner, flag = true ↔ (none : Option Owner) = some o :=
    fun flag hflag o => by rw [hflag]; exact iff_of_false Bool.false_ne_true nofun
  refine ⟨hnone _ hpending _, hnone _ hsession _, hnone _ hquarantine _, ?_, nofun, ?_, nofun,
    fun _ => ?_, fun _ => Or.inr (Or.inr rfl)⟩
  · show s.released + 1 = 1
    rw [(h.held hs).1]
  · show (s.without owner).native = ((s.without owner).stored || false)
    rw [hnative, hstored, Bool.or_false]
    exact h.native_of_ne hopened
  · show (s.without owner).fenced = true ∨ (s.without owner).native = false
    rw [hfenced, hnative]
    exact hsafe

theorem Inv.quarantines (h : Inv s) (hpc : s.pc = .quarantining owner) {pc : Pc}
    (howner : pc.owner = some .quarantine) (hquiet : pc ≠ .opened ∧ pc.behindFence = false) :
    Inv { s.without owner with pc := pc, quarantine := true } := by
  have hs : s.pc.owner = some owner := by
    rw [hpc]
    rfl
  obtain ⟨hpending, hsession, -⟩ := h.without hs
  obtain ⟨hreleased, hnative, hstored, -⟩ := without_same s owner
  have hlive : pc ≠ .done := by
    rintro rfl
    cases howner
  refine ⟨?_, ?_, iff_of_true rfl howner, ?_, fun hearly => ?_, ?_, fun hf => ?_,
    fun hdone => absurd hdone hlive, fun _ => Or.inl howner⟩
  · show (s.without owner).pending = true ↔ pc.owner = some .pending
    rw [hpending, howner]
    exact iff_of_false Bool.false_ne_true nofun
  · show (s.without owner).session = true ↔ pc.owner = some .session
    rw [hsession, howner]
    exact iff_of_false Bool.false_ne_true nofun
  · show (s.without owner).released = if pc = .done then 1 else 0
    rw [hreleased, if_neg hlive, (h.held hs).1]
  · cases pc with
    | start | guarded | opened => cases howner
    | _ => cases hearly
  · show (s.without owner).native = ((s.without owner).stored || decide (pc = .opened))
    rw [hnative, hstored, decide_eq_false hquiet.1, Bool.or_false]
    exact h.native_of_ne (by rw [hpc]; nofun)
  · rw [hquiet.2] at hf
    cases hf

theorem Inv.unrefused (h : Inv s) (hs : s.pc.owner = some owner) (howner : owner ≠ .quarantine)
    (hpc : s.pc ≠ .quarantining owner) : s.refused = false := by
  by_contra hne
  rcases h.refused (by simpa using hne) with hq | ⟨o, ho⟩ | hdone
  · rw [hs] at hq
    exact howner (Option.some.inj hq)
  · rw [ho] at hs
    obtain rfl := Option.some.inj hs
    exact hpc ho
  · rw [hdone] at hs
    cases hs

theorem Inv.refused_owner (h : Inv s) (hs : s.pc.owner = some owner) (hpc : s.pc ≠ .quarantining owner)
    (href : s.refused = true) {P : Prop} : owner = .quarantine ∨ P := by
  by_contra hne
  rw [h.unrefused hs (not_or.mp hne).1 hpc] at href
  cases href

theorem Inv.step (h : Inv s) (hstep : Step pacing s e s') : Inv s' := by
  -- a step of the code of one owner, with what the fence has answered
  have hfence : ∀ {p q : Pc} (owner : Owner) (answered : Bool), s.pc = p → p.owner = some owner →
      q.owner = some owner → p ≠ .opened → q ≠ .opened → q.early = false →
      p ≠ .quarantining owner → (q.behindFence = true → s.fenced = true ∨ answered = true) →
      Inv { s with pc := q, fenced := s.fenced || answered } := by
    rintro pc pc' owner answered rfl hs hs' hopened hopened' hearly hpc hanswered
    refine h.keeps hs hs' ⟨rfl, rfl, rfl, rfl⟩ (fun hp => ?_) ?_ (fun hf => ?_)
      fun href => h.refused_owner hs hpc href
    · rw [hearly] at hp
      cases hp
    · show s.native = (s.stored || decide (pc' = .opened))
      rw [decide_eq_false hopened', Bool.or_false]
      exact h.native_of_ne hopened
    · show (s.fenced || answered) = true
      rcases hanswered hf with hold | hnew
      · rw [hold, Bool.true_or]
      · rw [hnew, Bool.or_true]
  have hplain : ∀ {pc pc' : Pc} (owner : Owner), s.pc = pc → pc.owner = some owner →
      pc'.owner = some owner → pc ≠ .opened → pc' ≠ .opened → pc'.early = false →
      pc ≠ .quarantining owner → (pc'.behindFence = true → s.fenced = true) →
      Inv { s with pc := pc' } := by
    intro pc pc' owner hpc hs hs' hopened hopened' hearly hne hbehind
    have hsame := hfence owner false hpc hs hs' hopened hopened' hearly hne fun hf => Or.inl (hbehind hf)
    rw [Bool.or_false] at hsame
    exact hsame
  cases hstep with
  | guard hpc =>
    have hreleased := h.released
    have hrefused := h.refused
    have hsession := h.session
    have hquarantine := h.quarantine
    have hstored := h.stored
    rw [hpc] at hreleased hrefused hsession hquarantine hstored
    have hnative := h.native_of_ne (by rw [hpc]; nofun)
    refine ⟨iff_of_true rfl rfl, ?_, ?_, hreleased, fun _ => hstored rfl, ?_, nofun, nofun, fun href => ?_⟩
    · exact hsession.trans (iff_of_false nofun nofun)
    · exact hquarantine.trans (iff_of_false nofun nofun)
    · show s.native = (s.stored || false)
      rw [Bool.or_false]
      exact hnative
    · rcases hrefused href with hq | ⟨o, ho⟩ | hdone
      · cases hq
      · cases ho
      · cases hdone
  | openFails status hpc => exact hplain .pending hpc rfl rfl nofun nofun rfl nofun nofun
  | openContradicts responds readback hpc hreport hrefused =>
    obtain ⟨accepted, haccepted⟩ := report_accepted hreport
    rw [haccepted] at hrefused
    cases hrefused
  | opens responds readback hpc =>
    have hs : s.pc.owner = some .pending := by
      rw [hpc]
      rfl
    have hstored := h.stored (by rw [hpc]; rfl)
    refine h.keeps hs rfl ⟨rfl, rfl, rfl, rfl⟩ (fun _ => hstored) ?_ nofun
      fun href => h.refused_owner hs (by rw [hpc]; nofun) href
    show true = (s.stored || true)
    rw [Bool.or_true]
  | stores hpc hstored =>
    have hs : s.pc.owner = some .pending := by
      rw [hpc]
      rfl
    refine h.keeps hs rfl ⟨rfl, rfl, rfl, rfl⟩ nofun ?_ nofun
      fun href => h.refused_owner hs (by rw [hpc]; nofun) href
    show s.native = true
    rw [h.native, hpc]
    exact Bool.or_true _
  | storeFails hpc hstored =>
    rw [h.stored (by rw [hpc]; rfl)] at hstored
    cases hstored
  | overtaken i hpc => exact hplain .pending hpc rfl rfl nofun nofun rfl nofun nofun
  | continues hpc => exact hplain .pending hpc rfl rfl nofun nofun rfl nofun nofun
  | intoOwned hpc =>
    have hs : s.pc.owner = some .pending := by
      rw [hpc]
      rfl
    obtain ⟨hreleased, -, -, hquarantine⟩ := h.held hs
    refine ⟨iff_of_false Bool.false_ne_true nofun, iff_of_true rfl rfl, ?_, hreleased, nofun, ?_, nofun,
      nofun, fun href => ?_⟩
    · exact hquarantine.trans (iff_of_false nofun nofun)
    · show s.native = (s.stored || false)
      rw [Bool.or_false]
      exact h.native_of_ne (by rw [hpc]; nofun)
    · rw [h.unrefused hs nofun (by rw [hpc]; nofun)] at href
      cases href
  | starts hpc | startTimesOut hpc | startFails hpc | startRetries hpc | serves hpc =>
    exact hplain .session hpc rfl rfl nofun nofun rfl nofun nofun
  | startExpires i hpc | startReports i hpc | abandons i hpc =>
    exact hplain .session hpc rfl rfl nofun nofun rfl nofun nofun
  | callerFences status hpc =>
    have hsame := hfence .session (status = .ok) hpc rfl (q := .live) rfl nofun nofun rfl nofun nofun
    rw [← hpc] at hsame
    exact hsame
  | callerCloses => exact h
  | drops hpc => exact hplain .session hpc rfl rfl nofun nofun rfl nofun nofun
  | unregistered hpc hstored =>
    refine h.release (by rw [hpc]; rfl) (by rw [hpc]; nofun) (Or.inr ?_)
    rw [h.native_of_ne (by rw [hpc]; nofun), hstored]
  | registered hpc => exact hplain .pending hpc rfl rfl nofun nofun rfl nofun nofun
  | @disables owner hpc =>
    by_cases howner : owner = .quarantine
    · rw [if_pos howner]
      exact hplain owner hpc rfl rfl nofun nofun rfl nofun nofun
    · rw [if_neg howner]
      exact hplain owner hpc rfl rfl nofun nofun rfl nofun nofun
  | @drained owner hpc =>
    by_cases howner : owner = .quarantine
    · rw [if_pos howner]
      exact hplain owner hpc rfl rfl nofun nofun rfl nofun nofun
    · rw [if_neg howner]
      exact hplain owner hpc rfl rfl nofun nofun rfl nofun nofun
  | @drainFails owner hpc =>
    by_cases howner : owner = .quarantine
    · rw [if_pos howner]
      exact hplain owner hpc rfl rfl nofun nofun rfl nofun nofun
    · rw [if_neg howner]
      exact hplain owner hpc rfl rfl nofun nofun rfl nofun nofun
  | @fences owner status hpc howner =>
    exact hfence owner (status = .ok) hpc rfl rfl nofun nofun rfl nofun Or.inr
  | @closesRefused owner fenced status hpc howner hrefused =>
    have hs : s.pc.owner = some owner := by
      rw [hpc]
      rfl
    refine h.keeps hs rfl ⟨rfl, rfl, rfl, rfl⟩ nofun ?_ nofun fun _ => Or.inr rfl
    show s.native = (s.stored || false)
    rw [Bool.or_false]
    exact h.native_of_ne (by rw [hpc]; nofun)
  | @closes owner status hpc =>
    have hfenced := h.fenced (by rw [hpc]; rfl)
    exact hplain owner hpc rfl rfl nofun nofun rfl nofun fun _ => hfenced
  | @releases owner hpc =>
    refine h.release (by rw [hpc]; rfl) (by rw [hpc]; nofun) (Or.inl (h.fenced ?_))
    rw [hpc]
    rfl
  | quarantines hpc => exact h.quarantines hpc rfl ⟨nofun, rfl⟩
  | spawnFails hpc => exact h.quarantines hpc rfl ⟨nofun, rfl⟩
  | workerFences hpc =>
    have hsame := hfence .quarantine true hpc rfl (q := .closing .quarantine true) rfl nofun nofun rfl
      nofun fun _ => Or.inr rfl
    rw [Bool.or_true] at hsame
    exact hsame
  | workerWaits | workerRetries => exact h
  | workerGivesUp status hpc => exact hplain .quarantine hpc rfl rfl nofun nofun rfl nofun nofun
  | workerCloses status hpc =>
    have hfenced := h.fenced (by rw [hpc]; rfl)
    exact hplain .quarantine hpc rfl rfl nofun nofun rfl nofun fun _ => hfenced

theorem inv_reachable (h : (registrationSystem pacing).Reachable s) : Inv s := by
  refine h.invariant (fun t ht => ?_) fun t e u _ ht hstep => ht.step hstep
  obtain rfl : t = .start := ht
  exact ⟨iff_of_false nofun nofun, iff_of_false nofun nofun, iff_of_false nofun nofun, rfl, fun _ => rfl,
    rfl, nofun, nofun, nofun⟩

end Steps

/-! ### The law -/

structure RegistrationLaw (pacing : ResolvedCapturePacing) (trail : List (Registration × Event))
    (s : Registration) : Prop where
  /-- Once `open_inner` has handed it over, the reference has one owner, or it was given back once. -/
  owned : s.pc ≠ .start →
    s.pending.toNat + s.session.toNat + s.quarantine.toNat + s.released = 1
  /-- Before that it does not exist. -/
  unborn : s.pc = .start → s.pending.toNat + s.session.toNat + s.quarantine.toNat + s.released = 0
  /-- Who gives it back has it, and nobody gave it back before. -/
  given : ∀ e s', (registrationSystem pacing).step s e s' → s'.released ≠ s.released →
    s.released = 0 ∧ s'.released = 1 ∧ ∃ owner, e = .released owner ∧ s.pc.owner = some owner
  /-- That happens behind a fence that answered well, or where no native session was registered. -/
  fenced : ∀ e s', (registrationSystem pacing).step s e s' → s'.released ≠ s.released →
    .fenced .ok ∈ trail.map (·.2) ∨ ∀ report, .opened (.ok report) ∉ trail.map (·.2)
  /-- After `close_registered` has refused, only the quarantine gives it back. -/
  refused : s.refused = true → ∀ owner s',
    (registrationSystem pacing).step s (.released owner) s' → owner = .quarantine

theorem Step.released_cases {pacing : ResolvedCapturePacing} {s s' : Registration} {e : Event}
    (h : Step pacing s e s') : s'.released = s.released ∨
      ∃ owner, e = .released owner ∧ s' = s.release owner ∧
        ((s.pc = .unwinding ∧ owner = .pending ∧ s.stored = false) ∨ s.pc = .releasing owner) := by
  cases h with
  | unregistered hpc hstored => exact Or.inr ⟨_, rfl, rfl, Or.inl ⟨hpc, rfl, hstored⟩⟩
  | releases hpc => exact Or.inr ⟨_, rfl, rfl, Or.inr hpc⟩
  | quarantines | spawnFails => exact Or.inl (without_same s _).1
  | _ => exact Or.inl rfl

section Law

variable {pacing : ResolvedCapturePacing} {s : Registration} {trail : List (Registration × Event)}

theorem flags_along (h : (registrationSystem pacing).Path .start trail s) :
    (s.fenced = true → .fenced .ok ∈ trail.map (·.2)) ∧
      (s.native = false → ∀ report, .opened (.ok report) ∉ trail.map (·.2)) := by
  refine h.along (P := fun trail s => (s.fenced = true → .fenced .ok ∈ trail.map (·.2)) ∧
    (s.native = false → ∀ report, .opened (.ok report) ∉ trail.map (·.2)))  ?_ ?_
  · exact ⟨(fun hf => by cases hf), (fun _ _ hm => by cases hm)⟩
  intro trail s e s' _ ⟨hfenced, hnative⟩ hstep
  have hlast : ∀ {x : Event}, x ∈ (trail ++ [(s, e)]).map (·.2) ↔ x ∈ trail.map (·.2) ∨ x = e := by
    intro x
    rw [List.map_append, List.mem_append]
    exact or_congr Iff.rfl List.mem_singleton
  have hfences : s'.fenced = true → s.fenced = true ∨ e = .fenced .ok := by
    intro hf
    cases hstep with
    | callerFences status | fences status =>
      rcases Bool.or_eq_true_iff.mp hf with hold | hnew
      · exact Or.inl hold
      · rw [of_decide_eq_true hnew]
        exact Or.inr rfl
    | workerFences => exact Or.inr rfl
    | quarantines | spawnFails | releases | unregistered =>
      exact Or.inl ((without_same s _).2.2.2.1 ▸ hf)
    | _ => exact Or.inl hf
  have hopens : s'.native = false → s.native = false ∧ ∀ report, e ≠ .opened (.ok report) := by
    intro hn
    cases hstep with
    | openContradicts | opens => cases hn
    | quarantines | spawnFails | releases | unregistered =>
      exact ⟨(without_same s _).2.1 ▸ hn, nofun⟩
    | _ => exact ⟨hn, nofun⟩
  refine ⟨fun hf => hlast.mpr ?_, fun hn report hmem => ?_⟩
  · rcases hfences hf with hold | hnew
    · exact Or.inl (hfenced hold)
    · exact Or.inr hnew.symm
  · obtain ⟨hold, hnew⟩ := hopens hn
    rcases hlast.mp hmem with hmem | heq
    · exact hnative hold report hmem
    · exact hnew report heq.symm

/-- How many have the reference. -/
def Registration.holders (s : Registration) : ℕ :=
  s.pending.toNat + s.session.toNat + s.quarantine.toNat

theorem holders_of_owner (h : Inv s) {owner : Owner} (hs : s.pc.owner = some owner) : s.holders = 1 := by
  obtain ⟨-, hpending, hsession, hquarantine⟩ := h.held hs
  have hflag : ∀ {flag : Bool} {P : Prop} [Decidable P], (flag = true ↔ P) → flag.toNat = if P then 1 else 0 := by
    intro flag P _ hiff
    by_cases hP : P
    · rw [if_pos hP, hiff.mpr hP]
      rfl
    · rw [if_neg hP, Bool.eq_false_of_not_eq_true fun hflag => hP (hiff.mp hflag)]
      rfl
  unfold Registration.holders
  rw [hflag hpending, hflag hsession, hflag hquarantine]
  cases owner <;> rfl

theorem holders_of_none (h : Inv s) (hs : s.pc.owner = none) : s.holders = 0 := by
  have hflag : ∀ {flag : Bool} {owner : Owner}, (flag = true ↔ s.pc.owner = some owner) →
      flag.toNat = 0 := by
    intro flag owner hiff
    rw [hs] at hiff
    have hclear : flag = false := Bool.eq_false_of_not_eq_true fun hflag => by cases hiff.mp hflag
    rw [hclear]
    rfl
  unfold Registration.holders
  rw [hflag h.pending, hflag h.session, hflag h.quarantine]

/-- **The callback registration is reclaimed at most once, and only behind a fence**, or where no native
session was registered with it. -/
theorem callback_registration (h : (registrationSystem pacing).Path .start trail s) :
    RegistrationLaw pacing trail s := by
  have hinv : Inv s := inv_reachable ⟨_, rfl, h.leads⟩
  obtain ⟨hfenced, hnative⟩ := flags_along h
  have howned : s.pc ≠ .start → s.holders + s.released = 1 := by
    intro hborn
    by_cases hdone : s.pc = .done
    · rw [holders_of_none hinv (by rw [hdone]; rfl), hinv.released, if_pos hdone]
    · obtain ⟨owner, howner⟩ : ∃ owner, s.pc.owner = some owner := by
        cases hpc : s.pc with
        | start => exact absurd hpc hborn
        | done => exact absurd hpc hdone
        | _ => exact ⟨_, rfl⟩
      rw [holders_of_owner hinv howner, (hinv.held howner).1]
  refine ⟨howned, fun hstart => ?_, fun e s' hstep hne => ?_, fun e s' hstep hne => ?_,
    fun href owner s' hstep => ?_⟩
  · have hreleased := hinv.released
    rw [hstart] at hreleased
    show s.holders + s.released = 0
    rw [holders_of_none hinv (by rw [hstart]; rfl), hreleased]
    rfl
  · rcases hstep.released_cases with hsame | ⟨owner, rfl, rfl, hpc⟩
    · exact absurd hsame hne
    · have howner : s.pc.owner = some owner := by
        rcases hpc with ⟨hpc, rfl, -⟩ | hpc
        · rw [hpc]
          rfl
        · rw [hpc]
          rfl
      have hzero := (hinv.held howner).1
      refine ⟨hzero, ?_, owner, rfl, howner⟩
      show s.released + 1 = 1
      rw [hzero]
  · rcases hstep.released_cases with hsame | ⟨owner, rfl, rfl, ⟨hpc, -, hstored⟩ | hpc⟩
    · exact absurd hsame hne
    · refine Or.inr (hnative ?_)
      rw [hinv.native_of_ne (by rw [hpc]; nofun), hstored]
    · exact Or.inl (hfenced (hinv.fenced (by rw [hpc]; rfl)))
  · have hreleased : s.released ≠ (s.release owner).released := Nat.ne_of_lt (Nat.lt_succ_self _)
    rcases hstep.released_cases with hsame | ⟨o, ho, -, hpc⟩
    · cases hstep with
      | unregistered | releases => exact absurd hsame.symm hreleased
    · obtain rfl := Event.released.inj ho
      rcases hpc with ⟨hpc, rfl, -⟩ | hpc
      · have howner : s.pc.owner = some .pending := by
          rw [hpc]
          rfl
        rw [hinv.unrefused howner nofun (by rw [hpc]; nofun)] at href
        cases href
      · by_contra howner
        rw [hinv.unrefused (by rw [hpc]; rfl) howner (by rw [hpc]; nofun)] at href
        cases href

end Law

/-- An open that is interrupted once the native session is registered, and whose native close times out:
the quarantine gives the reference back. -/
theorem callback_registration_sample :
    ∃ (trail : List (Registration × Event)) (s : Registration), s.released = 1 ∧ s.refused = true ∧
      RegistrationLaw .sourceDefault trail s := by
  have hpath : ∃ (trail : List (Registration × Event)) (s : Registration),
      (registrationSystem .sourceDefault).Path .start trail s ∧ s.released = 1 ∧ s.refused = true :=
    ⟨_, _, .cons (.guard rfl) <| .cons (.opens true (.ok 0) rfl rfl rfl) <| .cons (.stores rfl rfl) <|
      .cons (.overtaken .cancelled rfl) <| .cons (.registered rfl rfl) <| .cons (.disables rfl) <|
      .cons (.drained rfl) <| .cons (.fences .ok rfl nofun) <|
      .cons (.closesRefused .timedOut rfl nofun (Or.inr rfl)) <| .cons (.quarantines rfl) <|
      .cons (.drained rfl) <| .cons (.disables rfl) <| .cons (.workerFences rfl) <|
      .cons (.workerCloses .ok rfl nofun) <| .cons (.releases rfl) <| .nil _, rfl, rfl⟩
  obtain ⟨trail, s, hpath, hreleased, hrefused⟩ := hpath
  exact ⟨trail, s, hreleased, hrefused, callback_registration hpath⟩

end MadoPilot.Platform.MacosRegistration
