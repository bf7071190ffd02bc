import MadoPilot.Capture.Frame
import MadoPilot.Lib.System
import MadoPilot.Lib.Tally

/-!
# The reservations of a watch manager

A start takes a place among the queries of the engine with `reserve`, then a place among the queries
of its session with `reserve_query_slot`, and where the session had no query also the session's place
among the active sessions.  A query gives its two places back with `release_reservation`, which the
thread that stored its outcome calls, and the thread that dropped the last reference to it; the
session gives back its place when it deactivates.  Template and OCR watches share the counters.

The actions below are the atomic steps of these calls.  Any number of threads take them in any order:
a start stands in its table at the stage its thread has reached, and a call of `release_reservation`
that has not reached its swap is counted in `calls`.  The session's `activation` lock is held over
several steps only where `active_sessions` is written between them, and then says by whom.
-/

namespace MadoPilot.Watch

open MadoPilot.Capture (usizeMax)
open MadoPilot.Lib

def maxEngineQueries : ℕ := 256

def maxSessionQueries : ℕ := 64

def maxActiveSessions : ℕ := 16

/-! ### Data -/

inductive WatchKind where
  | template | ocr
  deriving DecidableEq

/-- How far the places of one start have come. -/
inductive Stage where
  /-- it has the engine place -/
  | reserved
  /-- `reserve_query_slot` refused it -/
  | refused
  /-- refused, and the engine place is back -/
  | rejected
  /-- inside `reserve_query_slot`, which has taken the session's place and not stored it -/
  | activating
  /-- it has both places and no query is built -/
  | slotted
  /-- no identity was left for the query -/
  | unwinding
  /-- the same, and the engine place is back -/
  | unwound
  /-- the same, and both places are back -/
  | abandoned
  /-- the query stands and `reservation_released` is clear -/
  | live
  /-- `reservation_released` is set -/
  | returning
  /-- the same, and the engine place is back -/
  | halfway
  /-- the same, and both places are back -/
  | done
  deriving DecidableEq

namespace Stage

def holdsEngine : Stage → Bool
  | .reserved | .refused | .activating | .slotted | .unwinding | .live | .returning => true
  | .rejected | .unwound | .abandoned | .halfway | .done => false

/-- The place in the session is out. -/
def holdsSlot : Stage → Bool
  | .slotted | .unwinding | .unwound | .live | .returning | .halfway => true
  | .reserved | .refused | .rejected | .activating | .abandoned | .done => false

/-- The place in the session has been taken. -/
def tookSlot : Stage → Bool
  | .reserved | .refused | .rejected | .activating => false
  | .slotted | .unwinding | .unwound | .abandoned | .live | .returning | .halfway | .done => true

def built : Stage → Bool
  | .live | .returning | .halfway | .done => true
  | .reserved | .refused | .rejected | .activating | .slotted | .unwinding | .unwound
  | .abandoned => false

def engineReturned : Stage → Option Stage
  | .refused => some .rejected
  | .unwinding => some .unwound
  | .returning => some .halfway
  | _ => none

/-- The stage after the place in the session is given back. -/
def slotReturned : Stage → Option Stage
  | .unwound => some .abandoned
  | .halfway => some .done
  | _ => none

end Stage

inductive StartPlace where
  | committing | publishing | acquiring | returned
  deriving DecidableEq

/-- One start and the query it built.  The last three fields are read by no code: how often the place
in the session was taken, and how often either place was given back. -/
structure Reservation where
  kind : WatchKind
  session : ℕ
  stage : Stage
  start : StartPlace
  references : ℕ
  terminal : Bool
  reservationReleased : Bool
  calls : ℕ
  slotsTaken : ℕ
  engineReturns : ℕ
  slotReturns : ℕ
  deriving DecidableEq

namespace Reservation

variable (q : Reservation)

/-- A start that has the engine place. -/
def begun (kind : WatchKind) (session : ℕ) : Reservation where
  kind := kind
  session := session
  stage := .reserved
  start := .committing
  references := 0
  terminal := false
  reservationReleased := false
  calls := 0
  slotsTaken := 0
  engineReturns := 0
  slotReturns := 0

/-- The query is over: its outcome is stored or nothing refers to it. -/
def ended : Bool := q.terminal || (q.stage.built && q.references == 0)

/-- Storing an outcome, first come; the thread that stored it calls `release_reservation`. -/
def terminate : Reservation :=
  if q.terminal then q else { q with terminal := true, calls := q.calls + 1 }

/-- A reference is dropped; dropping the last one calls `release_reservation`. -/
def letGo : Reservation :=
  { q with references := q.references - 1
           calls := if q.references = 1 then q.calls + 1 else q.calls }

def swapReleased : Reservation :=
  if q.reservationReleased then { q with calls := q.calls - 1 }
  else { q with reservationReleased := true, calls := q.calls - 1, stage := .returning }

end Reservation

/-- What holds a session's `activation` lock over a write of `active_sessions`. -/
inductive Holder where
  | activating (start : ℕ)
  | deactivating (leaving : Bool)
  deriving DecidableEq

structure WatchSession where
  closed : Bool
  sourceEnded : Bool
  activated : Bool
  activeQueries : ℕ
  physicalOcr : ℕ
  acquisitionRunning : Bool
  acquisitionExiting : Bool
  activation : Option Holder
  deriving DecidableEq

namespace WatchSession

variable (x : WatchSession)

def new : WatchSession where
  closed := false
  sourceEnded := false
  activated := false
  activeQueries := 0
  physicalOcr := 0
  acquisitionRunning := false
  acquisitionExiting := false
  activation := none

/-- The session's place among the active sessions is out. -/
def counted : Bool := x.activated || x.activation.isSome

/-- `acquisition_loop` leaves. -/
def acquisitionLeft : WatchSession :=
  { x with acquisitionRunning := false, acquisitionExiting := false }

/-- `deactivate_locked` up to its write of `active_sessions`; the flag says whether one follows. -/
def deactivateLocked : WatchSession × Bool :=
  if x.physicalOcr ≠ 0 then (x, false) else ({ x with activated := false }, x.activated)

/-- The end of a section that deactivates where `wanted`: it keeps the lock if it has to write
`active_sessions`. -/
def deactivateIf (wanted leaving : Bool) : WatchSession :=
  if wanted && x.deactivateLocked.2 then
    { x.deactivateLocked.1 with activation := some (.deactivating leaving) }
  else if leaving then x.acquisitionLeft else x

end WatchSession

structure Manager where
  closed : Bool
  queryCount : ℕ
  activeSessions : ℕ
  sessions : List WatchSession
  queries : List Reservation
  deriving DecidableEq

/-! ### The calls -/

/-- `reserve`: one more, unless the limit is reached. -/
def reserve (counter limit : ℕ) : Option ℕ := if counter < limit then some (counter + 1) else none

namespace Manager

variable (m : Manager) (i : ℕ) (q : Reservation) (x : WatchSession)

def new : Manager := ⟨false, 0, 0, [], []⟩

/-- Neither the session nor its source nor the scheduler has ended. -/
def isOpen : Bool := !x.closed && !x.sourceEnded && !m.closed

def putQuery (q' : Reservation) : Manager := { m with queries := m.queries.set i q' }

def putSession (s : ℕ) (x' : WatchSession) : Manager := { m with sessions := m.sessions.set s x' }

/-- A start up to `reserve` on the engine's count. -/
def begin (kind : WatchKind) (s : ℕ) : Manager :=
  if m.isOpen x then
    match reserve m.queryCount maxEngineQueries with
    | none => m
    | some n => { m with queryCount := n, queries := m.queries ++ [.begun kind s] }
  else m

/-- `reserve_query_slot` up to its write of `active_sessions`, or to its end where it writes none. -/
def reserveQuerySlot : Manager :=
  if !m.isOpen x then m.putQuery i { q with stage := .refused }
  else if maxSessionQueries ≤ x.activeQueries then m.putQuery i { q with stage := .refused }
  else if x.activeQueries = 0 ∧ x.activated = false then
    match reserve m.activeSessions maxActiveSessions with
    | none => m.putQuery i { q with stage := .refused }
    | some n =>
      { m.putSession q.session { x with activation := some (.activating i) } with
        activeSessions := n
        queries := m.queries.set i { q with stage := .activating } }
  else
    (m.putSession q.session { x with activeQueries := x.activeQueries + 1 }).putQuery i
      { q with stage := .slotted, slotsTaken := q.slotsTaken + 1 }

/-- The rest of a `reserve_query_slot` that activates its session. -/
def activate : Manager :=
  (m.putSession q.session
    { x with activated := true, activeQueries := x.activeQueries + 1, activation := none }).putQuery
    i { q with stage := .slotted, slotsTaken := q.slotsTaken + 1 }

/-- The query is built; an OCR start first takes an identity, of which none may be left. -/
def build (issued : Bool) : Manager :=
  if q.kind = .ocr ∧ issued = false then m.putQuery i { q with stage := .unwinding }
  else m.putQuery i { q with stage := .live, references := 1 }

/-- A start that fails with its query built: a template start stores an outcome, an OCR start leaves
the release to the drop. -/
def fail : Manager :=
  match q.kind with
  | .template => m.putQuery i { q.terminate with start := .returned }
  | .ocr => m.putQuery i { q with start := .returned }

/-- `publication.commit`. -/
def commit (granted : Bool) : Manager :=
  if granted then m.putQuery i { q with start := .publishing } else m.fail i q

/-- The query enters its session's list, for which an OCR start needs room. -/
def publish (room : Bool) : Manager :=
  if m.isOpen x && (room || q.kind == .template) then m.putQuery i { q with start := .acquiring }
  else m.fail i q

/-- `ensure_acquisition`. -/
def acquire (fails : Bool) : Manager :=
  if fails || !m.isOpen x then m.putQuery i { q.terminate with start := .returned }
  else
    (m.putSession q.session { x with acquisitionRunning := true }).putQuery i
      { q with start := .returned }

/-- The engine's half of giving back a reservation. -/
def releaseQueryReservation (stage : Stage) : Manager :=
  { m.putQuery i { q with stage := stage, engineReturns := q.engineReturns + 1 } with
    queryCount := wrappingSub usizeMax m.queryCount 1 }

/-- `release_query_slot`, up to its write of `active_sessions` or to its end. -/
def releaseQuerySlot (stage : Stage) : Manager :=
  if x.activeQueries = 0 then m.putQuery i { q with stage := stage }
  else
    (m.putSession q.session
      ({ x with activeQueries := x.activeQueries - 1 }.deactivateIf
        (x.activeQueries == 1 && !x.acquisitionRunning) false)).putQuery i
      { q with stage := stage, slotReturns := q.slotReturns + 1 }

/-- `deactivate_if_finished`, up to its write of `active_sessions` or to its end. -/
def deactivateIfFinished (s : ℕ) : Manager :=
  m.putSession s (x.deactivateIf (x.activeQueries == 0 && !x.acquisitionRunning) false)

/-- The last section of `acquisition_loop`, up to its write of `active_sessions` or to its end;
`current` says whether the session's generation is still the loop's. -/
def leaveAcquisition (s : ℕ) (current : Bool) : Manager :=
  if current then m.putSession s (x.deactivateIf (x.activeQueries == 0) true) else m

/-- `deactivate_locked` writes `active_sessions`, and its section ends. -/
def finishDeactivation (s : ℕ) (leaving : Bool) : Manager :=
  { m.putSession s { (if leaving then x.acquisitionLeft else x) with activation := none } with
    activeSessions := wrappingSub usizeMax m.activeSessions 1 }

end Manager

/-! ### Steps -/

/-- The steps; `i` is a start, `s` a session. -/
inductive Action where
  | register
  | begin (kind : WatchKind) (s : ℕ)
  | reserveSlot (i : ℕ)
  | activate (i : ℕ)
  | build (i : ℕ) (issued : Bool)
  | commit (i : ℕ) (granted : Bool)
  | publish (i : ℕ) (room : Bool)
  | acquire (i : ℕ) (fails : Bool)
  | upgrade (i : ℕ)
  | letGo (i : ℕ)
  | terminate (i : ℕ)
  | release (i : ℕ)
  | returnEngine (i : ℕ)
  | returnSlot (i : ℕ)
  | deactivate (s : ℕ)
  | stopAcquisition (s : ℕ)
  | leaveAcquisition (s : ℕ) (current : Bool)
  | finishDeactivation (s : ℕ)
  | admitPhysical (s : ℕ)
  | leavePhysical (s : ℕ)
  | closeSession (s : ℕ)
  | endSource (s : ℕ)
  | closeScheduler
  deriving DecidableEq

namespace Manager

variable (m : Manager)

/-- A step of start `i`, which may need what it says of the start and its session. -/
def onQuery (i : ℕ) (guard : Reservation → WatchSession → Bool)
    (f : Reservation → WatchSession → Manager) : Option Manager :=
  m.queries[i]?.bind fun q => m.sessions[q.session]?.bind fun x =>
    if guard q x then some (f q x) else none

/-- A step on session `s`. -/
def onSession (s : ℕ) (guard : WatchSession → Bool) (f : WatchSession → Manager) :
    Option Manager :=
  m.sessions[s]?.bind fun x => if guard x then some (f x) else none

/-- One step; `none` where the step does not stand at this point. -/
def perform : Action → Option Manager
  | .register => some { m with sessions := m.sessions ++ [.new] }
  | .begin kind s => m.onSession s (fun _ => true) (fun x => m.begin x kind s)
  | .reserveSlot i =>
    m.onQuery i (fun q x => q.stage == .reserved && x.activation == none) (m.reserveQuerySlot i)
  | .activate i => m.onQuery i (fun q _ => q.stage == .activating) (m.activate i)
  | .build i issued =>
    m.onQuery i (fun q _ => q.stage == .slotted) (fun q _ => m.build i q issued)
  | .commit i granted =>
    m.onQuery i (fun q _ => q.start == .committing && 0 < q.references)
      (fun q _ => m.commit i q granted)
  | .publish i room =>
    -- an OCR start publishes under the activation lock
    m.onQuery i
      (fun q x => q.start == .publishing && 0 < q.references &&
        (q.kind == .template || x.activation == none))
      (fun q x => m.publish i q x room)
  | .acquire i fails =>
    m.onQuery i
      (fun q x => q.start == .acquiring && 0 < q.references &&
        !(x.acquisitionRunning && x.acquisitionExiting))
      (fun q x => m.acquire i q x fails)
  | .upgrade i =>
    m.onQuery i (fun q _ => 0 < q.references)
      (fun q _ => m.putQuery i { q with references := q.references + 1 })
  | .letGo i =>
    -- a start keeps its own reference until it returns
    m.onQuery i (fun q _ => 1 < q.references || q.references == 1 && q.start == .returned)
      (fun q _ => m.putQuery i q.letGo)
  | .terminate i =>
    m.onQuery i (fun q _ => 0 < q.references) (fun q _ => m.putQuery i q.terminate)
  | .release i =>
    m.onQuery i (fun q _ => 0 < q.calls) (fun q _ => m.putQuery i q.swapReleased)
  | .returnEngine i =>
    m.onQuery i (fun q _ => q.stage.engineReturned.isSome)
      (fun q _ => m.releaseQueryReservation i q (q.stage.engineReturned.getD q.stage))
  | .returnSlot i =>
    m.onQuery i (fun q x => q.stage.slotReturned.isSome && x.activation == none)
      (fun q x => m.releaseQuerySlot i q x (q.stage.slotReturned.getD q.stage))
  | .deactivate s =>
    m.onSession s (fun x => x.activation == none) (fun x => m.deactivateIfFinished x s)
  | .stopAcquisition s =>
    m.onSession s
      (fun x => x.acquisitionRunning && (x.closed || x.sourceEnded || x.activeQueries == 0))
      (fun x => m.putSession s { x with acquisitionExiting := true })
  | .leaveAcquisition s current =>
    m.onSession s (fun x => x.acquisitionRunning && x.activation == none)
      (fun x => m.leaveAcquisition x s current)
  | .finishDeactivation s =>
    m.onSession s
      (fun x => x.activation == some (.deactivating true) ||
        x.activation == some (.deactivating false))
      (fun x => m.finishDeactivation x s (x.activation == some (.deactivating true)))
  | .admitPhysical s =>
    m.onSession s (fun x => x.activation == none)
      (fun x => m.putSession s { x with physicalOcr := x.physicalOcr + 1 })
  | .leavePhysical s =>
    m.onSession s (fun x => 0 < x.physicalOcr)
      (fun x => m.putSession s { x with physicalOcr := x.physicalOcr - 1 })
  | .closeSession s =>
    m.onSession s (fun x => x.activation == none) (fun x => m.putSession s { x with closed := true })
  | .endSource s =>
    m.onSession s (fun _ => true) (fun x => m.putSession s { x with sourceEnded := true })
  | .closeScheduler => some { m with closed := true }

end Manager

/-- A manager's life: it begins with no session and no query. -/
def reservations : System Manager Action where
  init m := m = .new
  step m a m' := m.perform a = some m'

def Manager.run (m : Manager) : List Action → Option Manager
  | [] => some m
  | a :: rest => (m.perform a).bind fun m' => m'.run rest

theorem Manager.run_leads {m m' : Manager} {trail : List Action} (h : m.run trail = some m') :
    reservations.Leads m m' := by
  induction trail generalizing m with
  | nil =>
    obtain rfl : m = m' := Option.some.inj h
    exact System.Leads.refl m
  | cons a rest ih =>
    obtain ⟨n, hn, hrest⟩ := Option.bind_eq_some_iff.mp h
    exact System.Leads.cons (S := reservations) hn (ih hrest)

end MadoPilot.Watch
