import MadoPilot.Diagnostic.Losses
import MadoPilot.Lib.System

/-!
# The diagnostic stream of an engine

Producers `emit` and `count_loss`, a reader drains and the last producer seals.  Whoever holds the
mutex is known by how far it is, and a producer that found it held by the loss it has yet to count; any
number of threads may be at that point.  The atomic words are reached without the mutex, so the drain
takes them one after the other while producers go on counting.

The book beside the stream records what the reader was given, and for each level the emissions that
were made and those that found the stream sealed.
-/

namespace MadoPilot.Diagnostic

open MadoPilot.Core MadoPilot.Lib

/-- Maximum number of retained diagnostic records per engine. -/
def maxDiagnosticCapacity : ℕ := 65536

structure DiagnosticOptions where
  level : DiagnosticLevel
  capacity : ℕ
  enabled : level ≠ .off
  capacity_pos : 0 < capacity
  capacity_le : capacity ≤ maxDiagnosticCapacity

variable {π : Type}

/-- A record.  What was observed is the timestamp, the operation, its activity and the payload. -/
structure DiagnosticRecord (π : Type) where
  sequence : ℕ
  level : DiagnosticLevel
  observed : π
  deriving DecidableEq

inductive DiagnosticDrain (π : Type) where
  | batch (records : List (DiagnosticRecord π)) (losses : DiagnosticLosses)
  | openEmpty
  | endOfStream
  deriving DecidableEq

namespace DiagnosticDrain

def records : DiagnosticDrain π → List (DiagnosticRecord π)
  | .batch records _ => records
  | .openEmpty | .endOfStream => []

def losses : DiagnosticDrain π → DiagnosticLosses
  | .batch _ losses => losses
  | .openEmpty | .endOfStream => .none

end DiagnosticDrain

/-! ### Behind the mutex -/

/-- What the stream's mutex protects.  The next record is zero once the sequence is exhausted. -/
structure StreamState (π : Type) where
  records : List (DiagnosticRecord π)
  losses : DiagnosticLosses
  nextRecord : ℕ
  sealed : Bool

namespace StreamState

def new : StreamState π := ⟨[], .none, 1, false⟩

variable (s : StreamState π)

/-- A record is removed and counted as lost.  There has to be one. -/
def remove (index : ℕ) : Option (StreamState π) :=
  (s.records[index]?).map fun removed =>
    { s with records := s.records.eraseIdx index, losses := s.losses.increment removed.level }

/-- The end of `emit`: a new record, unless the sequence is exhausted. -/
def append (level : DiagnosticLevel) (observed : π) : StreamState π :=
  if s.nextRecord = 0 then { s with losses := s.losses.increment level }
  else
    { s with
      nextRecord := (checkedAdd u64Max s.nextRecord 1).getD 0
      records := s.records ++ [⟨s.nextRecord, level, observed⟩] }

/-- The part of `emit` behind the mutex of an open stream. -/
def insert (capacity : ℕ) (level : DiagnosticLevel) (observed : π) : Option (StreamState π) :=
  if s.records.length = capacity then
    match level, s.records.findIdx? (·.level == .debug) with
    | .normal, index => (s.remove (index.getD 0)).map (·.append level observed)
    | .debug, some index => (s.remove index).map (·.append level observed)
    | .debug, none => some { s with losses := s.losses.increment .debug }
    | .off, _ => some s
  else some (s.append level observed)

/-- The end of `drain`, with the losses that were taken from the words. -/
def deliver (taken : DiagnosticLosses) : StreamState π × DiagnosticDrain π :=
  let losses := s.losses.saturatingSum taken
  if s.records.isEmpty && losses.isEmpty then (s, if s.sealed then .endOfStream else .openEmpty)
  else ({ s with records := [], losses := .none }, .batch s.records losses)

end StreamState

/-! ### The stream -/

/-- How far the holder of the mutex is. -/
inductive Critical (π : Type) where
  | emitting (level : DiagnosticLevel) (observed : π)
  | draining
  | takenNormal (normal : ℕ)
  | takenBoth (taken : DiagnosticLosses)
  | sealing | fencedNormal | fencedBoth

/-- What the reader was given, and how the emissions of each level ended. -/
structure DiagnosticBook (π : Type) where
  drains : List (DiagnosticDrain π)
  made : DiagnosticLosses
  refused : DiagnosticLosses

structure DiagnosticStream (π : Type) where
  state : StreamState π
  pendingNormal : ℕ
  pendingDebug : ℕ
  critical : Option (Critical π)
  contended : DiagnosticLosses
  book : DiagnosticBook π

inductive StreamEvent (π : Type) where
  | emit (level : DiagnosticLevel) (observed : π) (contended : Bool)
  | insert
  | countLoss (level : DiagnosticLevel)
  | normalLoss
  | lockDrain | takeNormal | takeDebug | deliver
  | lockSeal | fenceNormal | fenceDebug | publishSeal

/-- The step begins an emission of a level, or counts a loss of its own. -/
def StreamEvent.emits (o : DiagnosticOptions) (level : DiagnosticLevel) : StreamEvent π → Bool
  | .emit other _ _ => o.level.admits other && other == level
  | .normalLoss => level == .normal
  | _ => false

namespace DiagnosticStream

def new : DiagnosticStream π := ⟨.new, 0, 0, none, .none, ⟨[], .none, .none⟩⟩

variable (s : DiagnosticStream π)

def pending (level : DiagnosticLevel) : ℕ :=
  (⟨s.pendingNormal, s.pendingDebug⟩ : DiagnosticLosses).get level

def fenced (level : DiagnosticLevel) : Bool := decide (lossAdmissionSealed ≤ s.pending level)

/-- An emission of a level is made, or finds the stream sealed. -/
def note (level : DiagnosticLevel) (refused : Bool) : DiagnosticBook π :=
  if refused then { s.book with refused := s.book.refused.succ level }
  else { s.book with made := s.book.made.succ level }

def countLoss (level : DiagnosticLevel) : DiagnosticStream π :=
  match level with
  | .off => s
  | .normal =>
    { s with
      pendingNormal := LossWord.countLoss s.pendingNormal
      book := s.note .normal (s.fenced .normal) }
  | .debug =>
    { s with
      pendingDebug := LossWord.countLoss s.pendingDebug
      book := s.note .debug (s.fenced .debug) }

/-- One step; `none` where it is not that step's turn. -/
def perform (o : DiagnosticOptions) : StreamEvent π → Option (DiagnosticStream π)
  | .emit level observed contended =>
    if !o.level.admits level then some s
    else if contended then some { s with contended := s.contended.succ level }
    else
      match s.critical with
      | none => some { s with critical := some (.emitting level observed) }
      | some _ => none
  | .insert =>
    match s.critical with
    | some (.emitting level observed) =>
      if s.state.sealed then
        some { s with critical := none, book := s.note level true }
      else
        (s.state.insert o.capacity level observed).map fun state =>
          { s with state := state, critical := none, book := s.note level false }
    | _ => none
  | .countLoss level =>
    match level with
    | .off => none
    | .normal =>
      if 0 < s.contended.normal then
        some { s.countLoss .normal with
          contended := { s.contended with normal := s.contended.normal - 1 } }
      else none
    | .debug =>
      if 0 < s.contended.debug then
        some { s.countLoss .debug with
          contended := { s.contended with debug := s.contended.debug - 1 } }
      else none
  | .normalLoss => some (s.countLoss .normal)
  | .lockDrain =>
    match s.critical with
    | none => some { s with critical := some .draining }
    | some _ => none
  | .takeNormal =>
    match s.critical with
    | some .draining =>
      some { s with
        pendingNormal := s.pendingNormal &&& lossAdmissionSealed
        critical := some (.takenNormal (s.pendingNormal &&& pendingLossMask)) }
    | _ => none
  | .takeDebug =>
    match s.critical with
    | some (.takenNormal normal) =>
      some { s with
        pendingDebug := s.pendingDebug &&& lossAdmissionSealed
        critical := some (.takenBoth ⟨normal, s.pendingDebug &&& pendingLossMask⟩) }
    | _ => none
  | .deliver =>
    match s.critical with
    | some (.takenBoth taken) =>
      let r := s.state.deliver taken
      some { s with
        state := r.1
        critical := none
        book := { s.book with drains := s.book.drains ++ [r.2] } }
    | _ => none
  | .lockSeal =>
    match s.critical with
    | none => some { s with critical := some .sealing }
    | some _ => none
  | .fenceNormal =>
    match s.critical with
    | some .sealing =>
      some { s with
        pendingNormal := s.pendingNormal ||| lossAdmissionSealed
        critical := some .fencedNormal }
    | _ => none
  | .fenceDebug =>
    match s.critical with
    | some .fencedNormal =>
      some { s with
        pendingDebug := s.pendingDebug ||| lossAdmissionSealed
        critical := some .fencedBoth }
    | _ => none
  | .publishSeal =>
    match s.critical with
    | some .fencedBoth =>
      some { s with state := { s.state with sealed := true }, critical := none }
    | _ => none

end DiagnosticStream

/-- The runs of a stream, whatever the order of its steps. -/
def streamSystem (π : Type) (o : DiagnosticOptions) :
    System (DiagnosticStream π) (StreamEvent π) :=
  .computed .new fun s e => s.perform o e

end MadoPilot.Diagnostic
