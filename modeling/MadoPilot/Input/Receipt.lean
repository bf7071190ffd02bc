import MadoPilot.Input.Request

/-!
# Attempts and receipts

The immutable account of one admitted sequence: the routes it visited, how far it got on the last
of them, and what cleanup released.
-/

namespace MadoPilot.Input

open MadoPilot.Core

/-- How far an admitted sequence got; `partialRun` is the source's `Partial`. -/
inductive SequenceOutcome where
  | complete | partialRun | unexecuted
  deriving DecidableEq, Repr

/-- What became of the state a stopped sequence had pressed. -/
inductive CleanupState where
  | notNeeded | complete | incomplete | exhausted
  deriving DecidableEq, Repr

structure InputAttempt where
  route : InputDelivery
  addressScope : InputAddressScope
  outcome : SequenceOutcome
  submitted : ℕ
  lastSubmitted : Option ℕ
  evidence : Option SubmissionEvidence
  partialNativeEffect : Bool
  fault : Option InputFault
  deriving DecidableEq

/-- `usize::checked_sub(1)`. -/
def lastIndex (submitted : ℕ) : Option ℕ := if submitted = 0 then none else some (submitted - 1)

namespace InputAttempt

def refused (route : InputDelivery) (fault : InputFault) : InputAttempt :=
  ⟨route, route.addressScope, .unexecuted, 0, none, none, false, some fault⟩

def complete (route : InputDelivery) (evidence : SubmissionEvidence) (submitted : ℕ) :
    InputAttempt :=
  ⟨route, route.addressScope, .complete, submitted, lastIndex submitted, some evidence, false, none⟩

def partialRun (route : InputDelivery) (evidence : SubmissionEvidence) (submitted : ℕ)
    (partialNativeEffect : Bool) (fault : InputFault) : InputAttempt :=
  ⟨route, route.addressScope, .partialRun, submitted, lastIndex submitted, some evidence,
    partialNativeEffect, some fault⟩

def possibleNativeEffect (a : InputAttempt) : Bool := a.submitted ≠ 0 || a.partialNativeEffect

end InputAttempt

structure InputReceipt where
  target : TargetId
  outcome : SequenceOutcome
  selectedRoute : Option InputDelivery
  addressScope : Option InputAddressScope
  attempts : List InputAttempt
  submitted : ℕ
  lastSubmitted : Option ℕ
  evidence : Option SubmissionEvidence
  partialNativeEffect : Bool
  fault : Option InputFault
  cleanup : CleanupState
  cleanupReleased : ℕ
  cleanupOwed : ℕ
  deriving DecidableEq

namespace InputReceipt

def fromTerminalAttempt (target : TargetId) (attempt : InputAttempt) : InputReceipt where
  target := target
  outcome := attempt.outcome
  selectedRoute := some attempt.route
  addressScope := some attempt.addressScope
  attempts := [attempt]
  submitted := attempt.submitted
  lastSubmitted := attempt.lastSubmitted
  evidence := attempt.evidence
  partialNativeEffect := attempt.partialNativeEffect
  fault := attempt.fault
  cleanup := .notNeeded
  cleanupReleased := 0
  cleanupOwed := 0

/-- Every logical event reached the route's threshold. -/
def complete (target : TargetId) (route : InputDelivery) (evidence : SubmissionEvidence)
    (submitted : ℕ) : InputReceipt :=
  fromTerminalAttempt target (.complete route evidence submitted)

def partialRun (target : TargetId) (route : InputDelivery) (evidence : SubmissionEvidence)
    (submitted : ℕ) (partialNativeEffect : Bool) (fault : InputFault) : InputReceipt :=
  fromTerminalAttempt target (.partialRun route evidence submitted partialNativeEffect fault)

/-- No native effect was possible. -/
def unexecuted (target : TargetId) (fault : InputFault) : InputReceipt where
  target := target
  outcome := .unexecuted
  selectedRoute := none
  addressScope := none
  attempts := []
  submitted := 0
  lastSubmitted := none
  evidence := none
  partialNativeEffect := false
  fault := some fault
  cleanup := .notNeeded
  cleanupReleased := 0
  cleanupOwed := 0

/-- Some complete or partial logical event may have had native effect. -/
def possibleNativeEffect (r : InputReceipt) : Bool := r.submitted ≠ 0 || r.partialNativeEffect

/-- Prepends routes refused before this receipt's terminal attempt. -/
def withPriorAttempts (r : InputReceipt) (attempts : List InputAttempt) : InputReceipt :=
  { r with attempts := attempts ++ r.attempts }

def cleanupState (short : CleanupState) (released owed : ℕ) : CleanupState :=
  if owed = 0 then .notNeeded else if released ≥ owed then .complete else short

def withCleanup (r : InputReceipt) (released owed : ℕ) : InputReceipt :=
  { r with
    cleanupReleased := released
    cleanupOwed := owed
    cleanup := cleanupState .incomplete released owed }

/-- Cleanup stopped by its own event or time bound. -/
def withExhaustedCleanup (r : InputReceipt) (released owed : ℕ) : InputReceipt :=
  { r with
    cleanupReleased := released
    cleanupOwed := owed
    cleanup := cleanupState .exhausted released owed }

end InputReceipt

end MadoPilot.Input
