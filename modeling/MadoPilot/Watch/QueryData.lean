import Mathlib.Data.List.Perm.Basic
import MadoPilot.Core.Capability
import MadoPilot.Core.Identity
import MadoPilot.Core.Operation

/-!
# The data of one template query

The work counters, the slots that hold a publication while the query has it, the outcomes a query
ends in and the data its mutex protects.  A frame is known here by its stamp, a mapping by a number,
and what a match found is the parameter `R`.
-/

namespace MadoPilot.Watch

open MadoPilot.Core MadoPilot.Lib

/-! ### Work counters -/

inductive TemplateWorkDisposition where
  | admitted | skippedChange | deferredRate | coalesced | superseded | rejected | queueExpired
  | completed | failed
  deriving DecidableEq, Repr

def TemplateWorkDisposition.settles : TemplateWorkDisposition → Bool
  | skippedChange | superseded | queueExpired | completed | failed => true
  | admitted | deferredRate | coalesced | rejected => false

structure TemplateWorkCounts where
  get : TemplateWorkDisposition → ℕ
  get_le : ∀ d, get d ≤ u64Max

namespace TemplateWorkCounts

/-- All zero. -/
def new : TemplateWorkCounts := ⟨fun _ => 0, fun _ => Nat.zero_le _⟩

variable (w : TemplateWorkCounts) (d d' : TemplateWorkDisposition)

def increment : TemplateWorkCounts where
  get := Function.update w.get d (saturatingAdd u64Max (w.get d) 1)
  get_le d' := by
    by_cases h : d' = d
    · subst h
      rw [Function.update_self]
      exact Nat.min_le_left _ _
    · rw [Function.update_of_ne h]
      exact w.get_le d'

/-- The source's `for _ in 0..count { increment }`. -/
def incrementTimes : ℕ → TemplateWorkCounts
  | 0 => w
  | count + 1 => (incrementTimes count).increment d

/-- The sum of the counters that say what became of a publication. -/
def settled : ℕ :=
  w.get .skippedChange + w.get .superseded + w.get .completed + w.get .failed + w.get .queueExpired

variable {w d d'}

theorem increment_get : (w.increment d).get d' =
    if d' = d then min u64Max (w.get d' + 1) else w.get d' := by
  unfold increment saturatingAdd
  by_cases h : d' = d
  · subst h
    simp
  · simp [h]

end TemplateWorkCounts

/-! ### Outcomes -/

/-- A finite scheduler condition that made a query unsatisfiable. -/
inductive TemplateOverload where
  | queueExpired
  deriving DecidableEq, Repr

structure TemplateWatchResult (R : Type) where
  template : String
  target : TargetId
  frame : FrameStamp
  result : R
  confirmedObservations : ℕ
  confirmedDuration : ℕ
  deriving DecidableEq

inductive TemplateTerminalOutcome (R : Type) where
  | matched (result : TemplateWatchResult R)
  | cancelled | deadlineExceeded | sessionClosed | schedulerClosed | targetLost
  | overloaded (overload : TemplateOverload)
  | failed (error : Error)
  deriving DecidableEq

def interruptionOutcome {R : Type} : Interruption → TemplateTerminalOutcome R
  | .cancelled => .cancelled
  | .deadlineExceeded => .deadlineExceeded

/-! ### Slots -/

/-- The in-flight analyses: `MAX_IN_FLIGHT_ANALYSES` is two. -/
structure InFlight where
  first : Option (ℕ × FrameStamp)
  second : Option (ℕ × FrameStamp)
  deriving DecidableEq

namespace InFlight

def empty : InFlight := ⟨none, none⟩

variable (f : InFlight) (x : ℕ × FrameStamp)

/-- The analyses in slot order. -/
def toList : List (ℕ × FrameStamp) := f.first.toList ++ f.second.toList

def stamps : List FrameStamp := f.toList.map Prod.snd

/-- `in_flight_count`. -/
def count : ℕ := f.toList.length

/-- `state.in_flight[position of x] = None`, unless there is no such slot. -/
def remove : Option InFlight :=
  if f.first = some x then some { f with first := none }
  else if f.second = some x then some { f with second := none }
  else none

/-- The first free slot gets `x`, unless there is none. -/
def insert : Option InFlight :=
  if f.first = none then some { f with first := some x }
  else if f.second = none then some { f with second := some x }
  else none

/-- The frame of the latest generation: `max_by_key` keeps the last of equals. -/
def latest : Option FrameStamp :=
  match f.first, f.second with
  | some a, some b => if a.1 ≤ b.1 then some b.2 else some a.2
  | some a, none => some a.2
  | none, b => b.map Prod.snd

variable {f x} {f' : InFlight}

@[simp] theorem empty_toList : empty.toList = [] := rfl

@[simp] theorem empty_stamps : empty.stamps = [] := rfl

theorem eq_empty_of_count (h : f.count = 0) : f = empty := by
  obtain ⟨first, second⟩ := f
  cases first <;> cases second <;> simp_all [count, toList, empty]

theorem length_stamps : f.stamps.length = f.count := List.length_map _

theorem remove_perm (h : f.remove x = some f') : f.toList.Perm (x :: f'.toList) := by
  unfold remove at h
  split_ifs at h with h₁ h₂
  · cases h
    simp [toList, h₁]
  · cases h
    simp only [toList, h₂, Option.toList_some, Option.toList_none, List.append_nil]
    exact List.perm_append_singleton _ _

theorem insert_perm (h : f.insert x = some f') : f'.toList.Perm (x :: f.toList) := by
  unfold insert at h
  split_ifs at h with h₁ h₂
  · cases h
    simp [toList, h₁]
  · cases h
    simp only [toList, h₂, Option.toList_some, Option.toList_none, List.append_nil]
    exact List.perm_append_singleton _ _

theorem insert_empty : empty.insert x = some ⟨some x, none⟩ := rfl

end InFlight

/-- A publication that waits for its analysis. -/
structure PendingFrame where
  stamp : FrameStamp
  eligibleSince : ℕ
  deriving DecidableEq

structure StabilityState where
  observations : ℕ
  started : Option ℕ
  duration : ℕ
  deriving DecidableEq

/-- `StabilityState::default()`. -/
def StabilityState.none : StabilityState := ⟨0, .none, 0⟩

/-- The rectangle of a frame that was searched. -/
structure PixelRect where
  left : Int32
  top : Int32
  right : Int32
  bottom : Int32
  deriving DecidableEq

structure QueryData (R : Type) where
  terminal : Option (TemplateTerminalOutcome R)
  needsCurrent : Bool
  pending : Option PendingFrame
  processing : Option FrameStamp
  inFlight : InFlight
  sourceFrame : Option FrameStamp
  lastFrame : Option FrameStamp
  terminalFrame : Option FrameStamp
  effectiveRegion : Option PixelRect
  previousMapping : Option ℕ
  generation : ℕ
  lastAdmitted : Option ℕ
  rateEligibleAt : Option ℕ
  barrierDeferred : Bool
  stability : StabilityState
  work : TemplateWorkCounts

namespace QueryData

variable {R : Type}

def new : QueryData R where
  terminal := none
  needsCurrent := true
  pending := none
  processing := none
  inFlight := .empty
  sourceFrame := none
  lastFrame := none
  terminalFrame := none
  effectiveRegion := none
  previousMapping := none
  generation := 0
  lastAdmitted := none
  rateEligibleAt := none
  barrierDeferred := false
  stability := .none
  work := .new

variable (d : QueryData R)

def pendingStamp : Option FrameStamp := d.pending.map PendingFrame.stamp

/-- The publications the query has: the pending one and those under analysis. -/
def outstanding : List FrameStamp := d.pendingStamp.toList ++ d.inFlight.stamps

end QueryData

/-! ### The query's own settings -/

inductive TemplateStability where
  | immediate
  | consecutive (observations : ℕ)
  | duration (duration : ℕ)
  deriving DecidableEq, Repr

/-- The part of a query that no mutex protects: its template and target, its session's stream, its
analysis rate and its stability requirement. -/
structure QueryShared where
  template : String
  target : TargetId
  stream : StreamId
  minimumInterval : ℕ
  stability : TemplateStability
  deriving DecidableEq

end MadoPilot.Watch
