import Mathlib.Data.PNat.Basic
import Mathlib.Data.Rat.Defs
import MadoPilot.Core.Operation

/-!
# Targets, coordinate spaces and input capabilities
-/

namespace MadoPilot.Core

/-- An opaque handle to one capture or input target. -/
structure TargetId where
  engine : ℕ+
  provider : String
  ordinal : ℕ+
  deriving DecidableEq

inductive CoordinateSpace where
  | capturePixels | frameNormalized | targetNormalized | targetLogical | desktopLogical
  deriving DecidableEq, Repr

structure Point where
  space : CoordinateSpace
  x : ℚ
  y : ℚ
  deriving DecidableEq

/-- Whether a provider can attempt one operation on one target. -/
inductive CapabilitySupport where
  | supported | unsupported | unknown
  deriving DecidableEq, Repr

def CapabilitySupport.mayAttempt : CapabilitySupport → Bool
  | supported | unknown => true
  | unsupported => false

inductive InputOperationKind where
  | pointer | keyboard | text
  deriving DecidableEq, Repr

def InputOperationKind.all : List InputOperationKind := [pointer, keyboard, text]

inductive InputAddressScope where
  | focusedSystem | exactWindow | owningProcess
  deriving DecidableEq, Repr

inductive InputDelivery where
  | system | windowMessage | processDirected
  deriving DecidableEq, Repr

def InputDelivery.addressScope : InputDelivery → InputAddressScope
  | system => .focusedSystem
  | windowMessage => .exactWindow
  | processDirected => .owningProcess

/-- The strongest evidence a route's submission threshold gives. -/
inductive SubmissionEvidence where
  | invocationOnly | systemInputAdmission | targetQueueAdmission | targetProtocolAcknowledgement
  deriving DecidableEq, Repr

structure InputRouteCapability where
  support : CapabilitySupport
  focusRequired : Bool
  acceptsPointerSpace : CoordinateSpace → Bool
  evidence : Option SubmissionEvidence

/-- What a target accepts, for every pair of operation and route. -/
structure InputCapability where
  pair : InputOperationKind → InputDelivery → InputRouteCapability

namespace InputCapability

/-- A target that accepts nothing. -/
def none : InputCapability := ⟨fun _ _ => ⟨.unsupported, false, fun _ => false, Option.none⟩⟩

def withPair (c : InputCapability) (operation : InputOperationKind) (route : InputDelivery)
    (support : CapabilitySupport) (evidence : SubmissionEvidence) : InputCapability :=
  ⟨fun o r => if o = operation ∧ r = route then
    { c.pair o r with support := support, evidence := some evidence } else c.pair o r⟩

end InputCapability

end MadoPilot.Core
