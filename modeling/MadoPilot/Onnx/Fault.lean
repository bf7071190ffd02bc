import MadoPilot.Core.Operation

/-!
# Faults of the ONNX backend
-/

namespace MadoPilot.Onnx

open MadoPilot.Core

/-- Why the backend refuses a request or gives it up: the faults that its session slot, its plans, its
vocabulary and its decoding report. -/
inductive OnnxBackendFault where
  | vocabularyMismatch | profileMismatch | graphMismatch | resourceLimit | busy | closed
  | invalidPixels | nativeFailure | malformedOutput | cancelled | deadlineExceeded
  deriving DecidableEq

namespace OnnxBackendFault

/-- The fault that an interruption of the caller is reported by. -/
def ofInterruption : Interruption → OnnxBackendFault
  | .cancelled => cancelled
  | .deadlineExceeded => deadlineExceeded

end OnnxBackendFault

/-- How the code ends without a result: with a fault, or in a panic, as where an index is out of
bounds. -/
inductive Stop where
  | fault (fault : OnnxBackendFault)
  | panicked
  deriving DecidableEq

def okOr {α : Type} (x : Option α) (fault : OnnxBackendFault) : Except Stop α :=
  match x with
  | some a => .ok a
  | none => .error (.fault fault)

theorem okOr_eq_ok {α : Type} {x : Option α} {fault : OnnxBackendFault} {a : α} :
    okOr x fault = .ok a ↔ x = some a := by
  cases x with
  | none => exact iff_of_false nofun nofun
  | some b => exact ⟨fun h => congrArg some (Except.ok.inj h), fun h => congrArg _ (Option.some.inj h)⟩

/-- An index or a range that the code does not check. -/
def orPanic {α : Type} (x : Option α) : Except Stop α :=
  match x with
  | some a => .ok a
  | none => .error .panicked

end MadoPilot.Onnx
