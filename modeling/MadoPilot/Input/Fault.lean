import MadoPilot.Core.Operation

/-!
# Input faults
-/

namespace MadoPilot.Input

open MadoPilot.Core

inductive InputFault where
  | foreignTarget | unknownTarget | targetLost | providerMismatch | unsupportedCombination
  | invalidRoutePlan | routeUnavailable | sequenceOutOfBounds | unsupportedCoordinate
  | missingCoordinateSource | geometryChanged | focusRequired | focusRefused | notAuthorized
  | policyRefused | controllerClosed | cancelled | deadlineExceeded | submissionFailed
  deriving DecidableEq, Repr

namespace InputFault

def status : InputFault → Status
  | foreignTarget | unknownTarget | providerMismatch | invalidRoutePlan | sequenceOutOfBounds
  | missingCoordinateSource => .invalidArgument
  | unsupportedCombination | unsupportedCoordinate | routeUnavailable | focusRequired => .unsupported
  | targetLost => .targetLost
  | controllerClosed => .closed
  | cancelled => .cancelled
  | deadlineExceeded => .deadlineExceeded
  | geometryChanged | focusRefused | notAuthorized | policyRefused | submissionFailed => .inputFailed

def detail : InputFault → String
  | foreignTarget => "target identity was not issued by this provider"
  | unknownTarget => "no such target"
  | targetLost => "target no longer exists"
  | providerMismatch => "capture and input providers do not match"
  | unsupportedCombination => "requested operation and route combination is unsupported"
  | invalidRoutePlan => "route plan is empty or repeats a route"
  | routeUnavailable => "no caller-allowed input route was available"
  | sequenceOutOfBounds => "input sequence exceeds its declared bounds"
  | unsupportedCoordinate => "pointer coordinate space is not accepted by this target"
  | missingCoordinateSource => "geometry policy requires the source frame of its coordinates"
  | geometryChanged => "target geometry changed since the source frame"
  | focusRequired => "operation requires focus the focus policy withholds"
  | focusRefused => "the operating system refused to focus the target"
  | notAuthorized => "input control is not authorized"
  | policyRefused => "operating-system policy refused input submission"
  | controllerClosed => "input controller is closed"
  | cancelled => "operation was cancelled"
  | deadlineExceeded => "operation deadline passed"
  | submissionFailed => "native input submission failed"

def toError (f : InputFault) : Error := ⟨f.status, f.detail⟩

def ofInterruption : Interruption → InputFault
  | .cancelled => cancelled
  | .deadlineExceeded => deadlineExceeded

end InputFault

end MadoPilot.Input
