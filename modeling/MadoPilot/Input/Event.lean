import MadoPilot.Core.Capability
import MadoPilot.Input.Fault

/-!
# Input events and their bounds
-/

namespace MadoPilot.Input

open MadoPilot.Core

inductive PointerButton where
  | primary | secondary | middle
  deriving DecidableEq, Repr

inductive Modifier where
  | shift | control | alt | metaKey
  deriving DecidableEq, Repr

inductive Key where
  | character (c : Char)
  | function (number : UInt8)
  | modifier (m : Modifier)
  | enter | tab | backspace | delete | escape | space | arrowUp | arrowDown | arrowLeft | arrowRight
  | home | endKey | pageUp | pageDown
  deriving DecidableEq

/-- `char::is_control`: the general category `Cc`. -/
def isControl (c : Char) : Bool := c.toNat ≤ 0x1f || (0x7f ≤ c.toNat && c.toNat ≤ 0x9f)

namespace Key

def maxFunction : UInt8 := 24

def check : Key → Except InputFault Unit
  | function number =>
    if number = 0 ∨ maxFunction < number then .error .sequenceOutOfBounds else .ok ()
  | character c => if isControl c then .error .sequenceOutOfBounds else .ok ()
  | _ => .ok ()

end Key

inductive PressedState where
  | button (b : PointerButton)
  | key (k : Key)
  deriving DecidableEq

/-- One event a controller delivers, or one wait between two of them. -/
inductive InputEvent where
  | pointerMove (position : Point)
  | pointerPress (b : PointerButton)
  | pointerRelease (b : PointerButton)
  | pointerScroll (horizontal vertical : Int16)
  | keyPress (k : Key)
  | keyRelease (k : Key)
  | text (t : String)
  | delay (duration : ℕ)
  deriving DecidableEq

namespace InputEvent

/-- Five seconds. -/
def maxDelay : ℕ := 5 * 10 ^ 9

def maxTextChars : ℕ := 4096

def maxScrollNotches : ℕ := 120

def operationKind : InputEvent → Option InputOperationKind
  | pointerMove _ | pointerPress _ | pointerRelease _ | pointerScroll .. => some .pointer
  | keyPress _ | keyRelease _ => some .keyboard
  | text _ => some .text
  | delay _ => none

/-- A wait, which no native route is asked to perform. -/
def isDelay : InputEvent → Bool
  | delay _ => true
  | _ => false

def presses : InputEvent → Option PressedState
  | pointerPress b => some (.button b)
  | keyPress k => some (.key k)
  | _ => none

def releases : InputEvent → Option PressedState
  | pointerRelease b => some (.button b)
  | keyRelease k => some (.key k)
  | _ => none

def check : InputEvent → Except InputFault Unit
  | delay duration => if maxDelay < duration then .error .sequenceOutOfBounds else .ok ()
  | text t =>
    if t.length = 0 ∨ maxTextChars < t.length then .error .sequenceOutOfBounds else .ok ()
  | pointerScroll horizontal vertical =>
    if (horizontal = 0 ∧ vertical = 0) ∨ maxScrollNotches < horizontal.toInt.natAbs ∨
      maxScrollNotches < vertical.toInt.natAbs then .error .sequenceOutOfBounds else .ok ()
  | keyPress k | keyRelease k => k.check
  | _ => .ok ()

end InputEvent

end MadoPilot.Input
