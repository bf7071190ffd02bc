import MadoPilot.Input.Held
import MadoPilot.Lib.Utf16
import MadoPilot.Platform.Windows

/-!
# The window-message driver

One logical event becomes some message units, each of which the target's queue may refuse.  The
driver keeps its own record of the keys and buttons that are down, which the mouse state of a
message and the releases of cleanup are read from.  The window, its thread and the operating system
are parameters: each call of them takes the environment and returns its answer with the environment
it leaves.
-/

namespace MadoPilot.Platform

open MadoPilot.Core MadoPilot.Input

namespace Windows.SubmissionFailure

def duringEvent (fault : InputFault) : SubmissionFailure := ⟨fault, true, true⟩

def withoutPressedState (f : SubmissionFailure) : SubmissionFailure :=
  { f with currentEventMayLeavePressedState := false }

end Windows.SubmissionFailure

namespace WindowMessage

open MadoPilot.Platform.Windows (SubmissionFailure)

/-! ### The driver's state -/

/-- The pointer's position, and the geometry `G` that it was read under. -/
structure PointerState (G : Type*) where
  screen : Int32 × Int32
  geometry : G
  expectedGeometry : Option G

structure SystemKeyState where
  logical : Key
  virtualKey : UInt16
  scanCode : UInt8
  extended : Bool

structure SystemButtonState where
  logical : PointerButton
  physical : UInt8

structure DriverState (G : Type*) where
  pointer : Option (PointerState G)
  keys : List SystemKeyState
  buttons : List SystemButtonState
  pendingUnicode : Option UInt16

/-- `DriverState::default`. -/
def DriverState.initial {G : Type*} : DriverState G := ⟨none, [], [], none⟩

section Entries

variable {α : Type*}

/-- The last entry that satisfies `p`. -/
def findLast (p : α → Bool) (entries : List α) : Option α := entries.reverse.find? p

/-- `remove` of the position that `rposition` finds. -/
def removeLastWhere (p : α → Bool) (entries : List α) : List α := (entries.reverse.eraseP p).reverse

end Entries

namespace DriverState

variable {G : Type*} (s : DriverState G)

def pushKey (entry : SystemKeyState) : DriverState G := { s with keys := s.keys ++ [entry] }

def pushButton (entry : SystemButtonState) : DriverState G :=
  { s with buttons := s.buttons ++ [entry] }

def removeKey (key : Key) : DriverState G :=
  { s with keys := removeLastWhere (·.logical = key) s.keys }

def removeButton (button : PointerButton) : DriverState G :=
  { s with buttons := removeLastWhere (·.logical = button) s.buttons }

end DriverState

/-! ### Message units -/

structure MessageUnit where
  message : UInt32
  wparam : UInt64
  lparam : Int64
  deriving DecidableEq

structure ResolvedWindowKey where
  virtualKey : UInt16
  scanCode : UInt8
  extended : Bool

def wmMouseMove : UInt32 := 0x0200
def wmLButtonDown : UInt32 := 0x0201
def wmLButtonUp : UInt32 := 0x0202
def wmRButtonDown : UInt32 := 0x0204
def wmRButtonUp : UInt32 := 0x0205
def wmMButtonDown : UInt32 := 0x0207
def wmMButtonUp : UInt32 := 0x0208
def wmMouseWheel : UInt32 := 0x020a
def wmMouseHWheel : UInt32 := 0x020e
def wmKeyDown : UInt32 := 0x0100
def wmKeyUp : UInt32 := 0x0101
def wmChar : UInt32 := 0x0102

def wheelDelta : ℤ := 120

def physicalLeft : UInt8 := 1
def physicalRight : UInt8 := 2
def physicalMiddle : UInt8 := 3

def mkLButton : UInt16 := 0x0001
def mkRButton : UInt16 := 0x0002
def mkShift : UInt16 := 0x0004
def mkControl : UInt16 := 0x0008
def mkMButton : UInt16 := 0x0010

def signedLParam (bits : UInt32) : Int64 := bits.toInt32.toInt64

def packedLParam (low high : Int16) : Int64 :=
  signedLParam (low.toUInt16.toUInt32 ||| (high.toUInt16.toUInt32 <<< 16))

def packedWParam (low : UInt16) (high : Int16) : UInt64 :=
  (low.toUInt32 ||| (high.toUInt16.toUInt32 <<< 16)).toUInt64

def mouseMove (point : Int16 × Int16) (state : UInt16) : MessageUnit :=
  ⟨wmMouseMove, state.toUInt64, packedLParam point.1 point.2⟩

def buttonMessage (physical : UInt8) (pressed : Bool) : Except InputFault UInt32 :=
  if physical = physicalLeft then .ok (if pressed then wmLButtonDown else wmLButtonUp)
  else if physical = physicalRight then .ok (if pressed then wmRButtonDown else wmRButtonUp)
  else if physical = physicalMiddle then .ok (if pressed then wmMButtonDown else wmMButtonUp)
  else .error .unsupportedCombination

def buttonUnit (physical : UInt8) (pressed : Bool) (state : UInt16) (point : Int16 × Int16) :
    Except InputFault MessageUnit :=
  (buttonMessage physical pressed).map fun message =>
    ⟨message, state.toUInt64, packedLParam point.1 point.2⟩

def wheelUnit (message : UInt32) (state : UInt16) (delta : Int16) (point : Int16 × Int16) :
    MessageUnit :=
  ⟨message, packedWParam state delta, packedLParam point.1 point.2⟩

def keyLParam (scanCode : UInt8) (extended previous transition : Bool) : Int64 :=
  let bits := (1 : UInt32) ||| (scanCode.toUInt32 <<< 16)
  let bits := if extended then bits ||| ((1 : UInt32) <<< 24) else bits
  let bits := if previous then bits ||| ((1 : UInt32) <<< 30) else bits
  let bits := if transition then bits ||| ((1 : UInt32) <<< 31) else bits
  signedLParam bits

def keyUnit (resolved : ResolvedWindowKey) (pressed previous : Bool) : MessageUnit :=
  ⟨if pressed then wmKeyDown else wmKeyUp, resolved.virtualKey.toUInt64,
    keyLParam resolved.scanCode resolved.extended (previous || !pressed) (!pressed)⟩

def charUnit (unit : UInt16) : MessageUnit :=
  ⟨wmChar, unit.toUInt64, keyLParam 0 false false false⟩

def buttonState (physical : UInt8) : UInt16 :=
  if physical = physicalLeft then mkLButton
  else if physical = physicalRight then mkRButton
  else if physical = physicalMiddle then mkMButton
  else 0

def keyState : Key → UInt16
  | .modifier .shift => mkShift
  | .modifier .control => mkControl
  | _ => 0

section State

variable {G : Type*} (s : DriverState G)

def mouseState : UInt16 :=
  s.keys.foldl (fun bits key => bits ||| keyState key.logical)
    (s.buttons.foldl (fun bits button => bits ||| buttonState button.physical) 0)

def mouseStateAfterButton (physical : UInt8) (pressed : Bool) : UInt16 :=
  if pressed then mouseState s ||| buttonState physical
  else if (s.buttons.filter (·.physical = physical)).length ≤ 1 then
    mouseState s &&& ~~~(buttonState physical)
  else mouseState s

end State

/-- The wheel units of some notches; the product of an `i16` and the notch fits an `i32`. -/
def wheelDeltaOf (notches : Int16) (vertical : Bool) : Except InputFault Int16 :=
  let delta := (if vertical then -notches.toInt else notches.toInt) * wheelDelta
  if -32768 ≤ delta ∧ delta ≤ 32767 then .ok (Int16.ofInt delta)
  else .error .unsupportedCombination

def scrollUnits (horizontal vertical : Int16) (state : UInt16) (screen : Int16 × Int16) :
    Except InputFault (List MessageUnit) :=
  let first : Except InputFault (List MessageUnit) :=
    if vertical ≠ 0 then
      (wheelDeltaOf vertical true).map fun delta => [wheelUnit wmMouseWheel state delta screen]
    else .ok []
  match first with
  | .error fault => .error fault
  | .ok units =>
    if horizontal ≠ 0 then
      (wheelDeltaOf horizontal false).map fun delta =>
        units ++ [wheelUnit wmMouseHWheel state delta screen]
    else .ok units

/-! ### Submission -/

/-- The native operations behind the driver. -/
structure WindowMessageSource (G E : Type*) where
  clientPoint : Int32 × Int32 → E → Except InputFault (Int16 × Int16) × E
  screenPoint : Int32 × Int32 → E → Except InputFault (Int16 × Int16) × E
  resolveButton : PointerButton → E → Except InputFault UInt8 × E
  resolveKey : Key → E → Except InputFault ResolvedWindowKey × E
  post : MessageUnit → Option G → E → Except SubmissionFailure Unit × E

section Submit

variable {G E : Type*} (source : WindowMessageSource G E)

/-- `post_one` for each unit; once a unit was accepted, a failure is during the event. -/
def postUnits (expected : Option G) : List MessageUnit → Bool → E → Except SubmissionFailure Unit × E
  | [], _, e => (.ok (), e)
  | unit :: units, accepted, e =>
    match source.post unit expected e with
    | (.ok (), e) => postUnits expected units true e
    | (.error failure, e) =>
      if accepted ∨ failure.currentEventMayHaveEffect = true then
        (.error (.duringEvent failure.fault), e)
      else (.error failure, e)

/-- The physical button: the recorded one of a button that is down. -/
def physicalButton (button : PointerButton) (s : DriverState G) (e : E) :
    Except InputFault UInt8 × E :=
  match findLast (·.logical = button) s.buttons with
  | some current => (.ok current.physical, e)
  | none => source.resolveButton button e

def resolvedKey (key : Key) (s : DriverState G) (e : E) : Except InputFault ResolvedWindowKey × E :=
  match findLast (·.logical = key) s.keys with
  | some current => (.ok ⟨current.virtualKey, current.scanCode, current.extended⟩, e)
  | none => source.resolveKey key e

def submitMove (pointer : Option (PointerState G)) (s : DriverState G) (e : E) :
    Except SubmissionFailure Unit × DriverState G × E :=
  match pointer with
  | none => (.error (.beforeEvent .unsupportedCoordinate), s, e)
  | some pointer =>
    match source.clientPoint pointer.screen e with
    | (.error fault, e) => (.error (.beforeEvent fault), s, e)
    | (.ok point, e) =>
      match postUnits source pointer.expectedGeometry [mouseMove point (mouseState s)] false e with
      | (.error failure, e) => (.error failure, s, e)
      | (.ok (), e) => (.ok (), { s with pointer := some pointer }, e)

/-- A button: the pointer is moved first, and then the button changes. -/
def submitButton (button : PointerButton) (pressed : Bool) (pointer : Option (PointerState G))
    (s : DriverState G) (e : E) : Except SubmissionFailure Unit × DriverState G × E :=
  match pointer with
  | none => (.error (.beforeEvent .unsupportedCoordinate), s, e)
  | some pointer =>
    match source.clientPoint pointer.screen e with
    | (.error fault, e) => (.error (.beforeEvent fault), s, e)
    | (.ok point, e) =>
      match physicalButton source button s e with
      | (.error fault, e) => (.error (.beforeEvent fault), s, e)
      | (.ok physical, e) =>
        match source.post (mouseMove point (mouseState s)) pointer.expectedGeometry e with
        | (.error failure, e) => (.error failure.withoutPressedState, s, e)
        | (.ok (), e) =>
          match buttonUnit physical pressed (mouseStateAfterButton s physical pressed) point with
          | .error fault => (.error (.beforeEvent fault), s, e)
          | .ok transition =>
            match source.post transition pointer.expectedGeometry e with
            | (.error failure, e) =>
              if failure.currentEventMayHaveEffect then
                if pressed then (.error failure, s.pushButton ⟨button, physical⟩, e)
                else (.error failure.withoutPressedState, s, e)
              -- the move was accepted, so the event may have had effect
              else (.error (SubmissionFailure.duringEvent failure.fault).withoutPressedState, s, e)
            | (.ok (), e) =>
              (.ok (), if pressed then s.pushButton ⟨button, physical⟩ else s.removeButton button, e)

def submitScroll (horizontal vertical : Int16) (pointer : Option (PointerState G))
    (s : DriverState G) (e : E) : Except SubmissionFailure Unit × E :=
  match pointer with
  | none => (.error (.beforeEvent .unsupportedCoordinate), e)
  | some pointer =>
    match source.screenPoint pointer.screen e with
    | (.error fault, e) => (.error (.beforeEvent fault), e)
    | (.ok screen, e) =>
      match scrollUnits horizontal vertical (mouseState s) screen with
      | .error fault => (.error (.beforeEvent fault), e)
      | .ok units => postUnits source pointer.expectedGeometry units false e

def submitKey (key : Key) (pressed : Bool) (s : DriverState G) (e : E) :
    Except SubmissionFailure Unit × DriverState G × E :=
  let previous := (findLast (·.logical = key) s.keys).isSome
  match resolvedKey source key s e with
  | (.error fault, e) => (.error (.beforeEvent fault), s, e)
  | (.ok resolved, e) =>
    let entry : SystemKeyState :=
      ⟨key, resolved.virtualKey, resolved.scanCode, resolved.extended⟩
    match postUnits source none [keyUnit resolved pressed previous] false e with
    | (.error failure, e) =>
      if pressed then
        (.error failure, if failure.currentEventMayHaveEffect then s.pushKey entry else s, e)
      else (.error failure.withoutPressedState, s, e)
    | (.ok (), e) => (.ok (), if pressed then s.pushKey entry else s.removeKey key, e)

def submitText (text : String) (e : E) : Except SubmissionFailure Unit × E :=
  postUnits source none ((Lib.Utf16.encode text.toList).map charUnit) false e

/-- `submit`: one logical event. -/
def submit (event : InputEvent) (pointer : Option (PointerState G)) (s : DriverState G) (e : E) :
    Except SubmissionFailure Unit × DriverState G × E :=
  match event with
  | .pointerMove _ => submitMove source pointer s e
  | .pointerPress button => submitButton source button true pointer s e
  | .pointerRelease button => submitButton source button false pointer s e
  | .pointerScroll horizontal vertical =>
    match submitScroll source horizontal vertical pointer s e with
    | (r, e) => (r, s, e)
  | .keyPress key => submitKey source key true s e
  | .keyRelease key => submitKey source key false s e
  | .text text =>
    match submitText source text e with
    | (r, e) => (r, s, e)
  | .delay _ => (.error (.beforeEvent .unsupportedCombination), s, e)

def releaseButton (button : PointerButton) (s : DriverState G) (e : E) :
    Except InputFault Unit × DriverState G × E :=
  match s.pointer with
  | none => (.error .unsupportedCoordinate, s, e)
  | some pointer =>
    match physicalButton source button s e with
    | (.error fault, e) => (.error fault, s, e)
    | (.ok physical, e) =>
      match source.clientPoint pointer.screen e with
      | (.error fault, e) => (.error fault, s, e)
      | (.ok point, e) =>
        match source.post (mouseMove point (mouseState s)) none e with
        | (.error failure, e) => (.error failure.fault, s, e)
        | (.ok (), e) =>
          match buttonUnit physical false (mouseStateAfterButton s physical false) point with
          | .error fault => (.error fault, s, e)
          | .ok unit =>
            match source.post unit none e with
            | (.error failure, e) => (.error failure.fault, s, e)
            | (.ok (), e) => (.ok (), s.removeButton button, e)

def releaseKey (key : Key) (s : DriverState G) (e : E) :
    Except InputFault Unit × DriverState G × E :=
  let previous := (findLast (·.logical = key) s.keys).isSome
  match resolvedKey source key s e with
  | (.error fault, e) => (.error fault, s, e)
  | (.ok resolved, e) =>
    match source.post (keyUnit resolved false previous) none e with
    | (.error failure, e) => (.error failure.fault, s, e)
    | (.ok (), e) => (.ok (), s.removeKey key, e)

/-- `release`: cleanup of one held state. -/
def release (pressed : PressedState) (s : DriverState G) (e : E) :
    Except InputFault Unit × DriverState G × E :=
  match pressed with
  | .button button => releaseButton source button s e
  | .key key => releaseKey source key s e

def submitAll : List (InputEvent × Option (PointerState G)) → DriverState G → E →
    Except SubmissionFailure Unit × DriverState G × E
  | [], s, e => (.ok (), s, e)
  | (event, pointer) :: events, s, e =>
    match submit source event pointer s e with
    | (.error failure, s, e) => (.error failure, s, e)
    | (.ok (), s, e) => submitAll events s e

end Submit

/-! ### The native source -/

structure NativeWindow (G E : Type*) where
  messagePoint : Int32 × Int32 → Bool → E → Except InputFault (Int16 × Int16) × E
  /-- the system metric that tells swapped mouse buttons -/
  swapButton : E → Bool × E
  resolveVirtualKey : Key → E → Except InputFault ResolvedWindowKey × E
  revalidate : FocusPolicy → Option G → E → Except InputFault Unit × E
  postMessage : MessageUnit → E → Except InputFault Unit × E

/-- The physical button of a logical one, where the primary and the secondary may be swapped. -/
def buttonNumber : PointerButton → Bool → UInt8
  | .primary, false | .secondary, true => 1
  | .primary, true | .secondary, false => 2
  | .middle, _ => 3

section Native

variable {G E : Type*} (w : NativeWindow G E) (c : Context E)

def operationFault (e : E) : Except InputFault Unit × E :=
  match c.interruption e with
  | (some i, e) => (.error (.ofInterruption i), e)
  | (none, e) => (.ok (), e)

def physicalButtonNumber (button : PointerButton) (e : E) : Except InputFault UInt8 × E :=
  match w.swapButton e with
  | (swapped, e) => (.ok (buttonNumber button swapped), e)

def commitWindowMessage (focus : FocusPolicy) (unit : MessageUnit) (expected : Option G) (e : E) :
    Except SubmissionFailure Unit × E :=
  match operationFault c e with
  | (.error fault, e) => (.error (.beforeEvent fault), e)
  | (.ok (), e) =>
    match w.revalidate focus expected e with
    | (.error fault, e) => (.error (.beforeEvent fault), e)
    | (.ok (), e) =>
      match operationFault c e with
      | (.error fault, e) => (.error (.beforeEvent fault), e)
      | (.ok (), e) =>
        match w.postMessage unit e with
        | (.ok (), e) =>
          match w.revalidate focus expected e with
          | (.error fault, e) => (.error (.duringEvent fault), e)
          | (.ok (), e) =>
            match operationFault c e with
            | (.error fault, e) => (.error (.duringEvent fault), e)
            | (.ok (), e) => (.ok (), e)
        | (.error fault, e) =>
          match w.revalidate focus expected e with
          | (.error lost, e) => (.error (.beforeEvent lost), e)
          | (.ok (), e) => (.error (.beforeEvent fault), e)

def nativeSource (focus : FocusPolicy) : WindowMessageSource G E where
  clientPoint screen := w.messagePoint screen true
  screenPoint screen := w.messagePoint screen false
  resolveButton := physicalButtonNumber w
  resolveKey := w.resolveVirtualKey
  post := commitWindowMessage w c focus

end Native

end WindowMessage

end MadoPilot.Platform
