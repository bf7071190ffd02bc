import MadoPilot.Input.Event
import MadoPilot.Lib.Counter
import MadoPilot.Lib.LittleEndian
import MadoPilot.Lib.Utf16
import MadoPilot.Capture.Frame

/-!
# The packets of the input fixture

`encode_event` writes one logical event as a packet; the fixture's `summarize` accepts or refuses
whatever bytes arrive.  An access out of bounds is a `Panic`.
-/

namespace MadoPilot.Platform

open MadoPilot.Core MadoPilot.Input MadoPilot.Lib

namespace Fixture

def version : UInt32 := 1

def headerBytes : ℕ := 24

def maxPacketBytes : ℕ := headerBytes + InputEvent.maxTextChars * 4

def query : UInt32 := 0
def pointerMove : UInt32 := 1
def pointerPress : UInt32 := 2
def pointerRelease : UInt32 := 3
def pointerScroll : UInt32 := 4
def keyPress : UInt32 := 5
def keyRelease : UInt32 := 6
def text : UInt32 := 7

/-- What the fixture retains about one accepted event. -/
structure EventSummary where
  kind : UInt32
  textUnits : UInt32
  deriving DecidableEq

/-! ### Encoding -/

def encodeHeader (kind : UInt32) (a b : Int32) (data textUnits : UInt32) : List UInt8 :=
  LittleEndian.bytes 4 version.toNat ++ LittleEndian.bytes 4 kind.toNat ++
    LittleEndian.bytes 4 a.toUInt32.toNat ++ LittleEndian.bytes 4 b.toUInt32.toNat ++
    LittleEndian.bytes 4 data.toNat ++ LittleEndian.bytes 4 textUnits.toNat

def queryPacket : List UInt8 := encodeHeader query 0 0 0 0

def pointerButtonCode : PointerButton → Except InputFault UInt32
  | .primary => .ok 1
  | .secondary => .ok 2
  | .middle => .ok 3

def modifierCode : Modifier → UInt32
  | .shift => 1
  | .control => 2
  | .alt => 3
  | .metaKey => 4

def keyCode : Key → Except InputFault UInt32
  | .character c => .ok (0x80000000 ||| c.val)
  | .function number => .ok (0x100 + number.toUInt32)
  | .modifier m => .ok (0x200 + modifierCode m)
  | .enter => .ok 0x301
  | .tab => .ok 0x302
  | .backspace => .ok 0x303
  | .delete => .ok 0x304
  | .escape => .ok 0x305
  | .space => .ok 0x306
  | .arrowUp => .ok 0x307
  | .arrowDown => .ok 0x308
  | .arrowLeft => .ok 0x309
  | .arrowRight => .ok 0x30a
  | .home => .ok 0x30b
  | .endKey => .ok 0x30c
  | .pageUp => .ok 0x30d
  | .pageDown => .ok 0x30e

def packScroll (horizontal vertical : Int16) : UInt32 :=
  horizontal.toUInt16.toUInt32 ||| (vertical.toUInt16.toUInt32 <<< 16)

/-- The packet of a pointer event at the screen point, if there is one. -/
def encodePointer (kind : UInt32) (data : Except InputFault UInt32)
    (screenPoint : Option (Int32 × Int32)) : Except InputFault (List UInt8) :=
  match screenPoint with
  | none => .error .unsupportedCoordinate
  | some (x, y) => data.map fun data => encodeHeader kind x y data 0

def encodeEvent (event : InputEvent) (screenPoint : Option (Int32 × Int32)) :
    Except InputFault (List UInt8) :=
  match event.check with
  | .error fault => .error fault
  | .ok () =>
    match event with
    | .pointerMove _ => encodePointer pointerMove (.ok 0) screenPoint
    | .pointerPress button => encodePointer pointerPress (pointerButtonCode button) screenPoint
    | .pointerRelease button => encodePointer pointerRelease (pointerButtonCode button) screenPoint
    | .pointerScroll horizontal vertical =>
      encodePointer pointerScroll (.ok (packScroll horizontal vertical)) screenPoint
    | .keyPress key => (keyCode key).map fun code => encodeHeader keyPress 0 0 code 0
    | .keyRelease key => (keyCode key).map fun code => encodeHeader keyRelease 0 0 code 0
    | .text t =>
      let units := Utf16.encode t.toList
      if UInt32.size ≤ units.length then .error .sequenceOutOfBounds
      else
        .ok (encodeHeader text 0 0 0 (UInt32.ofNat units.length) ++
          units.flatMap fun unit => LittleEndian.bytes 2 unit.toNat)
    | .delay _ => .error .unsupportedCombination

/-! ### Parsing -/

inductive Panic where
  | outOfBounds
  deriving DecidableEq

def readU32 (packet : List UInt8) (offset : ℕ) : Option UInt32 :=
  (LittleEndian.read 4 packet offset).map UInt32.ofNat

def sliceFrom (packet : List UInt8) (start : ℕ) : Except Panic (List UInt8) :=
  if start ≤ packet.length then .ok (packet.drop start) else .error .outOfBounds

def charFromU32 (code : UInt32) : Option Char :=
  if h : code.isValidChar then some ⟨code, h⟩ else none

def validKeyCode (code : UInt32) : Bool :=
  if code &&& 0x80000000 ≠ 0 then (charFromU32 (code &&& 0x7fffffff)).any (!isControl ·)
  else
    (0x101 ≤ code && code ≤ 0x118) || (0x201 ≤ code && code ≤ 0x204) ||
      (0x301 ≤ code && code ≤ 0x30e)

/-- `u16::try_from`. -/
def toU16 (n : UInt32) : Option UInt16 := if n.toNat < UInt16.size then some n.toUInt16 else none

def validScroll (data : UInt32) : Bool :=
  match toU16 (data &&& 0xffff), toU16 (data >>> 16) with
  | some horizontalBits, some verticalBits =>
    let horizontal := horizontalBits.toInt16
    let vertical := verticalBits.toInt16
    (horizontal ≠ 0 || vertical ≠ 0) && horizontal.toInt.natAbs ≤ InputEvent.maxScrollNotches &&
      vertical.toInt.natAbs ≤ InputEvent.maxScrollNotches
  | _, _ => false

structure Header where
  kind : UInt32
  a : UInt32
  b : UInt32
  data : UInt32
  textUnits : UInt32
  deriving DecidableEq

def readHeader (packet : List UInt8) : Option Header :=
  match readU32 packet 0 with
  | none => none
  | some v =>
    if v ≠ version then none
    else
      match readU32 packet 4, readU32 packet 8, readU32 packet 12, readU32 packet 16,
        readU32 packet 20 with
      | some kind, some a, some b, some data, some textUnits => some ⟨kind, a, b, data, textUnits⟩
      | _, _, _, _, _ => none

namespace Header

variable (h : Header)

def validScalarPayload : Bool :=
  if h.kind = query then h.a = 0 && h.b = 0 && h.data = 0
  else if h.kind = pointerMove then h.data = 0
  else if h.kind = pointerPress ∨ h.kind = pointerRelease then 1 ≤ h.data && h.data ≤ 3
  else if h.kind = pointerScroll then validScroll h.data
  else if h.kind = keyPress ∨ h.kind = keyRelease then
    h.a = 0 && h.b = 0 && validKeyCode h.data
  else if h.kind = text then h.a = 0 && h.b = 0 && h.data = 0
  else false

/-- The length of the packet that the header announces. -/
def expected : Option ℕ :=
  if h.kind = text then
    if h.a ≠ 0 ∨ h.b ≠ 0 ∨ h.data ≠ 0 ∨ h.textUnits = 0 ∨
      InputEvent.maxTextChars * 2 < h.textUnits.toNat then none
    else
      (checkedMul Capture.usizeMax h.textUnits.toNat 2).bind (checkedAdd Capture.usizeMax headerBytes)
  else if h.textUnits ≠ 0 then none
  else some headerBytes

end Header

/-- The payload of a text packet is a string of an admitted length. -/
def validText (body : List UInt8) : Bool :=
  match Utf16.decode (LittleEndian.chunks body) with
  | none => false
  | some chars => 0 < chars.length && chars.length ≤ InputEvent.maxTextChars

def summarize (packet : List UInt8) : Except Panic (Option EventSummary) :=
  if packet.length < headerBytes ∨ maxPacketBytes < packet.length then .ok none
  else
    match readHeader packet with
    | none => .ok none
    | some h =>
      match h.expected with
      | none => .ok none
      | some expected =>
        if packet.length ≠ expected ∨ h.validScalarPayload = false then .ok none
        else if h.kind = text then
          (sliceFrom packet headerBytes).map fun body =>
            if validText body then some ⟨h.kind, h.textUnits⟩ else none
        else .ok (some ⟨h.kind, h.textUnits⟩)

end Fixture

end MadoPilot.Platform
