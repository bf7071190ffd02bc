import MadoPilot.Capi.Boundary
import MadoPilot.Input.Event
import MadoPilot.Lib.Binary64
import MadoPilot.Lib.Counter
import MadoPilot.Ocr.Recognizer

/-!
# A caller's arrays of input events and of OCR zones

A caller names an array by its base, its count and its stride; every element declares its own size.
`inputEvents` and `readZones` check the array as a whole, then read element after element through
`readElement` and convert it.  A text event names a text elsewhere in the memory.
-/

namespace MadoPilot.Capi

open MadoPilot.Core MadoPilot.Input MadoPilot.Lib MadoPilot.Ocr

/-! ### Faults and fields -/

def errorCategoryVision : ℤ := 6
def errorCategoryGeometry : ℤ := 7
def errorCategoryInput : ℤ := 9

def statusCode : Status → ℤ
  | .invalidArgument => 1
  | .unsupported => 2
  | .cancelled => 3
  | .deadlineExceeded => 4
  | .closed => 5
  | .targetLost => 6
  | .limitExceeded => 7
  | .captureFailed => 8
  | .assetInvalid => 9
  | .visionFailed => 10
  | .internal => 11
  | .inputFailed => 13

def Fault.fromError (error : Error) (category : ℤ) : Fault :=
  ⟨statusCode error.status, category, error.detail⟩

def inputFault (fault : InputFault) : Fault := .fromError fault.toError errorCategoryInput

def ocrFault (fault : OcrFault) : Fault := .fromError fault.toError errorCategoryVision

def geometryFault (fault : GeometryFault) : Fault := .fromError fault.toError errorCategoryGeometry

def unsignedAt (value : List UInt8) (offset width : ℕ) : ℕ :=
  LittleEndian.value ((value.drop offset).take width)

/-- An `i32` field of a value. -/
def i32At (value : List UInt8) (offset : ℕ) : ℤ :=
  let n := unsignedAt value offset 4
  if n < 2 ^ 31 then n else n - 2 ^ 32

/-- An `f64` field of a value. -/
def f64At (value : List UInt8) (offset : ℕ) : Binary64 := .ofBits (unsignedAt value offset 8)

/-! ### The structures -/

def eventFields : List FieldLayout :=
  [⟨"struct_size", 0, 4⟩, ⟨"kind", 4, 4⟩, ⟨"space", 8, 4⟩, ⟨"button", 12, 4⟩, ⟨"key", 16, 4⟩,
    ⟨"key_value", 20, 4⟩, ⟨"x", 24, 8⟩, ⟨"y", 32, 8⟩, ⟨"horizontal", 40, 4⟩, ⟨"vertical", 44, 4⟩,
    ⟨"text", 48, 16⟩, ⟨"delay_nanos", 64, 8⟩]

theorem eventFields_ordered :
    eventFields.Pairwise fun f g => f.offset + f.size ≤ g.offset := by decide

theorem eventFields_within : ∀ f ∈ eventFields, f.offset + f.size ≤ 72 := by decide

def eventLayout : CLayout where
  name := "madopilot_input_event_t"
  size := 72
  align := 8
  fields := eventFields
  ordered := eventFields_ordered
  within := eventFields_within
  first := ⟨_, _, rfl, rfl, rfl⟩

def zoneFields : List FieldLayout :=
  [⟨"struct_size", 0, 4⟩, ⟨"flags", 4, 4⟩, ⟨"region", 8, 20⟩, ⟨"clip_policy", 28, 4⟩]

theorem zoneFields_ordered :
    zoneFields.Pairwise fun f g => f.offset + f.size ≤ g.offset := by decide

theorem zoneFields_within : ∀ f ∈ zoneFields, f.offset + f.size ≤ 32 := by decide

def zoneLayout : CLayout where
  name := "madopilot_ocr_zone_t"
  size := 32
  align := 4
  fields := zoneFields
  ordered := zoneFields_ordered
  within := zoneFields_within
  first := ⟨_, _, rfl, rfl, rfl⟩

def arrayReport : List TypeLayout := [eventLayout.toTypeLayout, zoneLayout.toTypeLayout]

theorem event_reported :
    ∀ l, measured arrayReport "madopilot_input_event_t" = some l → l = eventLayout.toTypeLayout := by
  intro l h
  exact (Option.some.inj h).symm

theorem zone_reported :
    ∀ l, measured arrayReport "madopilot_ocr_zone_t" = some l → l = zoneLayout.toTypeLayout := by
  intro l h
  exact (Option.some.inj h).symm

/-- `impl Input for madopilot_input_event_t`: every default is zero. -/
def eventInput : Capi.Input arrayReport where
  name := "madopilot_input_event_t"
  layout := eventLayout
  mandatory := 8
  prefixes := [0, 4, 8, 12, 16, 20, 24, 32, 40, 44, 48, 64, 72]
  presence := []
  defaults := List.replicate 72 0
  presenceBits := fun _ => 0
  defaults_length := List.length_replicate
  reported := event_reported

/-- `impl Input for madopilot_ocr_zone_t`: every default is zero. -/
def zoneInput : Capi.Input arrayReport where
  name := "madopilot_ocr_zone_t"
  layout := zoneLayout
  mandatory := 32
  prefixes := [0, 4, 8, 28, 32]
  presence := []
  defaults := List.replicate 32 0
  presenceBits := fun value => unsignedAt value 4 4
  defaults_length := List.length_replicate
  reported := zone_reported

/-- `madopilot_input_event_t`. -/
structure EventRecord where
  structSize : ℕ
  kind : ℤ
  space : ℤ
  button : ℤ
  key : ℤ
  keyValue : ℕ
  x : Binary64
  y : Binary64
  horizontal : ℤ
  vertical : ℤ
  textData : ℕ
  textLen : ℕ
  delayNanos : ℕ

def EventRecord.ofBytes (value : List UInt8) : EventRecord where
  structSize := unsignedAt value 0 4
  kind := i32At value 4
  space := i32At value 8
  button := i32At value 12
  key := i32At value 16
  keyValue := unsignedAt value 20 4
  x := f64At value 24
  y := f64At value 32
  horizontal := i32At value 40
  vertical := i32At value 44
  textData := unsignedAt value 48 8
  textLen := unsignedAt value 56 8
  delayNanos := unsignedAt value 64 8

/-- `madopilot_ocr_zone_t`. -/
structure ZoneRecord where
  structSize : ℕ
  flags : ℕ
  space : ℤ
  left : ℤ
  top : ℤ
  right : ℤ
  bottom : ℤ
  clipPolicy : ℤ

def ZoneRecord.ofBytes (value : List UInt8) : ZoneRecord where
  structSize := unsignedAt value 0 4
  flags := unsignedAt value 4 4
  space := i32At value 8
  left := i32At value 12
  top := i32At value 16
  right := i32At value 20
  bottom := i32At value 24
  clipPolicy := i32At value 28

/-! ### Conversions of fields -/

def coordinateSpace (value : ℤ) : Except Fault CoordinateSpace :=
  match value with
  | 0 => .ok .capturePixels
  | 1 => .ok .frameNormalized
  | 2 => .ok .targetNormalized
  | 3 => .ok .targetLogical
  | 4 => .ok .desktopLogical
  | other => .error (.abi s!"unrecognized coordinate space {other}")

def pointerButton (value : ℤ) : Except Fault PointerButton :=
  match value with
  | 1 => .ok .primary
  | 2 => .ok .secondary
  | 3 => .ok .middle
  | other => .error (.abi s!"unrecognized pointer button {other}")

def modifier (value : ℕ) : Except Fault Modifier :=
  match value with
  | 1 => .ok .shift
  | 2 => .ok .control
  | 3 => .ok .alt
  | 4 => .ok .metaKey
  | other => .error (.abi s!"unrecognized keyboard modifier {other}")

def charFromU32 (n : ℕ) : Option Char :=
  if h : n.isValidChar then some (Char.ofNatAux n h) else none

def key (value : ℤ) (keyValue : ℕ) : Except Fault Key :=
  match value with
  | 1 =>
    match charFromU32 keyValue with
    | some c => .ok (.character c)
    | none => .error (inputFault .sequenceOutOfBounds)
  | 2 =>
    if keyValue < 256 then .ok (.function (UInt8.ofNat keyValue))
    else .error (inputFault .sequenceOutOfBounds)
  | 3 => (modifier keyValue).map .modifier
  | 4 => .ok .enter
  | 5 => .ok .tab
  | 6 => .ok .backspace
  | 7 => .ok .delete
  | 8 => .ok .escape
  | 9 => .ok .space
  | 10 => .ok .arrowUp
  | 11 => .ok .arrowDown
  | 12 => .ok .arrowLeft
  | 13 => .ok .arrowRight
  | 14 => .ok .home
  | 15 => .ok .endKey
  | 16 => .ok .pageUp
  | 17 => .ok .pageDown
  | other => .error (.abi s!"unrecognized key kind {other}")

/-- `i16::try_from`. -/
def scrollAmount (value : ℤ) : Except Fault Int16 :=
  if -2 ^ 15 ≤ value ∧ value < 2 ^ 15 then .ok (Int16.ofInt value)
  else .error (inputFault .sequenceOutOfBounds)

/-- `Point::new` of two doubles. -/
def pointOf (space : CoordinateSpace) (x y : Binary64) : Except GeometryFault Core.Point :=
  if x.isFinite && y.isFinite then Core.Point.new space x.toRat y.toRat else .error .notFinite

def clipPolicyOf (value : ℤ) : Except Fault ClipPolicy :=
  match value with
  | 0 => .ok .reject
  | 1 => .ok .clip
  | other => .error (.abi s!"unrecognized clip policy {other}")

/-- `source_rect`: every edge is finite. -/
def sourceRect (zone : ZoneRecord) : Except Fault Rect := do
  let space ← coordinateSpace zone.space
  if space ≠ .capturePixels then .error (.abi "the C ABI accepts a region in capture pixels only")
  else (Rect.new space zone.left zone.top zone.right zone.bottom).mapError geometryFault

/-! ### Views -/

def byteLen (data len : ℕ) (field : String) : Except Fault ℕ :=
  if data = 0 ∧ len ≠ 0 then .error (.abi s!"`{field}` is a null pointer with length {len}")
  else if isizeMax < len then
    .error (.abi s!"`{field}` declares {len} bytes, which is not a representable object size")
  else .ok len

def validUpTo (bytes : List UInt8) : ℕ :=
  ((List.range (bytes.length + 1)).reverse.find? fun n =>
    (String.fromUTF8? ⟨(bytes.take n).toArray⟩).isSome).getD 0

def fromUtf8 (bytes : List UInt8) (field : String) : Except Fault String :=
  match String.fromUTF8? ⟨bytes.toArray⟩ with
  | some text => .ok text
  | none =>
    let offset := validUpTo bytes
    .error (.abi s!"`{field}` is not UTF-8: invalid byte at offset {offset}")

def viewString (m : Memory) (data len : ℕ) (field : String) : Option (Except Fault String) :=
  match byteLen data len field with
  | .error fault => some (.error fault)
  | .ok len =>
    if data = 0 then some (fromUtf8 [] field) else (m.load data len).map (fromUtf8 · field)

/-! ### Elements -/

def inputMaxTextUtf8Bytes : ℕ := 16384

def inputMaxTextChars : ℕ := 4096

def requireEventPrefix (event : EventRecord) (required index : ℕ) : Except Fault Unit :=
  let size := event.structSize
  if required ≤ size then .ok ()
  else .error (.abi (s!"event {index} declares {size} bytes, below its {required} " ++
    "byte variant prefix"))

/-- The size that covers what an event of a kind uses. -/
def variantPrefix : ℤ → ℕ
  | 1 => 40
  | 2 | 3 => 16
  | 4 => 48
  | 5 | 6 => 24
  | 7 => 64
  | 8 => 72
  | _ => 0

def eventText (m : Memory) (event : EventRecord) : Option (Except Fault InputEvent) :=
  match byteLen event.textData event.textLen "event.text" with
  | .error fault => some (.error fault)
  | .ok len =>
    if inputMaxTextUtf8Bytes < len then some (.error (inputFault .sequenceOutOfBounds))
    else
      (viewString m event.textData event.textLen "event.text").map fun text => do
        let text ← text
        if inputMaxTextChars < text.length then .error (inputFault .sequenceOutOfBounds)
        else .ok (.text text)

def eventOf (event : EventRecord) (index : ℕ) : Except Fault InputEvent :=
  match event.kind with
  | 1 => do
    let space ← coordinateSpace event.space
    let point ← (pointOf space event.x event.y).mapError fun fault =>
      let detail := fault.detail
      .abi s!"event {index} has an invalid point: {detail}"
    .ok (.pointerMove point)
  | 2 => (pointerButton event.button).map .pointerPress
  | 3 => (pointerButton event.button).map .pointerRelease
  | 4 => do
    let horizontal ← scrollAmount event.horizontal
    let vertical ← scrollAmount event.vertical
    .ok (.pointerScroll horizontal vertical)
  | 5 => (key event.key event.keyValue).map .keyPress
  | 6 => (key event.key event.keyValue).map .keyRelease
  | 8 => .ok (.delay event.delayNanos)
  | other => .error (.abi s!"event {index} has unrecognized input kind {other}")

/-- `input_event`: the size that the kind needs, then the fields that it uses. -/
def inputEvent (m : Memory) (index : ℕ) (value : List UInt8) : Option (Except Fault InputEvent) :=
  let event := EventRecord.ofBytes value
  match requireEventPrefix event (variantPrefix event.kind) index with
  | .error fault => some (.error fault)
  | .ok _ => if event.kind = 7 then eventText m event else some (eventOf event index)

/-- The body of the loop of `read_zones`. -/
def zoneOf (_ : Memory) (index : ℕ) (value : List UInt8) : Option (Except Fault OcrZone) :=
  let zone := ZoneRecord.ofBytes value
  let flags := hex zone.flags
  some do
    if zone.flags ≠ 0 then .error (.abi s!"OCR zone {index} sets unknown flags {flags}")
    else
      let rect ← sourceRect zone
      let policy ← clipPolicyOf zone.clipPolicy
      .ok ⟨rect, policy⟩

/-! ### Arrays -/

section Elements

variable {α : Type}

/-- The loop over an array: the place of an element, the element, and its conversion. -/
def convertElements (s : Capi.Input arrayReport) (place : ℕ → Except Fault ℕ) (stride : ℕ)
    (convert : Memory → ℕ → List UInt8 → Option (Except Fault α)) (m : Memory) :
    ℕ → ℕ → Option (Except Fault (List α))
  | 0, _ => some (.ok [])
  | rest + 1, index =>
    match place index with
    | .error fault => some (.error fault)
    | .ok element =>
      (s.readElement m element stride).bind fun
        | .error fault => some (.error fault)
        | .ok value =>
          (convert m index value).bind fun
            | .error fault => some (.error fault)
            | .ok a => (convertElements s place stride convert m rest (index + 1)).map
                (Except.map (a :: ·))

end Elements

/-- The checks of `input_events` before its loop. -/
def checkEvents (events count stride maxEvents : ℕ) : Except Fault Unit := do
  if maxEvents < count then .error (inputFault .sequenceOutOfBounds)
  else
    let _ ← span count stride eventInput.mandatory "events"
    if 0 < count ∧ events = 0 then .error (.abi "`events` is null for a nonzero event count")
    else if 0 < count ∧ events % eventInput.layout.align ≠ 0 then
      let align := eventInput.layout.align
      .error (.abi s!"`events` is not aligned to {align} bytes")
    else .ok ()

def inputEvents (events count stride maxEvents : ℕ) (m : Memory) :
    Option (Except Fault (List InputEvent)) :=
  match checkEvents events count stride maxEvents with
  | .error fault => some (.error fault)
  | .ok _ =>
    convertElements eventInput (fun index => .ok (events + index * stride)) stride inputEvent m count 0

def maxOcrZones : ℕ := 16

/-- The checks of `read_zones` before its loop. -/
def checkZones (zones count stride : ℕ) : Except Fault Unit := do
  let alignment := zoneInput.layout.align
  if ¬ (1 ≤ count ∧ count ≤ maxOcrZones) then .error (ocrFault .zoneCountOutOfRange)
  else if zones = 0 then .error (.abi s!"`zones` is null with a count of {count}")
  else if zones % alignment ≠ 0 then .error (.abi "`zones` is not correctly aligned")
  else if stride % alignment ≠ 0 then
    .error (.abi (s!"`zones` declares a {stride} byte stride, which is not a multiple of its " ++
      s!"{alignment} byte alignment"))
  else
    let total ← span count stride zoneInput.mandatory "zones"
    match checkedAdd usizeMax zones total with
    | none => .error (.abi "`zones` final address overflows")
    | some _ => .ok ()

/-- The place of an element of `read_zones`. -/
def zonePlace (zones stride index : ℕ) : Except Fault ℕ :=
  match checkedMul usizeMax index stride with
  | none => .error (.abi "`zones` element address overflows")
  | some offset => .ok (zones + offset)

def readZones (zones count stride : ℕ) (m : Memory) : Option (Except Fault (List OcrZone)) :=
  match checkZones zones count stride with
  | .error fault => some (.error fault)
  | .ok _ => convertElements zoneInput (zonePlace zones stride) stride zoneOf m count 0

end MadoPilot.Capi
