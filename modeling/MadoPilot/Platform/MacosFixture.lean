import Mathlib.Data.List.DropRight
import MadoPilot.Lib.Decimal
import MadoPilot.Lib.Segments
import MadoPilot.Ocr.NormalizationLaw

/-!
# The control records of the macOS fixture

A harness writes commands to the input fixture, the fixture writes results and the events it has seen:
one line each, of words between single blanks, each but the first a field `name=value`.

* `formatCommandLine`, `parseCommandLine` : commands;
* `formatCommandResultLine`, `parseCommandResultLine` : results;
* `formatEventLine`, `parseEventRecord` : events.
-/

namespace MadoPilot.Platform.MacosFixture

open MadoPilot.Lib MadoPilot.Ocr

def maxRecordedEvents : ℕ := 1024

def maxEventTextUnits : UInt32 := 256

def fixtureControlVersion : UInt32 := 13

def maxControlLineBytes : ℕ := 512

/-! ### Commands, results and events -/

inductive FixtureCommandKind where
  | setVisualAbsent | setVisualVisible | transition | replace | minimize | restore | move | resize
  | openAuxiliary | closeAuxiliary | close | moveToNextDisplay | restorePlacement | moveOffscreen
  | restoreOnscreen | yieldForeground | resetEvents | prepareLanguageFlow | readEvents | stop
  deriving DecidableEq

namespace FixtureCommandKind

def asStr : FixtureCommandKind → String
  | setVisualAbsent => "set-absent"
  | setVisualVisible => "set-visible"
  | transition => "transition"
  | replace => "replace"
  | minimize => "minimize"
  | restore => "restore"
  | yieldForeground => "yield-foreground"
  | move => "move"
  | resize => "resize"
  | openAuxiliary => "open-auxiliary"
  | closeAuxiliary => "close-auxiliary"
  | close => "close"
  | moveToNextDisplay => "move-to-next-display"
  | restorePlacement => "restore-placement"
  | moveOffscreen => "move-offscreen"
  | restoreOnscreen => "restore-onscreen"
  | resetEvents => "reset-events"
  | prepareLanguageFlow => "prepare-language-flow"
  | readEvents => "read-events"
  | stop => "stop"

def parse : String → Option FixtureCommandKind
  | "set-absent" => some setVisualAbsent
  | "set-visible" => some setVisualVisible
  | "transition" => some transition
  | "replace" => some replace
  | "minimize" => some minimize
  | "restore" => some restore
  | "yield-foreground" => some yieldForeground
  | "move" => some move
  | "resize" => some resize
  | "open-auxiliary" => some openAuxiliary
  | "close-auxiliary" => some closeAuxiliary
  | "move-to-next-display" => some moveToNextDisplay
  | "restore-placement" => some restorePlacement
  | "move-offscreen" => some moveOffscreen
  | "restore-onscreen" => some restoreOnscreen
  | "reset-events" => some resetEvents
  | "prepare-language-flow" => some prepareLanguageFlow
  | "read-events" => some readEvents
  | "close" => some close
  | "stop" => some stop
  | _ => none

end FixtureCommandKind

def visualTokenForCommand (kind : FixtureCommandKind) (nonce : UInt64) : Option UInt32 :=
  if ¬ (kind = .setVisualAbsent ∨ kind = .setVisualVisible) then none
  else if nonce.toNat < UInt32.size then
    let token := nonce.toUInt32
    if token ≠ 0 then some token else none
  else none

structure FixtureCommand where
  runNonce : UInt64
  nonce : UInt64
  eventPayloadTag : UInt64
  kind : FixtureCommandKind
  deriving DecidableEq

structure EventTotals where
  pointerMoves : UInt32
  pointerPresses : UInt32
  pointerReleases : UInt32
  pointerScrolls : UInt32
  keyDowns : UInt32
  keyUps : UInt32
  flagsChanged : UInt32
  textUnits : UInt64
  saturated : Bool
  deriving DecidableEq

def EventTotals.eventCount (e : EventTotals) : UInt64 :=
  e.pointerMoves.toUInt64 + e.pointerPresses.toUInt64 + e.pointerReleases.toUInt64 +
    e.pointerScrolls.toUInt64 + e.keyDowns.toUInt64 + e.keyUps.toUInt64 + e.flagsChanged.toUInt64

structure FixtureCommandResult where
  runNonce : UInt64
  nonce : UInt64
  status : UInt32
  beforeWindow : UInt64
  afterWindow : UInt64
  eventCorrelation : UInt32
  eventPayloadMatches : Bool
  events : EventTotals
  deriving DecidableEq

def eventPointerMove : UInt32 := 1
def eventPointerPress : UInt32 := 2
def eventPointerRelease : UInt32 := 3
def eventPointerScroll : UInt32 := 4
def eventKeyDown : UInt32 := 5
def eventKeyUp : UInt32 := 6
def eventFlagsChanged : UInt32 := 7

structure EventSummary where
  kind : UInt32
  textUnits : UInt32
  correlation : UInt32
  deriving DecidableEq

abbrev KnownKind (kind : UInt32) : Prop :=
  kind = eventPointerMove ∨ kind = eventPointerPress ∨ kind = eventPointerRelease ∨
    kind = eventPointerScroll ∨ kind = eventKeyDown ∨ kind = eventKeyUp ∨ kind = eventFlagsChanged

/-! ### Writing -/

def field (name : String) (value : List Char) : List Char := name.toList ++ '=' :: value

def join (words : List (List Char)) : List Char := [' '].intercalate words

/-- `u8::from` of a flag, as it is written. -/
def flag (b : Bool) : List Char := if b then ['1'] else ['0']

def eventWords (runNonce : UInt64) (summary : EventSummary) : List (List Char) :=
  ["event".toList,
    field "run" (Decimal.format runNonce.toNat),
    field "correlation" (Decimal.format summary.correlation.toNat),
    field "kind" (Decimal.format summary.kind.toNat),
    field "units" (Decimal.format summary.textUnits.toNat)]

def formatEventLine (runNonce : UInt64) (summary : EventSummary) : List Char :=
  join (eventWords runNonce summary)

def commandWords (command : FixtureCommand) : List (List Char) :=
  ["fixture-command".toList,
    field "version" (Decimal.format fixtureControlVersion.toNat),
    field "run" (Decimal.format command.runNonce.toNat),
    field "nonce" (Decimal.format command.nonce.toNat),
    field "event-tag" (Decimal.format command.eventPayloadTag.toNat),
    field "action" command.kind.asStr.toList]

def formatCommandLine (command : FixtureCommand) : List Char := join (commandWords command)

def commandResultWords (result : FixtureCommandResult) : List (List Char) :=
  let events := result.events
  ["fixture-command-result".toList,
    field "version" (Decimal.format fixtureControlVersion.toNat),
    field "run" (Decimal.format result.runNonce.toNat),
    field "nonce" (Decimal.format result.nonce.toNat),
    field "status" (Decimal.format result.status.toNat),
    field "before-window" (Decimal.format result.beforeWindow.toNat),
    field "after-window" (Decimal.format result.afterWindow.toNat),
    field "pointer-moves" (Decimal.format events.pointerMoves.toNat),
    field "pointer-presses" (Decimal.format events.pointerPresses.toNat),
    field "pointer-releases" (Decimal.format events.pointerReleases.toNat),
    field "pointer-scrolls" (Decimal.format events.pointerScrolls.toNat),
    field "key-downs" (Decimal.format events.keyDowns.toNat),
    field "key-ups" (Decimal.format events.keyUps.toNat),
    field "flags-changed" (Decimal.format events.flagsChanged.toNat),
    field "text-units" (Decimal.format events.textUnits.toNat),
    field "saturated" (flag events.saturated),
    field "event-correlation" (Decimal.format result.eventCorrelation.toNat),
    field "event-payload-matches" (flag result.eventPayloadMatches)]

def formatCommandResultLine (result : FixtureCommandResult) : List Char :=
  join (commandResultWords result)

/-! ### Reading -/

def trimEnd (line : List Char) : List Char := line.rdropWhile isWhitespace

def stripPrefix (head line : List Char) : Option (List Char) :=
  if head <+: line then some (line.drop head.length) else none

def splitOnce : List Char → Option (List Char × List Char)
  | [] => none
  | c :: rest =>
    if c = '=' then some ([], rest) else (splitOnce rest).map fun (name, value) => (c :: name, value)

abbrev Fields := StateT (List (List Char)) Option

def takeField (name : String) : Fields (List Char) := fun fields =>
  match fields with
  | [] => none
  | next :: rest =>
    match splitOnce next with
    | none => none
    | some (actual, value) => if actual = name.toList ∧ value ≠ [] then some (value, rest) else none

def takeParsed {α : Type} (name : String) (parse : List Char → Option α) : Fields α := do
  let value ← takeField name
  liftM (parse value)

def parseU32 (text : List Char) : Option UInt32 :=
  (Decimal.parse UInt32.size text).map UInt32.ofNat

def parseU64 (text : List Char) : Option UInt64 :=
  (Decimal.parse UInt64.size text).map UInt64.ofNat

/-- `"0" => false, "1" => true`. -/
def parseFlag (text : List Char) : Option Bool :=
  if text = ['0'] then some false else if text = ['1'] then some true else none

/-- `fields.next().is_none()`. -/
def noMore : Fields PUnit := fun fields => if fields = [] then some (⟨⟩, []) else none

def fieldsOf (head : String) (line : List Char) : Option (List (List Char)) :=
  (stripPrefix (head.toList ++ [' ']) (trimEnd line)).map fun rest => rest.splitOn ' '

def eventFields : Fields (UInt64 × EventSummary) := do
  let runNonce ← takeParsed "run" parseU64
  let correlation ← takeParsed "correlation" parseU32
  let kind ← takeParsed "kind" parseU32
  let textUnits ← takeParsed "units" parseU32
  guard (runNonce ≠ 0 ∧ KnownKind kind ∧ textUnits ≤ maxEventTextUnits)
  noMore
  pure (runNonce, ⟨kind, textUnits, correlation⟩)

def parseEventRecord (line : List Char) : Option (UInt64 × EventSummary) := do
  let fields ← fieldsOf "event" line
  eventFields.run' fields

def parseEventLine (line : List Char) : Option EventSummary := (parseEventRecord line).map Prod.snd

def parseEventLineForRun (line : List Char) (runNonce : UInt64) : Option EventSummary := do
  let (observedRunNonce, summary) ← parseEventRecord line
  if observedRunNonce = runNonce then some summary else none

def commandFields : Fields FixtureCommand := do
  let version ← takeParsed "version" parseU32
  guard (version = fixtureControlVersion)
  let runNonce ← takeParsed "run" parseU64
  let nonce ← takeParsed "nonce" parseU64
  let eventPayloadTag ← takeParsed "event-tag" parseU64
  let kind ← takeParsed "action" fun value => FixtureCommandKind.parse (String.ofList value)
  guard (¬ (runNonce = 0 ∨ nonce = 0 ∨ eventPayloadTag ≠ 0 ∧ kind ≠ .resetEvents ∨
    (kind = .setVisualAbsent ∨ kind = .setVisualVisible) ∧ visualTokenForCommand kind nonce = none))
  noMore
  pure ⟨runNonce, nonce, eventPayloadTag, kind⟩

def parseCommandLine (line : List Char) : Option FixtureCommand :=
  if byteLength line > maxControlLineBytes then none
  else do
    let fields ← fieldsOf "fixture-command" line
    commandFields.run' fields

def commandResultFields : Fields FixtureCommandResult := do
  let version ← takeParsed "version" parseU32
  guard (version = fixtureControlVersion)
  let runNonce ← takeParsed "run" parseU64
  let nonce ← takeParsed "nonce" parseU64
  let status ← takeParsed "status" parseU32
  let beforeWindow ← takeParsed "before-window" parseU64
  let afterWindow ← takeParsed "after-window" parseU64
  let pointerMoves ← takeParsed "pointer-moves" parseU32
  let pointerPresses ← takeParsed "pointer-presses" parseU32
  let pointerReleases ← takeParsed "pointer-releases" parseU32
  let pointerScrolls ← takeParsed "pointer-scrolls" parseU32
  let keyDowns ← takeParsed "key-downs" parseU32
  let keyUps ← takeParsed "key-ups" parseU32
  let flagsChanged ← takeParsed "flags-changed" parseU32
  let textUnits ← takeParsed "text-units" parseU64
  let saturated ← takeParsed "saturated" parseFlag
  let eventCorrelation ← takeParsed "event-correlation" parseU32
  let eventPayloadMatches ← takeParsed "event-payload-matches" parseFlag
  let events : EventTotals := ⟨pointerMoves, pointerPresses, pointerReleases, pointerScrolls, keyDowns,
    keyUps, flagsChanged, textUnits, saturated⟩
  guard (runNonce ≠ 0 ∧ nonce ≠ 0 ∧ events.eventCount.toNat ≤ maxRecordedEvents)
  noMore
  pure ⟨runNonce, nonce, status, beforeWindow, afterWindow, eventCorrelation, eventPayloadMatches, events⟩

def parseCommandResultLine (line : List Char) : Option FixtureCommandResult :=
  if byteLength line > maxControlLineBytes then none
  else do
    let fields ← fieldsOf "fixture-command-result" line
    commandResultFields.run' fields

end MadoPilot.Platform.MacosFixture
