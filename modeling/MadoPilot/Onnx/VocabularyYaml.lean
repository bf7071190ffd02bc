import MadoPilot.Capture.Frame
import MadoPilot.Input.Event
import MadoPilot.Lib.Counter
import MadoPilot.Lib.Fallible
import MadoPilot.Lib.Yaml
import MadoPilot.Ocr.Normalization

/-!
# The vocabulary of an inference file

The entries of a recognizer are read from `PostProcess.character_dict` of a YAML file.  The YAML parser is
a parameter: it answers to each call with an event, or fails.  What it delivers is consumed one event at a
time over a stack of open collections; all that is not the dictionary is checked and dropped.

* `step`, `loop`, `parse` : the consumer, with fuel for the turns of its loop;
* `cut` : how the vocabulary takes the text apart again.
-/

namespace MadoPilot.Onnx.VocabularyYaml

open MadoPilot.Capture MadoPilot.Lib MadoPilot.Lib.Yaml MadoPilot.Ocr
open MadoPilot.Input (isControl)

def maxSourceBytes : ℕ := 1024 * 1024

def maxCanonicalBytes : ℕ := 1024 * 1024

def maxDepth : ℕ := 32

def maxEvents : ℕ := 100000

def maxScalarBytes : ℕ := 16 * 1024

def sectionKey : Text := ['P', 'o', 's', 't', 'P', 'r', 'o', 'c', 'e', 's', 's']

def dictionaryKey : Text := ['c', 'h', 'a', 'r', 'a', 'c', 't', 'e', 'r', '_', 'd', 'i', 'c', 't']

/-- The one reason for a refusal. -/
inductive Rejected where
  | rejected
  deriving DecidableEq

abbrev Parsed (α : Type) := Except Rejected α

def reject {α : Type} : Parsed α := .error .rejected

/-- What a collection is to the consumer. -/
inductive Role where
  | root | section' | dictionary | ignored
  deriving DecidableEq

inductive Kind where
  | mapping (keys : List Text) (pendingValue : Option Role)
  | sequence
  deriving DecidableEq

/-- A collection that is open. -/
structure Frame where
  role : Role
  kind : Kind
  deriving DecidableEq

/-! ### Events -/

/-- What the parser answers to each call, and how many calls were made. -/
structure Events where
  tokens : ℕ → Option YamlEvent
  consumed : ℕ

namespace Events

def next (e : Events) : Parsed (YamlEvent × Events) :=
  if maxEvents < e.consumed + 1 then reject
  else match e.tokens e.consumed with
    | some event => .ok (event, ⟨e.tokens, e.consumed + 1⟩)
    | none => reject

def expect (e : Events) (expected : YamlEvent) : Parsed Events := do
  let (event, e) ← e.next
  if event = expected then .ok e else reject

end Events

/-! ### The dictionary -/

structure Dictionary where
  canonical : Text
  entries : ℕ
  expectedEntries : ℕ
  seen : Bool
  deriving DecidableEq

/-- The entry is not empty, not too long and free of controls. -/
def validEntry (entry : Text) : Bool :=
  !entry.isEmpty && decide (byteLength entry ≤ maxScalarBytes) && !entry.any isControl

namespace Dictionary

def push (d : Dictionary) : YamlEvent → Parsed Dictionary
  | .scalar entry _ 0 none =>
    if !validEntry entry || d.entries == d.expectedEntries then reject
    else
      let separator := if d.entries ≠ 0 then 1 else 0
      match (checkedAdd usizeMax (byteLength d.canonical) separator).bind
          (checkedAdd usizeMax · (byteLength entry)) with
      | none => reject
      | some length =>
        if maxCanonicalBytes < length then reject
        else
          .ok { d with
            canonical := d.canonical ++ (if separator ≠ 0 then ['\n'] else []) ++ entry
            entries := d.entries + 1 }
  | _ => reject

def new (expectedEntries : ℕ) : Dictionary := ⟨[], 0, expectedEntries, false⟩

end Dictionary

/-! ### The consumer -/

/-- The collection that a node opens in a role, if it opens one. -/
def nodeKind (event : YamlEvent) (role : Role) (d : Dictionary) : Parsed (Option Kind × Dictionary) :=
  match event, role with
  | .mappingStart 0 none, .root | .mappingStart 0 none, .section' => .ok (some (.mapping [] none), d)
  | .mappingStart _ none, .ignored => .ok (some (.mapping [] none), d)
  | .sequenceStart 0 none, .dictionary =>
    if d.seen then reject else .ok (some .sequence, { d with seen := true })
  | .sequenceStart _ none, .ignored => .ok (some .sequence, d)
  | .scalar value _ _ none, .ignored =>
    if byteLength value ≤ maxScalarBytes then .ok (none, d) else reject
  | .alias _, .ignored => .ok (none, d)
  | _, _ => reject

def openNode (event : YamlEvent) (role : Role) (frames : List Frame) (d : Dictionary) :
    Parsed (List Frame × Dictionary) := do
  let (kind, d) ← nodeKind event role d
  match kind with
  | none => .ok (frames, d)
  | some kind => if maxDepth ≤ frames.length then reject else .ok (⟨role, kind⟩ :: frames, d)

def valueRole (role : Role) (key : Text) : Role :=
  if role = .root ∧ key = sectionKey then .section'
  else if role = .section' ∧ key = dictionaryKey then .dictionary
  else .ignored

def step (event : YamlEvent) (frame : Frame) (frames : List Frame) (d : Dictionary) :
    Parsed (List Frame × Dictionary) :=
  match frame.kind with
  | .sequence =>
    if event = .sequenceEnd then .ok (frames, d)
    else if frame.role = .dictionary then (d.push event).map fun d => (frame :: frames, d)
    else openNode event .ignored (frame :: frames) d
  | .mapping keys (some role) => openNode event role (⟨frame.role, .mapping keys none⟩ :: frames) d
  | .mapping keys none =>
    match event with
    | .mappingEnd => .ok (frames, d)
    | .scalar key _ 0 none =>
      if byteLength key ≤ maxScalarBytes then
        if key ∈ keys then reject
        else .ok (⟨frame.role, .mapping (key :: keys) (some (valueRole frame.role key))⟩ :: frames, d)
      else reject
    | _ => reject

/-- The loop, of `fuel` turns at most. -/
def loop : ℕ → Events → List Frame → Dictionary → Option (Parsed (Events × Dictionary))
  | _, events, [], d => some (.ok (events, d))
  | 0, _, _ :: _, _ => none
  | fuel + 1, events, frame :: frames, d =>
    match events.next with
    | .error r => some (.error r)
    | .ok (event, events) =>
      match step event frame frames d with
      | .error r => some (.error r)
      | .ok (frames, d) => loop fuel events frames d

/-- What comes before the loop. -/
def opening (tokens : ℕ → Option YamlEvent) (expectedEntries : ℕ) :
    Parsed (Events × List Frame × Dictionary) := do
  let events ← Events.expect ⟨tokens, 0⟩ .streamStart
  let events ← events.expect .documentStart
  let (event, events) ← events.next
  let (frames, d) ← openNode event .root [] (.new expectedEntries)
  .ok (events, frames, d)

/-- What comes after the loop. -/
def closing (events : Events) (d : Dictionary) : Parsed Text := do
  let events ← events.expect .documentEnd
  let _ ← events.expect .streamEnd
  if !d.seen || d.entries != d.expectedEntries then reject else .ok d.canonical

/-- `parse` on what the parser delivers. -/
def parseTokens (fuel : ℕ) (tokens : ℕ → Option YamlEvent) (expectedEntries : ℕ) : Option (Parsed Text) :=
  match opening tokens expectedEntries with
  | .error r => some (.error r)
  | .ok (events, frames, d) =>
    (loop fuel events frames d).map fun r => r.bind fun (events, d) => closing events d

def parse (fuel : ℕ) (parser : String → ℕ → Option YamlEvent) (source : ByteArray) (expectedEntries : ℕ) :
    Option (Parsed Text) :=
  if maxSourceBytes < source.size then some reject
  else match String.fromUTF8? source with
    | none => some reject
    | some text => parseTokens fuel (parser text) expectedEntries

/-! ### The text of the vocabulary -/

def trimReturn (line : Text) : Text := if line.getLast? = some '\r' then line.dropLast else line

/-- The lines of `Vocabulary::parse`, from the characters of the line that is read. -/
def cutFrom (line : Text) : Text → List Text
  | [] => if line = [] then [] else [trimReturn line]
  | c :: text => if c = '\n' then trimReturn line :: cutFrom [] text else cutFrom (line ++ [c]) text

/-- The entries that `Vocabulary::parse` takes out of a text. -/
def cut (text : Text) : List Text := cutFrom [] text

end MadoPilot.Onnx.VocabularyYaml
