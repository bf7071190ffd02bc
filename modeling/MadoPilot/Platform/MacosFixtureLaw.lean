import Mathlib.Data.List.Forall2
import MadoPilot.Platform.MacosFixture

/-!
# The control records are a format

What a parser of the control records accepts are the lines of valid values, with their numbers spelled
in any way and blanks behind them.  A record is described by its first word and its fields, each with a
number or a word for its value; the same description is written and read.

* `Value`, `Spec` : descriptions of fields;
* `Yields` : a parser of fields that reads what is described, and nothing else;
* `record_read` : from the fields to the line;
* `control_records` is the result.
-/

namespace MadoPilot.Platform.MacosFixture

open MadoPilot.Lib MadoPilot.Ocr

/-! ### Descriptions -/

/-- What stands in a field. -/
inductive Value where
  | number (n : ℕ)
  | word (w : List Char)

def Value.format : Value → List Char
  | number n => Decimal.format n
  | word w => w

def Value.Spells : List Char → Value → Prop
  | text, number n => Decimal.Spells text n
  | text, word w => text = w

/-- A field: its name and its value. -/
abbrev Spec := String × Value

def Spelled (text : List Char) (spec : Spec) : Prop :=
  ∃ value, text = field spec.1 value ∧ spec.2.Spells value

def record (head : String) (specs : List Spec) : List Char :=
  join (head.toList :: specs.map fun spec => field spec.1 spec.2.format)

/-- The line is the record up to the spelling of its numbers and blanks behind it. -/
def Alike (line : List Char) (head : String) (specs : List Spec) : Prop :=
  ∃ texts trailing, line = join (head.toList :: texts) ++ trailing ∧
    (∀ c ∈ trailing, isWhitespace c = true) ∧ List.Forall₂ Spelled texts specs

def eventSpec (runNonce : UInt64) (summary : EventSummary) : List Spec :=
  [("run", .number runNonce.toNat), ("correlation", .number summary.correlation.toNat),
    ("kind", .number summary.kind.toNat), ("units", .number summary.textUnits.toNat)]

def commandSpec (command : FixtureCommand) : List Spec :=
  [("version", .number fixtureControlVersion.toNat), ("run", .number command.runNonce.toNat),
    ("nonce", .number command.nonce.toNat), ("event-tag", .number command.eventPayloadTag.toNat),
    ("action", .word command.kind.asStr.toList)]

def commandResultSpec (result : FixtureCommandResult) : List Spec :=
  [("version", .number fixtureControlVersion.toNat), ("run", .number result.runNonce.toNat),
    ("nonce", .number result.nonce.toNat), ("status", .number result.status.toNat),
    ("before-window", .number result.beforeWindow.toNat),
    ("after-window", .number result.afterWindow.toNat),
    ("pointer-moves", .number result.events.pointerMoves.toNat),
    ("pointer-presses", .number result.events.pointerPresses.toNat),
    ("pointer-releases", .number result.events.pointerReleases.toNat),
    ("pointer-scrolls", .number result.events.pointerScrolls.toNat),
    ("key-downs", .number result.events.keyDowns.toNat),
    ("key-ups", .number result.events.keyUps.toNat),
    ("flags-changed", .number result.events.flagsChanged.toNat),
    ("text-units", .number result.events.textUnits.toNat),
    ("saturated", .word (flag result.events.saturated)),
    ("event-correlation", .number result.eventCorrelation.toNat),
    ("event-payload-matches", .word (flag result.eventPayloadMatches))]

theorem formatEventLine_eq (runNonce : UInt64) (summary : EventSummary) :
    formatEventLine runNonce summary = record "event" (eventSpec runNonce summary) := rfl

theorem formatCommandLine_eq (command : FixtureCommand) :
    formatCommandLine command = record "fixture-command" (commandSpec command) := rfl

theorem formatCommandResultLine_eq (result : FixtureCommandResult) :
    formatCommandResultLine result = record "fixture-command-result" (commandResultSpec result) := rfl

/-! ### Single fields -/

section Fields

variable {α β : Type}

theorem splitOnce_eq_some {text name value : List Char} :
    splitOnce text = some (name, value) ↔ text = name ++ '=' :: value ∧ '=' ∉ name := by
  induction text generalizing name with
  | nil => exact iff_of_false (fun h => (by cases h)) fun h => (by simp at h)
  | cons c text ih =>
    unfold splitOnce
    by_cases hc : c = '='
    · subst hc
      rw [if_pos rfl]
      constructor
      · intro h
        obtain ⟨rfl, rfl⟩ := Prod.mk.inj (Option.some.inj h)
        exact ⟨rfl, List.not_mem_nil⟩
      · rintro ⟨htext, hname⟩
        cases name with
        | nil =>
          obtain ⟨-, rfl⟩ := List.cons.inj htext
          rfl
        | cons d name =>
          obtain ⟨rfl, -⟩ := List.cons.inj htext
          exact absurd List.mem_cons_self hname
    · rw [if_neg hc]
      constructor
      · intro h
        obtain ⟨⟨name', value'⟩, hrest, h⟩ := Option.map_eq_some_iff.mp h
        obtain ⟨rfl, rfl⟩ := Prod.mk.inj h
        obtain ⟨rfl, hname⟩ := ih.mp hrest
        refine ⟨rfl, ?_⟩
        rw [List.mem_cons, not_or]
        exact ⟨fun heq => hc heq.symm, hname⟩
      · rintro ⟨htext, hname⟩
        cases name with
        | nil => exact absurd (List.cons.inj htext).1 hc
        | cons d name =>
          obtain ⟨rfl, hrest⟩ := List.cons.inj htext
          have hfound := ih.mpr ⟨hrest, fun hmem => hname (List.mem_cons_of_mem _ hmem)⟩
          rw [hfound]
          rfl

theorem takeField_eq_some {name : String} (hname : '=' ∉ name.toList) {fields rest : List (List Char)}
    {value : List Char} : takeField name fields = some (value, rest) ↔
      fields = field name value :: rest ∧ value ≠ [] := by
  unfold takeField field
  cases fields with
  | nil => exact iff_of_false (fun h => (by cases h)) fun h => (by cases h.1)
  | cons next fields =>
    dsimp only
    constructor
    · intro h
      split at h
      · cases h
      · rename_i actual found hsplit
        split at h
        · rename_i hsame
          obtain ⟨rfl, rfl⟩ := Prod.mk.inj (Option.some.inj h)
          rw [(splitOnce_eq_some.mp hsplit).1, hsame.1]
          exact ⟨rfl, hsame.2⟩
        · cases h
    · rintro ⟨hfields, hvalue⟩
      obtain ⟨rfl, rfl⟩ := List.cons.inj hfields
      rw [splitOnce_eq_some.mpr ⟨rfl, hname⟩]
      exact if_pos ⟨rfl, hvalue⟩

structure Parses (parse : List Char → Option α) (value : α → Value) : Prop where
  spelled : ∀ text a, parse text = some a ↔ (value a).Spells text
  nonempty : ∀ a, ¬ (value a).Spells []

theorem parseU32_parses : Parses parseU32 fun n => .number n.toNat := by
  refine ⟨fun text n => ?_, fun n h => Decimal.Spells.ne_nil h rfl⟩
  have hsize : 0 < UInt32.size := by decide
  unfold parseU32
  rw [Option.map_eq_some_iff]
  constructor
  · rintro ⟨k, hk, rfl⟩
    obtain ⟨hlt, hspells⟩ := (Decimal.parse_eq_some hsize).mp hk
    show Decimal.Spells text (UInt32.ofNat k).toNat
    rw [UInt32.toNat_ofNat_of_lt' hlt]
    exact hspells
  · intro hspells
    exact ⟨n.toNat, (Decimal.parse_eq_some hsize).mpr ⟨n.toNat_lt, hspells⟩, UInt32.ofNat_toNat⟩

theorem parseU64_parses : Parses parseU64 fun n => .number n.toNat := by
  refine ⟨fun text n => ?_, fun n h => Decimal.Spells.ne_nil h rfl⟩
  have hsize : 0 < UInt64.size := by decide
  unfold parseU64
  rw [Option.map_eq_some_iff]
  constructor
  · rintro ⟨k, hk, rfl⟩
    obtain ⟨hlt, hspells⟩ := (Decimal.parse_eq_some hsize).mp hk
    show Decimal.Spells text (UInt64.ofNat k).toNat
    rw [UInt64.toNat_ofNat_of_lt' hlt]
    exact hspells
  · intro hspells
    exact ⟨n.toNat, (Decimal.parse_eq_some hsize).mpr ⟨n.toNat_lt, hspells⟩, UInt64.ofNat_toNat⟩

theorem parseFlag_parses : Parses parseFlag fun b => .word (flag b) := by
  refine ⟨fun text b => ?_, fun b h => (by cases b <;> cases h)⟩
  show _ ↔ text = flag b
  unfold parseFlag flag
  by_cases hzero : text = ['0']
  · subst hzero
    cases b <;> decide
  · by_cases hone : text = ['1']
    · subst hone
      cases b <;> decide
    · rw [if_neg hzero, if_neg hone]
      refine iff_of_false (fun h => (by cases h)) fun h => ?_
      cases b with
      | true => exact hone h
      | false => exact hzero h

theorem kind_parse_asStr (kind : FixtureCommandKind) :
    FixtureCommandKind.parse kind.asStr = some kind := by
  cases kind <;> rfl

theorem kind_of_parse {text : String} {kind : FixtureCommandKind}
    (h : FixtureCommandKind.parse text = some kind) : text = kind.asStr := by
  unfold FixtureCommandKind.parse at h
  split at h <;> cases h <;> rfl

theorem parseKind_parses :
    Parses (fun value => FixtureCommandKind.parse (String.ofList value))
      fun kind => .word kind.asStr.toList := by
  have hne : ∀ kind : FixtureCommandKind, [] ≠ kind.asStr.toList := by
    intro kind
    cases kind <;> decide
  refine ⟨fun text kind => ?_, fun kind h => hne kind h⟩
  show _ ↔ text = kind.asStr.toList
  constructor
  · intro h
    rw [← kind_of_parse h, String.toList_ofList]
  · rintro rfl
    show FixtureCommandKind.parse (String.ofList kind.asStr.toList) = some kind
    rw [String.ofList_toList]
    exact kind_parse_asStr kind

/-! ### Fields in a row -/

/-- The parser reads exactly the fields that are described for a value. -/
def Yields (p : Fields α) (specs : α → List Spec → Prop) : Prop :=
  ∀ fields a, p.run' fields = some a ↔ ∃ l, specs a l ∧ List.Forall₂ Spelled fields l

theorem Yields.congr {p : Fields α} {specs specs' : α → List Spec → Prop} (h : Yields p specs)
    (hsame : ∀ a l, specs a l ↔ specs' a l) : Yields p specs' := by
  intro fields a
  rw [h fields a]
  exact exists_congr fun l => and_congr_left fun _ => hsame a l

theorem yields_end (a : α) : Yields (do noMore; pure a) fun b specs => b = a ∧ specs = [] := by
  intro fields b
  have hrun : (do noMore; pure a : Fields α).run' fields = if fields = [] then some a else none := by
    show ((noMore fields).bind fun x => (pure (a, x.2) : Option _)).map Prod.fst = _
    unfold noMore
    split <;> rfl
  rw [hrun]
  constructor
  · intro h
    split at h
    · rename_i hnil
      subst hnil
      exact ⟨[], ⟨(Option.some.inj h).symm, rfl⟩, .nil⟩
    · cases h
  · rintro ⟨l, ⟨rfl, rfl⟩, hfields⟩
    cases hfields
    rfl

theorem yields_guard {c : Prop} [Decidable c] {p : Fields α} {specs : α → List Spec → Prop}
    (h : Yields p specs) : Yields (do guard c; p) fun a l => c ∧ specs a l := by
  intro fields a
  by_cases hc : c
  · have hrun : (do guard c; p : Fields α).run' fields = p.run' fields := by
      unfold guard
      rw [if_pos hc]
      rfl
    rw [hrun, h fields a]
    exact ⟨fun ⟨l, hl, hfields⟩ => ⟨l, ⟨hc, hl⟩, hfields⟩, fun ⟨l, hl, hfields⟩ => ⟨l, hl.2, hfields⟩⟩
  · have hrun : (do guard c; p : Fields α).run' fields = none := by
      unfold guard
      rw [if_neg hc]
      rfl
    rw [hrun]
    exact iff_of_false (fun h => (by cases h)) fun ⟨l, hl, _⟩ => hc hl.1

theorem yields_take (name : String) {parse : List Char → Option β} {value : β → Value}
    (hname : '=' ∉ name.toList) (hparse : Parses parse value) {q : β → Fields α}
    {specs : β → α → List Spec → Prop} (h : ∀ b, Yields (q b) (specs b)) :
    Yields (do let b ← takeParsed name parse; q b) fun a l =>
      ∃ b tail, specs b a tail ∧ l = (name, value b) :: tail := by
  intro fields a
  have hrun : (do let b ← takeParsed name parse; q b : Fields α).run' fields =
      (takeField name fields).bind fun x => (parse x.1).bind fun b => (q b).run' x.2 := by
    show (((takeField name fields).bind fun x =>
      ((parse x.1).bind fun b => some (b, x.2)) : Option _).bind fun x => (q x.1) x.2).map Prod.fst = _
    cases takeField name fields with
    | none => rfl
    | some x =>
      obtain ⟨text, rest⟩ := x
      show (((parse text).bind fun b => some (b, rest)).bind fun x => (q x.1) x.2).map Prod.fst =
        (parse text).bind fun b => ((q b) rest).map Prod.fst
      cases parse text <;> rfl
  rw [hrun, Option.bind_eq_some_iff]
  constructor
  · rintro ⟨⟨text, rest⟩, htake, hrest⟩
    obtain ⟨b, hb, hq⟩ := Option.bind_eq_some_iff.mp hrest
    obtain ⟨rfl, -⟩ := (takeField_eq_some hname).mp htake
    obtain ⟨l, hl, hfields⟩ := (h b rest a).mp hq
    exact ⟨_, ⟨b, l, hl, rfl⟩, .cons ⟨text, rfl, (hparse.spelled text b).mp hb⟩ hfields⟩
  · rintro ⟨_, ⟨b, tail, htail, rfl⟩, hfields⟩
    obtain ⟨_, _, ⟨text, rfl, hspells⟩, hrest, rfl⟩ := List.forall₂_cons_right_iff.mp hfields
    have hne : text ≠ [] := by
      rintro rfl
      exact hparse.nonempty b hspells
    refine ⟨(text, _), (takeField_eq_some hname).mpr ⟨rfl, hne⟩, Option.bind_eq_some_iff.mpr ⟨b, ?_, ?_⟩⟩
    · exact (hparse.spelled text b).mpr hspells
    · exact (h b _ a).mpr ⟨tail, htail, hrest⟩

end Fields

/-! ### Values -/

structure FixtureCommand.Valid (c : FixtureCommand) : Prop where
  run : c.runNonce ≠ 0
  nonce : c.nonce ≠ 0
  tag : c.eventPayloadTag ≠ 0 → c.kind = .resetEvents
  visual : c.kind = .setVisualAbsent ∨ c.kind = .setVisualVisible → c.nonce.toNat < 2 ^ 32

def EventTotals.count (e : EventTotals) : ℕ :=
  e.pointerMoves.toNat + e.pointerPresses.toNat + e.pointerReleases.toNat + e.pointerScrolls.toNat +
    e.keyDowns.toNat + e.keyUps.toNat + e.flagsChanged.toNat

structure FixtureCommandResult.Valid (r : FixtureCommandResult) : Prop where
  run : r.runNonce ≠ 0
  nonce : r.nonce ≠ 0
  events : r.events.count ≤ maxRecordedEvents

structure EventSummary.Valid (s : EventSummary) : Prop where
  kind : 1 ≤ s.kind.toNat ∧ s.kind.toNat ≤ 7
  units : s.textUnits ≤ maxEventTextUnits

theorem eventCount_toNat (e : EventTotals) : e.eventCount.toNat = e.count := by
  have h₁ := e.pointerMoves.toNat_lt
  have h₂ := e.pointerPresses.toNat_lt
  have h₃ := e.pointerReleases.toNat_lt
  have h₄ := e.pointerScrolls.toNat_lt
  have h₅ := e.keyDowns.toNat_lt
  have h₆ := e.keyUps.toNat_lt
  have h₇ := e.flagsChanged.toNat_lt
  unfold EventTotals.eventCount EventTotals.count
  simp only [UInt64.toNat_add, UInt32.toNat_toUInt64]
  omega

theorem knownKind_iff {kind : UInt32} : KnownKind kind ↔ 1 ≤ kind.toNat ∧ kind.toNat ≤ 7 := by
  have hkind : ∀ k : UInt32, kind = k ↔ kind.toNat = k.toNat := fun k => UInt32.toNat_inj.symm
  unfold KnownKind
  simp only [hkind]
  show (kind.toNat = 1 ∨ kind.toNat = 2 ∨ kind.toNat = 3 ∨ kind.toNat = 4 ∨ kind.toNat = 5 ∨
    kind.toNat = 6 ∨ kind.toNat = 7) ↔ _
  omega

theorem visualToken_eq_none {kind : FixtureCommandKind} {nonce : UInt64}
    (hvisual : kind = .setVisualAbsent ∨ kind = .setVisualVisible) (hnonce : nonce ≠ 0) :
    visualTokenForCommand kind nonce = none ↔ ¬ nonce.toNat < 2 ^ 32 := by
  unfold visualTokenForCommand
  rw [if_neg (not_not.mpr hvisual)]
  by_cases hlt : nonce.toNat < UInt32.size
  · have hpos : nonce.toNat ≠ 0 := fun hzero => hnonce (UInt64.toNat_inj.mp hzero)
    have htoken : nonce.toUInt32 ≠ 0 := by
      intro hzero
      have hval := congrArg UInt32.toNat hzero
      rw [UInt64.toNat_toUInt32] at hval
      have hsize : UInt32.size = 2 ^ 32 := rfl
      have hz : (0 : UInt32).toNat = 0 := rfl
      omega
    rw [if_pos hlt]
    dsimp only
    rw [if_pos htoken]
    exact iff_of_false (fun h => (by cases h)) (not_not.mpr hlt)
  · rw [if_neg hlt]
    exact iff_of_true rfl hlt

theorem command_valid_iff (c : FixtureCommand) :
    (¬ (c.runNonce = 0 ∨ c.nonce = 0 ∨ c.eventPayloadTag ≠ 0 ∧ c.kind ≠ .resetEvents ∨
      (c.kind = .setVisualAbsent ∨ c.kind = .setVisualVisible) ∧
        visualTokenForCommand c.kind c.nonce = none)) ↔ c.Valid := by
  constructor
  · intro h
    simp only [not_or] at h
    obtain ⟨hrun, hnonce, htag, hvisual⟩ := h
    refine ⟨hrun, hnonce, fun hne => ?_, fun hkind => ?_⟩
    · by_contra hreset
      exact htag ⟨hne, hreset⟩
    · by_contra hlarge
      exact hvisual ⟨hkind, (visualToken_eq_none hkind hnonce).mpr hlarge⟩
  · rintro ⟨hrun, hnonce, htag, hvisual⟩ (hzero | hzero | ⟨hne, hreset⟩ | ⟨hkind, hnone⟩)
    · exact hrun hzero
    · exact hnonce hzero
    · exact hreset (htag hne)
    · exact (visualToken_eq_none hkind hnonce).mp hnone (hvisual hkind)

/-! ### The three parsers -/

theorem eventFields_yields : Yields eventFields fun v l => v.1 ≠ 0 ∧ v.2.Valid ∧ l = eventSpec v.1 v.2 := by
  refine Yields.congr (yields_take "run" (by decide) parseU64_parses fun runNonce =>
    yields_take "correlation" (by decide) parseU32_parses fun correlation =>
    yields_take "kind" (by decide) parseU32_parses fun kind =>
    yields_take "units" (by decide) parseU32_parses fun textUnits =>
    yields_guard (yields_end (runNonce, (⟨kind, textUnits, correlation⟩ : EventSummary)))) fun v l => ?_
  constructor
  · rintro ⟨runNonce, _, ⟨correlation, _, ⟨kind, _, ⟨textUnits, _, ⟨⟨hrun, hkind, hunits⟩, rfl, rfl⟩, rfl⟩,
      rfl⟩, rfl⟩, rfl⟩
    exact ⟨hrun, ⟨knownKind_iff.mp hkind, hunits⟩, rfl⟩
  · rintro ⟨hrun, ⟨hkind, hunits⟩, rfl⟩
    exact ⟨v.1, _, ⟨v.2.correlation, _, ⟨v.2.kind, _, ⟨v.2.textUnits, _,
      ⟨⟨hrun, knownKind_iff.mpr hkind, hunits⟩, rfl, rfl⟩, rfl⟩, rfl⟩, rfl⟩, rfl⟩

theorem commandFields_yields : Yields commandFields fun c l => c.Valid ∧ l = commandSpec c := by
  refine Yields.congr (yields_take "version" (by decide) parseU32_parses fun version =>
    yields_guard (yields_take "run" (by decide) parseU64_parses fun runNonce =>
    yields_take "nonce" (by decide) parseU64_parses fun nonce =>
    yields_take "event-tag" (by decide) parseU64_parses fun eventPayloadTag =>
    yields_take "action" (by decide) parseKind_parses fun kind =>
    yields_guard (yields_end (⟨runNonce, nonce, eventPayloadTag, kind⟩ : FixtureCommand)))) fun c l => ?_
  constructor
  · rintro ⟨version, _, ⟨rfl, runNonce, _, ⟨nonce, _, ⟨tag, _, ⟨kind, _, ⟨hvalid, rfl, rfl⟩, rfl⟩, rfl⟩,
      rfl⟩, rfl⟩, rfl⟩
    exact ⟨(command_valid_iff ⟨runNonce, nonce, tag, kind⟩).mp hvalid, rfl⟩
  · rintro ⟨hvalid, rfl⟩
    exact ⟨fixtureControlVersion, _, ⟨rfl, c.runNonce, _, ⟨c.nonce, _, ⟨c.eventPayloadTag, _, ⟨c.kind, _,
      ⟨(command_valid_iff c).mpr hvalid, rfl, rfl⟩, rfl⟩, rfl⟩, rfl⟩, rfl⟩, rfl⟩

theorem commandResultFields_yields :
    Yields commandResultFields fun r l => r.Valid ∧ l = commandResultSpec r := by
  refine Yields.congr (yields_take "version" (by decide) parseU32_parses fun version =>
    yields_guard (yields_take "run" (by decide) parseU64_parses fun runNonce =>
    yields_take "nonce" (by decide) parseU64_parses fun nonce =>
    yields_take "status" (by decide) parseU32_parses fun status =>
    yields_take "before-window" (by decide) parseU64_parses fun beforeWindow =>
    yields_take "after-window" (by decide) parseU64_parses fun afterWindow =>
    yields_take "pointer-moves" (by decide) parseU32_parses fun pointerMoves =>
    yields_take "pointer-presses" (by decide) parseU32_parses fun pointerPresses =>
    yields_take "pointer-releases" (by decide) parseU32_parses fun pointerReleases =>
    yields_take "pointer-scrolls" (by decide) parseU32_parses fun pointerScrolls =>
    yields_take "key-downs" (by decide) parseU32_parses fun keyDowns =>
    yields_take "key-ups" (by decide) parseU32_parses fun keyUps =>
    yields_take "flags-changed" (by decide) parseU32_parses fun flagsChanged =>
    yields_take "text-units" (by decide) parseU64_parses fun textUnits =>
    yields_take "saturated" (by decide) parseFlag_parses fun saturated =>
    yields_take "event-correlation" (by decide) parseU32_parses fun eventCorrelation =>
    yields_take "event-payload-matches" (by decide) parseFlag_parses fun eventPayloadMatches =>
    yields_guard (yields_end (⟨runNonce, nonce, status, beforeWindow, afterWindow, eventCorrelation,
      eventPayloadMatches, ⟨pointerMoves, pointerPresses, pointerReleases, pointerScrolls, keyDowns,
        keyUps, flagsChanged, textUnits, saturated⟩⟩ : FixtureCommandResult)))) fun r l => ?_
  constructor
  · rintro ⟨version, _, ⟨rfl, runNonce, _, ⟨nonce, _, ⟨status, _, ⟨before, _, ⟨after, _, ⟨moves, _,
      ⟨presses, _, ⟨releases, _, ⟨scrolls, _, ⟨downs, _, ⟨ups, _, ⟨flags, _, ⟨units, _, ⟨saturated, _,
      ⟨correlation, _, ⟨payload, _, ⟨⟨hrun, hnonce, hcount⟩, rfl, rfl⟩, rfl⟩, rfl⟩, rfl⟩, rfl⟩, rfl⟩, rfl⟩,
      rfl⟩, rfl⟩, rfl⟩, rfl⟩, rfl⟩, rfl⟩, rfl⟩, rfl⟩, rfl⟩, rfl⟩, rfl⟩
    rw [eventCount_toNat] at hcount
    exact ⟨⟨hrun, hnonce, hcount⟩, rfl⟩
  · rintro ⟨⟨hrun, hnonce, hcount⟩, rfl⟩
    rw [← eventCount_toNat] at hcount
    exact ⟨fixtureControlVersion, _, ⟨rfl, r.runNonce, _, ⟨r.nonce, _, ⟨r.status, _, ⟨r.beforeWindow, _,
      ⟨r.afterWindow, _, ⟨r.events.pointerMoves, _, ⟨r.events.pointerPresses, _,
      ⟨r.events.pointerReleases, _, ⟨r.events.pointerScrolls, _, ⟨r.events.keyDowns, _,
      ⟨r.events.keyUps, _, ⟨r.events.flagsChanged, _, ⟨r.events.textUnits, _, ⟨r.events.saturated, _,
      ⟨r.eventCorrelation, _, ⟨r.eventPayloadMatches, _, ⟨⟨hrun, hnonce, hcount⟩, rfl, rfl⟩, rfl⟩, rfl⟩,
      rfl⟩, rfl⟩, rfl⟩, rfl⟩, rfl⟩, rfl⟩, rfl⟩, rfl⟩, rfl⟩, rfl⟩, rfl⟩, rfl⟩, rfl⟩, rfl⟩, rfl⟩

/-! ### Lines -/

section Lines

variable {α : Type} {head : String} {line : List Char} {specs : List Spec}

def Plain (spec : Spec) : Prop := ∀ c ∈ field spec.1 spec.2.format, isWhitespace c = false

theorem spelled_format (spec : Spec) : Spelled (field spec.1 spec.2.format) spec := by
  refine ⟨_, rfl, ?_⟩
  cases spec.2 with
  | number n => exact Decimal.spells_format n
  | word w => rfl

theorem forall₂_spelled (specs : List Spec) :
    List.Forall₂ Spelled (specs.map fun spec => field spec.1 spec.2.format) specs := by
  induction specs with
  | nil => exact .nil
  | cons spec specs ih => exact .cons (spelled_format spec) ih

theorem join_cons (word : List Char) {words : List (List Char)} (h : words ≠ []) :
    join (word :: words) = word ++ ' ' :: join words := by
  obtain ⟨next, words, rfl⟩ := List.exists_cons_of_ne_nil h
  unfold join
  rw [List.intercalate_cons_cons, List.append_assoc]
  rfl

theorem fieldsOf_eq_some {fields : List (List Char)} : fieldsOf head line = some fields ↔
    ∃ rest, trimEnd line = head.toList ++ ' ' :: rest ∧ fields = rest.splitOn ' ' := by
  unfold fieldsOf stripPrefix
  rw [Option.map_eq_some_iff]
  constructor
  · rintro ⟨rest, hrest, rfl⟩
    split at hrest
    · rename_i hprefix
      obtain ⟨after, hafter⟩ := hprefix
      obtain rfl := Option.some.inj hrest
      refine ⟨after, ?_, ?_⟩
      · rw [← hafter, List.append_assoc]
        rfl
      · rw [← hafter, List.drop_left]
    · cases hrest
  · rintro ⟨rest, hline, rfl⟩
    have hsplit : trimEnd line = (head.toList ++ [' ']) ++ rest := by
      rw [hline, List.append_assoc]
      rfl
    refine ⟨rest, ?_, rfl⟩
    rw [hsplit, if_pos (List.prefix_append _ _), List.drop_left]

theorem line_alike {p : Fields α} {valid : α → Prop} {spec : α → List Spec}
    (hp : Yields p fun a l => valid a ∧ l = spec a) {a : α}
    (h : (fieldsOf head line).bind (fun fields => p.run' fields) = some a) :
    valid a ∧ Alike line head (spec a) := by
  obtain ⟨fields, hfields, hrun⟩ := Option.bind_eq_some_iff.mp h
  obtain ⟨rest, hline, rfl⟩ := fieldsOf_eq_some.mp hfields
  obtain ⟨_, ⟨hvalid, rfl⟩, hspelled⟩ := (hp _ a).mp hrun
  refine ⟨hvalid, _, line.rtakeWhile isWhitespace, ?_, fun c hc => List.mem_rtakeWhile_imp hc, hspelled⟩
  rw [join_cons _ (List.splitOn_ne_nil _ _)]
  unfold join
  rw [List.intercalate_splitOn, ← hline]
  exact List.rdropWhile_append_rtakeWhile.symm

theorem record_read {p : Fields α} {valid : α → Prop} {spec : α → List Spec}
    (hp : Yields p fun a l => valid a ∧ l = spec a) {a : α} (hvalid : valid a)
    (hplain : ∀ s ∈ spec a, Plain s) (hne : spec a ≠ []) :
    (fieldsOf head (record head (spec a))).bind (fun fields => p.run' fields) = some a := by
  have hblank : ∀ word ∈ (spec a).map fun s => field s.1 s.2.format, ∀ c ∈ word, isWhitespace c = false := by
    intro word hword c hc
    obtain ⟨s, hs, rfl⟩ := List.mem_map.mp hword
    exact hplain s hs c hc
  have hwords : ((spec a).map fun s => field s.1 s.2.format) ≠ [] := by
    simpa using hne
  have hshape : record head (spec a) =
      head.toList ++ ' ' :: join ((spec a).map fun s => field s.1 s.2.format) := join_cons _ hwords
  -- the last word ends in something that is not a blank
  have htrim : trimEnd (record head (spec a)) = record head (spec a) := by
    refine List.rdropWhile_eq_self_iff.mpr fun hnil => ?_
    have hfull : ∀ word ∈ (spec a).map fun s => field s.1 s.2.format, word ≠ [] := by
      intro word hword
      obtain ⟨s, -, rfl⟩ := List.mem_map.mp hword
      exact List.append_ne_nil_of_right_ne_nil _ (List.cons_ne_nil _ _)
    obtain ⟨word, hword, hlast⟩ : ∃ word ∈ (spec a).map fun s => field s.1 s.2.format,
        (join ((spec a).map fun s => field s.1 s.2.format)).getLast? = word.getLast? :=
      Segments.getLast?_intercalate hfull hwords
    have hjoin : join ((spec a).map fun s => field s.1 s.2.format) ≠ [] :=
      Segments.intercalate_ne_nil hfull hwords
    have hrecord : (record head (spec a)).getLast? = word.getLast? := by
      rw [hshape, List.getLast?_append_of_ne_nil _ (List.cons_ne_nil _ _),
        List.getLast?_cons_of_ne_nil hjoin, hlast]
    rw [List.getLast?_eq_some_getLast hnil] at hrecord
    rw [hblank word hword _ (List.mem_of_getLast? hrecord.symm)]
    exact Bool.false_ne_true
  refine Option.bind_eq_some_iff.mpr ⟨_, fieldsOf_eq_some.mpr ⟨_, htrim.trans hshape, rfl⟩, ?_⟩
  rw [hp]
  refine ⟨_, ⟨hvalid, rfl⟩, ?_⟩
  unfold join
  rw [List.splitOn_intercalate _ (fun word hword hmem => ?_) hwords]
  · exact forall₂_spelled (spec a)
  · have := hblank word hword ' ' hmem
    exact absurd this (by decide)

end Lines

/-! ### Plain fields -/

section Plain

theorem plain_digit {c : Char} (h : c.isDigit = true) : isWhitespace c = false := by
  obtain ⟨hlow, hhigh⟩ := Char.isDigit_iff_toNat.mp h
  have hzero : '0'.toNat = 48 := rfl
  have hnine : '9'.toNat = 57 := rfl
  unfold isWhitespace
  simp only [Bool.or_eq_false_iff, Bool.and_eq_false_iff, decide_eq_false_iff_not, beq_eq_false_iff_ne]
  omega

theorem plain_field {name : String} {value : Value}
    (hname : name.toList.all (!isWhitespace ·) = true) (hvalue : ∀ c ∈ value.format, isWhitespace c = false) :
    Plain (name, value) := by
  intro c hc
  rcases List.mem_append.mp hc with hc | hc
  · have h := List.all_eq_true.mp hname c hc
    rwa [Bool.not_eq_true'] at h
  · rcases List.mem_cons.mp hc with rfl | hc
    · decide
    · exact hvalue c hc

theorem plain_number {name : String} {n : ℕ} (hname : name.toList.all (!isWhitespace ·) = true) :
    Plain (name, .number n) :=
  plain_field hname fun _ hc => plain_digit (Decimal.isDigit_format hc)

theorem plain_flag {name : String} {b : Bool} (hname : name.toList.all (!isWhitespace ·) = true) :
    Plain (name, .word (flag b)) := by
  refine plain_field hname fun c hc => ?_
  cases b with
  | true =>
    rw [List.mem_singleton.mp hc]
    rfl
  | false =>
    rw [List.mem_singleton.mp hc]
    rfl

theorem eventSpec_plain (runNonce : UInt64) (summary : EventSummary) :
    ∀ s ∈ eventSpec runNonce summary, Plain s := by
  unfold eventSpec
  simp only [List.forall_mem_cons]
  exact ⟨plain_number (by decide), plain_number (by decide), plain_number (by decide),
    plain_number (by decide), fun s hs => absurd hs List.not_mem_nil⟩

theorem commandSpec_plain (command : FixtureCommand) : ∀ s ∈ commandSpec command, Plain s := by
  have hkind : ∀ c ∈ command.kind.asStr.toList, isWhitespace c = false := by
    have hall : command.kind.asStr.toList.all (!isWhitespace ·) = true := by
      cases command.kind <;> decide
    intro c hc
    have h := List.all_eq_true.mp hall c hc
    rwa [Bool.not_eq_true'] at h
  unfold commandSpec
  simp only [List.forall_mem_cons]
  exact ⟨plain_number (by decide), plain_number (by decide), plain_number (by decide),
    plain_number (by decide), plain_field (by decide) hkind, fun s hs => absurd hs List.not_mem_nil⟩

theorem commandResultSpec_plain (result : FixtureCommandResult) :
    ∀ s ∈ commandResultSpec result, Plain s := by
  unfold commandResultSpec
  simp only [List.forall_mem_cons]
  exact ⟨plain_number (by decide), plain_number (by decide), plain_number (by decide),
    plain_number (by decide), plain_number (by decide), plain_number (by decide),
    plain_number (by decide), plain_number (by decide), plain_number (by decide),
    plain_number (by decide), plain_number (by decide), plain_number (by decide),
    plain_number (by decide), plain_number (by decide), plain_flag (by decide),
    plain_number (by decide), plain_flag (by decide), fun s hs => absurd hs List.not_mem_nil⟩

end Plain

/-! ### Lengths -/

section Lengths

def fieldBytes (spec : Spec) : ℕ := 2 + byteLength spec.1.toList + byteLength spec.2.format

theorem byteLength_cons (c : Char) (text : List Char) :
    byteLength (c :: text) = c.utf8Size + byteLength text := by
  unfold byteLength
  rw [List.map_cons, List.sum_cons]

theorem byteLength_record (head : String) (specs : List Spec) :
    byteLength (record head specs) = byteLength head.toList + (specs.map fieldBytes).sum := by
  have hjoin : ∀ (specs : List Spec) (word : List Char),
      byteLength (join (word :: specs.map fun s => field s.1 s.2.format)) =
        byteLength word + (specs.map fieldBytes).sum := by
    intro specs
    induction specs with
    | nil =>
      intro word
      have hone : join [word] = word := List.intercalate_singleton ..
      rw [List.map_nil, hone]
      rfl
    | cons spec specs ih =>
      intro word
      have hblank : ' '.utf8Size = 1 := rfl
      have hequals : '='.utf8Size = 1 := rfl
      have hfield : byteLength (field spec.1 spec.2.format) + 1 = fieldBytes spec := by
        unfold field fieldBytes
        rw [byteLength_append, byteLength_cons, hequals]
        omega
      rw [List.map_cons, join_cons _ (List.cons_ne_nil _ _), byteLength_append, byteLength_cons, ih,
        hblank, List.map_cons, List.sum_cons]
      omega
  exact hjoin specs head.toList

theorem byteLength_format (n : ℕ) : byteLength (Decimal.format n) = (Decimal.format n).length := by
  have hdigits : ∀ text : List Char, (∀ c ∈ text, c.isDigit = true) → byteLength text = text.length := by
    intro text
    induction text with
    | nil => exact fun _ => rfl
    | cons c text ih =>
      intro h
      rw [List.forall_mem_cons] at h
      have hone : c.utf8Size = 1 := by
        obtain ⟨-, hhigh⟩ := Char.isDigit_iff_toNat.mp h.1
        have hnine : '9'.toNat = 57 := rfl
        refine Char.utf8Size_eq_one_iff.mpr (UInt32.le_iff_toNat_le.mpr ?_)
        show c.toNat ≤ 127
        omega
      rw [byteLength_cons, ih h.2, hone, List.length_cons]
      omega
  exact hdigits _ fun c hc => Decimal.isDigit_format hc

variable {name : String} {k : ℕ}

theorem number32_le (hk : byteLength name.toList = k) (n : UInt32) :
    fieldBytes (name, .number n.toNat) ≤ k + 12 := by
  have hlength : (Decimal.format n.toNat).length ≤ 10 :=
    Decimal.length_format_le (by decide) (lt_trans n.toNat_lt (by decide))
  show 2 + byteLength name.toList + byteLength (Decimal.format n.toNat) ≤ _
  rw [byteLength_format]
  omega

theorem number64_le (hk : byteLength name.toList = k) (n : UInt64) :
    fieldBytes (name, .number n.toNat) ≤ k + 22 := by
  have hlength : (Decimal.format n.toNat).length ≤ 20 :=
    Decimal.length_format_le (by decide) (lt_trans n.toNat_lt (by decide))
  show 2 + byteLength name.toList + byteLength (Decimal.format n.toNat) ≤ _
  rw [byteLength_format]
  omega

theorem flag_le (hk : byteLength name.toList = k) (b : Bool) :
    fieldBytes (name, .word (flag b)) ≤ k + 3 := by
  have hone : byteLength (flag b) = 1 := by cases b <;> rfl
  show 2 + byteLength name.toList + byteLength (flag b) ≤ _
  omega

theorem sum_fieldBytes_le {specs : List Spec} {widths : List ℕ}
    (h : List.Forall₂ (fun spec width => fieldBytes spec ≤ width) specs widths) :
    (specs.map fieldBytes).sum ≤ widths.sum := by
  induction h with
  | nil => exact le_rfl
  | cons hle _ ih =>
    rw [List.map_cons, List.sum_cons, List.sum_cons]
    exact Nat.add_le_add hle ih

theorem record_fits {head : String} {specs : List Spec} (widths : List ℕ)
    (h : List.Forall₂ (fun spec width => fieldBytes spec ≤ width) specs widths)
    (hsum : byteLength head.toList + widths.sum ≤ maxControlLineBytes) :
    byteLength (record head specs) ≤ maxControlLineBytes := by
  rw [byteLength_record]
  exact le_trans (Nat.add_le_add_left (sum_fieldBytes_le h) _) hsum

theorem event_fits (runNonce : UInt64) (summary : EventSummary) :
    byteLength (formatEventLine runNonce summary) ≤ maxControlLineBytes := by
  rw [formatEventLine_eq]
  exact record_fits [3 + 22, 11 + 12, 4 + 12, 5 + 12]
    (.cons (number64_le rfl _) <| .cons (number32_le rfl _) <| .cons (number32_le rfl _) <|
      .cons (number32_le rfl _) .nil) (by decide)

theorem command_fits (command : FixtureCommand) :
    byteLength (formatCommandLine command) ≤ maxControlLineBytes := by
  have hkind : fieldBytes ("action", .word command.kind.asStr.toList) ≤ 6 + 23 := by
    cases command.kind <;> decide
  rw [formatCommandLine_eq]
  exact record_fits [7 + 12, 3 + 22, 5 + 22, 9 + 22, 6 + 23]
    (.cons (number32_le rfl _) <| .cons (number64_le rfl _) <| .cons (number64_le rfl _) <|
      .cons (number64_le rfl _) <| .cons hkind .nil) (by decide)

theorem commandResult_fits (result : FixtureCommandResult) :
    byteLength (formatCommandResultLine result) ≤ maxControlLineBytes := by
  rw [formatCommandResultLine_eq]
  exact record_fits [7 + 12, 3 + 22, 5 + 22, 6 + 12, 13 + 22, 12 + 22, 13 + 12, 15 + 12, 16 + 12, 15 + 12,
      9 + 12, 7 + 12, 13 + 12, 10 + 22, 9 + 3, 17 + 12, 21 + 3]
    (.cons (number32_le rfl _) <| .cons (number64_le rfl _) <| .cons (number64_le rfl _) <|
      .cons (number32_le rfl _) <| .cons (number64_le rfl _) <| .cons (number64_le rfl _) <|
      .cons (number32_le rfl _) <| .cons (number32_le rfl _) <| .cons (number32_le rfl _) <|
      .cons (number32_le rfl _) <| .cons (number32_le rfl _) <| .cons (number32_le rfl _) <|
      .cons (number32_le rfl _) <| .cons (number64_le rfl _) <| .cons (flag_le rfl _) <|
      .cons (number32_le rfl _) <| .cons (flag_le rfl _) .nil) (by decide)

end Lengths

/-! ### The records -/

theorem bounded_eq_some {α : Type} {line : List Char} {read : Option α} {a : α} :
    (if byteLength line > maxControlLineBytes then none else read) = some a ↔
      byteLength line ≤ maxControlLineBytes ∧ read = some a := by
  split
  · rename_i hlong
    exact iff_of_false (fun h => (by cases h)) fun h => absurd h.1 (by omega)
  · rename_i hshort
    exact ⟨fun h => ⟨by omega, h⟩, fun h => h.2⟩

/-- **The control records are a format.**  Every valid command, result and event is read from its line,
which fits the bound; and whatever line is read, its value is valid and the line is the line of that
value, but for the spelling of its numbers and blanks behind it. -/
theorem control_records :
    (∀ c : FixtureCommand, c.Valid → parseCommandLine (formatCommandLine c) = some c) ∧
    (∀ r : FixtureCommandResult, r.Valid →
      parseCommandResultLine (formatCommandResultLine r) = some r) ∧
    (∀ (runNonce : UInt64) (s : EventSummary), runNonce ≠ 0 → s.Valid →
      parseEventRecord (formatEventLine runNonce s) = some (runNonce, s) ∧
        parseEventLine (formatEventLine runNonce s) = some s ∧
        parseEventLineForRun (formatEventLine runNonce s) runNonce = some s) ∧
    (∀ c, byteLength (formatCommandLine c) ≤ maxControlLineBytes) ∧
    (∀ r, byteLength (formatCommandResultLine r) ≤ maxControlLineBytes) ∧
    (∀ runNonce s, byteLength (formatEventLine runNonce s) ≤ maxControlLineBytes) ∧
    (∀ line c, parseCommandLine line = some c → c.Valid ∧
      formatCommandLine c = record "fixture-command" (commandSpec c) ∧
        Alike line "fixture-command" (commandSpec c)) ∧
    (∀ line r, parseCommandResultLine line = some r → r.Valid ∧
      formatCommandResultLine r = record "fixture-command-result" (commandResultSpec r) ∧
        Alike line "fixture-command-result" (commandResultSpec r)) ∧
    (∀ line runNonce s, parseEventRecord line = some (runNonce, s) → runNonce ≠ 0 ∧ s.Valid ∧
      formatEventLine runNonce s = record "event" (eventSpec runNonce s) ∧
        Alike line "event" (eventSpec runNonce s)) ∧
    (∀ line runNonce s, parseEventLineForRun line runNonce = some s ↔
      parseEventRecord line = some (runNonce, s)) ∧
    ∀ line s, parseEventLine line = some s ↔ ∃ runNonce, parseEventRecord line = some (runNonce, s) := by
  have hevent : Yields eventFields fun v l => (v.1 ≠ 0 ∧ v.2.Valid) ∧ l = eventSpec v.1 v.2 :=
    eventFields_yields.congr fun _ _ => and_assoc.symm
  have hread : ∀ (runNonce : UInt64) (s : EventSummary), runNonce ≠ 0 → s.Valid →
      parseEventRecord (formatEventLine runNonce s) = some (runNonce, s) := fun runNonce s hrun hs =>
    record_read hevent (a := (runNonce, s)) ⟨hrun, hs⟩ (eventSpec_plain runNonce s) (List.cons_ne_nil _ _)
  refine ⟨fun c hc => ?_, fun r hr => ?_, fun runNonce s hrun hs => ?_, command_fits, commandResult_fits,
    event_fits, fun line c h => ?_, fun line r h => ?_, fun line runNonce s h => ?_,
    fun line runNonce s => ?_, fun line s => ?_⟩
  · exact bounded_eq_some.mpr ⟨command_fits c,
      record_read commandFields_yields hc (commandSpec_plain c) (List.cons_ne_nil _ _)⟩
  · exact bounded_eq_some.mpr ⟨commandResult_fits r,
      record_read commandResultFields_yields hr (commandResultSpec_plain r) (List.cons_ne_nil _ _)⟩
  · have h := hread runNonce s hrun hs
    unfold parseEventLine parseEventLineForRun
    rw [h]
    exact ⟨rfl, rfl, if_pos rfl⟩
  · obtain ⟨hvalid, halike⟩ := line_alike commandFields_yields (bounded_eq_some.mp h).2
    exact ⟨hvalid, rfl, halike⟩
  · obtain ⟨hvalid, halike⟩ := line_alike commandResultFields_yields (bounded_eq_some.mp h).2
    exact ⟨hvalid, rfl, halike⟩
  · obtain ⟨⟨hrun, hvalid⟩, halike⟩ := line_alike hevent h
    exact ⟨hrun, hvalid, rfl, halike⟩
  · unfold parseEventLineForRun
    cases hline : parseEventRecord line with
    | none => exact iff_of_false (fun h => (by cases h)) fun h => (by cases h)
    | some v =>
      obtain ⟨observed, summary⟩ := v
      show (if observed = runNonce then some summary else none) = some s ↔ _
      constructor
      · intro h
        split at h
        · rename_i hsame
          rw [hsame, Option.some.inj h]
        · cases h
      · intro h
        obtain ⟨rfl, rfl⟩ := Prod.mk.inj (Option.some.inj h)
        exact if_pos rfl
  · unfold parseEventLine
    rw [Option.map_eq_some_iff]
    constructor
    · rintro ⟨⟨runNonce, summary⟩, h, rfl⟩
      exact ⟨runNonce, h⟩
    · rintro ⟨runNonce, h⟩
      exact ⟨_, h, rfl⟩

def transitionCommand : FixtureCommand := ⟨99, 7, 0, .transition⟩

/-- The transition is read from its line. -/
theorem control_records_transition :
    String.ofList (formatCommandLine transitionCommand) =
        "fixture-command version=13 run=99 nonce=7 event-tag=0 action=transition" ∧
      parseCommandLine (formatCommandLine transitionCommand) = some transitionCommand :=
  ⟨by decide, control_records.1 transitionCommand
    ⟨by decide, by decide, fun htag => absurd rfl htag, fun hvisual => (by
      rcases hvisual with hkind | hkind <;> cases hkind)⟩⟩

end MadoPilot.Platform.MacosFixture
