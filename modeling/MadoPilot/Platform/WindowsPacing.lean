import Mathlib.Order.Bounds.Basic
import MadoPilot.Capture.Pacing
import MadoPilot.Lib.Dialogue

/-!
# Native capture pacing on Windows

Before a capture starts, its minimum interval is negotiated: the optional control interface is
queried, the metadata says whether its property is there, the interval is set and read back.  Each of
these calls may answer anything and take any time; the operation's context is read before the first
and after every one.

* `intervalTicks_eq_ok` : the ticks of an interval are the fewest that are not shorter;
* `negotiate_spoken` : the ways a negotiation can go, whatever the host answers;
* `negotiate_watchful` : the context is read at once after every native call;
* `pacing_negotiation` : what is reported is true.
-/

namespace MadoPilot.Platform.WindowsPacing

open MadoPilot.Core MadoPilot.Capture MadoPilot.Lib

/-! ### Ticks -/

def nanosPerTick : ℕ := 100

def ticksPerSecond : ℕ := 10000000

def u128Max : ℕ := 2 ^ 128 - 1

def i64TryFrom (n : ℕ) : Option Int64 := if n < 2 ^ 63 then some (Int64.ofNat n) else none

def u64TryFrom (i : Int64) : Option ℕ := if 0 ≤ i.toInt then some i.toInt.toNat else none

def u32TryFrom (n : ℕ) : Option ℕ := if n < 2 ^ 32 then some n else none

def intervalTicks (interval : Duration) : Except Error Int64 :=
  if interval.isZero = true then
    .error ⟨.invalidArgument, "Windows capture pacing interval must be positive"⟩
  else
    match (checkedAdd u128Max interval.asNanos (nanosPerTick - 1)).bind
        fun nanos => i64TryFrom (nanos / nanosPerTick) with
    | some ticks => .ok ticks
    | none =>
      .error ⟨.invalidArgument, "Windows capture pacing interval exceeds signed 64-bit 100ns ticks"⟩

/-- The duration of a readback; `none` is a panic. -/
def readbackDuration (configured : Int64) : Option Duration := do
  let ticks ← u64TryFrom configured
  let fraction ← checkedMul u64Max (ticks % ticksPerSecond) 100
  let nanos ← u32TryFrom fraction
  Duration.new (ticks / ticksPerSecond) nanos

section Ticks

variable {interval : Duration} {ticks configured : Int64}

theorem asNanos_rounds (interval : Duration) :
    checkedAdd u128Max interval.asNanos (nanosPerTick - 1) = some (interval.asNanos + 99) := by
  have hle := interval.asNanos_le
  refine checkedAdd_of_le (le_trans (Nat.add_le_add_right hle _) ?_)
  decide

theorem i64TryFrom_eq_some {n : ℕ} : i64TryFrom n = some ticks ↔ ticks.toInt = n := by
  unfold i64TryFrom
  constructor
  · intro h
    split_ifs at h with hlt
    obtain rfl := Option.some.inj h
    exact Int64.toInt_ofNat_of_lt hlt
  · intro h
    have hlt := ticks.toInt_lt
    have hn : n < 2 ^ 63 := by omega
    rw [if_pos hn]
    refine congrArg some (Int64.toInt.inj ?_)
    rw [h, Int64.toInt_ofNat_of_lt hn]

theorem intervalTicks_eq_ok : intervalTicks interval = .ok ticks ↔
    interval.isZero = false ∧
      IsLeast {n : ℤ | (interval.asNanos : ℤ) ≤ n * nanosPerTick} ticks.toInt := by
  have hceil : IsLeast {n : ℤ | (interval.asNanos : ℤ) ≤ n * nanosPerTick}
      ((interval.asNanos + 99) / nanosPerTick : ℕ) := by
    unfold nanosPerTick
    constructor
    · show (interval.asNanos : ℤ) ≤ _
      omega
    · intro n hn
      have hle : (interval.asNanos : ℤ) ≤ n * (100 : ℕ) := hn
      omega
  unfold intervalTicks
  rw [asNanos_rounds, Option.bind_some]
  cases hzero : interval.isZero with
  | true => simp
  | false =>
    simp only [Bool.false_eq_true, if_false, true_and]
    constructor
    · intro h
      split at h
      · rename_i found hfound
        obtain rfl := Except.ok.inj h
        rw [i64TryFrom_eq_some.mp hfound]
        exact hceil
      · cases h
    · intro h
      rw [i64TryFrom_eq_some.mpr (h.unique hceil)]

theorem intervalTicks_pos (h : intervalTicks interval = .ok ticks) :
    0 < ticks.toInt ∧ (interval.asNanos : ℤ) ≤ ticks.toInt * 100 := by
  obtain ⟨hzero, hleast, -⟩ := intervalTicks_eq_ok.mp h
  have hpos : interval.asNanos ≠ 0 := by
    intro hnone
    rw [Duration.isZero_iff.mpr hnone] at hzero
    cases hzero
  have hle : (interval.asNanos : ℤ) ≤ ticks.toInt * 100 := hleast
  exact ⟨by omega, hle⟩

theorem readbackDuration_eq (h : 0 ≤ configured.toInt) :
    ∃ d, readbackDuration configured = some d ∧ (d.asNanos : ℤ) = configured.toInt * 100 := by
  obtain ⟨n, hn⟩ := Int.eq_ofNat_of_zero_le h
  have hlt : n < 2 ^ 63 := by
    have := configured.toInt_lt
    omega
  have hticks : u64TryFrom configured = some n := by
    unfold u64TryFrom
    rw [if_pos h, hn]
    rfl
  have hfraction : n % ticksPerSecond * 100 < nanosPerSec := by
    unfold ticksPerSecond nanosPerSec
    omega
  have hmul : checkedMul u64Max (n % ticksPerSecond) 100 = some (n % ticksPerSecond * 100) := by
    refine checkedMul_of_le (le_trans hfraction.le ?_)
    decide
  have hnanos : u32TryFrom (n % ticksPerSecond * 100) = some (n % ticksPerSecond * 100) := by
    refine if_pos (lt_trans hfraction ?_)
    decide
  have hsecs : n / ticksPerSecond ≤ u64Max := by
    unfold ticksPerSecond u64Max
    omega
  obtain ⟨d, hnew, hd⟩ := Duration.new_of_lt hsecs hfraction
  refine ⟨d, ?_, ?_⟩
  · unfold readbackDuration
    rw [hticks]
    show (checkedMul u64Max (n % ticksPerSecond) 100).bind _ = _
    rw [hmul]
    show (u32TryFrom (n % ticksPerSecond * 100)).bind _ = _
    rw [hnanos]
    exact hnew
  · rw [hd, hn]
    unfold ticksPerSecond nanosPerSec
    show ((n / 10000000 * 10 ^ 9 + n % 10000000 * 100 : ℕ) : ℤ) = (n : ℤ) * 100
    omega

end Ticks

/-! ### Native calls -/

/-- The code of a native error. -/
abbrev HResult := UInt32

def eNoInterface : HResult := 0x80004002
def eInvalidArg : HResult := 0x80070057
def eAccessDenied : HResult := 0x80070005
def roEClosed : HResult := 0x80000013
def dxgiErrorDeviceRemoved : HResult := 0x887A0005
def dxgiErrorDeviceHung : HResult := 0x887A0006
def dxgiErrorDeviceReset : HResult := 0x887A0007
def dxgiErrorAccessLost : HResult := 0x887A0026
def dxgiErrorSessionDisconnected : HResult := 0x887A0028

inductive TargetKind where
  | window | display
  deriving DecidableEq

def nativeFault (code : HResult) : CaptureFault :=
  if code = dxgiErrorDeviceRemoved ∨ code = dxgiErrorDeviceHung then .deviceRemoved
  else if code = dxgiErrorDeviceReset then .deviceReset
  else if code = eAccessDenied ∨ code = dxgiErrorAccessLost then .accessDenied
  else if code = roEClosed then .captureItemClosed
  else if code = dxgiErrorSessionDisconnected then .displayDisconnected
  else .sourceInvalid

def normalizeNativeFault (fault : CaptureFault) (kind : TargetKind) : CaptureFault :=
  match fault, kind with
  | .captureItemClosed, .display => .displayDisconnected
  | .displayDisconnected, .window => .captureItemClosed
  | fault, _ => fault

def nativeTargetFault (code : HResult) (kind : TargetKind) : CaptureFault :=
  normalizeNativeFault (nativeFault code) kind

def configurationError (code : HResult) (kind : TargetKind) : Error :=
  if code = eInvalidArg then
    ⟨.invalidArgument, "Windows capture pacing control rejected the interval"⟩
  else (nativeTargetFault code kind).toError

/-- What a negotiation asks of its surroundings: to read the operation's context, or one of the four
native calls.  `C` is the control interface. -/
inductive Question (C : Type) where
  | interruption
  | queryInterface
  | propertyPresent
  | set (control : C) (ticks : Int64)
  | get (control : C)

abbrev Answer (C : Type) : Question C → Type
  | .interruption => Option Interruption
  | .queryInterface => Except HResult C
  | .propertyPresent => Except HResult Bool
  | .set _ _ => Except HResult PUnit
  | .get _ => Except HResult Int64

/-- How a negotiation ends without a report. -/
inductive Halt where
  | refused (error : Error)
  | panicked
  deriving DecidableEq

abbrev Native (C α : Type) := Dialogue (Answer C) Halt α

variable {C : Type}

/-- `?` on a result. -/
def propagated {α : Type} (r : Except Error α) : Native C α := .lift (r.mapError .refused)

def expect {α : Type} (r : Option α) : Native C α :=
  match r with
  | some a => pure a
  | none => .fail .panicked

/-- `checkpoint()?`; what goes on has latched nothing. -/
def checkpoint (op : Operation) : Native C PUnit :=
  match op.terminal with
  | some i => .fail (.refused i.toError)
  | none =>
    .call .interruption fun
      | some i => .fail (.refused i.toError)
      | none => pure ⟨⟩

def queryInterface : Native C (Except HResult C) := Dialogue.ask Question.queryInterface

def pacingPropertyPresent : Native C (Except HResult Bool) :=
  Dialogue.ask Question.propertyPresent

def setInterval (control : C) (ticks : Int64) : Native C (Except HResult PUnit) :=
  Dialogue.ask (Question.set control ticks)

def readInterval (control : C) : Native C (Except HResult Int64) :=
  Dialogue.ask (Question.get control)

def unavailable (request : ResolvedCapturePacing) : Except Error CapturePacingReport :=
  CapturePacingReport.unsupported request .nativeControlUnavailable

def negotiateWith (request : ResolvedCapturePacing) (kind : TargetKind) (op : Operation) :
    Native C CapturePacingReport :=
  match request.interval with
  | none => pure .sourceDefault
  | some interval => do
    let requestedTicks ← propagated (intervalTicks interval)
    checkpoint op
    let control ← queryInterface
    checkpoint op
    match control with
    | .error code =>
      if code = eNoInterface then propagated (unavailable request)
      else .fail (.refused (configurationError code kind))
    | .ok control => do
      let present ← pacingPropertyPresent
      checkpoint op
      let present ← propagated (present.mapError fun code => configurationError code kind)
      if !present then propagated (unavailable request)
      else do
        let configured ← setInterval control requestedTicks
        checkpoint op
        propagated (configured.mapError fun code => configurationError code kind)
        let configured ← readInterval control
        checkpoint op
        let configured ← propagated (configured.mapError fun code => configurationError code kind)
        if configured < requestedTicks then
          .fail (.refused ⟨.captureFailed,
            "Windows capture pacing readback did not establish the requested minimum"⟩)
        else do
          let configured ← expect (readbackDuration configured)
          propagated (CapturePacingReport.applied request configured)

/-! ### The ways a negotiation can go -/

/-- A question of a negotiation and its answer. -/
abbrev Said (C : Type) := (q : Question C) × Answer C q

/-- The context was read and nothing had interrupted the operation. -/
def quiet : Said C := ⟨.interruption, none⟩

/-- An error other than a panic. -/
def Refused {α : Type} (r : Except Halt α) : Prop := ∃ error, r = .error (.refused error)

/-- The negotiations that end in a report: what was said, and the report. -/
inductive Course (request : ResolvedCapturePacing) (report : CapturePacingReport) :
    List (Said C) → Prop
  | sourceDefault : request.interval = none → report = .sourceDefault → Course request report []
  | withoutInterface : request.interval ≠ none → unavailable request = .ok report →
      Course request report [quiet, ⟨.queryInterface, .error eNoInterface⟩, quiet]
  | withoutProperty (control : C) : request.interval ≠ none → unavailable request = .ok report →
      Course request report
        [quiet, ⟨.queryInterface, .ok control⟩, quiet, ⟨.propertyPresent, .ok false⟩, quiet]
  | established (control : C) {interval configured : Duration} {ticks readback : Int64} :
      request.interval = some interval → intervalTicks interval = .ok ticks →
      ticks.toInt ≤ readback.toInt → readbackDuration readback = some configured →
      CapturePacingReport.applied request configured = .ok report →
      Course request report
        [quiet, ⟨.queryInterface, .ok control⟩, quiet, ⟨.propertyPresent, .ok true⟩, quiet,
          ⟨.set control ticks, .ok ⟨⟩⟩, quiet, ⟨.get control, .ok readback⟩, quiet]

section Spoken

open Dialogue

variable {α β : Type} {op : Operation} {said : List (Said C)} {r : Except Halt β}

theorem spoken_propagated {x : Except Error α} {f : α → Native C β}
    (h : Spoken (propagated x >>= f) said r) : Refused r ∨ ∃ a, x = .ok a ∧ Spoken (f a) said r := by
  cases x with
  | error e => exact Or.inl ⟨e, (spoken_done h).2⟩
  | ok a => exact Or.inr ⟨a, rfl, h⟩

theorem spoken_checkpoint {f : PUnit → Native C β} (h : Spoken (checkpoint op >>= f) said r) :
    Refused r ∨ ∃ rest, said = quiet :: rest ∧ Spoken (f ⟨⟩) rest r := by
  unfold checkpoint at h
  cases hterm : op.terminal with
  | some i =>
    rw [hterm] at h
    exact Or.inl ⟨i.toError, (spoken_done h).2⟩
  | none =>
    rw [hterm] at h
    obtain ⟨answer, rest, hsaid, hrest⟩ := spoken_call h
    cases answer with
    | some i => exact Or.inl ⟨i.toError, (spoken_done hrest).2⟩
    | none => exact Or.inr ⟨rest, hsaid, hrest⟩

theorem spoken_native (q : Question C) {f : Answer C q → Native C β}
    (h : Spoken (ask q >>= fun answer => checkpoint op >>= fun _ => f answer) said r) :
    Refused r ∨ ∃ answer rest, said = ⟨q, answer⟩ :: quiet :: rest ∧ Spoken (f answer) rest r := by
  obtain ⟨answer, rest, rfl, hrest⟩ := spoken_call h
  rcases spoken_checkpoint hrest with hrefused | ⟨rest, rfl, hf⟩
  · exact Or.inl hrefused
  · exact Or.inr ⟨answer, rest, rfl, hf⟩

theorem spoken_last {x : Except Error β} (h : Spoken (propagated x : Native C β) said r) :
    Refused r ∨ ∃ b, x = .ok b ∧ r = .ok b ∧ said = [] := by
  obtain ⟨hsaid, hr⟩ := spoken_done h
  cases x with
  | error e => exact Or.inl ⟨e, hr⟩
  | ok b => exact Or.inr ⟨b, rfl, hr, hsaid⟩

end Spoken

variable {request : ResolvedCapturePacing} {kind : TargetKind} {op : Operation}

open Dialogue in
theorem negotiate_spoken {said : List (Said C)} {r : Except Halt CapturePacingReport}
    (h : Spoken (negotiateWith request kind op) said r) :
    Refused r ∨ ∃ report, r = .ok report ∧ Course request report said := by
  unfold negotiateWith at h
  cases hinterval : request.interval with
  | none =>
    rw [hinterval] at h
    obtain ⟨rfl, rfl⟩ := spoken_done h
    exact Or.inr ⟨_, rfl, .sourceDefault hinterval rfl⟩
  | some interval =>
    have hsome : request.interval ≠ none := by
      rw [hinterval]
      simp
    rw [hinterval] at h
    rcases spoken_propagated h with hrefused | ⟨ticks, hticks, hstart⟩
    · exact Or.inl hrefused
    rcases spoken_checkpoint hstart with hrefused | ⟨said, rfl, hquery⟩
    · exact Or.inl hrefused
    rcases spoken_native .queryInterface hquery with hrefused | ⟨control, said, rfl, hqueried⟩
    · exact Or.inl hrefused
    rcases control with code | control
    · by_cases hcode : code = eNoInterface
      · subst hcode
        rcases spoken_last hqueried with hrefused | ⟨report, hreport, hr, rfl⟩
        · exact Or.inl hrefused
        · exact Or.inr ⟨report, hr, .withoutInterface hsome hreport⟩
      · simp only [if_neg hcode] at hqueried
        exact Or.inl ⟨_, (spoken_done hqueried).2⟩
    rcases spoken_native .propertyPresent hqueried with hrefused | ⟨present, said, rfl, hasked⟩
    · exact Or.inl hrefused
    rcases spoken_propagated hasked with hrefused | ⟨found, hfound, hset⟩
    · exact Or.inl hrefused
    rcases present with code | present
    · cases hfound
    obtain rfl := Except.ok.inj hfound
    cases present with
    | false =>
      rcases spoken_last hset with hrefused | ⟨report, hreport, hr, rfl⟩
      · exact Or.inl hrefused
      · exact Or.inr ⟨report, hr, .withoutProperty control hsome hreport⟩
    | true =>
      rcases spoken_native (.set control ticks) hset with hrefused | ⟨answer, said, rfl, hassigned⟩
      · exact Or.inl hrefused
      rcases spoken_propagated hassigned with hrefused | ⟨_, hanswer, hget⟩
      · exact Or.inl hrefused
      rcases answer with code | ⟨⟩
      · cases hanswer
      rcases spoken_native (.get control) hget with hrefused | ⟨readback, said, rfl, hread⟩
      · exact Or.inl hrefused
      rcases spoken_propagated hread with hrefused | ⟨found, hfound, hend⟩
      · exact Or.inl hrefused
      rcases readback with code | readback
      · cases hfound
      obtain rfl := Except.ok.inj hfound
      by_cases hshort : readback < ticks
      · simp only [if_pos hshort] at hend
        exact Or.inl ⟨_, (spoken_done hend).2⟩
      · simp only [if_neg hshort] at hend
        have hle : ticks.toInt ≤ readback.toInt := by
          rw [Int64.lt_iff_toInt_lt] at hshort
          omega
        have hpos := (intervalTicks_pos hticks).1
        obtain ⟨configured, hconfigured, -⟩ := readbackDuration_eq (hpos.le.trans hle)
        rw [hconfigured] at hend
        rcases spoken_last hend with hrefused | ⟨report, hreport, hr, rfl⟩
        · exact Or.inl hrefused
        · exact Or.inr ⟨report, hr,
            .established control hinterval hticks hle hconfigured hreport⟩

/-! ### The context is read after every native call -/

def halts (seen : Option Interruption) : Option Halt := seen.map fun i => .refused i.toError

open Dialogue

def reading : Native C PUnit :=
  .call .interruption fun
    | some i => .fail (.refused i.toError)
    | none => pure ⟨⟩

theorem checkpoint_eq (h : op.terminal = none) : (checkpoint op : Native C PUnit) = reading := by
  unfold checkpoint
  rw [h]
  rfl

theorem watch_reading {α : Type} {f : PUnit → Native C α}
    (h : Watchful .interruption halts (f ⟨⟩)) :
    Watchful .interruption halts (reading >>= f) := by
  refine .stop (fun answer error herror => ?_) fun answer => ?_
  · cases answer with
    | none => cases herror
    | some i =>
      obtain rfl := Option.some.inj herror
      rfl
  · cases answer with
    | none => exact h
    | some i => exact .done _

theorem watch_native {α : Type} (q : Question C) {f : Answer C q → Native C α}
    (hq : q ≠ .interruption) (h : ∀ answer, Watchful .interruption halts (f answer)) :
    Watchful .interruption halts (ask q >>= fun answer => reading >>= fun _ => f answer) :=
  .call hq (fun _ => ⟨_, rfl⟩) fun answer => watch_reading (h answer)

theorem watch_propagated {α β : Type} {x : Except Error α} {f : α → Native C β}
    (h : ∀ a, Watchful .interruption halts (f a)) :
    Watchful .interruption halts (propagated x >>= f) := by
  cases x with
  | error e => exact .done _
  | ok a => exact h a

theorem negotiate_watchful :
    Watchful .interruption halts (negotiateWith request kind op : Native C CapturePacingReport) := by
  unfold negotiateWith
  cases request.interval with
  | none => exact .done _
  | some interval =>
    refine watch_propagated fun ticks => ?_
    cases hterm : op.terminal with
    | some i =>
      have hfail : (checkpoint op : Native C PUnit) = .fail (.refused i.toError) := by
        unfold checkpoint
        rw [hterm]
      rw [hfail]
      exact .done _
    | none =>
      simp only [checkpoint_eq hterm]
      refine watch_reading (watch_native .queryInterface (by simp) fun control => ?_)
      rcases control with code | control
      · show Watchful _ _ (if code = eNoInterface then _ else _)
        split
        · exact .done _
        · exact .done _
      refine watch_native .propertyPresent (by simp) fun present => watch_propagated fun present => ?_
      cases present with
      | false => exact .done _
      | true =>
        refine watch_native (.set control ticks) (by simp) fun configured => watch_propagated fun _ => ?_
        refine watch_native (.get control) (by simp) fun readback => watch_propagated fun readback => ?_
        show Watchful _ _ (if readback < ticks then _ else _)
        split
        · exact .done _
        · cases readbackDuration readback with
          | none => exact .done _
          | some configured => exact .done _

/-! ### What is reported is true -/

/-- What a negotiation ends in is true of what its host was asked and answered. -/
structure Negotiated {E : Type} (host : Host (Answer C) E) (request : ResolvedCapturePacing)
    (result : Except Halt CapturePacingReport) (log : List (Entry (Answer C) E)) : Prop where
  /-- No conversion of a readback overflows. -/
  settled : result ≠ .error .panicked
  /-- A source default is reported of no request that has an interval. -/
  sourceDefault : ∀ report, result = .ok report → report.outcome = .sourceDefault →
    request.interval = none
  /-- What is applied was set and read back, and the readback is no shorter than the request. -/
  applied : ∀ report, result = .ok report → report.outcome = .applied →
    ∃ interval configured ticks readback control,
      request.interval = some interval ∧ intervalTicks interval = .ok ticks ∧
      log.map Entry.said =
        [quiet, ⟨.queryInterface, .ok control⟩, quiet, ⟨.propertyPresent, .ok true⟩, quiet,
          ⟨.set control ticks, .ok ⟨⟩⟩, quiet, ⟨.get control, .ok readback⟩, quiet] ∧
      report.request = request ∧ report.configuredInterval = some configured ∧
      (configured.asNanos : ℤ) = readback.toInt * 100 ∧ interval.asNanos ≤ configured.asNanos
  /-- A preference stays unapplied where the interface or the property is absent. -/
  unapplied : ∀ report reason, result = .ok report → report.outcome = .preferredUnapplied reason →
    request.isPreferred = true ∧ request.isRequired = false ∧
      (log.map Entry.said = [quiet, ⟨.queryInterface, .error eNoInterface⟩, quiet] ∨
        ∃ control, log.map Entry.said =
          [quiet, ⟨.queryInterface, .ok control⟩, quiet, ⟨.propertyPresent, .ok false⟩, quiet])
  /-- Nothing is asked for a source default or an interval without ticks. -/
  silent : (∀ interval, request.interval = some interval →
    ∃ error, intervalTicks interval = .error error) → log = []
  /-- An interruption that is effective after a native call decides the result. -/
  interrupted : ∀ before entry after i, log = before ++ entry :: after →
    entry.question ≠ .interruption → (host .interruption entry.left).1 = some i →
      result = .error (.refused i.toError) ∧
        after = [⟨.interruption, (host .interruption entry.left).1,
          (host .interruption entry.left).2⟩]

section Courses

variable {report : CapturePacingReport} {said : List (Said C)}

theorem Course.of_applied (h : Course request report said) (happlied : report.outcome = .applied) :
    ∃ interval configured ticks readback control,
      request.interval = some interval ∧ intervalTicks interval = .ok ticks ∧
      said = [quiet, ⟨.queryInterface, .ok control⟩, quiet, ⟨.propertyPresent, .ok true⟩, quiet,
          ⟨.set control ticks, .ok ⟨⟩⟩, quiet, ⟨.get control, .ok readback⟩, quiet] ∧
      report.request = request ∧ report.configuredInterval = some configured ∧
      (configured.asNanos : ℤ) = readback.toInt * 100 ∧ interval.asNanos ≤ configured.asNanos := by
  rcases h with ⟨-, rfl⟩ | ⟨hsome, hreport⟩ | ⟨_, hsome, hreport⟩ |
    ⟨control, hinterval, hticks, hle, hconfigured, hreport⟩
  · cases happlied
  · rw [(unsupported_spec hreport hsome).2.2.2.1] at happlied
    cases happlied
  · rw [(unsupported_spec hreport hsome).2.2.2.1] at happlied
    cases happlied
  · obtain ⟨-, hrequest, hinto, interval, hinterval', hlong⟩ := applied_spec hreport
    obtain rfl := Option.some.inj (hinterval.symm.trans hinterval')
    have hpos := (intervalTicks_pos hticks).1
    obtain ⟨found, hfound, hexact⟩ := readbackDuration_eq (hpos.le.trans hle)
    obtain rfl := Option.some.inj (hconfigured.symm.trans hfound)
    exact ⟨_, _, _, _, control, hinterval, hticks, rfl, hrequest, hinto, hexact, hlong⟩

theorem Course.of_sourceDefault (h : Course request report said)
    (hdefault : report.outcome = .sourceDefault) : request.interval = none := by
  rcases h with ⟨hnone, -⟩ | ⟨hsome, hreport⟩ | ⟨_, hsome, hreport⟩ | ⟨_, _, _, _, _, hreport⟩
  · exact hnone
  · rw [(unsupported_spec hreport hsome).2.2.2.1] at hdefault
    cases hdefault
  · rw [(unsupported_spec hreport hsome).2.2.2.1] at hdefault
    cases hdefault
  · rw [(applied_spec hreport).1] at hdefault
    cases hdefault

theorem Course.of_unapplied (h : Course request report said) {reason : PacingUnsupportedReason}
    (hunapplied : report.outcome = .preferredUnapplied reason) :
    request.isPreferred = true ∧ request.isRequired = false ∧
      (said = [quiet, ⟨.queryInterface, .error eNoInterface⟩, quiet] ∨ ∃ control, said =
          [quiet, ⟨.queryInterface, .ok control⟩, quiet, ⟨.propertyPresent, .ok false⟩, quiet]) := by
  rcases h with ⟨-, rfl⟩ | ⟨hsome, hreport⟩ | ⟨control, hsome, hreport⟩ |
    ⟨_, _, _, _, _, hreport⟩
  · cases hunapplied
  · obtain ⟨hpreferred, hrequired, -⟩ := unsupported_spec hreport hsome
    exact ⟨hpreferred, hrequired, Or.inl rfl⟩
  · obtain ⟨hpreferred, hrequired, -⟩ := unsupported_spec hreport hsome
    exact ⟨hpreferred, hrequired, Or.inr ⟨control, rfl⟩⟩
  · rw [(applied_spec hreport).1] at hunapplied
    cases hunapplied

end Courses

theorem negotiate_silent {E : Type} {host : Host (Answer C) E} {e : E}
    (h : ∀ interval, request.interval = some interval →
      ∃ error, intervalTicks interval = .error error) :
    (negotiateWith request kind op : Native C CapturePacingReport).log host e = [] := by
  unfold negotiateWith
  cases hinterval : request.interval with
  | none => rfl
  | some interval =>
    obtain ⟨error, herror⟩ := h interval hinterval
    show ((propagated (intervalTicks interval) >>= _ : Native C CapturePacingReport)).log host e = []
    rw [herror]
    rfl

/-- **Pacing negotiation is truthful**, for every request, every context and every host; rounding an
interval up to ticks does not overflow and gives the fewest ticks that are not shorter. -/
theorem pacing_negotiation :
    (∀ interval : Duration,
      checkedAdd u128Max interval.asNanos (nanosPerTick - 1) = some (interval.asNanos + 99) ∧
      ∀ ticks, intervalTicks interval = .ok ticks ↔ interval.isZero = false ∧
        IsLeast {n : ℤ | (interval.asNanos : ℤ) ≤ n * nanosPerTick} ticks.toInt) ∧
    ∀ (C E : Type) (host : Host (Answer C) E) (request : ResolvedCapturePacing) (kind : TargetKind)
      (op : Operation) (e : E),
      Negotiated host request ((negotiateWith request kind op).result host e)
        ((negotiateWith request kind op).log host e) := by
  refine ⟨fun interval => ⟨asNanos_rounds interval, fun ticks => intervalTicks_eq_ok⟩,
    fun C E host request kind op e => ?_⟩
  have hspoken := spoken host (negotiateWith request kind op) e
  have hcourse : ∀ report, (negotiateWith request kind op).result host e = .ok report →
      Course request report (((negotiateWith request kind op).log host e).map Entry.said) := by
    intro report hreport
    rcases negotiate_spoken hspoken with ⟨error, hrefused⟩ | ⟨found, hfound, hcourse⟩
    · rw [hreport] at hrefused
      cases hrefused
    · obtain rfl := Except.ok.inj (hreport.symm.trans hfound)
      exact hcourse
  constructor
  · intro hpanicked
    rcases negotiate_spoken hspoken with ⟨error, hrefused⟩ | ⟨found, hfound, -⟩
    · rw [hpanicked] at hrefused
      cases hrefused
    · rw [hpanicked] at hfound
      cases hfound
  · intro report hreport hdefault
    exact (hcourse report hreport).of_sourceDefault hdefault
  · intro report hreport happlied
    exact (hcourse report hreport).of_applied happlied
  · intro report reason hreport hunapplied
    exact (hcourse report hreport).of_unapplied hunapplied
  · exact negotiate_silent
  · intro before entry after i hlog hnative hseen
    have hhalts : halts (host .interruption entry.left).1 = some (.refused i.toError) := by
      rw [hseen]
      rfl
    exact negotiate_watchful.wins hlog hnative hhalts

def keeping : Host (Answer PUnit) Int64
  | .interruption, kept => (none, kept)
  | .queryInterface, kept => (.ok ⟨⟩, kept)
  | .propertyPresent, kept => (.ok true, kept)
  | .set _ ticks, _ => (.ok ⟨⟩, ticks)
  | .get _, kept => (.ok kept, kept)

/-- At least 150 ns. -/
def sampleRequest : ResolvedCapturePacing :=
  ⟨.required ⟨0, 150, by decide, by decide⟩, fun _ h => by cases h; rfl⟩

/-- The report of 200 ns, which are the two ticks read back. -/
def sampleReport : CapturePacingReport :=
  ⟨.applied sampleRequest ⟨0, 200, by decide, by decide⟩,
    ⟨0, 150, by decide, by decide⟩, rfl, by decide⟩

/-- With such a host the interval is applied, and what the report says holds of the calls made. -/
theorem pacing_negotiation_sample :
    (negotiateWith sampleRequest .window ⟨none⟩).result keeping 0 = .ok sampleReport ∧
      ∃ interval configured ticks readback control,
        sampleRequest.interval = some interval ∧ intervalTicks interval = .ok ticks ∧
        ((negotiateWith sampleRequest .window ⟨none⟩).log keeping 0).map Entry.said =
          [quiet, ⟨.queryInterface, .ok control⟩, quiet, ⟨.propertyPresent, .ok true⟩, quiet,
            ⟨.set control ticks, .ok ⟨⟩⟩, quiet, ⟨.get control, .ok readback⟩, quiet] ∧
        sampleReport.request = sampleRequest ∧ sampleReport.configuredInterval = some configured ∧
        (configured.asNanos : ℤ) = readback.toInt * 100 ∧ interval.asNanos ≤ configured.asNanos := by
  have hresult : (negotiateWith sampleRequest .window ⟨none⟩).result keeping 0 = .ok sampleReport :=
    rfl
  exact ⟨hresult,
    (pacing_negotiation.2 PUnit Int64 keeping sampleRequest .window ⟨none⟩ 0).applied _ hresult rfl⟩

end MadoPilot.Platform.WindowsPacing
