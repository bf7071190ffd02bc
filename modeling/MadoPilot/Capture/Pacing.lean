import MadoPilot.Capture.Frame

/-!
# Capture pacing requests and reports

The capture layer selects one native minimum interval, or none, and a report says what became of it.
Requests carry the proof that their interval is positive, reports that they are truthful: what is
applied is at least what was requested, and only a preference stays unapplied.
-/

namespace MadoPilot.Capture

open MadoPilot.Core MadoPilot.Lib

/-- The nanoseconds of one second. -/
def nanosPerSec : ℕ := 10 ^ 9

/-- A span of time: whole seconds and a fraction below one second. -/
structure Duration where
  secs : ℕ
  nanos : ℕ
  secs_le : secs ≤ u64Max
  nanos_lt : nanos < nanosPerSec
  deriving DecidableEq

namespace Duration

variable {a b : Duration}

def isZero (d : Duration) : Bool := d.secs = 0 && d.nanos = 0

def asNanos (d : Duration) : ℕ := d.secs * nanosPerSec + d.nanos

/-- `Duration::new`, where whole seconds of the fraction are carried over; `none` is the panic of a
carry that overflows. -/
def new (secs nanos : ℕ) : Option Duration :=
  if h : secs + nanos / nanosPerSec ≤ u64Max then
    some ⟨secs + nanos / nanosPerSec, nanos % nanosPerSec, h, Nat.mod_lt _ (by decide)⟩
  else none

instance : LT Duration := ⟨fun a b => a.secs < b.secs ∨ a.secs = b.secs ∧ a.nanos < b.nanos⟩

instance (a b : Duration) : Decidable (a < b) :=
  inferInstanceAs (Decidable (a.secs < b.secs ∨ a.secs = b.secs ∧ a.nanos < b.nanos))

theorem isZero_iff : a.isZero = true ↔ a.asNanos = 0 := by
  unfold isZero asNanos nanosPerSec
  simp only [Bool.and_eq_true, decide_eq_true_eq]
  omega

theorem lt_iff : a < b ↔ a.asNanos < b.asNanos := by
  have ha := a.nanos_lt
  have hb := b.nanos_lt
  show a.secs < b.secs ∨ a.secs = b.secs ∧ a.nanos < b.nanos ↔ _
  unfold asNanos nanosPerSec at *
  omega

theorem asNanos_le (d : Duration) : d.asNanos ≤ u64Max * nanosPerSec + 999999999 := by
  have hsecs := d.secs_le
  have hnanos := d.nanos_lt
  unfold asNanos nanosPerSec at *
  omega

theorem new_of_lt {secs nanos : ℕ} (hsecs : secs ≤ u64Max) (hnanos : nanos < nanosPerSec) :
    ∃ d, new secs nanos = some d ∧ d.asNanos = secs * nanosPerSec + nanos := by
  have hcarry : nanos / nanosPerSec = 0 := Nat.div_eq_of_lt hnanos
  have hle : secs + nanos / nanosPerSec ≤ u64Max := by omega
  refine ⟨_, dif_pos hle, ?_⟩
  show (secs + nanos / nanosPerSec) * nanosPerSec + nanos % nanosPerSec = _
  rw [hcarry, Nat.mod_eq_of_lt hnanos, Nat.add_zero]

end Duration

/-! ### Requests -/

inductive PacingSelection where
  | sourceDefault
  | required (interval : Duration)
  | preferred (interval : Duration)
  deriving DecidableEq

def PacingSelection.interval : PacingSelection → Option Duration
  | sourceDefault => none
  | required interval | preferred interval => some interval

structure ResolvedCapturePacing where
  selection : PacingSelection
  positive : ∀ interval, selection.interval = some interval → interval.isZero = false
  deriving DecidableEq

namespace ResolvedCapturePacing

def sourceDefault : ResolvedCapturePacing := ⟨.sourceDefault, fun _ h => (by cases h)⟩

def interval (r : ResolvedCapturePacing) : Option Duration := r.selection.interval

def isRequired (r : ResolvedCapturePacing) : Bool :=
  match r.selection with
  | .required _ => true
  | _ => false

def isPreferred (r : ResolvedCapturePacing) : Bool :=
  match r.selection with
  | .preferred _ => true
  | _ => false

end ResolvedCapturePacing

/-! ### Reports -/

inductive PacingUnsupportedReason where
  | sourceCannotPace | nativeControlUnavailable
  deriving DecidableEq

inductive CapturePacingOutcome where
  | sourceDefault
  | applied
  | preferredUnapplied (reason : PacingUnsupportedReason)
  deriving DecidableEq

inductive PacingReportState where
  | sourceDefault
  | applied (request : ResolvedCapturePacing) (configured : Duration)
  | preferredUnapplied (interval : Duration) (reason : PacingUnsupportedReason)
  deriving DecidableEq

/-- What is applied is no shorter than what was requested, what is preferred is positive. -/
def PacingReportState.Truthful : PacingReportState → Prop
  | sourceDefault => True
  | applied request configured =>
    ∃ interval, request.interval = some interval ∧ ¬ configured < interval
  | preferredUnapplied interval _ => interval.isZero = false

/-- The native pacing configuration that an opened session has accepted. -/
structure CapturePacingReport where
  state : PacingReportState
  truthful : state.Truthful
  deriving DecidableEq

namespace CapturePacingReport

def sourceDefault : CapturePacingReport := ⟨.sourceDefault, trivial⟩

def applied (request : ResolvedCapturePacing) (configured : Duration) :
    Except Error CapturePacingReport :=
  match h : request.interval with
  | none =>
    .error ⟨.invalidArgument, "source-default capture pacing cannot be reported as applied"⟩
  | some interval =>
    if hlt : configured < interval then
      .error ⟨.invalidArgument, "configured capture interval is shorter than the requested minimum"⟩
    else .ok ⟨.applied request configured, interval, h, hlt⟩

def unsupported (request : ResolvedCapturePacing) (reason : PacingUnsupportedReason) :
    Except Error CapturePacingReport :=
  match h : request.selection with
  | .sourceDefault => .ok sourceDefault
  | .required _ => .error CaptureFault.unsupportedOption.toError
  | .preferred interval =>
    .ok ⟨.preferredUnapplied interval reason,
      request.positive interval (congrArg PacingSelection.interval h)⟩

def request (r : CapturePacingReport) : ResolvedCapturePacing :=
  match r with
  | ⟨.sourceDefault, _⟩ => .sourceDefault
  | ⟨.applied request _, _⟩ => request
  | ⟨.preferredUnapplied interval _, h⟩ =>
    ⟨.preferred interval, fun _ hsome => by
      obtain rfl := Option.some.inj hsome
      exact h⟩

def configuredInterval (r : CapturePacingReport) : Option Duration :=
  match r.state with
  | .applied _ configured => some configured
  | .sourceDefault | .preferredUnapplied _ _ => none

def outcome (r : CapturePacingReport) : CapturePacingOutcome :=
  match r.state with
  | .sourceDefault => .sourceDefault
  | .applied _ _ => .applied
  | .preferredUnapplied _ reason => .preferredUnapplied reason

end CapturePacingReport

/-! ### What the two factories report -/

variable {request : ResolvedCapturePacing} {configured : Duration} {reason : PacingUnsupportedReason}
  {report : CapturePacingReport}

open CapturePacingReport

theorem applied_spec (h : applied request configured = .ok report) :
    report.outcome = .applied ∧ report.request = request ∧
      report.configuredInterval = some configured ∧
        ∃ interval, request.interval = some interval ∧ interval.asNanos ≤ configured.asNanos := by
  unfold applied at h
  split at h
  · cases h
  · rename_i interval hinterval
    split_ifs at h with hlt
    obtain rfl := Except.ok.inj h
    refine ⟨rfl, rfl, rfl, interval, hinterval, ?_⟩
    rw [Duration.lt_iff] at hlt
    omega

theorem unsupported_spec (h : unsupported request reason = .ok report)
    (hinterval : request.interval ≠ none) :
    request.isPreferred = true ∧ request.isRequired = false ∧ report.request = request ∧
      report.outcome = .preferredUnapplied reason ∧ report.configuredInterval = none := by
  obtain ⟨selection, positive⟩ := request
  cases selection with
  | sourceDefault => exact absurd rfl hinterval
  | required interval => cases h
  | preferred interval =>
    obtain rfl := Except.ok.inj h
    exact ⟨rfl, rfl, rfl, rfl, rfl⟩

end MadoPilot.Capture
