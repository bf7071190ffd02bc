import MadoPilot.Lib.Worklist
import MadoPilot.Platform.Windows
import MadoPilot.Platform.Macos

/-!
# Cleanup on the two platforms

Both controllers carry out the same bounded work list: the pending text release, if there is one,
then the states that may be held.  They differ in how they read the end of it.

* `Windows.releaseLoop_eq` and `Macos.cleanupLoop_eq` refine the two loops to `Worklist.run`;
* `windows_judged` and `macos_state` say what each of them reports, against a script of the clock
  and of the driver's answers;
* `cleanup_agreement` says exactly when the two reports are the same and both are as documented:
  when no release that cleanup comes to returns `DeadlineExceeded` itself.
-/

namespace MadoPilot.Platform

open MadoPilot.Core MadoPilot.Input MadoPilot.Lib

/-- What cleanup asks either driver to release. -/
inductive Release where
  | text
  | held (pressed : PressedState)
  deriving DecidableEq

def owedReleases (pending : Bool) (held : List PressedState) : List Release :=
  (if pending then [.text] else []) ++ held.map .held

/-! ### The loops are the bounded work list -/

/-- The ends of the work list that the Windows loop reports as a bound of its own. -/
def Windows.exhausted : Option (Stop InputFault) → Bool
  | some .bound => true
  | some (.refused .deadlineExceeded) => true
  | _ => false

/-- The ends of the work list that the macOS loop reports as a bound of its own. -/
def Macos.exhausted : Option (Stop InputFault) → Bool
  | some .bound => true
  | _ => false

section Refine

variable {X α : Type*} (maxEvents : ℕ) (interruption : X → Option Interruption × X)

theorem Windows.releaseLoop_eq (release : α → X → Except InputFault Unit × X) (releases : List α)
    (n : ℕ) (x : X) :
    Windows.releaseLoop maxEvents interruption release n releases n x =
      ((  (Worklist.run maxEvents interruption release releases n x).1.1,
          Windows.exhausted (Worklist.run maxEvents interruption release releases n x).1.2),
        (Worklist.run maxEvents interruption release releases n x).2) := by
  induction releases generalizing n x with
  | nil => rfl
  | cons pressed releases ih =>
    unfold Windows.releaseLoop
    by_cases hmax : n ≥ maxEvents
    · rw [if_pos hmax, Worklist.run_of_bound hmax]
      rfl
    rw [if_neg hmax]
    rcases hcheck : interruption x with ⟨i, y⟩
    cases i with
    | some i =>
      rw [Worklist.run_of_check (by omega) hcheck]
      rfl
    | none =>
      simp only
      rcases hact : release pressed y with ⟨result, z⟩
      cases result with
      | ok u =>
        rw [Worklist.run_of_ok (by omega) hcheck hact]
        exact ih (n + 1) z
      | error fault =>
        rw [Worklist.run_of_refused (by omega) hcheck hact]
        cases fault <;> rfl

lemma Macos.releaseLoop_eq (act : Release → X → Except InputFault Unit × X)
    (held : List PressedState) (n : ℕ) (x : X) :
    Macos.releaseLoop maxEvents interruption (fun pressed => act (.held pressed)) held n x =
      ((  (Worklist.run maxEvents interruption act (held.map .held) n x).1.1,
          Macos.exhausted (Worklist.run maxEvents interruption act (held.map .held) n x).1.2),
        (Worklist.run maxEvents interruption act (held.map .held) n x).2) := by
  induction held generalizing n x with
  | nil => rfl
  | cons pressed held ih =>
    unfold Macos.releaseLoop
    rw [List.map_cons]
    by_cases hmax : n ≥ maxEvents
    · rw [if_pos hmax, Worklist.run_of_bound hmax]
      rfl
    rw [if_neg hmax]
    rcases hcheck : interruption x with ⟨i, y⟩
    cases i with
    | some i =>
      rw [Worklist.run_of_check (by omega) hcheck]
      rfl
    | none =>
      simp only
      rcases hact : act (.held pressed) y with ⟨result, z⟩
      cases result with
      | ok u =>
        rw [Worklist.run_of_ok (by omega) hcheck hact]
        exact ih (n + 1) z
      | error fault =>
        rw [Worklist.run_of_refused (by omega) hcheck hact]
        rfl

/-- A driver that is asked for the pending text release and has one to do. -/
def Macos.pendingAnswer (answer : Except InputFault Unit × X) : Except InputFault Bool × X :=
  (answer.1.map fun _ => true, answer.2)

theorem Macos.cleanupLoop_eq (act : Release → X → Except InputFault Unit × X) (pending : Bool)
    (held : List PressedState) (x : X) :
    Macos.cleanupLoop maxEvents interruption (fun pressed => act (.held pressed))
        (fun x => Macos.pendingAnswer (act .text x)) pending held x =
      ((  (Worklist.run maxEvents interruption act (owedReleases pending held) 0 x).1.1,
          Macos.exhausted
            (Worklist.run maxEvents interruption act (owedReleases pending held) 0 x).1.2),
        (Worklist.run maxEvents interruption act (owedReleases pending held) 0 x).2) := by
  cases pending with
  | false => exact Macos.releaseLoop_eq maxEvents interruption act held 0 x
  | true =>
    unfold Macos.cleanupLoop
    rw [if_pos rfl, show owedReleases true held = .text :: held.map .held from rfl]
    by_cases hmax : 0 ≥ maxEvents
    · rw [if_pos hmax, Worklist.run_of_bound hmax]
      rfl
    rw [if_neg hmax]
    rcases hcheck : interruption x with ⟨i, y⟩
    cases i with
    | some i =>
      rw [Worklist.run_of_check (by omega) hcheck]
      rfl
    | none =>
      rcases hact : act .text y with ⟨result, z⟩
      cases result with
      | ok u =>
        rw [Worklist.run_of_ok (by omega) hcheck hact]
        simp only [hact, Macos.pendingAnswer, Except.map]
        exact Macos.releaseLoop_eq maxEvents interruption act held 1 z
      | error fault =>
        rw [Worklist.run_of_refused (by omega) hcheck hact]
        simp only [hact, Macos.pendingAnswer, Except.map]
        rfl

end Refine

/-! ### A script of the clock and of the driver -/

/-- What a cleanup has seen and done: the readings of the clock, and the releases attempted. -/
structure Tape where
  readings : ℕ
  attempted : List Release
  deriving DecidableEq

/-- The clock's readings one by one, and the driver's answers to the releases one by one. -/
structure CleanupScript where
  clock : ℕ → ℕ
  result : ℕ → Except InputFault Unit

namespace CleanupScript

variable (t : CleanupScript)

def context : Context Tape :=
  ⟨fun e => (false, e), none, fun e => (t.clock e.readings, { e with readings := e.readings + 1 })⟩

def answer (r : Release) (e : Tape) : Except InputFault Unit × Tape :=
  (t.result e.attempted.length, { e with attempted := e.attempted ++ [r] })

def windowsRelease : Windows.PendingRelease → Release
  | .unicode _ => .text
  | .logical pressed => .held pressed

def windowsDriver : Windows.InputDriver Tape where
  preflight _ _ e := (.ok (), e)
  submit _ _ _ _ s e := (.ok (), s, e)
  release _ pressed s e :=
    let (result, e) := t.answer (windowsRelease pressed) e
    (result, s, e)

def macosDriver : Macos.InputDriver Tape where
  preflight _ _ _ e := (.ok (), e)
  beginRoute _ s e := (.ok (), s, e)
  submit _ _ _ _ s e := (.ok (), s, e)
  release _ pressed s e :=
    let (result, e) := t.answer (.held pressed) e
    (result, s, e)
  releasePending _ s e :=
    let (result, e) := t.answer .text e
    (result.map fun _ => true, s, e)

/-- The checks and answers that a cleanup under `budget` meets: its first reading of the clock sets
the deadline, the next ones are the checks. -/
def script (budget : CleanupBudget) : Script InputFault where
  expired k := (instantAdd (t.clock 0) budget.maxDuration).any (· ≤ t.clock (k + 1))
  result := t.result

end CleanupScript

/-- What a cleanup comes to: how many releases succeeded out of how many, the state it reports,
and the releases it attempted. -/
structure CleanupReport where
  released : ℕ
  owed : ℕ
  state : CleanupState
  attempted : List Release
  deriving DecidableEq

def InputReceipt.cleanupReport (r : InputReceipt) (e : Tape) : CleanupReport :=
  ⟨r.cleanupReleased, r.cleanupOwed, r.cleanup, e.attempted⟩

/-- The report of Windows' `run_cleanup` against a script. -/
def CleanupScript.windowsReport (t : CleanupScript) (request : InputRequest) (receipt : InputReceipt)
    (stopped : StoppedSubmission Windows.SubmissionFailure) (s : Windows.DriverState) :
    CleanupReport :=
  match Windows.runCleanup t.windowsDriver t.context request receipt stopped s ⟨0, []⟩ with
  | (receipt, _, e) => InputReceipt.cleanupReport receipt e

/-- The report of macOS' `run_cleanup` against a script. -/
def CleanupScript.macosReport (t : CleanupScript) (request : InputRequest) (receipt : InputReceipt)
    (stopped : StoppedSubmission Macos.SubmissionFailure) (s : Macos.DriverState) :
    CleanupReport :=
  match Macos.runCleanup t.macosDriver t.context request receipt stopped s ⟨0, []⟩ with
  | (receipt, _, e) => InputReceipt.cleanupReport receipt e

/-! ### What the reports say -/

section Reports

variable (t : CleanupScript) (request : InputRequest)

def CleanupScript.cleanup (t : CleanupScript) (budget : CleanupBudget) : Context Tape :=
  ⟨fun e => (false, e), instantAdd (t.clock 0) budget.maxDuration, t.context.now⟩

lemma CleanupScript.cleanup_interruption (t : CleanupScript) (budget : CleanupBudget) (e : Tape) :
    (t.cleanup budget).interruption e =
      match instantAdd (t.clock 0) budget.maxDuration with
      | none => (none, e)
      | some deadline =>
        (if deadline ≤ t.clock e.readings then some .deadlineExceeded else none,
          { e with readings := e.readings + 1 }) := by
  unfold CleanupScript.cleanup Context.interruption CleanupScript.context
  cases instantAdd (t.clock 0) budget.maxDuration <;> rfl

lemma CleanupScript.plays (budget : CleanupBudget) :
    (t.script budget).Plays (t.cleanup budget).interruption t.answer Tape.attempted
      (fun e => instantAdd (t.clock 0) budget.maxDuration = none ∨
        e.readings = e.attempted.length + 1) where
  check_isSome e he := by
    unfold CleanupScript.script
    rw [t.cleanup_interruption budget e]
    cases hadd : instantAdd (t.clock 0) budget.maxDuration with
    | none => rfl
    | some deadline =>
      have hreadings : e.readings = e.attempted.length + 1 := by
        rcases he with he | he
        · rw [hadd] at he
          cases he
        · exact he
      simp only [hreadings, Option.any_some]
      by_cases h : deadline ≤ t.clock (e.attempted.length + 1)
      · rw [if_pos h, decide_eq_true h]
        rfl
      · rw [if_neg h, decide_eq_false h]
        rfl
  check_log e := by
    rw [t.cleanup_interruption budget e]
    cases instantAdd (t.clock 0) budget.maxDuration <;> rfl
  act_result _ _ := rfl
  act_log _ _ := rfl
  ready_next r e he := by
    unfold CleanupScript.answer
    rw [t.cleanup_interruption budget e]
    cases hadd : instantAdd (t.clock 0) budget.maxDuration with
    | none => exact Or.inl rfl
    | some deadline =>
      right
      rcases he with he | he
      · rw [hadd] at he
        cases he
      · simp [he]

/-- The run of the work list of a cleanup, after the first reading of the clock. -/
def CleanupScript.runOf (t : CleanupScript) (budget : CleanupBudget) (releases : List Release) :
    (ℕ × Option (Stop InputFault)) × Tape :=
  Worklist.run budget.maxEvents (t.cleanup budget).interruption t.answer releases 0 ⟨1, []⟩

def CleanupScript.act {S : Type*} (t : CleanupScript) (r : Release) (x : S × Tape) :
    Except InputFault Unit × (S × Tape) :=
  ((t.answer r x.2).1, x.1, (t.answer r x.2).2)

lemma CleanupScript.runOf_eq {S : Type*} (budget : CleanupBudget) (releases : List Release) (s : S) :
    ∃ s', Worklist.run budget.maxEvents (cleanupInterruption (t.cleanup budget)) t.act releases 0
      (s, ⟨1, []⟩) = ((t.runOf budget releases).1, s', (t.runOf budget releases).2) := by
  have hcheck : ∀ x : S × Tape, (t.cleanup budget).interruption x.2 =
      ((cleanupInterruption (t.cleanup budget) x).1, (cleanupInterruption (t.cleanup budget) x).2.2) :=
    fun _ => rfl
  have hact : ∀ r (x : S × Tape), t.answer r x.2 = ((t.act r x).1, (t.act r x).2.2) := fun _ _ => rfl
  have h := Worklist.run_project budget.maxEvents Prod.snd hcheck hact releases 0 (s, ⟨1, []⟩)
  refine ⟨_, Prod.ext ?_ (Prod.ext rfl ?_)⟩
  · exact (congrArg Prod.fst h).symm
  · exact (congrArg Prod.snd h).symm

lemma CleanupScript.runOf_ended (budget : CleanupBudget) (releases : List Release) :
    Script.Ended (t.script budget) budget.maxEvents releases (t.runOf budget releases).1.1
      (t.runOf budget releases).1.2 (t.runOf budget releases).2.attempted :=
  (t.plays budget).run_ended releases ⟨1, []⟩ (Or.inr rfl) rfl

/-- The report that a reading `exhausted` of the end of the work list comes to. -/
def reportOf (exhausted : Option (Stop InputFault) → Bool) (owed : ℕ)
    (r : (ℕ × Option (Stop InputFault)) × Tape) : CleanupReport :=
  ⟨r.1.1, owed,
    InputReceipt.cleanupState (if exhausted r.1.2 then .exhausted else .incomplete) r.1.1 owed,
    r.2.attempted⟩

lemma cleanupReport_withCleanupResult (receipt : InputReceipt) (released owed : ℕ)
    (exhausted : Bool) (e : Tape) :
    InputReceipt.cleanupReport (withCleanupResult receipt released owed exhausted) e =
      ⟨released, owed,
        InputReceipt.cleanupState (if exhausted then .exhausted else .incomplete) released owed,
        e.attempted⟩ := by
  cases exhausted <;> rfl

lemma owedReleases_length (pending : Bool) (held : List PressedState) :
    (owedReleases pending held).length = pending.toNat + held.length := by
  cases pending <;> simp [owedReleases, Nat.add_comm]

lemma isSome_toNat {β : Type*} (o : Option β) : o.isSome.toNat = o.toList.length := by
  cases o <;> rfl

/-- What Windows may have to release of a sequence that stopped. -/
def Windows.heldOf (request : InputRequest) (stopped : StoppedSubmission Windows.SubmissionFailure) :
    List PressedState :=
  request.sequence.possiblyHeldAfter stopped.submitted stopped.failure.currentEventMayLeavePressedState

def Macos.heldOf (request : InputRequest) (stopped : StoppedSubmission Macos.SubmissionFailure) :
    List PressedState :=
  request.sequence.possiblyHeldAfter stopped.submitted stopped.failure.currentEventMayHaveEffect

lemma windows_loop (route : InputDelivery) (held : List PressedState) (s : Windows.DriverState)
    (budget : CleanupBudget) :
    ∃ s', Windows.cleanupLoop budget.maxEvents (cleanupInterruption (t.cleanup budget))
        (fun pressed x => t.windowsDriver.release route pressed x.1 x.2) s.pendingUnicode held
        (s, ⟨1, []⟩) =
      (((t.runOf budget (owedReleases s.pendingUnicode.isSome held)).1.1,
        Windows.exhausted (t.runOf budget (owedReleases s.pendingUnicode.isSome held)).1.2),
        s', (t.runOf budget (owedReleases s.pendingUnicode.isSome held)).2) := by
  have hmap : ((s.pendingUnicode.map Windows.PendingRelease.unicode).toList ++
      held.map Windows.PendingRelease.logical).map CleanupScript.windowsRelease =
        owedReleases s.pendingUnicode.isSome held := by
    cases s.pendingUnicode <;>
      simp [owedReleases, CleanupScript.windowsRelease, Function.comp_def]
  have hrelease : (fun pressed (x : Windows.DriverState × Tape) =>
      t.windowsDriver.release route pressed x.1 x.2) =
        fun pressed => t.act (CleanupScript.windowsRelease pressed) := rfl
  obtain ⟨s', hs'⟩ := t.runOf_eq budget (owedReleases s.pendingUnicode.isSome held) s
  refine ⟨s', ?_⟩
  unfold Windows.cleanupLoop
  rw [Windows.releaseLoop_eq, hrelease,
    Worklist.run_map CleanupScript.windowsRelease, hmap, hs']

lemma macos_loop (route : InputDelivery) (held : List PressedState) (s : Macos.DriverState)
    (budget : CleanupBudget) :
    ∃ s', Macos.cleanupLoop budget.maxEvents (cleanupInterruption (t.cleanup budget))
        (fun pressed x => t.macosDriver.release route pressed x.1 x.2)
        (fun x => t.macosDriver.releasePending route x.1 x.2) s.pendingTextRelease.isSome held
        (s, ⟨1, []⟩) =
      (((t.runOf budget (owedReleases s.pendingTextRelease.isSome held)).1.1,
        Macos.exhausted (t.runOf budget (owedReleases s.pendingTextRelease.isSome held)).1.2),
        s', (t.runOf budget (owedReleases s.pendingTextRelease.isSome held)).2) := by
  obtain ⟨s', hs'⟩ := t.runOf_eq budget (owedReleases s.pendingTextRelease.isSome held) s
  refine ⟨s', ?_⟩
  have hloop := Macos.cleanupLoop_eq budget.maxEvents (cleanupInterruption (t.cleanup budget))
    t.act s.pendingTextRelease.isSome held (s, ⟨1, []⟩)
  rw [hs'] at hloop
  exact hloop

theorem windowsReport_eq (receipt : InputReceipt)
    (stopped : StoppedSubmission Windows.SubmissionFailure) (s : Windows.DriverState)
    (releases : List Release)
    (hreleases : owedReleases s.pendingUnicode.isSome (Windows.heldOf request stopped) = releases) :
    t.windowsReport request receipt stopped s =
      reportOf Windows.exhausted releases.length (t.runOf request.cleanup releases) := by
  have hlen : (Windows.heldOf request stopped).length + s.pendingUnicode.toList.length =
      releases.length := by
    rw [← hreleases, owedReleases_length, isSome_toNat, Nat.add_comm]
  have hcontext : request.cleanup.context t.context ⟨0, []⟩ = (t.cleanup request.cleanup, ⟨1, []⟩) :=
    rfl
  obtain ⟨s', hloop⟩ :=
    windows_loop t stopped.route (Windows.heldOf request stopped) s request.cleanup
  unfold CleanupScript.windowsReport Windows.runCleanup
  simp only [hcontext]
  rw [show request.sequence.possiblyHeldAfter stopped.submitted
    stopped.failure.currentEventMayLeavePressedState = Windows.heldOf request stopped from rfl, hlen]
  by_cases howed : releases.length = 0
  · rw [if_pos howed, howed, List.length_eq_zero_iff.mp howed]
    rfl
  · rw [if_neg howed, hloop, hreleases]
    exact cleanupReport_withCleanupResult _ _ _ _ _

theorem macosReport_eq (receipt : InputReceipt)
    (stopped : StoppedSubmission Macos.SubmissionFailure) (s : Macos.DriverState)
    (releases : List Release)
    (hreleases : owedReleases s.pendingTextRelease.isSome (Macos.heldOf request stopped) = releases) :
    t.macosReport request receipt stopped s =
      reportOf Macos.exhausted releases.length (t.runOf request.cleanup releases) := by
  have hlen : s.pendingTextRelease.toList.length + (Macos.heldOf request stopped).length =
      releases.length := by
    rw [← hreleases, owedReleases_length, isSome_toNat]
  have hcontext : request.cleanup.context t.context ⟨0, []⟩ = (t.cleanup request.cleanup, ⟨1, []⟩) :=
    rfl
  obtain ⟨s', hloop⟩ := macos_loop t stopped.route (Macos.heldOf request stopped) s request.cleanup
  unfold CleanupScript.macosReport Macos.runCleanup
  simp only [hcontext]
  rw [show request.sequence.possiblyHeldAfter stopped.submitted
    stopped.failure.currentEventMayHaveEffect = Macos.heldOf request stopped from rfl, hlen]
  by_cases howed : releases.length = 0
  · rw [if_pos howed, howed, List.length_eq_zero_iff.mp howed]
    rfl
  · rw [if_neg howed, hloop, hreleases]
    exact cleanupReport_withCleanupResult _ _ _ _ _

/-! ### Judging a report -/

/-- **What the documentation asks of a cleanup report**: the releases are attempted in order and
within the count, those that succeeded come first, and the state is `Exhausted` exactly when the
count or the deadline stopped cleanup (a release that itself returns `DeadlineExceeded` included)
and `Incomplete` exactly when a release was refused for another reason. -/
structure Judged (t : Script InputFault) (bound : ℕ) (releases : List Release)
    (r : CleanupReport) : Prop where
  owed_eq : r.owed = releases.length
  attempted_prefix : r.attempted <+: releases
  attempted_le : r.attempted.length ≤ bound
  released_le : r.released ≤ r.attempted.length
  attempted_succ : r.attempted.length ≤ r.released + 1
  released_clear : ∀ j < r.released, t.Clear bound j
  exhausted_iff : r.state = .exhausted ↔ ∃ k, t.ComesTo bound releases.length k ∧
    (t.BoundAt bound k ∨ t.RefusedAt bound k .deadlineExceeded)
  incomplete_iff : r.state = .incomplete ↔ ∃ k, t.ComesTo bound releases.length k ∧
    ∃ fault, fault ≠ .deadlineExceeded ∧ t.RefusedAt bound k fault

section State

variable {script : Script InputFault} {bound : ℕ} {releases tried : List Release} {n : ℕ}
  {stop : Option (Stop InputFault)} {exhausted : Option (Stop InputFault) → Bool}

lemma state_of_ended (h : Script.Ended script bound releases n stop tried) :
    InputReceipt.cleanupState (if exhausted stop then .exhausted else .incomplete) n releases.length =
      match stop with
      | none => if releases.length = 0 then .notNeeded else .complete
      | some stop => if exhausted (some stop) then .exhausted else .incomplete := by
  unfold InputReceipt.cleanupState
  cases stop with
  | none =>
    have hall : n = releases.length := h.stopped
    simp [hall]
  | some stop =>
    have hlt : n < releases.length := h.count_lt.mp (by simp)
    rw [if_neg (by omega), if_neg (by omega)]

lemma state_exhausted (hnone : exhausted none = false)
    (h : Script.Ended script bound releases n stop tried) :
    InputReceipt.cleanupState (if exhausted stop then .exhausted else .incomplete) n releases.length =
      .exhausted ↔ exhausted stop = true := by
  rw [state_of_ended h]
  cases stop with
  | none =>
    simp only [hnone, Bool.false_eq_true, iff_false]
    split <;> simp
  | some stop => simp only; split <;> simp_all

lemma state_incomplete (h : Script.Ended script bound releases n stop tried) :
    InputReceipt.cleanupState (if exhausted stop then .exhausted else .incomplete) n releases.length =
      .incomplete ↔ stop ≠ none ∧ exhausted stop = false := by
  rw [state_of_ended h]
  cases stop with
  | none =>
    simp only [ne_eq, not_true_eq_false, false_and, iff_false]
    split <;> simp
  | some stop => simp only; split <;> simp_all

lemma judged_of_ended (h : Script.Ended script bound releases n stop tried) (state : CleanupState)
    (hexhausted : state = .exhausted ↔
      stop = some .bound ∨ stop = some (.refused .deadlineExceeded))
    (hincomplete : state = .incomplete ↔
      ∃ fault, fault ≠ .deadlineExceeded ∧ stop = some (.refused fault)) :
    Judged script bound releases ⟨n, releases.length, state, tried⟩ where
  owed_eq := rfl
  attempted_prefix := h.tried_eq ▸ List.take_prefix _ _
  attempted_le := h.tried_bound
  released_le := h.tried_ge
  attempted_succ := h.tried_le
  released_clear := h.clear
  exhausted_iff := by
    rw [hexhausted, h.stop_bound, h.stop_refused]
    simp only [and_or_left, exists_or]
  incomplete_iff := by
    rw [hincomplete]
    constructor
    · rintro ⟨fault, hne, hstop⟩
      obtain ⟨k, hk, hrefused⟩ := (h.stop_refused fault).mp hstop
      exact ⟨k, hk, fault, hne, hrefused⟩
    · rintro ⟨k, hk, fault, hne, hrefused⟩
      exact ⟨fault, hne, (h.stop_refused fault).mpr ⟨k, hk, hrefused⟩⟩

end State

theorem windows_judged (receipt : InputReceipt)
    (stopped : StoppedSubmission Windows.SubmissionFailure) (s : Windows.DriverState)
    (releases : List Release)
    (hreleases : owedReleases s.pendingUnicode.isSome (Windows.heldOf request stopped) = releases) :
    Judged (t.script request.cleanup) request.cleanup.maxEvents releases
      (t.windowsReport request receipt stopped s) := by
  rw [windowsReport_eq t request receipt stopped s releases hreleases]
  have h := t.runOf_ended request.cleanup releases
  unfold reportOf
  refine judged_of_ended h _ ?_ ?_
  · rw [state_exhausted rfl h]
    rcases (t.runOf request.cleanup releases).1.2 with _ | _ | fault
    · simp [Windows.exhausted]
    · simp [Windows.exhausted]
    · cases fault <;> simp [Windows.exhausted]
  · rw [state_incomplete h]
    rcases (t.runOf request.cleanup releases).1.2 with _ | _ | fault
    · simp [Windows.exhausted]
    · simp [Windows.exhausted]
    · cases fault <;> simp [Windows.exhausted]

lemma macos_state (receipt : InputReceipt) (stopped : StoppedSubmission Macos.SubmissionFailure)
    (s : Macos.DriverState) (releases : List Release)
    (hreleases : owedReleases s.pendingTextRelease.isSome (Macos.heldOf request stopped) = releases) :
    (t.macosReport request receipt stopped s).state = .exhausted ↔
      ∃ k, (t.script request.cleanup).ComesTo request.cleanup.maxEvents releases.length k ∧
        (t.script request.cleanup).BoundAt request.cleanup.maxEvents k := by
  rw [macosReport_eq t request receipt stopped s releases hreleases]
  have h := t.runOf_ended request.cleanup releases
  rw [← h.stop_bound]
  unfold reportOf
  rw [state_exhausted rfl h]
  rcases (t.runOf request.cleanup releases).1.2 with _ | _ | fault <;> simp [Macos.exhausted]

/-- **macOS reports as documented and as Windows does** when no release that cleanup comes to
returns `DeadlineExceeded`. -/
theorem macosReport_eq_windowsReport (request' : InputRequest)
    (hbudget : request'.cleanup = request.cleanup) (receipt receipt' : InputReceipt)
    (w : StoppedSubmission Windows.SubmissionFailure) (sw : Windows.DriverState)
    (m : StoppedSubmission Macos.SubmissionFailure) (sm : Macos.DriverState)
    (releases : List Release)
    (hw : owedReleases sw.pendingUnicode.isSome (Windows.heldOf request w) = releases)
    (hm : owedReleases sm.pendingTextRelease.isSome (Macos.heldOf request' m) = releases)
    (hclear : ∀ k, (t.script request.cleanup).ComesTo request.cleanup.maxEvents releases.length k →
      ¬ (t.script request.cleanup).RefusedAt request.cleanup.maxEvents k .deadlineExceeded) :
    t.macosReport request' receipt' m sm = t.windowsReport request receipt w sw := by
  rw [windowsReport_eq t request receipt w sw releases hw,
    macosReport_eq t request' receipt' m sm releases hm, hbudget]
  have h := t.runOf_ended request.cleanup releases
  have hstop : (t.runOf request.cleanup releases).1.2 ≠ some (.refused .deadlineExceeded) := by
    intro hstop
    obtain ⟨k, hk, hrefused⟩ := (h.stop_refused _).mp hstop
    exact hclear k hk hrefused
  have hsame : Macos.exhausted (t.runOf request.cleanup releases).1.2 =
      Windows.exhausted (t.runOf request.cleanup releases).1.2 := by
    revert hstop
    rcases (t.runOf request.cleanup releases).1.2 with _ | _ | fault
    · exact fun _ => rfl
    · exact fun _ => rfl
    · intro hstop
      cases fault <;> first | rfl | exact absurd rfl hstop
  unfold reportOf
  rw [hsame]

/-- **Cleanup agreement.**  Against the same readings of the clock and the same answers of the
driver, over the same releases and under the same budget, Windows and macOS report the same and both
as documented if and only if no release that cleanup comes to returns `DeadlineExceeded`: macOS
reports such a release as `Incomplete`. -/
theorem cleanup_agreement (request' : InputRequest) (hbudget : request'.cleanup = request.cleanup)
    (receipt receipt' : InputReceipt)
    (w : StoppedSubmission Windows.SubmissionFailure) (sw : Windows.DriverState)
    (m : StoppedSubmission Macos.SubmissionFailure) (sm : Macos.DriverState)
    (releases : List Release)
    (hw : owedReleases sw.pendingUnicode.isSome (Windows.heldOf request w) = releases)
    (hm : owedReleases sm.pendingTextRelease.isSome (Macos.heldOf request' m) = releases) :
    (t.macosReport request' receipt' m sm = t.windowsReport request receipt w sw ∧
      Judged (t.script request.cleanup) request.cleanup.maxEvents releases
        (t.windowsReport request receipt w sw) ∧
      Judged (t.script request.cleanup) request.cleanup.maxEvents releases
        (t.macosReport request' receipt' m sm)) ↔
    ∀ k, (t.script request.cleanup).ComesTo request.cleanup.maxEvents releases.length k →
      ¬ (t.script request.cleanup).RefusedAt request.cleanup.maxEvents k .deadlineExceeded := by
  constructor
  · rintro ⟨-, -, hjudged⟩ k hk hrefused
    have hstate := macos_state t request' receipt' m sm releases hm
    rw [hbudget] at hstate
    obtain ⟨k', hk', hbound⟩ := hstate.mp (hjudged.exhausted_iff.mpr ⟨k, hk, Or.inr hrefused⟩)
    obtain rfl : k' = k := hk'.unique hk hbound.not_clear hrefused.not_clear
    exact hrefused.not_boundAt hbound
  · intro hclear
    have hjudged := windows_judged t request receipt w sw releases hw
    have hsame := macosReport_eq_windowsReport t request request' hbudget receipt receipt' w sw m sm
      releases hw hm hclear
    refine ⟨hsame, hjudged, ?_⟩
    rw [hsame]
    exact hjudged

end Reports

/-! ### A held modifier -/

/-- Shift and then the primary button, under the budget of the contract. -/
def shiftRequest : InputRequest where
  target := ⟨firstOrdinal, "windows", firstOrdinal⟩
  sequence := ⟨[.keyPress (.modifier .shift), .pointerPress .primary], by decide, by decide,
    by decide⟩
  delivery := ⟨[.system], by decide, by decide⟩
  focus := .preserve
  pointerGeometry := ⟨.reprojectCurrent, none⟩
  cleanup := .contract

def shiftReceipt : InputReceipt :=
  .partialRun shiftRequest.target .system .systemInputAdmission 1 false .cancelled

def windowsShift : StoppedSubmission Windows.SubmissionFailure :=
  ⟨.system, .systemInputAdmission, [], 1, .beforeEvent .cancelled⟩

def macosShift : StoppedSubmission Macos.SubmissionFailure :=
  ⟨.system, .systemInputAdmission, [], 1, .beforeEvent .cancelled⟩

def steadyScript (result : Except InputFault Unit) : CleanupScript := ⟨fun _ => 0, fun _ => result⟩

/-- `cleanup_agreement` where the one release succeeds. -/
theorem cleanup_agreement_sample :
    ((steadyScript (.ok ())).macosReport shiftRequest shiftReceipt macosShift ⟨none⟩ =
        (steadyScript (.ok ())).windowsReport shiftRequest shiftReceipt windowsShift ⟨none⟩) ∧
      (steadyScript (.ok ())).windowsReport shiftRequest shiftReceipt windowsShift ⟨none⟩ =
        ⟨1, 1, .complete, [.held (.key (.modifier .shift))]⟩ := by
  refine ⟨((cleanup_agreement (steadyScript (.ok ())) shiftRequest shiftRequest rfl shiftReceipt
    shiftReceipt windowsShift ⟨none⟩ macosShift ⟨none⟩ [.held (.key (.modifier .shift))] (by decide)
    (by decide)).mpr ?_).1, by decide⟩
  rintro k - ⟨-, -, hresult⟩
  cases hresult

/-- **The disagreement**: Shift is held, its release returns `DeadlineExceeded`, and Windows reports
`Exhausted` where macOS reports `Incomplete`. -/
theorem expired_release_disagrees :
    Windows.heldOf shiftRequest windowsShift = [.key (.modifier .shift)] ∧
    Macos.heldOf shiftRequest macosShift = [.key (.modifier .shift)] ∧
    (steadyScript (.error .deadlineExceeded)).windowsReport shiftRequest shiftReceipt windowsShift
      ⟨none⟩ = ⟨0, 1, .exhausted, [.held (.key (.modifier .shift))]⟩ ∧
    (steadyScript (.error .deadlineExceeded)).macosReport shiftRequest shiftReceipt macosShift
      ⟨none⟩ = ⟨0, 1, .incomplete, [.held (.key (.modifier .shift))]⟩ := by
  decide

end MadoPilot.Platform
