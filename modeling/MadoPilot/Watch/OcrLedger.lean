import MadoPilot.Watch.OcrMachine
import MadoPilot.Watch.QueryMachine

/-!
# Every source of an OCR query is accounted for

* `OcrSection` : what a section does to the counters, the sources the query has and its outcome, one
  lemma for each section;
* `OcrTurn` : what a step does to the desk, its book and its gate (`ocrStep_turn`);
* `OcrSettled` : the invariant of the desk (`ocr_settled`);
* `ocr_conservation` : sources are conserved, one outcome is stored and ends all counting, and no match
  is stored once the session or the scheduler has recorded its end.
-/

namespace MadoPilot.Watch

open MadoPilot.Core MadoPilot.Lib

/-! ### Counting sources -/

def OcrTextWorkDisposition.settles : OcrTextWorkDisposition → Bool
  | superseded | skippedChange | completed | failed => true
  | admitted | deferredRate | coalesced | rejected | queueExpired => false

theorem countP_settles (ds : List OcrTextWorkDisposition) :
    ds.countP OcrTextWorkDisposition.settles =
      ds.count .superseded + ds.count .skippedChange + ds.count .completed + ds.count .failed := by
  induction ds with
  | nil => rfl
  | cons d ds ih =>
    rw [List.countP_cons, ih]
    simp only [List.count_cons]
    cases d <;> simp [OcrTextWorkDisposition.settles] <;> omega

theorem settledSources_incrementAll {w : OcrTextWorkCounts} {ds : List OcrTextWorkDisposition}
    (h : (w.incrementAll ds).Unsaturated) :
    settledSources (w.incrementAll ds) =
      settledSources w + ds.countP OcrTextWorkDisposition.settles := by
  unfold settledSources
  rw [h.get, h.get, h.get, h.get, countP_settles]
  omega

/-! ### What a section does -/

/-- What a section that accepts `taken` sources does: the dispositions it counts settle the sources
that the query has no longer, a queue expiry comes with the outcome it is counted for, a query that
has ended does not change, and one that ends has nothing left. -/
structure OcrSection (taken : ℕ) (d d' : OcrQueryData) : Prop where
  counts : ∃ ds : List OcrTextWorkDisposition, d'.work = d.work.incrementAll ds ∧
    d.held + taken = d'.held + ds.countP OcrTextWorkDisposition.settles ∧
    (ds.count .queueExpired = 0 ∨ ds.count .queueExpired = 1 ∧
      d'.terminal = some (.overloaded .queueExpired))
  frozen : d.terminal ≠ none → d' = d
  emptied : d'.terminal ≠ none → d.terminal = none → d'.pending = none ∧ d'.execution = none

namespace OcrQueryData

variable {d : OcrQueryData} {q : OcrQueryShared}

theorem section_refl (d : OcrQueryData) : OcrSection 0 d d :=
  ⟨⟨[], rfl, rfl, Or.inl rfl⟩, fun _ => rfl, fun hsome hnone => absurd hnone hsome⟩

theorem finish_held (d : OcrQueryData) (o : OcrTextTerminalOutcome) : (d.finish o).held = 0 := rfl

theorem finish_work (d : OcrQueryData) (o : OcrTextTerminalOutcome) :
    (d.finish o).work = d.work.incrementAll (List.replicate d.held .superseded) := rfl

theorem finish_section (hnone : d.terminal = none) (o : OcrTextTerminalOutcome) :
    OcrSection 0 d (d.finish o) := by
  refine ⟨⟨List.replicate d.held .superseded, rfl, ?_, Or.inl ?_⟩, fun hsome => absurd hnone hsome,
    fun _ _ => ⟨rfl, rfl⟩⟩
  · rw [finish_held, List.countP_replicate]
    simp [OcrTextWorkDisposition.settles]
  · simp [List.count_replicate]

theorem terminate_section (authority : Option OcrTextTerminalOutcome)
    (proposed : OcrTextTerminalOutcome) : OcrSection 0 d (d.terminate authority proposed).1 := by
  unfold terminate
  split
  · exact section_refl d
  · rename_i hnone
    exact finish_section hnone _

theorem sweep_section (authority : Option OcrTextTerminalOutcome) (now : ℕ) (ended : Bool) :
    OcrSection 0 d (d.sweep q authority now ended).1 := by
  unfold sweep
  split
  · exact section_refl d
  · rename_i hopen
    have hnone : d.terminal = none := by simpa using hopen
    split
    · exact section_refl d
    · rename_i outcome hdue
      by_cases hexpired : (d.expired now && outcome.isOverloaded) = true
      · -- the expiry is counted and the pending source superseded
        simp only [if_pos hexpired]
        have hout : outcome = .overloaded .queueExpired := by
          cases outcome <;> simp [OcrTextTerminalOutcome.isOverloaded] at hexpired
          rename_i overload
          cases overload
          rfl
        refine ⟨⟨List.replicate d.held .superseded ++ [.queueExpired], ?_, ?_, Or.inr ⟨?_, ?_⟩⟩,
          fun hsome => absurd hnone hsome, fun _ _ => ⟨rfl, rfl⟩⟩
        · rw [finish_work]
          exact Counts.incrementAll_append [OcrTextWorkDisposition.queueExpired] _
        · rw [finish_held, List.countP_append, List.countP_replicate]
          simp [OcrTextWorkDisposition.settles]
        · simp [List.count_append, List.count_replicate]
        · rw [hout]
          rfl
      · simp only [if_neg hexpired]
        exact finish_section hnone outcome

/-! ### Sources -/

theorem noteSource_pending (d : OcrQueryData) (stamp : FrameStamp) :
    (d.noteSource stamp).pending = d.pending ∧ (d.noteSource stamp).terminal = d.terminal := by
  unfold noteSource
  split <;> exact ⟨rfl, rfl⟩

theorem noteSource_counts (d : OcrQueryData) (stamp : FrameStamp) :
    ∃ n, (d.noteSource stamp).work = d.work.incrementAll (List.replicate n .superseded) ∧
      d.execution.toList.length = (d.noteSource stamp).execution.toList.length + n := by
  unfold noteSource
  split
  · exact ⟨d.execution.toList.length, rfl, by simp⟩
  · exact ⟨0, rfl, rfl⟩

theorem countP_superseded (n : ℕ) :
    (List.replicate n OcrTextWorkDisposition.superseded).countP OcrTextWorkDisposition.settles = n := by
  rw [List.countP_replicate]
  rfl

theorem count_expired_superseded (n : ℕ) :
    (List.replicate n OcrTextWorkDisposition.superseded).count .queueExpired = 0 := by
  rw [List.count_replicate]
  rfl

theorem noteSource_section (hnone : d.terminal = none) (stamp : FrameStamp) :
    OcrSection 0 d (d.noteSource stamp) := by
  obtain ⟨hpending, hterminal⟩ := noteSource_pending d stamp
  obtain ⟨n, hwork, hexecution⟩ := noteSource_counts d stamp
  refine ⟨⟨_, hwork, ?_, Or.inl (count_expired_superseded n)⟩, fun hsome => absurd hnone hsome,
    fun hsome _ => absurd (hterminal.trans hnone) hsome⟩
  rw [countP_superseded]
  unfold held
  rw [hpending]
  omega

/-- **The pending source is replaced**: one is accepted, and the one that was pending superseded. -/
theorem replacePending_section (hnone : d.terminal = none) (stamp : FrameStamp) (region : PixelRect)
    (now : ℕ) : OcrSection 1 d (d.replacePending q stamp region now) := by
  have hdeferred : ∀ b : Bool,
      (if b then [OcrTextWorkDisposition.deferredRate] else []).countP
        OcrTextWorkDisposition.settles = 0 ∧
      (if b then [OcrTextWorkDisposition.deferredRate] else []).count .queueExpired = 0 := by
    intro b
    cases b <;> exact ⟨rfl, rfl⟩
  refine ⟨⟨_, rfl, ?_, Or.inl ?_⟩, fun hsome => absurd hnone hsome, fun hsome _ =>
    absurd hnone hsome⟩
  · rw [List.countP_append, countP_superseded, (hdeferred _).1]
    unfold held replacePending
    simp only [Option.toList_some, List.length_singleton]
    omega
  · rw [List.count_append, count_expired_superseded, (hdeferred _).2]

end OcrQueryData

theorem OcrSection.trans {taken taken' : ℕ} {d d' d'' : OcrQueryData} (h : OcrSection taken d d')
    (h' : OcrSection taken' d' d'') (hopen : d'.terminal = none) :
    OcrSection (taken + taken') d d'' := by
  obtain ⟨ds, hwork, hheld, hexpired⟩ := h.counts
  obtain ⟨es, hwork', hheld', hexpired'⟩ := h'.counts
  have hds : ds.count .queueExpired = 0 := by
    rcases hexpired with hzero | ⟨-, hterminal⟩
    · exact hzero
    · rw [hopen] at hterminal
      cases hterminal
  refine ⟨⟨es ++ ds, ?_, ?_, ?_⟩, fun hsome => ?_, fun hsome _ => h'.emptied hsome hopen⟩
  · rw [hwork', hwork, Counts.incrementAll_append]
  · rw [List.countP_append]
    omega
  · rw [List.count_append, hds]
    exact hexpired'
  · exact absurd (h.frozen hsome ▸ hopen) hsome

namespace OcrQueryData

variable {d : OcrQueryData} {q : OcrQueryShared}

theorem enqueue_section (stamp : FrameStamp) (geometry : Except Error PixelRect) (now : ℕ) :
    OcrSection (if (d.enqueue q stamp geometry now).2 = .pending then 1 else 0) d
      (d.enqueue q stamp geometry now).1 := by
  unfold enqueue
  split
  · exact section_refl d
  · rename_i hopen
    have hnone : d.terminal = none := by
      simp only [Bool.or_eq_true, not_or, Bool.not_eq_true] at hopen
      simpa using hopen.1.1
    have hnoted : (d.noteSource stamp).terminal = none :=
      (noteSource_pending d stamp).2.trans hnone
    cases geometry with
    | error error => exact noteSource_section hnone stamp
    | ok region =>
      have hsection := (noteSource_section hnone stamp).trans
        (replacePending_section (q := q) hnoted stamp region now) hnoted
      simpa using hsection

/-! ### Executions -/

theorem claim_section {stamp : FrameStamp} {now : ℕ} {physical : Bool}
    {interruption : Option Interruption} {d' : OcrQueryData} {w : OcrWork}
    (h : d.claim stamp now physical interruption = some (d', w)) :
    OcrSection 0 d d' := by
  unfold claim at h
  split at h
  · cases h
  · rename_i hguard
    simp only [Bool.or_eq_true, not_or, Bool.not_eq_true] at hguard
    have hnone : d.terminal = none := by simpa using hguard.1.1.1.1.2
    have hidle : d.execution = none := by simpa using hguard.1.1.1.2
    obtain ⟨generation, -, h⟩ := Option.bind_eq_some_iff.mp h
    obtain ⟨pending, hpending, h⟩ := Option.map_eq_some_iff.mp h
    obtain ⟨rfl, rfl⟩ := Prod.mk.inj h
    refine ⟨⟨[], rfl, ?_, Or.inl rfl⟩, fun hsome => absurd hnone hsome, fun hsome _ =>
      absurd hnone hsome⟩
    simp [held, hpending, hidle]

theorem executionCurrent_iff {w : OcrWork} : d.executionCurrent w = true ↔
    d.terminal = none ∧ d.execution = some ⟨w.generation, w.stamp⟩ := by
  unfold executionCurrent
  simp

theorem admitPrepared_section (w : OcrWork) (region : PixelRect) (mapping : Option ℕ)
    (unchanged : Bool) (now : ℕ) :
    OcrSection 0 d (d.admitPrepared q w region mapping unchanged now).1 := by
  unfold admitPrepared
  split
  · exact section_refl d
  · rename_i hcurrent
    obtain ⟨hnone, hexecution⟩ := executionCurrent_iff.mp (by simpa using hcurrent)
    dsimp only
    split
    · refine ⟨⟨[.skippedChange], rfl, ?_, Or.inl rfl⟩, fun hsome => absurd hnone hsome,
        fun hsome _ => absurd hnone hsome⟩
      simp [held, hexecution, OcrTextWorkDisposition.settles]
    · split
      · rename_i eligible pending heligible hpending
        refine ⟨⟨[.deferredRate, .admitted], rfl, ?_, Or.inl rfl⟩, fun hsome => absurd hnone hsome,
          fun hsome _ => absurd hnone hsome⟩
        have hheld : d.pending = some pending := hpending
        simp [held, hheld, OcrTextWorkDisposition.settles]
      · exact ⟨⟨[.admitted], rfl, rfl, Or.inl rfl⟩, fun hsome => absurd hnone hsome,
          fun hsome _ => absurd hnone hsome⟩

theorem complete_section {w : OcrWork} {mapping : Option ℕ} {confirmed : ℕ}
    {first : Option FrameStamp} {evaluated : Except Error (Bool × Option OcrTextWatchResult)}
    {refusal : Option OcrTextTerminalOutcome} :
    OcrSection 0 d (d.complete w mapping confirmed first evaluated refusal).1 := by
  unfold complete
  split
  · exact section_refl d
  · rename_i hcurrent
    obtain ⟨hnone, hexecution⟩ := executionCurrent_iff.mp (by simpa using hcurrent)
    cases refusal with
    | some outcome => exact finish_section hnone outcome
    | none =>
      cases evaluated with
      | error error =>
        have hfailed : OcrSection 0 d { d with execution := none, work := d.work.increment .failed } := by
          refine ⟨⟨[.failed], rfl, ?_, Or.inl rfl⟩, fun hsome => absurd hnone hsome, fun hsome _ =>
            absurd hnone hsome⟩
          simp [held, hexecution, OcrTextWorkDisposition.settles]
        refine hfailed.trans (finish_section ?_ _) hnone
        exact hnone
      | ok r =>
        obtain ⟨positive, result⟩ := r
        have hobserved : OcrSection 0 d
            { d.observe w mapping positive confirmed first with execution := none } := by
          refine ⟨⟨[.completed], rfl, ?_, Or.inl rfl⟩, fun hsome => absurd hnone hsome,
            fun hsome _ => absurd hnone hsome⟩
          simp [held, observe, hexecution, OcrTextWorkDisposition.settles]
        cases result with
        | none => exact hobserved
        | some result =>
          refine hobserved.trans (finish_section ?_ _) hnone
          exact hnone

end OcrQueryData

/-! ### The desk -/

structure OcrSettled (s : OcrDesk) : Prop where
  account : s.data.work.Unsaturated →
    s.book.accepted.length = s.data.held + settledSources s.data.work
  expired : s.data.work.get .queueExpired ≤ 1 ∧ (s.data.work.get .queueExpired = 1 →
    s.data.terminal = some (.overloaded .queueExpired))
  commits : s.book.commits = s.data.terminal.toList
  emptied : s.data.terminal ≠ none → s.data.pending = none ∧ s.data.execution = none

namespace OcrSettled

variable {s : OcrDesk}

theorem new : OcrSettled OcrDesk.new := by
  refine ⟨fun _ => rfl, ⟨Nat.zero_le _, fun h => ?_⟩, rfl, fun h => absurd rfl h⟩
  cases h

/-- **A section keeps the desk settled**, if the book says what it accepted and stored. -/
theorem write {taken : ℕ} {s' : OcrDesk} (h : OcrSettled s) (hsection : OcrSection taken s.data s'.data)
    (haccepted : s'.book.accepted.length = s.book.accepted.length + taken)
    (hcommits : s'.book.commits = s.book.commits ++
      if s.data.terminal = none then s'.data.terminal.toList else []) : OcrSettled s' := by
  obtain ⟨ds, hwork, hheld, hexpired⟩ := hsection.counts
  refine ⟨fun hsat => ?_, ?_, ?_, fun hsome => ?_⟩
  · rw [hwork] at hsat
    have hold := h.account hsat.before
    rw [haccepted, hold, hwork, settledSources_incrementAll hsat]
    omega
  · by_cases hopen : s.data.terminal = none
    · have hzero : s.data.work.get .queueExpired = 0 := by
        have hle := h.expired.1
        have hone := h.expired.2
        rw [hopen] at hone
        by_contra hne
        exact absurd (hone (by omega)) (by simp)
      rw [hwork, Counts.incrementAll_get, hzero, Nat.zero_add]
      rcases hexpired with hnone | ⟨hone, hterminal⟩
      · rw [hnone]
        exact ⟨by simp, fun h => by simp at h⟩
      · rw [hone]
        exact ⟨Nat.min_le_right _ _, fun _ => hterminal⟩
    · rw [hsection.frozen hopen]
      exact h.expired
  · rw [hcommits, h.commits]
    by_cases hopen : s.data.terminal = none
    · rw [if_pos hopen, hopen]
      rfl
    · rw [if_neg hopen, hsection.frozen hopen, List.append_nil]
  · by_cases hopen : s.data.terminal = none
    · exact hsection.emptied hsome hopen
    · rw [hsection.frozen hopen]
      exact h.emptied hopen

end OcrSettled

/-! ### What commits -/

/-- A section that says whether it stored an outcome: it stores one only in an open query, and leaves
the outcome alone otherwise. -/
def Stores (d : OcrQueryData) (r : OcrQueryData × Bool) : Prop :=
  (r.2 = true → d.terminal = none) ∧ (r.2 = false → r.1.terminal = d.terminal)

namespace OcrQueryData

variable {d : OcrQueryData} {q : OcrQueryShared}

theorem terminate_stores (authority : Option OcrTextTerminalOutcome)
    (proposed : OcrTextTerminalOutcome) : Stores d (d.terminate authority proposed) := by
  unfold terminate
  split
  · exact ⟨fun h => (by cases h), fun _ => rfl⟩
  · rename_i hnone
    exact ⟨fun _ => hnone, fun h => (by cases h)⟩

theorem sweep_stores (authority : Option OcrTextTerminalOutcome) (now : ℕ) (ended : Bool) :
    Stores d (d.sweep q authority now ended) := by
  unfold sweep
  split
  · exact ⟨fun h => (by cases h), fun _ => rfl⟩
  · rename_i hopen
    have hnone : d.terminal = none := by simpa using hopen
    split
    · exact ⟨fun h => (by cases h), fun _ => rfl⟩
    · exact ⟨fun _ => hnone, fun h => (by cases h)⟩

theorem complete_stores {w : OcrWork} {mapping : Option ℕ} {confirmed : ℕ}
    {first : Option FrameStamp} {evaluated : Except Error (Bool × Option OcrTextWatchResult)}
    {refusal : Option OcrTextTerminalOutcome} :
    Stores d (d.complete w mapping confirmed first evaluated refusal) := by
  unfold complete
  split
  · exact ⟨fun h => (by cases h), fun _ => rfl⟩
  · rename_i hcurrent
    obtain ⟨hnone, -⟩ := executionCurrent_iff.mp (by simpa using hcurrent)
    refine ⟨fun _ => hnone, ?_⟩
    cases refusal with
    | some outcome => exact fun h => (by cases h)
    | none =>
      cases evaluated with
      | error error => exact fun h => (by cases h)
      | ok r =>
        obtain ⟨positive, result⟩ := r
        cases result with
        | some result => exact fun h => (by cases h)
        | none => exact fun _ => rfl

theorem enqueue_terminal (stamp : FrameStamp) (geometry : Except Error PixelRect) (now : ℕ) :
    (d.enqueue q stamp geometry now).1.terminal = d.terminal := by
  have hnoted := (noteSource_pending d stamp).2
  unfold enqueue
  split
  · rfl
  · cases geometry with
    | error error => exact hnoted
    | ok region => exact hnoted

theorem claim_terminal {stamp : FrameStamp} {now : ℕ} {physical : Bool}
    {interruption : Option Interruption} {d' : OcrQueryData} {w : OcrWork}
    (h : d.claim stamp now physical interruption = some (d', w)) : d'.terminal = d.terminal := by
  unfold claim at h
  split at h
  · cases h
  · obtain ⟨generation, -, h⟩ := Option.bind_eq_some_iff.mp h
    obtain ⟨pending, -, h⟩ := Option.map_eq_some_iff.mp h
    obtain ⟨rfl, -⟩ := Prod.mk.inj h
    rfl

theorem admitPrepared_terminal (w : OcrWork) (region : PixelRect) (mapping : Option ℕ)
    (unchanged : Bool) (now : ℕ) :
    (d.admitPrepared q w region mapping unchanged now).1.terminal = d.terminal := by
  unfold admitPrepared
  split
  · rfl
  · dsimp only
    split
    · rfl
    · split <;> rfl

end OcrQueryData

/-! ### Matches -/

def Unmatched (o : Option OcrTextTerminalOutcome) : Prop := ∀ r, o ≠ some (.matched r)

theorem unmatched_none : Unmatched none := fun _ h => by cases h

theorem Unmatched.or {o o' : Option OcrTextTerminalOutcome} (h : Unmatched o) (h' : Unmatched o') :
    Unmatched (o.or o') := by
  cases o with
  | none => exact h'
  | some o => exact h

theorem interrupted_unmatched (i : Option Interruption) : Unmatched (interrupted i) := by
  intro r h
  cases i with
  | none => cases h
  | some i => cases i <;> cases h

theorem sourceOutcome_unmatched {R : Type} (o : TemplateTerminalOutcome R) :
    Unmatched (some (sourceOutcome o)) := by
  intro r h
  cases o <;> cases h

theorem authority_unmatched (g : OcrGate) (i : Option Interruption) : Unmatched (g.authority i) := by
  unfold OcrGate.authority
  refine Unmatched.or ?_ (Unmatched.or ?_ (Unmatched.or ?_ (interrupted_unmatched i)))
  · cases g.terminalAuthority with
    | none => exact unmatched_none
    | some o => exact sourceOutcome_unmatched o
  · split_ifs
    · exact fun r h => by cases h
    · exact unmatched_none
  · split_ifs
    · exact fun r h => by cases h
    · exact unmatched_none

theorem refreshInterruption_unmatched {o : Option OcrTextTerminalOutcome} (h : Unmatched o)
    (i : Option Interruption) : Unmatched (refreshInterruption o i) := by
  unfold refreshInterruption
  split
  · exact (interrupted_unmatched i).or h
  · exact (interrupted_unmatched i).or h
  · exact (interrupted_unmatched i).or h
  · exact h

theorem refusal_unmatched {o : Option OcrTextTerminalOutcome} (h : Unmatched o)
    (capture : Option Error) (i : Option Interruption) :
    Unmatched (OcrQueryData.refusal o capture i) := by
  have hcapture : Unmatched (capture.map fun error => sourceOutcome (captureOutcome error)) := by
    cases capture with
    | none => exact unmatched_none
    | some error => exact sourceOutcome_unmatched _
  unfold OcrQueryData.refusal
  refine refreshInterruption_unmatched ?_ i
  split
  · exact hcapture.or unmatched_none
  · exact hcapture.or h
  · exact hcapture.or h
  · exact h

theorem authority_eq_none {g : OcrGate} {i : Option Interruption} (h : g.authority i = none) :
    g.sealed = false := by
  unfold OcrGate.authority at h
  unfold OcrGate.sealed
  simp only [Option.or_eq_none_iff, Option.map_eq_none_iff] at h
  obtain ⟨hterminal, hsession, hscheduler, -⟩ := h
  simp_all

theorem refreshInterruption_eq_none {o : Option OcrTextTerminalOutcome} {i : Option Interruption}
    (h : refreshInterruption o i = none) : o = none := by
  unfold refreshInterruption at h
  split at h
  · rfl
  · exact (Option.or_eq_none_iff.mp h).2
  · exact (Option.or_eq_none_iff.mp h).2
  · exact h

theorem refusal_eq_none {o : Option OcrTextTerminalOutcome} {capture : Option Error}
    {i : Option Interruption} (h : OcrQueryData.refusal o capture i = none) : o = none := by
  have hauthority := refreshInterruption_eq_none h
  split at hauthority
  · rfl
  · exact (Option.or_eq_none_iff.mp hauthority).2
  · exact (Option.or_eq_none_iff.mp hauthority).2
  · exact hauthority

namespace OcrQueryData

variable {d : OcrQueryData} {q : OcrQueryShared}

theorem terminate_unmatched {authority : Option OcrTextTerminalOutcome}
    {proposed : OcrTextTerminalOutcome} (hnone : d.terminal = none) (ha : Unmatched authority)
    (hp : Unmatched (some proposed)) : Unmatched (d.terminate authority proposed).1.terminal := by
  unfold terminate
  rw [hnone]
  simp only [finish]
  split
  · exact fun r h => by cases h
  · exact fun r h => by cases h
  · exact ha
  · exact hp

theorem due_unmatched {authority : Option OcrTextTerminalOutcome} {now : ℕ} {ended : Bool}
    (ha : Unmatched authority) : Unmatched (d.due q authority now ended) := by
  have hif : ∀ (c : Prop) [Decidable c] (o : OcrTextTerminalOutcome), Unmatched (some o) →
      Unmatched (if c then some o else none) := by
    intro c _ o ho
    split_ifs
    · exact ho
    · exact unmatched_none
  unfold due
  refine ha.or (Unmatched.or (hif _ _ ?_) (Unmatched.or (hif _ _ ?_) (Unmatched.or (hif _ _ ?_)
    (hif _ _ ?_))))
  all_goals exact fun r h => by cases h

theorem sweep_unmatched {authority : Option OcrTextTerminalOutcome} {now : ℕ} {ended : Bool}
    (hnone : d.terminal = none) (ha : Unmatched authority) :
    Unmatched (d.sweep q authority now ended).1.terminal := by
  have hdue : Unmatched (d.due q authority now ended) := due_unmatched ha
  unfold sweep
  split
  · rw [hnone]
    exact unmatched_none
  · split
    · rw [hnone]
      exact unmatched_none
    · rename_i outcome heq
      rw [heq] at hdue
      exact hdue

theorem complete_unmatched {w : OcrWork} {mapping : Option ℕ} {confirmed : ℕ}
    {first : Option FrameStamp} {evaluated : Except Error (Bool × Option OcrTextWatchResult)}
    {outcome : OcrTextTerminalOutcome} (hnone : d.terminal = none)
    (ho : Unmatched (some outcome)) :
    Unmatched (d.complete w mapping confirmed first evaluated (some outcome)).1.terminal := by
  unfold complete
  split
  · rw [hnone]
    exact unmatched_none
  · exact ho

end OcrQueryData

/-! ### What a step does -/

def OcrPlace.Proposes : OcrPlace → Prop
  | .terminating o | .publishTerminating o | .workTerminating _ o => Unmatched (some o)
  | _ => True

/-- What a step does to the desk: one section, with the book kept, and no match under a sealed
gate. -/
structure OcrTurn (s s' : OcrDesk) : Prop where
  accepts : ∃ taken, OcrSection taken s.data s'.data ∧
    s'.book.accepted.length = s.book.accepted.length + taken
  commits : s'.book.commits = s.book.commits ++
    if s.data.terminal = none then s'.data.terminal.toList else []
  sealing : s.gate.sealed = true → s'.gate.sealed = true
  matched : s.data.terminal = none → s.gate.sealed = true → Unmatched s'.data.terminal

namespace OcrTurn

variable {s s' : OcrDesk} {q : OcrQueryShared}

theorem rest (hdata : s'.data = s.data) (hbook : s'.book = s.book)
    (hgate : s.gate.sealed = true → s'.gate.sealed = true) : OcrTurn s s' := by
  refine ⟨⟨0, ?_, ?_⟩, ?_, hgate, fun hnone _ => ?_⟩
  · rw [hdata]
    exact OcrQueryData.section_refl s.data
  · rw [hbook]
    rfl
  · rw [hbook, hdata]
    by_cases hopen : s.data.terminal = none
    · rw [if_pos hopen, hopen]
      simp
    · rw [if_neg hopen, List.append_nil]
  · rw [hdata, hnone]
    exact unmatched_none

theorem unstored {taken : ℕ} (hsection : OcrSection taken s.data s'.data)
    (hterminal : s'.data.terminal = s.data.terminal)
    (haccepted : s'.book.accepted.length = s.book.accepted.length + taken)
    (hcommits : s'.book.commits = s.book.commits) (hgate : s'.gate = s.gate) : OcrTurn s s' := by
  refine ⟨⟨taken, hsection, haccepted⟩, ?_, fun h => hgate ▸ h, fun hnone _ => ?_⟩
  · rw [hcommits]
    by_cases hopen : s.data.terminal = none
    · rw [if_pos hopen, hterminal, hopen]
      simp
    · rw [if_neg hopen, List.append_nil]
  · rw [hterminal, hnone]
    exact unmatched_none

theorem stored {r : OcrQueryData × Bool} (hsection : OcrSection 0 s.data r.1)
    (hstores : Stores s.data r)
    (hmatched : s.data.terminal = none → s.gate.sealed = true → Unmatched r.1.terminal) :
    OcrTurn s (s.write r) := by
  refine ⟨⟨0, hsection, rfl⟩, ?_, id, hmatched⟩
  unfold OcrDesk.write
  cases hr : r.2 with
  | true => rw [if_pos (hstores.1 hr)]; rfl
  | false =>
    have hsame := hstores.2 hr
    by_cases hopen : s.data.terminal = none
    · rw [if_pos hopen]
      simp [hsame, hopen]
    · rw [if_neg hopen]
      rfl

theorem terminate {proposed : OcrTextTerminalOutcome} (hp : Unmatched (some proposed))
    (interruption again : Option Interruption) :
    OcrTurn s (s.terminate proposed interruption again) :=
  stored (OcrQueryData.terminate_section _ _) (OcrQueryData.terminate_stores _ _) fun hnone _ =>
    OcrQueryData.terminate_unmatched hnone
      (refreshInterruption_unmatched (authority_unmatched _ _) _) hp

theorem sweep (now : ℕ) (interruption again : Option Interruption) :
    OcrTurn s (s.sweep q now interruption again) :=
  stored (OcrQueryData.sweep_section _ _ _) (OcrQueryData.sweep_stores _ _ _) fun hnone _ =>
    OcrQueryData.sweep_unmatched hnone (refreshInterruption_unmatched (authority_unmatched _ _) _)

theorem enqueue (stamp : FrameStamp) (geometry : Except Error PixelRect) (now : ℕ) :
    OcrTurn s (s.enqueue q stamp geometry now).1 ∧ (s.enqueue q stamp geometry now).2.Proposes := by
  have hsection := OcrQueryData.enqueue_section (d := s.data) (q := q) stamp geometry now
  have hterminal := OcrQueryData.enqueue_terminal (d := s.data) (q := q) stamp geometry now
  unfold OcrDesk.enqueue
  split
  · rename_i d error heq
    rw [heq] at hsection hterminal
    refine ⟨unstored hsection hterminal (by simp [OcrDesk.noteEnqueued]) rfl rfl, fun r h => ?_⟩
    cases h
  · rename_i d enqueued _ heq
    rw [heq] at hsection hterminal
    refine ⟨unstored hsection hterminal ?_ rfl rfl, trivial⟩
    unfold OcrDesk.noteEnqueued
    split <;> simp_all

theorem claim (stamp : FrameStamp) (now : ℕ) (interruption : Option Interruption) :
    OcrTurn s (s.claim stamp now interruption).1 ∧ (s.claim stamp now interruption).2.Proposes := by
  unfold OcrDesk.claim
  split
  · rename_i d w heq
    exact ⟨unstored (OcrQueryData.claim_section heq) (OcrQueryData.claim_terminal heq) rfl rfl rfl,
      trivial⟩
  · exact ⟨rest rfl rfl id, trivial⟩

theorem admitPrepared {w : OcrWork} {region : PixelRect} {mapping : Option ℕ} {unchanged : Bool}
    {now : ℕ} {interruption again : Option Interruption} :
    OcrTurn s (s.admitPrepared q w region mapping unchanged now interruption again).1 ∧
    (s.admitPrepared q w region mapping unchanged now interruption again).2.Proposes := by
  have hsection := OcrQueryData.admitPrepared_section (d := s.data) (q := q) w region mapping
    unchanged now
  have hterminal := OcrQueryData.admitPrepared_terminal (d := s.data) (q := q) w region mapping
    unchanged now
  unfold OcrDesk.admitPrepared
  split
  · rename_i outcome heq
    refine ⟨rest rfl rfl id, ?_⟩
    have ha := authority_unmatched s.gate interruption
    rw [heq] at ha
    exact ha
  · split
    · exact ⟨rest rfl rfl id, trivial⟩
    · split
      · rename_i outcome heq
        refine ⟨rest rfl rfl id, ?_⟩
        have hi := interrupted_unmatched again
        rw [heq] at hi
        exact hi
      · split
        · rename_i d heq
          rw [heq] at hsection hterminal
          exact ⟨unstored hsection hterminal rfl rfl rfl, trivial⟩
        · rename_i d admission _ heq
          rw [heq] at hsection hterminal
          exact ⟨unstored hsection hterminal rfl rfl rfl, trivial⟩

theorem complete {w : OcrWork} {mapping : Option ℕ} {output : Except Error OcrResult} {confirmed : ℕ}
    {first : Option FrameStamp} {evaluated : Except Error (Bool × Option OcrTextWatchResult)}
    {capture : Option Error} {interruption again : Option Interruption} :
    OcrTurn s (s.complete w mapping output confirmed first evaluated capture interruption again) := by
  generalize hr : OcrQueryData.refusal (s.gate.authority interruption) capture again = refusal
  have hstored : OcrTurn s (s.write (s.data.complete w mapping confirmed first evaluated refusal)) := by
    refine stored OcrQueryData.complete_section OcrQueryData.complete_stores fun hnone hsealed => ?_
    cases refusal with
    | none =>
      have hopen := authority_eq_none (refusal_eq_none hr)
      rw [hopen] at hsealed
      cases hsealed
    | some outcome =>
      refine OcrQueryData.complete_unmatched hnone ?_
      rw [← hr]
      exact refusal_unmatched (authority_unmatched _ _) _ _
  unfold OcrDesk.complete
  rw [hr]
  exact ⟨hstored.accepts, hstored.commits, hstored.sealing, hstored.matched⟩

theorem released (h : OcrTurn s s') : OcrTurn s { s' with publishing := false } :=
  ⟨h.accepts, h.commits, h.sealing, h.matched⟩

end OcrTurn

theorem close_sealed {g : OcrGate} (outcome : TemplateTerminalOutcome Unit) (h : g.sealed = true) :
    (g.close outcome).sealed = true := by
  unfold OcrGate.close
  split_ifs
  · exact h
  · simp [OcrGate.sealed]

theorem endSource_sealed {g : OcrGate} (outcome : Option (TemplateTerminalOutcome Unit))
    (h : g.sealed = true) : (g.endSource outcome).sealed = true := by
  unfold OcrGate.endSource
  unfold OcrGate.sealed at h ⊢
  simp only [Bool.or_eq_true] at h ⊢
  rcases h with (hterminal | hsession) | hscheduler
  · obtain ⟨o, ho⟩ := Option.isSome_iff_exists.mp hterminal
    refine Or.inl (Or.inl ?_)
    rw [ho]
    rfl
  · exact Or.inl (Or.inr hsession)
  · exact Or.inr hscheduler

theorem callComplete_proposes (s : OcrDesk) (q : OcrQueryShared) (w : OcrWork) (mapping : Option ℕ)
    (output : Except Error OcrResult) (answers : EvaluateAnswers) :
    (s.callComplete q w mapping output answers).Proposes := by
  unfold OcrDesk.callComplete
  split_ifs <;> exact trivial

theorem ocrStep_turn {q : OcrQueryShared} {τ : Type*} {t : τ} {s : OcrDesk} {p : OcrPlace}
    {e : OcrEvent} {r : OcrDesk × OcrPlace} (hp : p.Proposes) (h : ocrStep q t s p e = some r) :
    OcrTurn s r.1 ∧ r.2.Proposes := by
  unfold ocrStep at h
  split at h
  · -- `enqueue` reads what the query has seen
    split_ifs at h
    · obtain rfl := Option.some.inj h
      exact ⟨.rest rfl rfl id, trivial⟩
    · obtain rfl := Option.some.inj h
      exact ⟨.rest rfl rfl id, trivial⟩
  · rename_i stamp geometry now interruption
    have ha := authority_unmatched s.gate interruption
    split at h
    · rename_i outcome heq
      obtain rfl := Option.some.inj h
      rw [heq] at ha
      exact ⟨.rest rfl rfl id, ha⟩
    · obtain rfl := Option.some.inj h
      exact OcrTurn.enqueue stamp geometry now
  · rename_i proposed
    split_ifs at h with hmatch
    obtain rfl := Option.some.inj h
    refine ⟨.rest rfl rfl id, fun r hr => hmatch ?_⟩
    obtain rfl := Option.some.inj hr
    rfl
  · obtain rfl := Option.some.inj h
    exact ⟨.terminate hp _ _, trivial⟩
  · obtain rfl := Option.some.inj h
    exact ⟨(OcrTurn.terminate hp _ _).released, trivial⟩
  · obtain rfl := Option.some.inj h
    exact ⟨.terminate hp _ _, trivial⟩
  · obtain rfl := Option.some.inj h
    exact ⟨.sweep _ _ _, trivial⟩
  · obtain rfl := Option.some.inj h
    exact ⟨.sweep _ _ _, trivial⟩
  · obtain rfl := Option.some.inj h
    exact ⟨.sweep _ _ _, trivial⟩
  · obtain rfl := Option.some.inj h
    exact OcrTurn.claim _ _ _
  · obtain rfl := Option.some.inj h
    refine ⟨.rest rfl rfl id, ?_⟩
    dsimp only
    split_ifs <;> exact trivial
  · obtain rfl := Option.some.inj h
    exact OcrTurn.admitPrepared
  · split_ifs at h
    obtain rfl := Option.some.inj h
    exact ⟨.rest rfl rfl id, callComplete_proposes ..⟩
  · obtain rfl := Option.some.inj h
    exact ⟨.rest rfl rfl id, callComplete_proposes ..⟩
  · obtain rfl := Option.some.inj h
    exact ⟨.complete, trivial⟩
  · obtain rfl := Option.some.inj h
    exact ⟨.rest rfl rfl id, trivial⟩
  · obtain rfl := Option.some.inj h
    exact ⟨.rest rfl rfl (close_sealed _), trivial⟩
  · obtain rfl := Option.some.inj h
    exact ⟨.rest rfl rfl (endSource_sealed _), trivial⟩
  · obtain rfl := Option.some.inj h
    refine ⟨.rest rfl rfl fun _ => ?_, trivial⟩
    simp [OcrGate.sealed]
  · cases h

/-! ### Runs -/

section Runs

variable {τ : Type*} [DecidableEq τ] {q : OcrQueryShared} {w w' : OcrWorld τ}

theorem ocr_proposes (h : (ocrSystem τ q).Reachable w) (t : τ) : (w.pc t).Proposes := by
  refine threads_invariant (P := fun w => ∀ t, (w.pc t).Proposes) (fun _ => trivial) ?_ h t
  intro w t e s' p' _ hproposes hact
  exact w.forall_move t s' p' (ocrStep_turn (hproposes t) hact).2 fun u _ => hproposes u

theorem ocr_turn {t : τ} {e : OcrEvent} (h : (ocrSystem τ q).Reachable w)
    (hstep : (ocrSystem τ q).step w (t, e) w') : OcrTurn w.shared w'.shared := by
  obtain ⟨s', p', hact, rfl⟩ := hstep
  exact (ocrStep_turn (ocr_proposes h t) hact).1

theorem ocr_settled (h : (ocrSystem τ q).Reachable w) : OcrSettled w.shared := by
  refine h.invariant (P := fun w => OcrSettled w.shared) (fun w hw => ?_)
    fun w i w' hr hsettled hstep => ?_
  · rw [hw]
    exact OcrSettled.new
  · have hturn := ocr_turn hr hstep
    obtain ⟨taken, hsection, haccepted⟩ := hturn.accepts
    exact hsettled.write hsection haccepted hturn.commits

theorem ocr_frozen (h : (ocrSystem τ q).Reachable w) (hended : w.shared.data.terminal ≠ none)
    (hleads : (ocrSystem τ q).Leads w w') : w'.shared.data = w.shared.data := by
  refine hleads.preserves (P := fun v => v.shared.data = w.shared.data)
    (fun v i v' hr hsame hstep => ?_) h rfl
  obtain ⟨taken, hsection, -⟩ := (ocr_turn hr hstep).accepts
  refine (hsection.frozen ?_).trans hsame
  rw [hsame]
  exact hended

theorem ocr_sealed (h : (ocrSystem τ q).Reachable w) (hsealed : w.shared.gate.sealed = true)
    (hopen : Unmatched w.shared.data.terminal) (hleads : (ocrSystem τ q).Leads w w') :
    Unmatched w'.shared.data.terminal := by
  refine (hleads.preserves (P := fun v => v.shared.gate.sealed = true ∧ Unmatched v.shared.data.terminal)
    (fun v i v' hr hv hstep => ?_) h ⟨hsealed, hopen⟩).2
  have hturn := ocr_turn hr hstep
  refine ⟨hturn.sealing hv.1, ?_⟩
  by_cases hnone : v.shared.data.terminal = none
  · exact hturn.matched hnone hv.1
  · obtain ⟨taken, hsection, -⟩ := hturn.accepts
    rw [hsection.frozen hnone]
    exact hv.2

/-- **Sources are conserved, and one outcome ends the query.** -/
theorem ocr_conservation (h : (ocrSystem τ q).Reachable w) :
    (w.shared.data.work.Unsaturated → w.shared.book.accepted.length =
      w.shared.data.pending.toList.length + w.shared.data.execution.toList.length +
      w.shared.data.work.get .superseded + w.shared.data.work.get .skippedChange +
      w.shared.data.work.get .completed + w.shared.data.work.get .failed) ∧
    w.shared.data.work.get .queueExpired ≤ 1 ∧
    (w.shared.data.work.get .queueExpired = 1 →
      w.shared.data.terminal = some (.overloaded .queueExpired)) ∧
    w.shared.book.commits = w.shared.data.terminal.toList ∧
    (w.shared.data.terminal ≠ none → w.shared.data.pending = none ∧ w.shared.data.execution = none ∧
      ∀ w', (ocrSystem τ q).Leads w w' → w'.shared.data = w.shared.data) ∧
    ((w.shared.gate.terminalAuthority.isSome = true ∨ w.shared.gate.sessionClosed = true ∨
        w.shared.gate.schedulerClosed = true) → w.shared.data.terminal = none →
      ∀ w', (ocrSystem τ q).Leads w w' → ∀ r, w'.shared.data.terminal ≠ some (.matched r)) := by
  have hsettled := ocr_settled h
  refine ⟨fun hsat => ?_, hsettled.expired.1, hsettled.expired.2, hsettled.commits, fun hended => ?_,
    fun hrecorded hnone w' hleads => ?_⟩
  · have haccount := hsettled.account hsat
    unfold OcrQueryData.held settledSources at haccount
    omega
  · obtain ⟨hpending, hexecution⟩ := hsettled.emptied hended
    exact ⟨hpending, hexecution, fun w' hleads => ocr_frozen h hended hleads⟩
  · have hsealed : w.shared.gate.sealed = true := by
      unfold OcrGate.sealed
      simpa [or_assoc] using hrecorded
    refine ocr_sealed h hsealed ?_ hleads
    rw [hnone]
    exact unmatched_none

end Runs

/-! ### A run -/

def plainOcrQuery : OcrQueryShared :=
  ⟨⟨firstOrdinal, "provider", firstOrdinal⟩, ⟨firstOrdinal, firstOrdinal⟩, 1, "ok", 1 / 2,
    .capturePixels, ⟨.immediate, 1, Nat.one_pos, by decide⟩, "backend", "provider"⟩

def plainOutput (sequence : ℕ) : OcrResult :=
  ⟨plainStamp sequence, .frameOnly 0 ⟨4, 4⟩, ⟨0, 0, 1, 1⟩, .capturePixels, "backend",
    [⟨"ok", 1 / 4⟩, ⟨"is ok", 3 / 4⟩]⟩

def plainAnswers : EvaluateAnswers :=
  ⟨.frameOnly 0 ⟨4, 4⟩, 64, .ok ⟨0, 0, 1, 1⟩, fun _ => none, 32, 256, .ok ()⟩

def oneMatch : List (Bool × OcrEvent) :=
  [(false, .callEnqueue (plainStamp 1)), (false, .enqueue (.ok ⟨0, 0, 1, 1⟩) 0 none),
    (true, .claim (plainStamp 1) 0 none),
    (true, .admitPrepared ⟨0, 0, 1, 1⟩ none false 0 none none),
    (false, .callEnqueue (plainStamp 2)), (false, .enqueue (.ok ⟨0, 0, 1, 1⟩) 1 none),
    (true, .callComplete none (.ok (plainOutput 1)) plainAnswers),
    (true, .complete none none none)]

def afterMatch : OcrWorld Bool :=
  (replay (ocrStep plainOcrQuery) oneMatch (OcrWorld.start Bool)).get rfl

/-- The first frame is matched and the second superseded. -/
theorem ocr_conservation_sample :
    afterMatch.shared.book.accepted = [plainStamp 1, plainStamp 2] ∧
    afterMatch.shared.data.work.get .superseded = 1 ∧
    afterMatch.shared.data.work.get .completed = 1 ∧
    2 = 0 + 0 + 1 + afterMatch.shared.data.work.get .skippedChange + 1 +
      afterMatch.shared.data.work.get .failed := by
  have hr : (ocrSystem Bool plainOcrQuery).Reachable afterMatch :=
    replay_reachable (Option.some_get
      (x := replay (ocrStep plainOcrQuery) oneMatch (OcrWorld.start Bool)) rfl).symm
  have haccepted : afterMatch.shared.book.accepted = [plainStamp 1, plainStamp 2] := rfl
  have hsuperseded : afterMatch.shared.data.work.get .superseded = 1 := by decide +kernel
  have hcompleted : afterMatch.shared.data.work.get .completed = 1 := by decide +kernel
  have hsat : afterMatch.shared.data.work.Unsaturated := by
    intro d
    cases d <;> decide +kernel
  have hended : afterMatch.shared.data.terminal ≠ none := by decide +kernel
  obtain ⟨hcount, -, -, -, hempty, -⟩ := ocr_conservation hr
  obtain ⟨hpending, hexecution, -⟩ := hempty hended
  have hsources := hcount hsat
  rw [haccepted, hpending, hexecution, hsuperseded, hcompleted] at hsources
  exact ⟨haccepted, hsuperseded, hcompleted, hsources⟩

end MadoPilot.Watch
