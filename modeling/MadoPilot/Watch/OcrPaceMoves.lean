import MadoPilot.Lib.Census
import MadoPilot.Watch.OcrConfirmation
import MadoPilot.Watch.OcrGatingLaw
import MadoPilot.Watch.OcrPace

/-!
# What a step means for the pace of an OCR text query

Of everything that the threads of a query do, its pace knows the last admission, the pending source
with the instant from which it may be claimed, and the worker that holds the lease.  A step leaves
these as they are, or it is one of six that do not.

* `ocrStep_paces` : the inversion of a step;
* `ocr_holders` : the lease has at most one holder, and is out while it has one;
* `ocrStep_commits` : the steps that store an outcome, and the outcomes they store.
-/

namespace MadoPilot.Watch

open MadoPilot.Core MadoPilot.Lib

/-- The pace of the query is left as it was, unless the query has ended. -/
structure OcrQuiet (d d' : OcrQueryData) : Prop where
  last : d'.lastAdmitted = d.lastAdmitted
  opens : d'.terminal = none → d.terminal = none ∧ d'.pending = d.pending ∧
    d'.rateEligibleAt = d.rateEligibleAt

theorem OcrQuiet.refl (d : OcrQueryData) : OcrQuiet d d := ⟨rfl, fun h => ⟨h, rfl, rfl⟩⟩

theorem OcrQuiet.ended {d d' : OcrQueryData} {o : OcrTextTerminalOutcome}
    (hlast : d'.lastAdmitted = d.lastAdmitted) (h : d'.terminal = some o) : OcrQuiet d d' := by
  refine ⟨hlast, fun hnone => ?_⟩
  rw [h] at hnone
  cases hnone

/-- The instant from which a source enqueued now may be claimed, where that is later. -/
def OcrQueryData.eligible (d : OcrQueryData) (q : OcrQueryShared) (now : ℕ) : Option ℕ :=
  (d.lastAdmitted.bind (instantAdd · q.rate)).filter (now < ·)

/-- No later admission can be as far from the last one as the rate asks. -/
def OcrQueryData.Exhausted (d : OcrQueryData) (q : OcrQueryShared) : Prop :=
  ∃ last, d.lastAdmitted = some last ∧ instantAdd last q.rate = none

/-! ### Places -/

namespace OcrPlace

def holds : OcrPlace → Bool
  | .claimed _ | .admitted _ | .completing .. | .workTerminating _ _ | .dropping _ => true
  | _ => false

def executes : OcrPlace → Option OcrWork
  | .admitted w | .completing w .. => some w
  | _ => none

def proposes : OcrPlace → Option OcrTextTerminalOutcome
  | .terminating o | .publishTerminating o | .workTerminating _ o => some o
  | _ => none

theorem holds_of_executes {p : OcrPlace} {w : OcrWork} (h : p.executes = some w) :
    p.holds = true := by
  cases p <;> first | rfl | cases h

end OcrPlace

/-- The step is neither a sweep nor the end of `complete`. -/
def OcrEvent.calm : OcrEvent → Bool
  | .sweep _ _ _ | .complete _ _ _ => false
  | _ => true

theorem interrupted_unloaded {i : Option Interruption} {o : OcrTextTerminalOutcome}
    (h : interrupted i = some o) : o.isOverloaded = false := by
  unfold interrupted at h
  split at h <;> cases h <;> rfl

theorem authority_unloaded {g : OcrGate} {i : Option Interruption} {o : OcrTextTerminalOutcome}
    (h : g.authority i = some o) : o.isOverloaded = false := by
  unfold OcrGate.authority at h
  rw [Option.or_eq_some_iff, Option.or_eq_some_iff, Option.or_eq_some_iff] at h
  rcases h with h | ⟨-, h | ⟨-, h | ⟨-, h⟩⟩⟩
  · obtain ⟨outcome, -, rfl⟩ := Option.map_eq_some_iff.mp h
    cases outcome <;> rfl
  · split_ifs at h
    cases h
    rfl
  · split_ifs at h
    cases h
    rfl
  · exact interrupted_unloaded h

/-- What a step makes a thread propose: what it proposed before, what it was called with, or what is
no overload. -/
def OcrPlace.Follows (p : OcrPlace) (e : OcrEvent) (p' : OcrPlace) : Prop :=
  ∀ o, p'.proposes = some o → p.proposes = some o ∨ e = .callTerminate o ∨ o.isOverloaded = false

theorem OcrPlace.Follows.silent {p p' : OcrPlace} {e : OcrEvent} (h : p'.proposes = none) :
    p.Follows e p' := by
  intro o ho
  rw [h] at ho
  cases ho

/-! ### Sections -/

namespace OcrQueryData

variable {d : OcrQueryData} {q : OcrQueryShared}

theorem terminate_stored (hnone : d.terminal = none) (authority : Option OcrTextTerminalOutcome)
    (proposed : OcrTextTerminalOutcome) :
    (d.terminate authority proposed).1.lastAdmitted = d.lastAdmitted ∧
      (d.terminate authority proposed).1.terminal ≠ none := by
  unfold terminate
  rw [hnone]
  exact ⟨rfl, fun h => by cases h⟩

theorem terminate_quiet (authority : Option OcrTextTerminalOutcome)
    (proposed : OcrTextTerminalOutcome) :
    OcrQuiet d (d.terminate authority proposed).1 ∧
      (d.terminate authority proposed).1.terminal ≠ none := by
  by_cases hnone : d.terminal = none
  · obtain ⟨hlast, hended⟩ := terminate_stored hnone authority proposed
    exact ⟨⟨hlast, fun h => absurd h hended⟩, hended⟩
  · obtain ⟨o, ho⟩ := Option.ne_none_iff_exists'.mp hnone
    have hsame : (d.terminate authority proposed).1 = d := by
      unfold terminate
      rw [ho]
    rw [hsame]
    exact ⟨.refl d, hnone⟩

theorem sweep_cases (authority : Option OcrTextTerminalOutcome) (now : ℕ) (ended : Bool) :
    ((d.sweep q authority now ended).1 = d ∧
        (d.terminal = none → d.due q authority now ended = none)) ∨
      d.terminal = none ∧ ∃ o, d.due q authority now ended = some o ∧
        (d.sweep q authority now ended).1.terminal = some o ∧
        (d.sweep q authority now ended).1.lastAdmitted = d.lastAdmitted := by
  unfold sweep
  by_cases hnone : d.terminal = none
  · rw [hnone, if_neg (by exact Bool.false_ne_true)]
    cases hdue : d.due q authority now ended with
    | none => exact Or.inl ⟨rfl, fun _ => rfl⟩
    | some o =>
      refine Or.inr ⟨rfl, o, rfl, rfl, ?_⟩
      dsimp only
      split <;> rfl
  · rw [if_pos (Option.isSome_iff_ne_none.mpr hnone)]
    exact Or.inl ⟨rfl, fun h => absurd h hnone⟩

theorem due_exhausted (hexhausted : d.Exhausted q) (authority : Option OcrTextTerminalOutcome)
    (now : ℕ) (ended : Bool) (hdue : d.due q authority now ended = none) : d.pending = none := by
  obtain ⟨last, hlast, hadd⟩ := hexhausted
  by_contra hpending
  have hsome : d.pending.isSome = true := Option.isSome_iff_ne_none.mpr hpending
  unfold due at hdue
  dsimp only at hdue
  rw [Option.or_eq_none_iff, Option.or_eq_none_iff, Option.or_eq_none_iff,
    Option.or_eq_none_iff] at hdue
  obtain ⟨-, -, -, htiming, -⟩ := hdue
  rw [if_pos] at htiming
  · cases htiming
  · rw [hsome, hlast]
    simp [hadd]

theorem noteSource_pace (d : OcrQueryData) (stamp : FrameStamp) :
    (d.noteSource stamp).lastAdmitted = d.lastAdmitted ∧
      (d.noteSource stamp).terminal = d.terminal ∧
      (d.noteSource stamp).pending = d.pending ∧
      (d.noteSource stamp).rateEligibleAt = d.rateEligibleAt := by
  unfold noteSource
  dsimp only
  split <;> exact ⟨rfl, rfl, rfl, rfl⟩

theorem enqueue_pace (stamp : FrameStamp) (geometry : Except Error PixelRect) (now : ℕ) :
    OcrQuiet d (d.enqueue q stamp geometry now).1 ∨
      (d.enqueue q stamp geometry now).1.lastAdmitted = d.lastAdmitted ∧
      (d.enqueue q stamp geometry now).1.terminal = d.terminal ∧
      (d.enqueue q stamp geometry now).1.pending =
        some ⟨stamp, (d.pending.map PendingFrame.eligibleSince).getD ((d.eligible q now).getD now)⟩ ∧
      (d.enqueue q stamp geometry now).1.rateEligibleAt =
        if d.pending.isNone then d.eligible q now else d.rateEligibleAt := by
  obtain ⟨hlast, hterminal, hpending, hrate⟩ := noteSource_pace d stamp
  unfold enqueue
  split
  · exact Or.inl (.refl d)
  · cases geometry with
    | error error =>
      exact Or.inl ⟨hlast, fun h => ⟨hterminal.symm.trans h, hpending, hrate⟩⟩
    | ok region =>
      refine Or.inr ?_
      unfold replacePending eligible
      dsimp only
      rw [hlast, hterminal, hpending, hrate]
      exact ⟨rfl, rfl, rfl, rfl⟩

theorem claim_finds {d' : OcrQueryData} {stamp : FrameStamp} {now : ℕ} {physical : Bool}
    {interruption : Option Interruption} {w : OcrWork}
    (h : d.claim stamp now physical interruption = some (d', w)) :
    d.terminal = none ∧ d.pending ≠ none ∧ ∀ eligible, d.rateEligibleAt = some eligible →
      eligible ≤ now := by
  unfold claim at h
  split at h
  · cases h
  · rename_i hguard
    obtain ⟨_, -, h⟩ := Option.bind_eq_some_iff.mp h
    obtain ⟨pending, hsome, -⟩ := Option.map_eq_some_iff.mp h
    simp only [Bool.or_eq_true, not_or, Bool.not_eq_true, Option.isSome_eq_false_iff,
      Option.isNone_iff_eq_none] at hguard
    obtain ⟨⟨⟨⟨⟨-, hnone⟩, -⟩, -⟩, -⟩, hrate⟩ := hguard
    refine ⟨hnone, fun hpending => ?_, fun eligible heligible => ?_⟩
    · rw [hpending] at hsome
      cases hsome
    · rw [heligible] at hrate
      simpa using hrate

/-- What `admit_prepared` does to the pace where it admits: the pending source waits until it may be
claimed. -/
structure Admits (q : OcrQueryShared) (now : ℕ) (d d' : OcrQueryData) : Prop where
  last : d'.lastAdmitted = some now
  terminal : d'.terminal = none
  execution : d'.execution = d.execution
  idle : d.pending = none → d'.pending = none
  waits : ∀ pending', d'.pending = some pending' → ∃ pending, d.pending = some pending ∧
    ((instantAdd now q.rate = none ∧ pending' = pending) ∨
      ∃ eligible, instantAdd now q.rate = some eligible ∧ d'.rateEligibleAt = some eligible ∧
        pending' = { pending with eligibleSince := max pending.eligibleSince eligible })

theorem admitPrepared_pace {w : OcrWork} (hcurrent : d.executionCurrent w = true)
    (region : PixelRect) (mapping : Option ℕ) (unchanged : Bool) (now : ℕ) :
    ((d.admitPrepared q w region mapping unchanged now).2 = .admitted ∧
        Admits q now d (d.admitPrepared q w region mapping unchanged now).1) ∨
      ((d.admitPrepared q w region mapping unchanged now).2 = .skipped ∧
        OcrQuiet d (d.admitPrepared q w region mapping unchanged now).1) := by
  have hopen : d.terminal = none := (executionCurrent_iff.mp hcurrent).1
  unfold admitPrepared
  rw [hcurrent, if_neg (by exact Bool.false_ne_true)]
  dsimp only
  split
  · exact Or.inr ⟨rfl, rfl, fun h => ⟨h, rfl, rfl⟩⟩
  · refine Or.inl ?_
    split
    · rename_i eligible pending heligible hpending
      refine ⟨rfl, rfl, hopen, rfl, fun h => ?_, fun pending' h => ?_⟩
      · rw [hpending] at h
        cases h
      · obtain rfl := Option.some.inj h
        exact ⟨pending, hpending, Or.inr ⟨eligible, heligible, rfl, rfl⟩⟩
    · rename_i hwaits
      refine ⟨rfl, rfl, hopen, rfl, fun h => h, fun pending' h => ⟨pending', h, Or.inl ⟨?_, rfl⟩⟩⟩
      cases hadd : instantAdd now q.rate with
      | none => rfl
      | some eligible => exact absurd h (hwaits eligible pending' hadd)

theorem complete_quiet (w : OcrWork) (mapping : Option ℕ) (confirmed : ℕ)
    (first : Option FrameStamp) (evaluated : Except Error (Bool × Option OcrTextWatchResult))
    (refusal : Option OcrTextTerminalOutcome) :
    OcrQuiet d (d.complete w mapping confirmed first evaluated refusal).1 := by
  unfold complete
  split
  · exact .refl d
  · split
    · exact .ended rfl rfl
    · split
      · exact .ended rfl rfl
      · dsimp only
        split
        · exact .ended rfl rfl
        · exact ⟨rfl, fun h => ⟨h, rfl, rfl⟩⟩

end OcrQueryData

/-! ### Steps -/

inductive OcrPaces (q : OcrQueryShared) (s : OcrDesk) :
    OcrPlace → OcrEvent → OcrDesk → OcrPlace → Prop
  | rests {p p' : OcrPlace} {e : OcrEvent} {s' : OcrDesk} (calm : e.calm = true)
    (quiet : OcrQuiet s.data s'.data)
    (execution : s'.data.terminal = none → s'.data.execution = s.data.execution)
    (physical : s'.physical = s.physical) (holds : p'.holds = p.holds)
    (claimed : ∀ w, p' = .claimed w → p = .claimed w)
    (executes : ∀ w, p.executes = some w → s.data.executionCurrent w = true → p'.executes = some w)
    (book : PaceDesk.admitted e p' = []) (follows : p.Follows e p') : OcrPaces q s p e s' p'
  | sweeps {p : OcrPlace} {now : ℕ} {interruption again : Option Interruption} {s' : OcrDesk}
    (quiet : OcrQuiet s.data s'.data)
    (execution : s'.data.terminal = none → s'.data.execution = s.data.execution)
    (physical : s'.physical = s.physical) (idle : p.executes = none)
    (due : s'.data.terminal = none → s.data.Exhausted q → s.data.pending = none) :
    OcrPaces q s p (.sweep now interruption again) s' p
  | enqueues {stamp : FrameStamp} {geometry : Except Error PixelRect} {now : ℕ}
    {interruption : Option Interruption} {s' : OcrDesk} {p' : OcrPlace}
    (last : s'.data.lastAdmitted = s.data.lastAdmitted)
    (terminal : s'.data.terminal = s.data.terminal)
    (pending : s'.data.pending =
      some ⟨stamp, (s.data.pending.map PendingFrame.eligibleSince).getD
        ((s.data.eligible q now).getD now)⟩)
    (rate : s'.data.rateEligibleAt =
      if s.data.pending.isNone then s.data.eligible q now else s.data.rateEligibleAt)
    (physical : s'.physical = s.physical) (idle : p'.holds = false)
    (follows : (OcrPlace.enqueuing stamp).Follows (.enqueue geometry now interruption) p') :
    OcrPaces q s (.enqueuing stamp) (.enqueue geometry now interruption) s' p'
  | notes {stamp : FrameStamp} {geometry : Except Error PixelRect} {now : ℕ}
    {interruption : Option Interruption} {s' : OcrDesk} {p' : OcrPlace}
    (quiet : OcrQuiet s.data s'.data) (physical : s'.physical = s.physical)
    (idle : p'.holds = false)
    (follows : (OcrPlace.enqueuing stamp).Follows (.enqueue geometry now interruption) p') :
    OcrPaces q s (.enqueuing stamp) (.enqueue geometry now interruption) s' p'
  | claims {stamp : FrameStamp} {now : ℕ} {interruption : Option Interruption} {s' : OcrDesk}
    {w : OcrWork} (terminal : s.data.terminal = none) (pending : s.data.pending ≠ none)
    (rate : ∀ eligible, s.data.rateEligibleAt = some eligible → eligible ≤ now)
    (last : s'.data.lastAdmitted = s.data.lastAdmitted) (taken : s'.data.pending = none)
    (physical : s.physical = false ∧ s'.physical = true) :
    OcrPaces q s .idle (.claim stamp now interruption) s' (.claimed w)
  | admits {w : OcrWork} {region : PixelRect} {mapping : Option ℕ} {unchanged : Bool} {now : ℕ}
    {interruption again : Option Interruption} {s' : OcrDesk}
    (current : s.data.executionCurrent w = true) (admits : s.data.Admits q now s'.data)
    (physical : s'.physical = s.physical) :
    OcrPaces q s (.claimed w) (.admitPrepared region mapping unchanged now interruption again) s'
      (.admitted w)
  | skips {w : OcrWork} {region : PixelRect} {mapping : Option ℕ} {unchanged : Bool} {now : ℕ}
    {interruption again : Option Interruption} {s' : OcrDesk} (quiet : OcrQuiet s.data s'.data)
    (physical : s'.physical = s.physical) :
    OcrPaces q s (.claimed w) (.admitPrepared region mapping unchanged now interruption again) s'
      (.dropping w)
  | completes {w : OcrWork} {mapping : Option ℕ} {output : Except Error OcrResult} {confirmed : ℕ}
    {first : Option FrameStamp} {evaluated : Except Error (Bool × Option OcrTextWatchResult)}
    {capture : Option Error} {interruption again : Option Interruption} {s' : OcrDesk}
    (quiet : OcrQuiet s.data s'.data) (physical : s'.physical = s.physical) :
    OcrPaces q s (.completing w mapping output confirmed first evaluated)
      (.complete capture interruption again) s' (.dropping w)
  | drops {w : OcrWork} {s' : OcrDesk} (data : s'.data = s.data) (physical : s'.physical = false) :
    OcrPaces q s (.dropping w) .drop s' .idle

namespace OcrPaces

variable {q : OcrQueryShared} {s : OcrDesk}

theorem rest {p p' : OcrPlace} {e : OcrEvent} {s' : OcrDesk} (calm : e.calm = true)
    (data : s'.data = s.data) (physical : s'.physical = s.physical) (holds : p'.holds = p.holds)
    (claimed : ∀ w, p' = .claimed w → p = .claimed w)
    (executes : ∀ w, p.executes = some w → s.data.executionCurrent w = true → p'.executes = some w)
    (book : PaceDesk.admitted e p' = []) (follows : p.Follows e p') : OcrPaces q s p e s' p' := by
  refine .rests calm ?_ (fun _ => congrArg _ data) physical holds claimed executes book follows
  rw [data]
  exact .refl _

theorem terminates {p p' : OcrPlace} {s' : OcrDesk} {interruption again : Option Interruption}
    (authority : Option OcrTextTerminalOutcome) (proposed : OcrTextTerminalOutcome)
    (data : s'.data = (s.data.terminate authority proposed).1) (physical : s'.physical = s.physical)
    (holds : p'.holds = p.holds) (claimed : ∀ w, p' ≠ .claimed w) (executes : p.executes = none)
    (silent : p'.proposes = none) : OcrPaces q s p (.terminate interruption again) s' p' := by
  obtain ⟨hquiet, hended⟩ :=
    OcrQueryData.terminate_quiet (d := s.data) authority proposed
  rw [← data] at hquiet hended
  refine .rests rfl hquiet (fun h => absurd h hended) physical holds
    (fun w h => absurd h (claimed w)) (fun w h => ?_) ?_ (.silent silent)
  · rw [executes] at h
    cases h
  · cases p' <;> rfl

theorem sweep {p : OcrPlace} (now : ℕ) (interruption again : Option Interruption)
    (idle : p.executes = none) :
    OcrPaces q s p (.sweep now interruption again) (s.sweep q now interruption again) p := by
  have hcases := OcrQueryData.sweep_cases (d := s.data) (q := q)
    (refreshInterruption (s.gate.authority interruption) again) now s.gate.sourceEnded
  have hdata : (s.sweep q now interruption again).data =
      (s.data.sweep q (refreshInterruption (s.gate.authority interruption) again) now
        s.gate.sourceEnded).1 := rfl
  rw [← hdata] at hcases
  rcases hcases with ⟨hsame, hdue⟩ | ⟨-, o, -, hended, hlast⟩
  · refine .sweeps ?_ (fun _ => congrArg _ hsame) rfl idle fun hnone hexhausted => ?_
    · rw [hsame]
      exact .refl _
    · rw [hsame] at hnone
      exact OcrQueryData.due_exhausted hexhausted _ _ _ (hdue hnone)
  · refine .sweeps (.ended hlast hended) (fun hnone => ?_) rfl idle fun hnone => ?_
    · rw [hended] at hnone
      cases hnone
    · rw [hended] at hnone
      cases hnone

theorem enqueue (stamp : FrameStamp) (geometry : Except Error PixelRect) (now : ℕ)
    (interruption : Option Interruption) :
    OcrPaces q s (.enqueuing stamp) (.enqueue geometry now interruption)
      (s.enqueue q stamp geometry now).1 (s.enqueue q stamp geometry now).2 := by
  have hpace := OcrQueryData.enqueue_pace (d := s.data) (q := q) stamp geometry now
  unfold OcrDesk.enqueue
  split
  · rename_i d error heq
    rw [heq] at hpace
    have hrefused : (OcrPlace.enqueuing stamp).Follows (.enqueue geometry now interruption)
        (.publishTerminating (redactedFailure error)) := by
      intro o ho
      obtain rfl := Option.some.inj ho
      exact Or.inr (Or.inr rfl)
    rcases hpace with hquiet | ⟨hlast, hterminal, hpending, hrate⟩
    · exact .notes hquiet rfl rfl hrefused
    · exact .enqueues hlast hterminal hpending hrate rfl rfl hrefused
  · rename_i d enqueued _ heq
    rw [heq] at hpace
    rcases hpace with hquiet | ⟨hlast, hterminal, hpending, hrate⟩
    · exact .notes hquiet rfl rfl (.silent rfl)
    · exact .enqueues hlast hterminal hpending hrate rfl rfl (.silent rfl)

theorem claim (stamp : FrameStamp) (now : ℕ) (interruption : Option Interruption) :
    OcrPaces q s .idle (.claim stamp now interruption) (s.claim stamp now interruption).1
      (s.claim stamp now interruption).2 := by
  unfold OcrDesk.claim
  split
  · rename_i d w heq
    obtain ⟨hnone, hpending, hrate⟩ := OcrQueryData.claim_finds heq
    obtain ⟨hphysical, -, -, hd⟩ := OcrQueryData.claim_takes heq
    refine .claims hnone hpending hrate ?_ ?_ ⟨hphysical, rfl⟩
    · rw [hd]
    · rw [hd]
  · exact .rest rfl rfl rfl rfl (fun _ h => h) (fun _ h _ => h) rfl (.silent rfl)

theorem admitPrepared (w : OcrWork) (region : PixelRect) (mapping : Option ℕ) (unchanged : Bool)
    (now : ℕ) (interruption again : Option Interruption) :
    OcrPaces q s (.claimed w) (.admitPrepared region mapping unchanged now interruption again)
      (s.admitPrepared q w region mapping unchanged now interruption again).1
      (s.admitPrepared q w region mapping unchanged now interruption again).2 := by
  have hclaimed : ∀ w', (OcrPlace.claimed w).executes = some w' → False := fun _ h => by cases h
  unfold OcrDesk.admitPrepared
  split
  · rename_i o heq
    refine .rest rfl rfl rfl rfl (fun _ h => by cases h) (fun _ h => (hclaimed _ h).elim) rfl ?_
    intro o' ho'
    obtain rfl := Option.some.inj ho'
    exact Or.inr (Or.inr (authority_unloaded heq))
  · split
    · exact .rest rfl rfl rfl rfl (fun _ h => by cases h) (fun _ h => (hclaimed _ h).elim) rfl
        (.silent rfl)
    · rename_i hcurrent
      split
      · rename_i o heq
        refine .rest rfl rfl rfl rfl (fun _ h => by cases h) (fun _ h => (hclaimed _ h).elim) rfl ?_
        intro o' ho'
        obtain rfl := Option.some.inj ho'
        exact Or.inr (Or.inr (interrupted_unloaded heq))
      · have hpace := OcrQueryData.admitPrepared_pace (q := q)
          (by simpa using hcurrent : s.data.executionCurrent w = true) region mapping unchanged now
        split
        · rename_i d heq
          rw [heq] at hpace
          rcases hpace with ⟨-, hadmits⟩ | ⟨hskipped, -⟩
          · exact .admits (by simpa using hcurrent) hadmits rfl
          · cases hskipped
        · rename_i d admission hother heq
          rw [heq] at hpace
          rcases hpace with ⟨hadmitted, -⟩ | ⟨-, hquiet⟩
          · exact absurd hadmitted hother
          · exact .skips hquiet rfl

theorem callComplete {p : OcrPlace} {w : OcrWork} (mapping : Option ℕ)
    (output : Except Error OcrResult) (answers : EvaluateAnswers) (holds : p.holds = true)
    (executes : ∀ w', p.executes = some w' → w' = w) :
    OcrPaces q s p (.callComplete mapping output answers) s
      (s.callComplete q w mapping output answers) := by
  unfold OcrDesk.callComplete
  split
  · rename_i hcurrent
    refine .rest rfl rfl rfl holds.symm (fun _ h => by cases h) (fun w' h hcurrent' => ?_) rfl
      (.silent rfl)
    obtain rfl := executes w' h
    rw [hcurrent'] at hcurrent
    cases hcurrent
  · refine .rest rfl rfl rfl holds.symm (fun _ h => by cases h) (fun w' h _ => ?_) rfl (.silent rfl)
    obtain rfl := executes w' h
    rfl

end OcrPaces

theorem ocrStep_paces {q : OcrQueryShared} {τ : Type*} {t : τ} {s : OcrDesk} {p : OcrPlace}
    {e : OcrEvent} {r : OcrDesk × OcrPlace} (h : ocrStep q t s p e = some r) :
    OcrPaces q s p e r.1 r.2 := by
  unfold ocrStep at h
  split at h
  · split_ifs at h
    · obtain rfl := Option.some.inj h
      exact .rest rfl rfl rfl rfl (fun _ h => h) (fun _ h _ => h) rfl (.silent rfl)
    · obtain rfl := Option.some.inj h
      exact .rest rfl rfl rfl rfl (fun _ h => by cases h) (fun _ h => by cases h) rfl (.silent rfl)
  · rename_i stamp geometry now interruption
    split at h
    · rename_i o heq
      obtain rfl := Option.some.inj h
      refine .notes (.refl _) rfl rfl ?_
      intro o' ho'
      obtain rfl := Option.some.inj ho'
      exact Or.inr (Or.inr (authority_unloaded heq))
    · obtain rfl := Option.some.inj h
      exact .enqueue stamp geometry now interruption
  · split_ifs at h
    obtain rfl := Option.some.inj h
    refine .rest rfl rfl rfl rfl (fun _ h => by cases h) (fun _ h => by cases h) rfl ?_
    intro o' ho'
    obtain rfl := Option.some.inj ho'
    exact Or.inr (Or.inl rfl)
  · obtain rfl := Option.some.inj h
    exact .terminates _ _ rfl rfl rfl (fun _ h => by cases h) rfl rfl
  · obtain rfl := Option.some.inj h
    exact .terminates _ _ rfl rfl rfl (fun _ h => by cases h) rfl rfl
  · obtain rfl := Option.some.inj h
    exact .terminates _ _ rfl rfl rfl (fun _ h => by cases h) rfl rfl
  · obtain rfl := Option.some.inj h
    exact .sweep _ _ _ rfl
  · obtain rfl := Option.some.inj h
    exact .sweep _ _ _ rfl
  · obtain rfl := Option.some.inj h
    exact .sweep _ _ _ rfl
  · obtain rfl := Option.some.inj h
    exact .claim _ _ _
  · rename_i w
    obtain rfl := Option.some.inj h
    by_cases hcurrent : s.data.executionCurrent w = true
    · rw [if_pos hcurrent]
      exact .rest rfl rfl rfl rfl (fun _ h => h) (fun _ h _ => h) rfl (.silent rfl)
    · rw [if_neg hcurrent]
      exact .rest rfl rfl rfl rfl (fun _ h => by cases h) (fun _ h => by cases h) rfl (.silent rfl)
  · obtain rfl := Option.some.inj h
    exact .admitPrepared _ _ _ _ _ _ _
  · split_ifs at h
    obtain rfl := Option.some.inj h
    exact .callComplete _ _ _ rfl fun _ h => by cases h
  · obtain rfl := Option.some.inj h
    exact .callComplete _ _ _ rfl fun w' h => (Option.some.inj h).symm
  · obtain rfl := Option.some.inj h
    exact .completes (OcrQueryData.complete_quiet _ _ _ _ _ _) rfl
  · obtain rfl := Option.some.inj h
    exact .drops rfl rfl
  · obtain rfl := Option.some.inj h
    exact .rest rfl rfl rfl rfl (fun _ h => h) (fun _ h _ => h) rfl (.silent rfl)
  · obtain rfl := Option.some.inj h
    exact .rest rfl rfl rfl rfl (fun _ h => h) (fun _ h _ => h) rfl (.silent rfl)
  · obtain rfl := Option.some.inj h
    exact .rest rfl rfl rfl rfl (fun _ h => h) (fun _ h _ => h) rfl (.silent rfl)
  · cases h

theorem ocr_holders {τ : Type*} [DecidableEq τ] {q : OcrQueryShared} {w : OcrWorld τ}
    (h : (ocrSystem τ q).Reachable w) :
    Census (fun t => (w.pc t).holds = true) w.shared.physical.toNat := by
  refine threads_invariant (P := fun w : OcrWorld τ =>
    Census (fun t => (w.pc t).holds = true) w.shared.physical.toNat)
    (Census.zero fun t => Bool.false_ne_true) (fun w t e s' p' _ hw hact => ?_) h
  have hpaces := ocrStep_paces hact
  generalize hp : w.pc t = p at hpaces
  have hstay : s'.physical = w.shared.physical → p'.holds = p.holds →
      Census (fun u => ((w.move t s' p').pc u).holds = true) s'.physical.toNat := by
    intro hphysical hholds
    rw [hphysical]
    refine Census.stay (P := fun p : OcrPlace => p.holds = true) hw ?_
    rw [hp, hholds]
  cases hpaces with
  | rests _ _ _ physical holds => exact hstay physical holds
  | sweeps _ _ physical => exact hstay physical rfl
  | enqueues _ _ _ _ physical idle => exact hstay physical idle
  | notes _ physical idle => exact hstay physical idle
  | claims _ _ _ _ _ physical =>
    obtain ⟨hfree, htaken⟩ := physical
    rw [hfree] at hw
    show Census _ s'.physical.toNat
    rw [htaken]
    refine Census.enter (P := fun p : OcrPlace => p.holds = true) hw ?_ rfl
    rw [hp]
    exact Bool.false_ne_true
  | admits _ _ physical => exact hstay physical rfl
  | skips _ physical => exact hstay physical rfl
  | completes _ physical => exact hstay physical rfl
  | drops _ physical =>
    have hone : w.shared.physical.toNat = 1 := by
      have hpos := hw.pos (t := t) (by rw [hp]; rfl)
      cases hb : w.shared.physical with
      | false =>
        rw [hb] at hpos
        exact absurd hpos (Nat.lt_irrefl 0)
      | true => rfl
    rw [hone] at hw
    show Census _ s'.physical.toNat
    rw [physical]
    exact Census.leave (P := fun p : OcrPlace => p.holds = true) hw (by rw [hp]; rfl)
      Bool.false_ne_true

/-! ### Outcomes -/

/-- What a section reads of the authorities: the capture's refusal, and two readings of the
interruption. -/
def OcrEvent.reads : OcrEvent → Option (Option Error × Option Interruption × Option Interruption)
  | .terminate interruption again | .sweep _ interruption again => some (none, interruption, again)
  | .complete capture interruption again => some (capture, interruption, again)
  | _ => none

/-- A section that stores an outcome: the authority it has read, a cancellation that a caller prefers
to a deadline, or with no authority what else it has found. -/
inductive OcrCommits (q : OcrQueryShared) (s : OcrDesk) (p : OcrPlace)
    (authority : Option OcrTextTerminalOutcome) : OcrEvent → OcrTextTerminalOutcome → Prop
  | rules {e : OcrEvent} {o : OcrTextTerminalOutcome} (read : authority = some o) :
    OcrCommits q s p authority e o
  | cancels {e : OcrEvent} (read : authority = some .deadlineExceeded) :
    OcrCommits q s p authority e .cancelled
  | proposes {interruption again : Option Interruption} {o : OcrTextTerminalOutcome}
    (read : authority = none) (proposes : p.proposes = some o) :
    OcrCommits q s p authority (.terminate interruption again) o
  | finds {now : ℕ} {interruption again : Option Interruption} {o : OcrTextTerminalOutcome}
    (read : authority = none)
    (due : s.data.due q none now s.gate.sourceEnded = some o) :
    OcrCommits q s p authority (.sweep now interruption again) o
  | evaluates {e : OcrEvent} {o : OcrTextTerminalOutcome} (read : authority = none)
    (evaluates : o.isMatch = true ∨ ∃ error, o = redactedFailure error) :
    OcrCommits q s p authority e o

theorem refusal_uncaptured (authority : Option OcrTextTerminalOutcome)
    (again : Option Interruption) :
    OcrQueryData.refusal authority none again = refreshInterruption authority again := by
  unfold OcrQueryData.refusal
  dsimp only
  congr 1
  split <;> rfl

section Commits

variable {q : OcrQueryShared} {s : OcrDesk} {p : OcrPlace} {o : OcrTextTerminalOutcome}

theorem terminate_commits (hopen : s.data.terminal = none)
    {authority : Option OcrTextTerminalOutcome} {proposed : OcrTextTerminalOutcome}
    {interruption again : Option Interruption} (hproposes : p.proposes = some proposed)
    (h : (s.data.terminate authority proposed).1.terminal = some o) :
    OcrCommits q s p authority (.terminate interruption again) o := by
  unfold OcrQueryData.terminate at h
  rw [hopen] at h
  have ho := Option.some.inj h
  split at ho
  · subst ho
    exact .proposes rfl hproposes
  · subst ho
    exact .cancels rfl
  · subst ho
    exact .rules rfl
  · subst ho
    exact .proposes rfl hproposes

theorem sweep_commits (hopen : s.data.terminal = none)
    {authority : Option OcrTextTerminalOutcome} {now : ℕ}
    {interruption again : Option Interruption}
    (h : (s.data.sweep q authority now s.gate.sourceEnded).1.terminal = some o) :
    OcrCommits q s p authority (.sweep now interruption again) o := by
  rcases OcrQueryData.sweep_cases (d := s.data) (q := q) authority now s.gate.sourceEnded with
    ⟨hsame, -⟩ | ⟨-, o', hdue, hended, -⟩
  · rw [hsame, hopen] at h
    cases h
  · obtain rfl := Option.some.inj (hended.symm.trans h)
    cases authority with
    | none => exact .finds rfl hdue
    | some a => exact .rules hdue

theorem complete_commits (hopen : s.data.terminal = none) {w : OcrWork} {mapping : Option ℕ}
    {confirmed : ℕ} {first : Option FrameStamp}
    {evaluated : Except Error (Bool × Option OcrTextWatchResult)}
    {refusal : Option OcrTextTerminalOutcome} {e : OcrEvent}
    (h : (s.data.complete w mapping confirmed first evaluated refusal).1.terminal = some o) :
    OcrCommits q s p refusal e o := by
  unfold OcrQueryData.complete at h
  split at h
  · rw [hopen] at h
    cases h
  · split at h
    · exact .rules h
    · split at h
      · obtain rfl := Option.some.inj h
        exact .evaluates rfl (Or.inr ⟨_, rfl⟩)
      · dsimp only at h
        split at h
        · obtain rfl := Option.some.inj h
          exact .evaluates rfl (Or.inl rfl)
        · exact absurd (hopen.symm.trans h) (fun h => by cases h)

theorem ocrStep_commits {τ : Type*} {t : τ} {e : OcrEvent} {r : OcrDesk × OcrPlace}
    (h : ocrStep q t s p e = some r) (hopen : s.data.terminal = none)
    (ho : r.1.data.terminal = some o) :
    ∃ capture interruption again, e.reads = some (capture, interruption, again) ∧
      OcrCommits q s p (OcrQueryData.refusal (s.gate.authority interruption) capture again) e o := by
  have hopens : r.1.data.terminal ≠ none := by
    rw [ho]
    exact Option.some_ne_none o
  unfold ocrStep at h
  split at h
  · split_ifs at h
    · obtain rfl := Option.some.inj h
      exact absurd hopen hopens
    · obtain rfl := Option.some.inj h
      exact absurd hopen hopens
  · rename_i stamp geometry now interruption
    split at h
    · obtain rfl := Option.some.inj h
      exact absurd hopen hopens
    · obtain rfl := Option.some.inj h
      have hsame := OcrQueryData.enqueue_terminal (d := s.data) (q := q) stamp geometry now
      refine absurd ?_ hopens
      unfold OcrDesk.enqueue
      split
      · rename_i heq
        rw [heq] at hsame
        exact hsame.trans hopen
      · rename_i heq
        rw [heq] at hsame
        exact hsame.trans hopen
  · split_ifs at h
    obtain rfl := Option.some.inj h
    exact absurd hopen hopens
  · obtain rfl := Option.some.inj h
    refine ⟨none, _, _, rfl, ?_⟩
    rw [refusal_uncaptured]
    exact terminate_commits hopen rfl ho
  · obtain rfl := Option.some.inj h
    refine ⟨none, _, _, rfl, ?_⟩
    rw [refusal_uncaptured]
    exact terminate_commits hopen rfl ho
  · obtain rfl := Option.some.inj h
    refine ⟨none, _, _, rfl, ?_⟩
    rw [refusal_uncaptured]
    exact terminate_commits hopen rfl ho
  · obtain rfl := Option.some.inj h
    refine ⟨none, _, _, rfl, ?_⟩
    rw [refusal_uncaptured]
    exact sweep_commits hopen ho
  · obtain rfl := Option.some.inj h
    refine ⟨none, _, _, rfl, ?_⟩
    rw [refusal_uncaptured]
    exact sweep_commits hopen ho
  · obtain rfl := Option.some.inj h
    refine ⟨none, _, _, rfl, ?_⟩
    rw [refusal_uncaptured]
    exact sweep_commits hopen ho
  · rename_i stamp now interruption
    obtain rfl := Option.some.inj h
    refine absurd ?_ hopens
    unfold OcrDesk.claim
    split
    · rename_i heq
      exact (OcrQueryData.claim_terminal heq).trans hopen
    · exact hopen
  · obtain rfl := Option.some.inj h
    exact absurd hopen hopens
  · rename_i w region mapping unchanged now interruption again
    obtain rfl := Option.some.inj h
    have hsame := OcrQueryData.admitPrepared_terminal (d := s.data) (q := q) w region mapping
      unchanged now
    refine absurd ?_ hopens
    unfold OcrDesk.admitPrepared
    split
    · exact hopen
    · split
      · exact hopen
      · split
        · exact hopen
        · split
          · rename_i heq
            rw [heq] at hsame
            exact hsame.trans hopen
          · rename_i heq
            rw [heq] at hsame
            exact hsame.trans hopen
  · split_ifs at h
    obtain rfl := Option.some.inj h
    exact absurd hopen hopens
  · obtain rfl := Option.some.inj h
    exact absurd hopen hopens
  · obtain rfl := Option.some.inj h
    exact ⟨_, _, _, rfl, complete_commits hopen ho⟩
  · obtain rfl := Option.some.inj h
    exact absurd hopen hopens
  · obtain rfl := Option.some.inj h
    exact absurd hopen hopens
  · obtain rfl := Option.some.inj h
    exact absurd hopen hopens
  · obtain rfl := Option.some.inj h
    exact absurd hopen hopens
  · cases h

end Commits

end MadoPilot.Watch
