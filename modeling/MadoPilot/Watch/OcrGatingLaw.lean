import MadoPilot.Watch.GatingLaw
import MadoPilot.Watch.OcrGatingSound

/-!
# Gating is transparent

The same events happen to two runs of one text query, one that compares pixels and one that executes
every source it claims.

* `OcrFlight` : how far their executions are: at the same place, or one run has skipped the source of
  the other, in which nothing is found;
* `ocr_gating_alike` : the two runs end alike;
* `gating_transparent` : the result for both kinds of queries.
-/

namespace MadoPilot.Watch

open MadoPilot.Core MadoPilot.Lib MadoPilot.Capture

section OcrLaw

variable {S : OcrSight} (q : OcrQueryShared)

/-! ### The relation -/

/-- Two executions at the same place.  The second one never compares as unchanged. -/
inductive Paired : OcrStage S → OcrStage S → Prop
  | idle : Paired .idle .idle
  | claimed (w : OcrWork) : Paired (.claimed w) (.claimed w)
  | prepared (p : OcrPrepared S) : Paired (.prepared p) (.prepared p)
  | compared (p : OcrPrepared S) (unchanged : Bool) :
    Paired (.compared p unchanged) (.compared p false)
  | remembered (p : OcrPrepared S) (unchanged : Bool) (mapping mapping' : Option ℕ) :
    Paired (.remembered p unchanged mapping) (.remembered p false mapping')
  | admitted (p : OcrPrepared S) (mapping mapping' : Option ℕ) :
    Paired (.admitted p mapping) (.admitted p mapping')
  | evaluated (w : OcrWork) (mapping mapping' : Option ℕ) (confirmed : ℕ)
    (first : Option FrameStamp) (evaluated : Except Error (Bool × Option OcrTextWatchResult)) :
    Paired (.evaluated w mapping confirmed first evaluated)
      (.evaluated w mapping' confirmed first evaluated)

inductive Fruitless : OcrWork → OcrStage S → Prop
  | admitted (p : OcrPrepared S) (mapping : Option ℕ)
    (hempty : S.find q p.pixels.content = .ok .empty) : Fruitless p.work (.admitted p mapping)
  | evaluated (w : OcrWork) (mapping : Option ℕ) (confirmed : ℕ) (first : Option FrameStamp) :
    Fruitless w (.evaluated w mapping confirmed first (.ok (false, none)))

inductive OcrFlight (e a : OcrGating S) : Prop
  | both (hstage : Paired e.stage a.stage) (hexecution : e.data.execution = a.data.execution)
  | skipped (w : OcrWork) (he : e.stage = .idle) (hidle : e.data.execution = none)
    (hzero : e.data.confirmed = 0) (ha : Fruitless q w a.stage)
    (hexecution : a.data.execution ≠ none → a.data.execution = some ⟨w.generation, w.stamp⟩)

/-- What two runs of one text query have in common while it is open. -/
structure OcrAbreast (e a : OcrGating S) : Prop where
  source : e.data.source = a.data.source
  pending : e.data.pending.map PendingFrame.stamp = a.data.pending.map PendingFrame.stamp
  generation : e.data.generation = a.data.generation
  confirmed : e.data.confirmed = a.data.confirmed
  first : e.data.firstConfirmed = a.data.firstConfirmed
  quiet : e.data.confirmed = 0 → e.data.firstConfirmed = none
  flight : OcrFlight q e a

/-- Two runs of one text query are alike: both are open, or both have ended in the same way. -/
structure OcrAlike (e a : OcrGating S) : Prop where
  terminal : e.data.terminal = a.data.terminal
  abreast : e.data.terminal = none → OcrAbreast q e a

variable {q} {e a : OcrGating S} {policy : ChangeDetectionPolicy}

theorem OcrAlike.new : OcrAlike q (OcrGating.new S) (OcrGating.new S) :=
  ⟨rfl, fun _ => ⟨rfl, rfl, rfl, rfl, rfl, fun _ => rfl, .both .idle rfl⟩⟩

theorem OcrAlike.ended {o : OcrTextTerminalOutcome} (he : e.data.terminal = some o)
    (ha : a.data.terminal = some o) : OcrAlike q e a := by
  refine ⟨he.trans ha.symm, fun hnone => ?_⟩
  rw [he] at hnone
  cases hnone

theorem OcrAlike.opened (he : e.data.terminal = none) (ha : a.data.terminal = none)
    (h : OcrAbreast q e a) : OcrAlike q e a :=
  ⟨he.trans ha.symm, fun _ => h⟩

/-! ### Ended queries -/

theorem Stores.ended {d : OcrQueryData} {r : OcrQueryData × Bool} {o : OcrTextTerminalOutcome}
    (h : Stores d r) (ho : d.terminal = some o) : r.1.terminal = some o := by
  have hkept : r.2 = false := by
    by_contra hstored
    have hnone := h.1 (Bool.eq_true_of_not_eq_false hstored)
    rw [ho] at hnone
    cases hnone
  exact (h.2 hkept).trans ho

theorem OcrGating.evaluate_data {g : OcrGating S} {w : OcrWork} {mapping : Option ℕ}
    {evaluated : ℕ → Option FrameStamp → Except Error (Bool × Option OcrTextWatchResult)} :
    (g.evaluate w mapping evaluated).data = g.data := by
  unfold OcrGating.evaluate
  split_ifs <;> rfl

theorem OcrGating.step_ended {g : OcrGating S} {o : OcrTextTerminalOutcome}
    (h : g.data.terminal = some o) (event : OcrGatingEvent) :
    (g.step q policy event).data.terminal = some o := by
  unfold OcrGating.step
  cases event with
  | enqueue stamp geometry now =>
    exact (OcrQueryData.enqueue_terminal stamp geometry now).trans h
  | claim stamp now interruption =>
    dsimp only
    split
    · rename_i hclaim
      exact (OcrQueryData.claim_terminal hclaim).trans h
    · exact h
  | prepare i region descriptor =>
    dsimp only
    split
    · split_ifs <;> exact h
    · exact h
  | fail error =>
    dsimp only
    split
    · rw [OcrGating.evaluate_data]
      exact h
    · rw [OcrGating.evaluate_data]
      exact h
    · exact h
  | compare alive =>
    dsimp only
    split
    · split_ifs <;> exact h
    · exact h
  | retain closed =>
    dsimp only
    split <;> exact h
  | admitPrepared now =>
    dsimp only
    split
    · exact (OcrQueryData.admitPrepared_terminal _ _ _ _ _).trans h
    · exact h
  | evaluate retained =>
    dsimp only
    split
    · rw [OcrGating.evaluate_data]
      exact h
    · exact h
  | complete =>
    dsimp only
    split
    · exact OcrQueryData.complete_stores.ended h
    · exact h
  | remember i region descriptor => exact h
  | clear => exact h
  | terminate outcome => exact (OcrQueryData.terminate_stores none outcome).ended h

/-! ### Events that both runs take in one way -/

structure OcrQueryData.Leaves (d d' : OcrQueryData) : Prop where
  source : d'.source = d.source
  pending : d'.pending.map PendingFrame.stamp = d.pending.map PendingFrame.stamp
  generation : d'.generation = d.generation
  confirmed : d'.confirmed = d.confirmed
  first : d'.firstConfirmed = d.firstConfirmed
  execution : d'.execution = d.execution

namespace OcrAbreast

theorem staged (h : OcrAbreast q e a) {e' a' : OcrGating S} (he : e'.data = e.data)
    (ha : a'.data = a.data) (hflight : OcrFlight q e' a') : OcrAbreast q e' a' := by
  refine ⟨?_, ?_, ?_, ?_, ?_, ?_, hflight⟩
  · rw [he, ha]
    exact h.source
  · rw [he, ha]
    exact h.pending
  · rw [he, ha]
    exact h.generation
  · rw [he, ha]
    exact h.confirmed
  · rw [he, ha]
    exact h.first
  · rw [he]
    exact h.quiet

theorem leaves (h : OcrAbreast q e a) {e' a' : OcrGating S} (he : e.data.Leaves e'.data)
    (ha : a.data.Leaves a'.data) (hflight : OcrFlight q e' a') : OcrAbreast q e' a' := by
  refine ⟨?_, ?_, ?_, ?_, ?_, ?_, hflight⟩
  · rw [he.source, ha.source, h.source]
  · rw [he.pending, ha.pending, h.pending]
  · rw [he.generation, ha.generation, h.generation]
  · rw [he.confirmed, ha.confirmed, h.confirmed]
  · rw [he.first, ha.first, h.first]
  · rw [he.confirmed, he.first]
    exact h.quiet

theorem cached (h : OcrAbreast q e a) {cache cache' : MappingCache} :
    OcrAbreast q { e with cache := cache } { a with cache := cache' } := by
  refine h.staged rfl rfl ?_
  cases h.flight with
  | both hstage hexecution => exact .both hstage hexecution
  | skipped w he hidle hzero ha hexecution => exact .skipped w he hidle hzero ha hexecution

theorem noteSource (h : OcrAbreast q e a) (stamp : FrameStamp) :
    OcrAbreast q { e with data := e.data.noteSource stamp }
      { a with data := a.data.noteSource stamp } := by
  have hincompatible : e.data.incompatible stamp = a.data.incompatible stamp := by
    unfold OcrQueryData.incompatible
    rw [h.source]
  unfold OcrQueryData.noteSource
  rw [← hincompatible]
  split_ifs
  · refine ⟨rfl, h.pending, h.generation, rfl, rfl, fun _ => rfl, ?_⟩
    cases h.flight with
    | both hstage hexecution => exact .both hstage rfl
    | skipped w he hidle hzero ha hexecution =>
      exact .skipped w he rfl rfl ha fun hsome => absurd rfl hsome
  · refine ⟨rfl, h.pending, h.generation, h.confirmed, h.first, h.quiet, ?_⟩
    cases h.flight with
    | both hstage hexecution => exact .both hstage hexecution
    | skipped w he hidle hzero ha hexecution => exact .skipped w he hidle hzero ha hexecution

theorem enqueue (h : OcrAbreast q e a) (hterminal : e.data.terminal = a.data.terminal)
    (stamp : FrameStamp) (geometry : Except Error PixelRect) (now : ℕ) :
    OcrAbreast q { e with data := (e.data.enqueue q stamp geometry now).1 }
      { a with data := (a.data.enqueue q stamp geometry now).1 } := by
  have hnoted := h.noteSource stamp
  unfold OcrQueryData.enqueue
  rw [← hterminal, ← h.source]
  split_ifs
  · exact h
  · cases geometry with
    | error error => exact hnoted
    | ok region =>
      refine ⟨hnoted.source, rfl, hnoted.generation, hnoted.confirmed, hnoted.first, hnoted.quiet, ?_⟩
      cases hnoted.flight with
      | both hstage hexecution => exact .both hstage hexecution
      | skipped w he hidle hzero ha hexecution => exact .skipped w he hidle hzero ha hexecution

end OcrAbreast

theorem OcrQueryData.claim_takes {d d' : OcrQueryData} {stamp : FrameStamp} {now : ℕ}
    {physical : Bool} {interruption : Option Interruption} {w : OcrWork}
    (h : d.claim stamp now physical interruption = some (d', w)) :
    physical = false ∧ d.execution = none ∧ w = ⟨stamp, d.generation + 1⟩ ∧
      d' = { d with
        pending := none
        generation := d.generation + 1
        rateEligibleAt := none
        execution := some ⟨d.generation + 1, stamp⟩ } := by
  unfold OcrQueryData.claim at h
  split at h
  · cases h
  · rename_i hguard
    simp only [Bool.or_eq_true, not_or, Bool.not_eq_true, Option.isSome_eq_false_iff,
      Option.isNone_iff_eq_none] at hguard
    obtain ⟨⟨⟨⟨⟨-, -⟩, hidle⟩, hphysical⟩, hpending⟩, -⟩ := hguard
    obtain ⟨generation, hnext, h⟩ := Option.bind_eq_some_iff.mp h
    obtain ⟨pending, hsome, h⟩ := Option.map_eq_some_iff.mp h
    obtain ⟨rfl, rfl⟩ := Prod.mk.inj h
    obtain ⟨rfl, -⟩ := checkedAdd_eq_some.mp hnext
    have hstamp : pending.stamp = stamp := by
      rw [hsome] at hpending
      simpa using hpending
    rw [hstamp]
    exact ⟨hphysical, hidle, rfl, rfl⟩

theorem OcrQueryData.admitPrepared_admits (q : OcrQueryShared) {d : OcrQueryData} {w : OcrWork}
    (hcurrent : d.executionCurrent w = true) (unchanged : Bool)
    (hskip : ¬ (unchanged && d.confirmed == 0) = true) (region : PixelRect) (mapping : Option ℕ)
    (now : ℕ) :
    (d.admitPrepared q w region mapping unchanged now).2 = .admitted ∧
      d.Leaves (d.admitPrepared q w region mapping unchanged now).1 := by
  unfold OcrQueryData.admitPrepared
  rw [if_neg (by rw [hcurrent]; exact Bool.false_ne_true)]
  dsimp only
  rw [if_neg hskip]
  split
  · rename_i eligible pending heligible hpending
    refine ⟨rfl, rfl, ?_, rfl, rfl, rfl, rfl⟩
    rw [hpending]
    rfl
  · exact ⟨rfl, rfl, rfl, rfl, rfl, rfl, rfl⟩

section Open

variable (hopen : e.data.terminal = none) (hopen' : a.data.terminal = none)
include hopen hopen'

theorem current_eq (hexecution : e.data.execution = a.data.execution) (w : OcrWork) :
    e.data.executionCurrent w = a.data.executionCurrent w := by
  unfold OcrQueryData.executionCurrent
  rw [hopen, hopen', hexecution]

omit hopen in
theorem execution_none {w : OcrWork}
    (hexecution : a.data.execution ≠ none → a.data.execution = some ⟨w.generation, w.stamp⟩)
    (hstale : ¬ a.data.executionCurrent w = true) : a.data.execution = none := by
  by_contra hsome
  refine hstale ?_
  unfold OcrQueryData.executionCurrent
  rw [hopen', hexecution hsome]
  simp

namespace OcrAbreast

theorem claim (h : OcrAbreast q e a) {stamp : FrameStamp} {now : ℕ}
    {interruption : Option Interruption}
    (hsame : (e.data.claim stamp now e.physical interruption).isSome =
      (a.data.claim stamp now a.physical interruption).isSome) :
    OcrAlike q (e.step q policy (.claim stamp now interruption))
      (a.step q .analysisAlways (.claim stamp now interruption)) := by
  unfold OcrGating.step
  dsimp only
  cases hclaim : e.data.claim stamp now e.physical interruption with
  | none =>
    rw [hclaim, Option.isSome_none] at hsame
    have hclaim' : a.data.claim stamp now a.physical interruption = none :=
      Option.isNone_iff_eq_none.mp (Option.isSome_eq_false_iff.mp hsame.symm)
    rw [hclaim']
    exact .opened hopen hopen' h
  | some r =>
    rw [hclaim, Option.isSome_some] at hsame
    obtain ⟨r', hclaim'⟩ := Option.isSome_iff_exists.mp hsame.symm
    rw [hclaim']
    obtain ⟨-, hidle, hw, hd⟩ := OcrQueryData.claim_takes hclaim
    obtain ⟨-, hidle', hw', hd'⟩ := OcrQueryData.claim_takes hclaim'
    dsimp only
    rw [hw, hd, hw', hd', h.generation]
    refine .opened hopen hopen' ⟨h.source, rfl, rfl, h.confirmed, h.first, h.quiet, ?_⟩
    exact .both (.claimed _) rfl

theorem evaluates (h : OcrAbreast q e a) (hexecution : e.data.execution = a.data.execution)
    (w : OcrWork) (mapping mapping' : Option ℕ)
    (evaluated : ℕ → Option FrameStamp → Except Error (Bool × Option OcrTextWatchResult)) :
    OcrAlike q (e.evaluate w mapping evaluated) (a.evaluate w mapping' evaluated) := by
  unfold OcrGating.evaluate
  rw [← current_eq hopen hopen' hexecution w, ← h.confirmed, ← h.first]
  split_ifs
  · exact .opened hopen hopen'
      (h.staged rfl rfl (.both (.evaluated w mapping mapping' _ _ _) hexecution))
  · exact .opened hopen hopen' (h.staged rfl rfl (.both .idle hexecution))

theorem prepare (h : OcrAbreast q e a) (i : FrameInstance) (region : PixelRect)
    (descriptor : FrameDescriptor) :
    OcrAlike q (e.step q policy (.prepare i region descriptor))
      (a.step q .analysisAlways (.prepare i region descriptor)) := by
  unfold OcrGating.step
  cases h.flight with
  | both hstage hexecution =>
    generalize he : e.stage = stage at hstage
    generalize ha : a.stage = stage' at hstage
    cases hstage with
    | claimed w =>
      simp only
      split_ifs
      · exact .opened hopen hopen' (h.staged rfl rfl (.both (.prepared _) hexecution))
      · exact .opened hopen hopen' h
    | _ => exact .opened hopen hopen' h
  | skipped w he hidle hzero hfruitless hexecution =>
    rw [he]
    generalize ha : a.stage = stage' at hfruitless
    cases hfruitless <;> exact .opened hopen hopen' h

theorem fail (h : OcrAbreast q e a) (error : Error) :
    OcrAlike q (e.step q policy (.fail error)) (a.step q .analysisAlways (.fail error)) := by
  unfold OcrGating.step
  cases h.flight with
  | both hstage hexecution =>
    generalize he : e.stage = stage at hstage
    generalize ha : a.stage = stage' at hstage
    cases hstage with
    | claimed w => exact h.evaluates hopen hopen' hexecution w none none _
    | prepared p => exact h.evaluates hopen hopen' hexecution p.work none none _
    | _ => exact .opened hopen hopen' h
  | skipped w he hidle hzero hfruitless hexecution =>
    rw [he]
    generalize ha : a.stage = stage' at hfruitless
    cases hfruitless <;> exact .opened hopen hopen' h

theorem compare (h : OcrAbreast q e a) (alive : Bool) :
    OcrAlike q (e.step q policy (.compare alive)) (a.step q .analysisAlways (.compare alive)) := by
  unfold OcrGating.step
  cases h.flight with
  | both hstage hexecution =>
    generalize he : e.stage = stage at hstage
    generalize ha : a.stage = stage' at hstage
    cases hstage with
    | prepared p =>
      dsimp only
      rw [← current_eq hopen hopen' hexecution p.work]
      split_ifs
      · exact .opened hopen hopen' (h.staged rfl rfl (.both (.compared p _) hexecution))
      · exact .opened hopen hopen' (h.staged rfl rfl (.both .idle hexecution))
    | _ => exact .opened hopen hopen' h
  | skipped w he hidle hzero hfruitless hexecution =>
    rw [he]
    generalize ha : a.stage = stage' at hfruitless
    cases hfruitless <;> exact .opened hopen hopen' h

theorem retain (h : OcrAbreast q e a) (closed : Bool) :
    OcrAlike q (e.step q policy (.retain closed)) (a.step q .analysisAlways (.retain closed)) := by
  unfold OcrGating.step
  cases h.flight with
  | both hstage hexecution =>
    generalize he : e.stage = stage at hstage
    generalize ha : a.stage = stage' at hstage
    cases hstage with
    | compared p unchanged =>
      exact .opened hopen hopen' (h.staged rfl rfl (.both (.remembered p unchanged _ _) hexecution))
    | _ => exact .opened hopen hopen' h
  | skipped w he hidle hzero hfruitless hexecution =>
    rw [he]
    generalize ha : a.stage = stage' at hfruitless
    cases hfruitless <;> exact .opened hopen hopen' h

theorem admitPrepared (h : OcrAbreast q e a) (hsound : OcrGateSound q e) (now : ℕ) :
    OcrAlike q (e.step q policy (.admitPrepared now))
      (a.step q .analysisAlways (.admitPrepared now)) := by
  have hremembered := hsound.stage
  unfold OcrGating.step
  cases h.flight with
  | both hstage hexecution =>
    generalize he : e.stage = stage at hstage hremembered
    generalize ha : a.stage = stage' at hstage
    cases hstage with
    | remembered p unchanged mapping mapping' =>
      have hsame := current_eq hopen hopen' hexecution p.work
      have hterminal := (OcrQueryData.admitPrepared_terminal (d := e.data) (q := q) p.work p.region
        mapping unchanged now).trans hopen
      have hterminal' := (OcrQueryData.admitPrepared_terminal (d := a.data) (q := q) p.work p.region
        mapping' false now).trans hopen'
      refine .opened hterminal hterminal' ?_
      dsimp only
      by_cases hcurrent : e.data.executionCurrent p.work = true
      · have hcurrent' : a.data.executionCurrent p.work = true := hsame ▸ hcurrent
        obtain ⟨hadmitted', hleaves'⟩ := OcrQueryData.admitPrepared_admits q hcurrent' false
          Bool.false_ne_true p.region mapping' now
        rw [if_pos hadmitted']
        by_cases hskip : (unchanged && e.data.confirmed == 0) = true
        · -- the comparing run skips the source, the other one goes on
          have hskipped : e.data.admitPrepared q p.work p.region mapping unchanged now =
              ({ e.data with
                effectiveRegion := some p.region
                execution := none
                previousMapping := mapping
                work := e.data.work.increment .skippedChange }, .skipped) := by
            unfold OcrQueryData.admitPrepared
            rw [if_neg (by rw [hcurrent]; exact Bool.false_ne_true)]
            dsimp only
            rw [if_pos hskip]
          rw [Bool.and_eq_true, beq_iff_eq] at hskip
          have hexecutes : a.data.execution = some ⟨p.work.generation, p.work.stamp⟩ :=
            (OcrQueryData.executionCurrent_iff.mp hcurrent').2
          rw [hskipped]
          refine ⟨h.source.trans hleaves'.source.symm, h.pending.trans hleaves'.pending.symm,
            h.generation.trans hleaves'.generation.symm, h.confirmed.trans hleaves'.confirmed.symm,
            h.first.trans hleaves'.first.symm, h.quiet, ?_⟩
          refine .skipped p.work rfl rfl hskip.2 (.admitted p mapping' (hremembered.1 hskip.1)) ?_
          exact fun _ => hleaves'.execution.trans hexecutes
        · obtain ⟨hadmitted, hleaves⟩ :=
            OcrQueryData.admitPrepared_admits q hcurrent unchanged hskip p.region mapping now
          rw [if_pos hadmitted]
          refine h.leaves hleaves hleaves' ?_
          refine .both (.admitted p mapping mapping') ?_
          exact hleaves.execution.trans (hexecution.trans hleaves'.execution.symm)
      · have hstale : ∀ {d : OcrQueryData} (mapping : Option ℕ) (unchanged : Bool),
            ¬ d.executionCurrent p.work = true →
            d.admitPrepared q p.work p.region mapping unchanged now = (d, .stale) := by
          intro d mapping unchanged hcurrent
          unfold OcrQueryData.admitPrepared
          rw [Bool.eq_false_of_not_eq_true hcurrent]
          rfl
        rw [hstale mapping unchanged hcurrent, hstale mapping' false (hsame ▸ hcurrent)]
        exact h.staged rfl rfl (.both .idle hexecution)
    | _ => exact .opened hopen hopen' h
  | skipped w he hidle hzero hfruitless hexecution =>
    rw [he]
    generalize ha : a.stage = stage' at hfruitless
    cases hfruitless <;> exact .opened hopen hopen' h

/-- **The evaluation.**  That of a source which the first run skipped finds nothing. -/
theorem evaluate (h : OcrAbreast q e a) (retained : Except Error Unit) :
    OcrAlike q (e.step q policy (.evaluate retained))
      (a.step q .analysisAlways (.evaluate retained)) := by
  unfold OcrGating.step
  cases h.flight with
  | both hstage hexecution =>
    generalize he : e.stage = stage at hstage
    generalize ha : a.stage = stage' at hstage
    cases hstage with
    | admitted p mapping mapping' =>
      exact h.evaluates hopen hopen' hexecution p.work mapping mapping' _
    | _ => exact .opened hopen hopen' h
  | skipped w he hidle hzero hfruitless hexecution =>
    rw [he]
    generalize ha : a.stage = stage' at hfruitless
    cases hfruitless with
    | admitted p mapping hempty =>
      dsimp only
      unfold OcrGating.evaluate
      split_ifs with hcurrent
      · refine .opened hopen hopen' (h.staged rfl rfl (.skipped p.work he hidle hzero ?_ hexecution))
        have hnothing : ((p.execute q).bind fun output => q.evaluate p.work output a.data.confirmed
            a.data.firstConfirmed (p.answers retained)) = .ok (false, none) :=
          evaluate_nothing.mpr ⟨rfl, hempty⟩
        dsimp only
        rw [hnothing]
        exact .evaluated p.work mapping _ _
      · refine .opened hopen hopen' (h.staged rfl rfl (.both ?_ ?_))
        · rw [he]
          exact .idle
        · exact hidle.trans (execution_none hopen' hexecution hcurrent).symm
    | evaluated w mapping confirmed first => exact .opened hopen hopen' h

theorem complete (h : OcrAbreast q e a) :
    OcrAlike q (e.step q policy .complete) (a.step q .analysisAlways .complete) := by
  unfold OcrGating.step
  cases h.flight with
  | both hstage hexecution =>
    generalize he : e.stage = stage at hstage
    generalize ha : a.stage = stage' at hstage
    cases hstage with
    | evaluated w mapping mapping' confirmed first evaluated =>
      dsimp only
      unfold OcrQueryData.complete
      rw [← current_eq hopen hopen' hexecution w]
      split_ifs with hcurrent
      · exact .opened hopen hopen' (h.staged rfl rfl (.both .idle hexecution))
      · cases evaluated with
        | error error => exact .ended rfl rfl
        | ok r =>
          obtain ⟨positive, result⟩ := r
          cases result with
          | some result => exact .ended rfl rfl
          | none =>
            refine .opened hopen hopen' ⟨h.source, h.pending, h.generation, rfl, rfl, ?_,
              .both .idle rfl⟩
            cases positive with
            | false => exact fun _ => rfl
            | true =>
              intro hzero
              have hmax : 0 < u32Max := by decide
              have hobserved : saturatingAdd u32Max confirmed 1 = 0 := hzero
              unfold saturatingAdd at hobserved
              omega
    | _ => exact .opened hopen hopen' h
  | skipped w he hidle hzero hfruitless hexecution =>
    rw [he]
    generalize ha : a.stage = stage' at hfruitless
    cases hfruitless with
    | admitted p mapping hempty => exact .opened hopen hopen' h
    | evaluated w mapping confirmed first =>
      dsimp only
      unfold OcrQueryData.complete
      split_ifs with hcurrent
      · refine .opened hopen hopen' (h.staged rfl rfl (.both ?_ ?_))
        · rw [he]
          exact .idle
        · exact hidle.trans (execution_none hopen' hexecution (by simpa using hcurrent)).symm
      · refine .opened hopen hopen' ⟨h.source, h.pending, h.generation, hzero, h.quiet hzero,
          h.quiet, .both ?_ hidle⟩
        rw [he]
        exact .idle

end OcrAbreast

end Open

/-! ### The two runs -/

def SameSources (e a : OcrGating S) : OcrGatingEvent → Prop
  | .claim stamp now interruption =>
    e.data.terminal.isNone → a.data.terminal.isNone →
      (e.data.claim stamp now e.physical interruption).isSome =
        (a.data.claim stamp now a.physical interruption).isSome
  | _ => True

instance (event : OcrGatingEvent) : Decidable (SameSources e a event) :=
  match event with
  | .claim .. => inferInstanceAs (Decidable (_ → _ → _ = _))
  | .enqueue .. | .prepare .. | .fail _ | .compare _ | .retain _ | .admitPrepared _ | .evaluate _
  | .complete | .remember .. | .clear | .terminate _ => inferInstanceAs (Decidable True)

theorem OcrAlike.step (h : OcrAlike q e a) (hsound : OcrGateSound q e) {event : OcrGatingEvent}
    (hsources : SameSources e a event) :
    OcrAlike q (e.step q policy event) (a.step q .analysisAlways event) := by
  cases hopen : e.data.terminal with
  | some o =>
    have hended : a.data.terminal = some o := h.terminal ▸ hopen
    exact .ended (OcrGating.step_ended hopen event) (OcrGating.step_ended hended event)
  | none =>
    have hopen' : a.data.terminal = none := h.terminal ▸ hopen
    have hboth := h.abreast hopen
    cases event with
    | enqueue stamp geometry now =>
      exact .opened ((OcrQueryData.enqueue_terminal stamp geometry now).trans hopen)
        ((OcrQueryData.enqueue_terminal stamp geometry now).trans hopen')
        (hboth.enqueue h.terminal stamp geometry now)
    | claim stamp now interruption =>
      exact hboth.claim hopen hopen' (hsources (by rw [hopen]; rfl) (by rw [hopen']; rfl))
    | prepare i region descriptor => exact hboth.prepare hopen hopen' i region descriptor
    | fail error => exact hboth.fail hopen hopen' error
    | compare alive => exact hboth.compare hopen hopen' alive
    | retain closed => exact hboth.retain hopen hopen' closed
    | admitPrepared now => exact hboth.admitPrepared hopen hopen' hsound now
    | evaluate retained => exact hboth.evaluate hopen hopen' retained
    | complete => exact hboth.complete hopen hopen'
    | remember i region descriptor => exact .opened hopen hopen' hboth.cached
    | clear => exact .opened hopen hopen' hboth.cached
    | terminate outcome =>
      have hterminated : ∀ d : OcrQueryData, d.terminal = none →
          (d.terminate none outcome).1.terminal = some outcome := by
        intro d hterminal
        unfold OcrQueryData.terminate
        rw [hterminal]
        cases outcome <;> rfl
      exact .ended (hterminated e.data hopen) (hterminated a.data hopen')

theorem ocr_gating_alike {script : List OcrGatingEvent}
    (h : Throughout (OcrGating.step q policy) (OcrGating.step q .analysisAlways)
      (SameSources (S := S)) script (.new S) (.new S)) :
    OcrAlike q (script.foldl (OcrGating.step q policy) (.new S))
      (script.foldl (OcrGating.step q .analysisAlways) (.new S)) := by
  have hstep : ∀ (e a : OcrGating S) event, OcrAlike q e a ∧ OcrGateSound q e →
      SameSources e a event →
      OcrAlike q (e.step q policy event) (a.step q .analysisAlways event) ∧
        OcrGateSound q (e.step q policy event) :=
    fun e a event halike hsources => ⟨halike.1.step halike.2 hsources, halike.2.step event⟩
  exact (h.preserves hstep ⟨OcrAlike.new, OcrGateSound.new⟩).1

end OcrLaw

/-! ### Both kinds of queries -/

section Transparent

variable {R : Type} (F : Frames)
  (backend : CpuMapping.Content → Except Error (ImmutableAnalysisResult R)) (q : QueryShared)
  (S : OcrSight) (p : OcrQueryShared) (policy : ChangeDetectionPolicy)

def gatedRun (script : List (GateEvent R)) : Gate R :=
  script.foldl (Gate.step F backend q policy) .new

def gatedTextRun (script : List OcrGatingEvent) : OcrGating S :=
  script.foldl (OcrGating.step p policy) (.new S)

/-- **Exact-change gating is transparent.**  A query that compares pixels ends as it would without
comparing them, and a frame that it skips would have been found empty. -/
theorem gating_transparent :
    (∀ script, Throughout (Gate.step F backend q .exactRgba) (Gate.step F backend q .analysisAlways)
        (Comparable F q) script .new .new →
      (gatedRun F backend q .exactRgba script).data.terminal =
        (gatedRun F backend q .analysisAlways script).data.terminal) ∧
    (∀ policy script c decision now, (gatedRun F backend q policy script).claimed = some c →
      (gatedRun F backend q policy script).decision = some decision →
      ((gatedRun F backend q policy script).data.finishMapping q (c.frame.matched F) c.mapping decision
        now).2 = .skipped →
      findMapped F backend c.frame = .ok .empty) ∧
    (∀ script, Throughout (OcrGating.step p .exactRgba) (OcrGating.step p .analysisAlways) SameSources
        script (.new S) (.new S) →
      (gatedTextRun S p .exactRgba script).data.terminal =
        (gatedTextRun S p .analysisAlways script).data.terminal) ∧
    ∀ policy script prepared unchanged mapping now,
      (gatedTextRun S p policy script).stage = .remembered prepared unchanged mapping →
      ((gatedTextRun S p policy script).data.admitPrepared p prepared.work prepared.region mapping
        unchanged now).2 = .skipped →
      S.find p prepared.pixels.content = .ok .empty := by
  refine ⟨fun script h => ?_, ?_, fun script h => ?_, ?_⟩
  · exact (gating_alike h).terminal
  · intro policy script c decision now hc hdecision hskip
    exact skipped_empty hc hdecision hskip
  · exact (ocr_gating_alike h).terminal
  · intro policy script prepared unchanged mapping now hstage hskip
    exact ocr_skipped_empty hstage hskip

end Transparent

/-! ### Runs -/

def plainFrames : Frames where
  stamp i := plainStamp i
  transform _ := .frameOnly 0 ⟨1, 1⟩
  read i _ _ := [if i = 3 then 255 else 0, 0, 0, 255]

theorem plain_row {format : PixelFormat} (h : format.bytesPerPixel = 4) :
    (⟨1, 1⟩ : PixelExtent).width * format.bytesPerPixel ≤ 4 := Nat.le_of_eq (congrArg (1 * ·) h)

def plainLayout (format : PixelFormat) (h : format.bytesPerPixel = 4) : FrameDescriptor :=
  ⟨⟨1, 1⟩, format, 4, pixel_nonempty, plain_row h, pixel_len⟩

def plainMapped (i : FrameInstance) : MappedFrame := ⟨i, ⟨0, 0, 1, 1⟩, some (plainLayout .rgba8 rfl)⟩

def plainBackend (content : CpuMapping.Content) : Except Error (ImmutableAnalysisResult Unit) :=
  if content.rows = [some [255, 0, 0, 255]] then .ok (.shared ()) else .ok .empty

/-- A frame is published, claimed, mapped, decided and analysed. -/
def gatedTurn (i : FrameInstance) (now : ℕ) : List (GateEvent Unit) :=
  [.publish (plainStamp i) now false, .claim (plainStamp i), .map (plainMapped i) false false,
    .decide false, .finish now, .complete now]

def plainResult (i : FrameInstance) : TemplateTerminalOutcome Unit :=
  .matched ⟨"template", ⟨firstOrdinal, "provider", firstOrdinal⟩, plainStamp i, (), 1, 0⟩

def fourTurns : List (GateEvent Unit) :=
  gatedTurn 1 0 ++ gatedTurn 2 10 ++ gatedTurn 3 11 ++ gatedTurn 4 20

/-- **The rate counts analyses, and a frame that is skipped is none.**  A query with a rate matches on
the third frame where it compares pixels; without comparing them that frame is put off, and displaced
by the next one. -/
theorem gating_rate_matters :
    Throughout (Gate.step plainFrames plainBackend (plainQuery 10) .exactRgba)
      (Gate.step plainFrames plainBackend (plainQuery 10) .analysisAlways) SameClaims fourTurns
      .new .new ∧
    (gatedRun plainFrames plainBackend (plainQuery 10) .exactRgba fourTurns).data.terminal =
      some (plainResult 3) ∧
    (gatedRun plainFrames plainBackend (plainQuery 10) .analysisAlways fourTurns).data.terminal =
      none := by
  decide +kernel

def plainSight : OcrSight where
  frames := plainFrames
  resolve _ := .ok ⟨0, 0, 1, 1⟩
  sourceBytes _ := 4
  recognize content := .ok (if content.rows = [some [255, 0, 0, 255]] then [⟨"ok", 3 / 4⟩] else [])
  regionSize := 32
  resultSize := 256

/-- A source is published, claimed, mapped, compared, remembered, executed and evaluated. -/
def gatedTextTurn (i : FrameInstance) (now : ℕ) : List OcrGatingEvent :=
  [.enqueue (plainStamp i) (.ok ⟨0, 0, 1, 1⟩) now, .claim (plainStamp i) now none,
    .prepare i ⟨0, 0, 1, 1⟩ (plainLayout .bgra8 rfl), .compare false, .retain false,
    .admitPrepared now, .evaluate (.ok ()), .complete]

def fourTextTurns : List OcrGatingEvent :=
  gatedTextTurn 1 0 ++ gatedTextTurn 2 10 ++ gatedTextTurn 3 20 ++ gatedTextTurn 4 30

/-- Without a rate a template query reports the third frame in both runs, and so does a text query;
the second frame was skipped. -/
theorem gating_transparent_sample :
    (gatedRun plainFrames plainBackend (plainQuery 0) .analysisAlways fourTurns).data.terminal =
      some (plainResult 3) ∧
    findMapped plainFrames plainBackend (plainMapped 2) = .ok .empty ∧
    ((gatedTextRun plainSight plainOcrQuery .analysisAlways fourTextTurns).data.terminal.any
      OcrTextTerminalOutcome.isMatch) = true := by
  have hlaw := gating_transparent plainFrames plainBackend (plainQuery 0) plainSight plainOcrQuery
  refine ⟨?_, ?_, ?_⟩
  · rw [← hlaw.1 fourTurns (by decide +kernel)]
    decide +kernel
  · refine hlaw.2.1 .exactRgba (gatedTurn 1 0 ++ (gatedTurn 2 10).take 4) ⟨plainMapped 2, some 1⟩
      .unchanged 10 ?_ ?_ ?_
    · decide +kernel
    · decide +kernel
    · decide +kernel
  · rw [← hlaw.2.2.1 fourTextTurns (by decide +kernel)]
    decide +kernel

end MadoPilot.Watch
