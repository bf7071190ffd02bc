import MadoPilot.Lib.Fallible
import MadoPilot.Watch.OcrGating
import MadoPilot.Watch.OcrLedger

/-!
# What a skipped source would have shown

As for a template query: while nothing is confirmed, the remembered mapping is that of a frame in which
nothing was found.

* `evaluate_nothing` : an evaluation finds no text where the analysis of the mapping finds nothing;
* `OcrGateSound` : the invariant of a gated text query;
* `ocr_skipped_empty` : a source that is skipped would have been found empty.
-/

namespace MadoPilot.Watch

open MadoPilot.Core MadoPilot.Lib MadoPilot.Capture

/-! ### Evaluating -/

section Evaluate

variable {S : OcrSight} {q : OcrQueryShared} {p : OcrPrepared S} {confirmed : ℕ}
  {first : Option FrameStamp} {retained : Except Error Unit}

theorem OcrPrepared.execute_eq_ok {output : OcrResult} :
    p.execute q = .ok output ↔ ∃ regions, S.recognize p.pixels.content = .ok regions ∧
      output = ⟨p.pixels.stamp, p.pixels.transform, p.pixels.region, q.outputSpace, q.descriptor,
        regions⟩ := by
  unfold OcrPrepared.execute
  cases S.recognize p.pixels.content with
  | error error => simp [Except.map]
  | ok regions => simp [Except.map, eq_comm]

theorem evaluate_execute {output : OcrResult} {regions : List RecognizedRegion}
    (hregions : S.recognize p.pixels.content = .ok regions) (houtput : p.execute q = .ok output)
    (hfew : ¬ maxCandidates < regions.length) (result : Option OcrTextWatchResult) :
    q.evaluate p.work output confirmed first (p.answers retained) = .ok (false, result) ↔
      result = none ∧
        ∃ n, q.scan (fun _ => none) regions 0 q.literal.utf8ByteSize [] = .ok (n, []) := by
  obtain ⟨regions', hregions', rfl⟩ := OcrPrepared.execute_eq_ok.mp houtput
  obtain rfl : regions = regions' := Except.ok.inj (hregions.symm.trans hregions')
  have hcorrelated : ¬ (p.pixels.stamp ≠ p.work.stamp ∨
      p.pixels.transform ≠ (p.answers retained).transform ∨ q.descriptor ≠ q.descriptor ∨
      q.outputSpace ≠ q.outputSpace) := by
    simp [OcrPrepared.pixels, Frames.map, OcrPrepared.answers, p.stamped]
  have hregion : (p.answers retained).region = .ok p.pixels.region := p.resolved
  unfold OcrQueryShared.evaluate
  rw [if_neg hcorrelated, hregion]
  constructor
  · intro h
    obtain ⟨region, hsame, h⟩ := bind_eq_ok.mp h
    obtain rfl := Except.ok.inj hsame
    rw [if_neg (not_not.mpr rfl), if_neg hfew] at h
    obtain ⟨⟨n, indexes⟩, hscan, h⟩ := bind_eq_ok.mp h
    dsimp only at h
    by_cases hnone : indexes = []
    · rw [if_pos hnone] at h
      rw [hnone] at hscan
      exact ⟨(Prod.mk.inj (Except.ok.inj h)).2.symm, n, hscan⟩
    · rw [if_neg hnone] at h
      by_cases hshort : saturatingAdd u32Max confirmed 1 < q.stability.observations
      · rw [if_pos hshort] at h
        cases h
      · rw [if_neg hshort] at h
        obtain ⟨extent, -, h⟩ := bind_eq_ok.mp h
        obtain ⟨kept, -, h⟩ := bind_eq_ok.mp h
        cases h
  · rintro ⟨rfl, n, hscan⟩
    refine bind_eq_ok.mpr ⟨_, rfl, ?_⟩
    rw [if_neg (not_not.mpr rfl), if_neg hfew]
    exact bind_eq_ok.mpr ⟨(n, []), hscan, rfl⟩

theorem evaluate_nothing {result : Option OcrTextWatchResult} :
    (p.execute q >>= fun output =>
      q.evaluate p.work output confirmed first (p.answers retained)) = .ok (false, result) ↔
    result = none ∧ S.find q p.pixels.content = .ok .empty := by
  have hfind : S.find q p.pixels.content = .ok .empty ↔ ∃ regions,
      S.recognize p.pixels.content = .ok regions ∧ ¬ maxCandidates < regions.length ∧
        ∃ n, q.scan (fun _ => none) regions 0 q.literal.utf8ByteSize [] = .ok (n, []) := by
    unfold OcrSight.find
    constructor
    · intro h
      obtain ⟨regions, hregions, h⟩ := bind_eq_ok.mp h
      by_cases hfew : maxCandidates < regions.length
      · rw [if_pos hfew] at h
        cases h
      rw [if_neg hfew] at h
      obtain ⟨⟨n, indexes⟩, hscan, h⟩ := bind_eq_ok.mp h
      dsimp only at h
      by_cases hnone : indexes = []
      · rw [hnone] at hscan
        exact ⟨regions, hregions, hfew, n, hscan⟩
      · rw [if_neg hnone] at h
        cases h
    · rintro ⟨regions, hregions, hfew, n, hscan⟩
      refine bind_eq_ok.mpr ⟨regions, hregions, ?_⟩
      rw [if_neg hfew]
      exact bind_eq_ok.mpr ⟨(n, []), hscan, rfl⟩
  rw [hfind]
  constructor
  · intro h
    obtain ⟨output, houtput, h⟩ := bind_eq_ok.mp h
    obtain ⟨regions, hregions, hsame⟩ := OcrPrepared.execute_eq_ok.mp houtput
    have hfew : ¬ maxCandidates < regions.length := by
      intro hmany
      unfold OcrQueryShared.evaluate at h
      split at h
      · cases h
      obtain ⟨region, -, h⟩ := bind_eq_ok.mp h
      split at h
      · cases h
      rw [if_pos (by rw [hsame]; exact hmany)] at h
      cases h
    obtain ⟨hnone, hscan⟩ := (evaluate_execute hregions houtput hfew result).mp h
    exact ⟨hnone, regions, hregions, hfew, hscan⟩
  · rintro ⟨hnone, regions, hregions, hfew, hscan⟩
    have houtput := (OcrPrepared.execute_eq_ok (q := q)).mpr ⟨regions, hregions, rfl⟩
    exact bind_eq_ok.mpr ⟨_, houtput,
      (evaluate_execute hregions houtput hfew result).mpr ⟨hnone, hscan⟩⟩

end Evaluate

/-! ### The remembered mapping -/

/-- Where nothing is confirmed afterwards, the remembered mapping is that of before, when nothing was
confirmed either, or none. -/
def OcrRecalls (d d' : OcrQueryData) : Prop :=
  d'.confirmed = 0 → d'.previousMapping = none ∨
    d.confirmed = 0 ∧ d'.previousMapping = d.previousMapping

namespace OcrQueryData

variable (d : OcrQueryData) {q : OcrQueryShared}

theorem finish_recalls (o : OcrTextTerminalOutcome) : OcrRecalls d (d.finish o) :=
  fun _ => Or.inl rfl

theorem terminate_recalls (o : OcrTextTerminalOutcome) : OcrRecalls d (d.terminate none o).1 := by
  unfold terminate
  split
  · exact fun hzero => Or.inr ⟨hzero, rfl⟩
  · exact finish_recalls d _

theorem enqueue_recalls (stamp : FrameStamp) (geometry : Except Error PixelRect) (now : ℕ) :
    OcrRecalls d (d.enqueue q stamp geometry now).1 := by
  have hnoted : OcrRecalls d (d.noteSource stamp) := by
    unfold noteSource
    dsimp only
    split_ifs
    · exact fun _ => Or.inl rfl
    · exact fun hzero => Or.inr ⟨hzero, rfl⟩
  unfold enqueue
  split
  · exact fun hzero => Or.inr ⟨hzero, rfl⟩
  · cases geometry with
    | error error => exact hnoted
    | ok region => exact hnoted

theorem claim_recalls {stamp : FrameStamp} {now : ℕ} {physical : Bool}
    {interruption : Option Interruption} {d' : OcrQueryData} {w : OcrWork}
    (h : d.claim stamp now physical interruption = some (d', w)) : OcrRecalls d d' := by
  unfold claim at h
  split at h
  · cases h
  · obtain ⟨generation, -, h⟩ := Option.bind_eq_some_iff.mp h
    obtain ⟨pending, -, h⟩ := Option.map_eq_some_iff.mp h
    obtain ⟨rfl, -⟩ := Prod.mk.inj h
    exact fun hzero => Or.inr ⟨hzero, rfl⟩

theorem admitPrepared_recalls (w : OcrWork) (region : PixelRect) (mapping : Option ℕ)
    (unchanged : Bool) (now : ℕ) :
    OcrRecalls d (d.admitPrepared q w region mapping unchanged now).1 ∨
      unchanged = true ∧ (d.admitPrepared q w region mapping unchanged now).2 = .skipped ∧
        (d.admitPrepared q w region mapping unchanged now).1.previousMapping = mapping := by
  unfold admitPrepared
  split
  · exact Or.inl fun hzero => Or.inr ⟨hzero, rfl⟩
  · dsimp only
    split
    · rename_i hskip
      rw [Bool.and_eq_true] at hskip
      exact Or.inr ⟨hskip.1, rfl, rfl⟩
    · split
      · exact Or.inl fun hzero => Or.inr ⟨hzero, rfl⟩
      · exact Or.inl fun hzero => Or.inr ⟨hzero, rfl⟩

theorem complete_recalls (w : OcrWork) (mapping : Option ℕ) (confirmed : ℕ)
    (first : Option FrameStamp) (evaluated : Except Error (Bool × Option OcrTextWatchResult)) :
    OcrRecalls d (d.complete w mapping confirmed first evaluated none).1 ∨
      (∃ r, evaluated = .ok (false, r)) ∧
        (d.complete w mapping confirmed first evaluated none).1.previousMapping = mapping := by
  unfold complete
  split
  · exact Or.inl fun hzero => Or.inr ⟨hzero, rfl⟩
  cases evaluated with
  | error error => exact Or.inl (fun _ => Or.inl rfl)
  | ok r =>
    obtain ⟨positive, result⟩ := r
    cases result with
    | some result => exact Or.inl (fun _ => Or.inl rfl)
    | none =>
      cases positive with
      | false => exact Or.inr ⟨⟨none, rfl⟩, rfl⟩
      | true =>
        -- one more observation is not none
        refine Or.inl fun hzero => absurd hzero ?_
        have hmax : 0 < u32Max := by decide
        have hobserved : saturatingAdd u32Max confirmed 1 ≠ 0 := by
          unfold saturatingAdd
          omega
        exact hobserved

end OcrQueryData

/-! ### The invariant -/

section Sound

variable {S : OcrSight} (q : OcrQueryShared)

def StageSound (cache : MappingCache) : OcrStage S → Prop
  | .compared p unchanged => unchanged = true → S.find q p.pixels.content = .ok .empty
  | .remembered p unchanged mapping =>
    (unchanged = true → S.find q p.pixels.content = .ok .empty) ∧
      ∀ n, mapping = some n → cache.allocated[n]? = some p.pixels
  | .admitted p mapping => ∀ n, mapping = some n → cache.allocated[n]? = some p.pixels
  | .evaluated _ mapping _ _ evaluated =>
    ∀ r, evaluated = .ok (false, r) → ShowsNothing (S.find q) cache mapping
  | _ => True

/-- The invariant of a gated text query. -/
structure OcrGateSound (g : OcrGating S) : Prop where
  cache : g.cache.Genuine S.frames
  stage : StageSound q g.cache g.stage
  previous : g.data.confirmed = 0 → ShowsNothing (S.find q) g.cache g.data.previousMapping

variable {q} {g : OcrGating S}

theorem StageSound.mono {cache cache' : MappingCache} {stage : OcrStage S}
    (h : StageSound q cache stage) (hle : cache.allocated <+: cache'.allocated) :
    StageSound q cache' stage := by
  cases stage with
  | idle => exact trivial
  | claimed w => exact trivial
  | prepared p => exact trivial
  | compared p unchanged => exact h
  | remembered p unchanged mapping =>
    exact ⟨h.1, fun n hn => MappingCache.lookup_of_extension hle (h.2 n hn)⟩
  | admitted p mapping => exact fun n hn => MappingCache.lookup_of_extension hle (h n hn)
  | evaluated w mapping confirmed first evaluated => exact fun r hr => (h r hr).mono hle

namespace OcrGateSound

theorem new : OcrGateSound q (OcrGating.new S) :=
  ⟨MappingCache.new_genuine, trivial, fun _ n hn => by cases hn⟩

theorem recalls (h : OcrGateSound q g) {d : OcrQueryData} (hd : OcrRecalls g.data d) :
    OcrGateSound q { g with data := d } := by
  refine ⟨h.cache, h.stage, fun hzero => ?_⟩
  rcases hd hzero with hnone | ⟨hbefore, hsame⟩
  · intro n hn
    have hprevious : d.previousMapping = some n := hn
    rw [hnone] at hprevious
    cases hprevious
  · have hshown := h.previous hbefore
    rw [← hsame] at hshown
    exact hshown

theorem staged (h : OcrGateSound q g) {stage : OcrStage S} (hstage : StageSound q g.cache stage) :
    OcrGateSound q { g with stage := stage } := ⟨h.cache, hstage, h.previous⟩

theorem extended (h : OcrGateSound q g) {cache : MappingCache} (hcache : cache.Genuine S.frames)
    (hle : g.cache.allocated <+: cache.allocated) : OcrGateSound q { g with cache := cache } :=
  ⟨hcache, h.stage.mono hle, fun hzero => (h.previous hzero).mono hle⟩

variable {policy : ChangeDetectionPolicy}

theorem unchanged (h : OcrGateSound q g) {alive : Bool} {p : OcrPrepared S}
    (hunchanged : g.unchanged policy alive p = true) : S.find q p.pixels.content = .ok .empty := by
  unfold OcrGating.unchanged at hunchanged
  dsimp only at hunchanged
  rw [Bool.and_eq_true, Option.any_eq_true] at hunchanged
  obtain ⟨-, previous, hprevious, hsame⟩ := hunchanged
  split_ifs at hprevious with hzero
  obtain ⟨n, hn, hupgrade⟩ := Option.bind_eq_some_iff.mp hprevious
  obtain ⟨m, hlookup, hempty⟩ := h.previous hzero n hn
  obtain rfl : previous = m :=
    Option.some.inj ((MappingCache.upgrade_eq_some hupgrade).symm.trans hlookup)
  rw [← unchangedPixels_content hsame]
  exact hempty

theorem evaluate (h : OcrGateSound q g) {w : OcrWork} {mapping : Option ℕ}
    {evaluated : ℕ → Option FrameStamp → Except Error (Bool × Option OcrTextWatchResult)}
    (hevaluated : ∀ confirmed first r, evaluated confirmed first = .ok (false, r) →
      ShowsNothing (S.find q) g.cache mapping) :
    OcrGateSound q (g.evaluate w mapping evaluated) := by
  unfold OcrGating.evaluate
  split_ifs
  · exact h.staged (hevaluated _ _)
  · exact h.staged trivial

theorem retain (h : OcrGateSound q g) {p : OcrPrepared S} {unchanged : Bool}
    (hstage : unchanged = true → S.find q p.pixels.content = .ok .empty) (closed : Bool) :
    OcrGateSound q { g with
      cache := (g.retain policy closed p).1
      stage := .remembered p unchanged (g.retain policy closed p).2 } := by
  unfold OcrGating.retain
  split_ifs
  · have hextended := h.extended (MappingCache.remember_genuine h.cache p.frame p.region p.descriptor)
      (MappingCache.remember_allocated _)
    exact hextended.staged ⟨hstage, fun n hn => MappingCache.remember_lookup h.cache hn⟩
  · exact h.staged ⟨hstage, fun n hn => (by cases hn)⟩

theorem admitPrepared (h : OcrGateSound q g) {p : OcrPrepared S} {unchanged : Bool}
    {mapping : Option ℕ} (hstage : g.stage = .remembered p unchanged mapping) (now : ℕ) :
    OcrGateSound q (g.step q policy (.admitPrepared now)) := by
  have hsound := h.stage
  rw [hstage] at hsound
  obtain ⟨hempty, hlookup⟩ := hsound
  unfold OcrGating.step
  rw [hstage]
  dsimp only
  have hstaged : StageSound q g.cache
      (if (g.data.admitPrepared q p.work p.region mapping unchanged now).2 = .admitted then
        .admitted p mapping else .idle : OcrStage S) := by
    split_ifs
    · exact hlookup
    · exact trivial
  rcases g.data.admitPrepared_recalls (q := q) p.work p.region mapping unchanged now with
    hrecalls | ⟨hunchanged, -, hprevious⟩
  · exact (h.recalls hrecalls).staged hstaged
  · refine ⟨h.cache, hstaged, fun _ => ?_⟩
    dsimp only
    rw [hprevious]
    intro n hn
    exact ⟨p.pixels, hlookup n hn, hempty hunchanged⟩

theorem complete (h : OcrGateSound q g) {w : OcrWork} {mapping : Option ℕ} {confirmed : ℕ}
    {first : Option FrameStamp} {evaluated : Except Error (Bool × Option OcrTextWatchResult)}
    (hstage : g.stage = .evaluated w mapping confirmed first evaluated) :
    OcrGateSound q (g.step q policy .complete) := by
  have hsound := h.stage
  rw [hstage] at hsound
  unfold OcrGating.step
  rw [hstage]
  dsimp only
  rcases g.data.complete_recalls w mapping confirmed first evaluated with
    hrecalls | ⟨⟨r, hnothing⟩, hprevious⟩
  · exact (h.recalls hrecalls).staged trivial
  · refine ⟨h.cache, trivial, fun _ => ?_⟩
    dsimp only
    rw [hprevious]
    exact hsound r hnothing

theorem step (h : OcrGateSound q g) (event : OcrGatingEvent) :
    OcrGateSound q (g.step q policy event) := by
  cases event with
  | enqueue stamp geometry now => exact h.recalls (g.data.enqueue_recalls stamp geometry now)
  | claim stamp now interruption =>
    unfold OcrGating.step
    dsimp only
    split
    · rename_i d w hclaim
      exact (h.recalls (g.data.claim_recalls hclaim)).staged trivial
    · exact h
  | prepare i region descriptor =>
    unfold OcrGating.step
    dsimp only
    split
    · split_ifs
      · exact h.staged trivial
      · exact h
    · exact h
  | fail error =>
    have hfailed : ∀ w, OcrGateSound q (g.evaluate w none fun _ _ => .error error) :=
      fun w => h.evaluate fun _ _ r hr => (by cases hr)
    unfold OcrGating.step
    dsimp only
    split
    · exact hfailed _
    · exact hfailed _
    · exact h
  | compare alive =>
    unfold OcrGating.step
    dsimp only
    split
    · split_ifs
      · exact h.staged h.unchanged
      · exact h.staged trivial
    · exact h
  | retain closed =>
    unfold OcrGating.step
    dsimp only
    split
    · rename_i p unchanged hstage
      have hsound := h.stage
      rw [hstage] at hsound
      exact h.retain hsound closed
    · exact h
  | admitPrepared now =>
    cases hstage : g.stage with
    | remembered p unchanged mapping => exact h.admitPrepared hstage now
    | _ =>
      unfold OcrGating.step
      rw [hstage]
      exact h
  | evaluate retained =>
    unfold OcrGating.step
    dsimp only
    split
    · rename_i p mapping hstage
      have hsound := h.stage
      rw [hstage] at hsound
      refine h.evaluate fun confirmed first r hr n hn => ⟨p.pixels, hsound n hn, ?_⟩
      exact (evaluate_nothing.mp hr).2
    · exact h
  | complete =>
    cases hstage : g.stage with
    | evaluated w mapping confirmed first evaluated => exact h.complete hstage
    | _ =>
      unfold OcrGating.step
      rw [hstage]
      exact h
  | remember i region descriptor =>
    exact h.extended (MappingCache.remember_genuine h.cache _ _ _) (MappingCache.remember_allocated _)
  | clear => exact h.extended MappingCache.clear_genuine (List.prefix_refl _)
  | terminate outcome => exact h.recalls (g.data.terminate_recalls outcome)

end OcrGateSound

variable {policy : ChangeDetectionPolicy}

theorem ocr_gate_sound (script : List OcrGatingEvent) :
    OcrGateSound q (script.foldl (OcrGating.step q policy) (.new S)) :=
  List.foldlRecOn script _ OcrGateSound.new fun _ h event _ => h.step event

theorem ocr_skipped_empty {script : List OcrGatingEvent} {p : OcrPrepared S} {unchanged : Bool}
    {mapping : Option ℕ} {now : ℕ}
    (hstage : (script.foldl (OcrGating.step q policy) (.new S)).stage =
      .remembered p unchanged mapping)
    (hskip : ((script.foldl (OcrGating.step q policy) (.new S)).data.admitPrepared q p.work p.region
      mapping unchanged now).2 = .skipped) :
    S.find q p.pixels.content = .ok .empty := by
  have hsound : OcrGateSound q (script.foldl (OcrGating.step q policy) (.new S)) :=
    ocr_gate_sound script
  have hremembered := hsound.stage
  rw [hstage] at hremembered
  refine hremembered.1 ?_
  unfold OcrQueryData.admitPrepared at hskip
  split at hskip
  · cases hskip
  · dsimp only at hskip
    split at hskip
    · rename_i hunchanged
      rw [Bool.and_eq_true] at hunchanged
      exact hunchanged.1
    · split at hskip <;> cases hskip

end Sound

end MadoPilot.Watch
