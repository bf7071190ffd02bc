import MadoPilot.Lib.Fallible
import MadoPilot.Watch.OcrLedger
import MadoPilot.Watch.QueryStability

/-!
# When an OCR query matches

A query matches once the analyses at the end of its history have shown its text often enough.  The
history is the book's list of observations: the completed analyses with what was recognized in each,
and a break for each incompatible source.

* `positives` : the analyses at the end of the history that show the text;
* `Evaluates` : what `evaluate` answers;
* `OcrRests` : what the sections that leave the confirmation alone do;
* `OcrConfirmed` : the invariant between the history and the query's data;
* `ocr_confirmation` : the result.
-/

namespace MadoPilot.Watch

open MadoPilot.Core MadoPilot.Lib

/-! ### Evaluation -/

/-- What `evaluate` answers: whether some region satisfies, and once the text is confirmed the result
that says so. -/
structure Evaluates (q : OcrQueryShared) (w : OcrWork) (output : OcrResult) (confirmed : ℕ)
    (first : Option FrameStamp) (positive : Bool) (result : Option OcrTextWatchResult) : Prop where
  correlated : output.stamp = w.stamp
  shown : positive = output.regions.any q.satisfies
  short : result = none → positive = true →
    saturatingAdd u32Max confirmed 1 < q.stability.observations
  confirms : ∀ r, result = some r → positive = true ∧
    q.stability.observations ≤ saturatingAdd u32Max confirmed 1 ∧
    r.frame = w.stamp ∧ r.result = output ∧
    r.confirmedObservations = saturatingAdd u32Max confirmed 1 ∧
    r.firstConfirmedFrame = first.getD w.stamp ∧
    r.satisfyingIndexes = output.regions.findIdxs q.satisfies

namespace OcrQueryShared

variable {q : OcrQueryShared}

theorem scan_eq_ok {interruption : ℕ → Option Interruption} {regions : List RecognizedRegion}
    {index textBytes : ℕ} {indexes : List ℕ} {r : ℕ × List ℕ}
    (h : q.scan interruption regions index textBytes indexes = .ok r) :
    r.2 = indexes ++ regions.findIdxs q.satisfies index := by
  induction regions generalizing index textBytes indexes with
  | nil =>
    obtain rfl := Except.ok.inj h
    simp
  | cons region regions ih =>
    unfold scan at h
    split at h
    · cases h
    by_cases hlong : maxTextBytes < region.text.utf8ByteSize
    · rw [if_pos hlong] at h
      cases h
    rw [if_neg hlong] at h
    split at h
    · cases h
    rw [List.findIdxs_cons]
    by_cases hsatisfies : q.satisfies region = true
    · rw [if_pos hsatisfies] at h ⊢
      by_cases hindex : index < 2 ^ 16
      · rw [if_pos hindex] at h
        rw [ih h, List.append_assoc]
        rfl
      · rw [if_neg hindex] at h
        cases h
    · rw [if_neg hsatisfies] at h ⊢
      exact ih h

theorem evaluate_eq_ok {w : OcrWork} {output : OcrResult} {confirmed : ℕ} {first : Option FrameStamp}
    {a : EvaluateAnswers} {positive : Bool} {result : Option OcrTextWatchResult}
    (h : q.evaluate w output confirmed first a = .ok (positive, result)) :
    Evaluates q w output confirmed first positive result := by
  unfold evaluate at h
  by_cases hcorrelated : output.stamp ≠ w.stamp ∨ output.transform ≠ a.transform ∨
      output.backend ≠ q.descriptor ∨ output.outputSpace ≠ q.outputSpace
  · rw [if_pos hcorrelated] at h
    cases h
  rw [if_neg hcorrelated] at h
  have hstamp : output.stamp = w.stamp := not_not.mp fun hne => hcorrelated (Or.inl hne)
  obtain ⟨region, -, h⟩ := bind_eq_ok.mp h
  by_cases hregion : output.effectiveRegion ≠ region
  · rw [if_pos hregion] at h
    cases h
  rw [if_neg hregion] at h
  by_cases hmany : maxCandidates < output.regions.length
  · rw [if_pos hmany] at h
    cases h
  rw [if_neg hmany] at h
  obtain ⟨⟨textBytes, indexes⟩, hscan, h⟩ := bind_eq_ok.mp h
  have hindexes : indexes = output.regions.findIdxs q.satisfies := by
    have hall := scan_eq_ok hscan
    rwa [List.nil_append] at hall
  have hany : indexes = [] ↔ output.regions.any q.satisfies = false := by
    rw [hindexes, List.findIdxs_eq_nil_iff, List.any_eq_false]
    simp
  dsimp only at h
  by_cases hempty : indexes = []
  · rw [if_pos hempty] at h
    obtain ⟨rfl, rfl⟩ := Prod.mk.inj (Except.ok.inj h)
    refine ⟨hstamp, (hany.mp hempty).symm, fun _ htrue => (by cases htrue), fun r hr => (by cases hr)⟩
  have hshown : output.regions.any q.satisfies = true :=
    Bool.eq_true_of_not_eq_false (hany.not.mp hempty)
  rw [if_neg hempty] at h
  by_cases hshort : saturatingAdd u32Max confirmed 1 < q.stability.observations
  · rw [if_pos hshort] at h
    obtain ⟨rfl, rfl⟩ := Prod.mk.inj (Except.ok.inj h)
    exact ⟨hstamp, hshown.symm, fun _ _ => hshort, fun r hr => (by cases hr)⟩
  · rw [if_neg hshort] at h
    obtain ⟨extent, -, h⟩ := bind_eq_ok.mp h
    obtain ⟨retained, -, h⟩ := bind_eq_ok.mp h
    obtain ⟨rfl, rfl⟩ := Prod.mk.inj (Except.ok.inj h)
    refine ⟨hstamp, hshown.symm, fun hnone => (by cases hnone), fun r hr => ?_⟩
    obtain rfl := Option.some.inj hr
    exact ⟨rfl, not_lt.mp hshort, rfl, rfl, rfl, rfl, hindexes⟩

end OcrQueryShared

/-! ### The history -/

def OcrAnalysis.positive (q : OcrQueryShared) (a : OcrAnalysis) : Bool :=
  a.output.regions.any q.satisfies

/-- The analyses at the end of a history, back to the last one that does not show the text and to the
last incompatible source. -/
def positives (q : OcrQueryShared) (observations : List (Option OcrAnalysis)) : List OcrAnalysis :=
  streak (observations.map (Option.filter (OcrAnalysis.positive q)))

section Positives

variable {q : OcrQueryShared} {observations : List (Option OcrAnalysis)} {a : OcrAnalysis}

theorem positives_concat (entry : Option OcrAnalysis) :
    positives q (observations ++ [entry]) =
      extendStreak (positives q observations) (some (entry.filter (OcrAnalysis.positive q))) := by
  unfold positives
  rw [List.map_append, List.map_singleton]
  exact streak_toList _ (some _)

theorem positives_hit (h : a.positive q = true) :
    positives q (observations ++ [some a]) = positives q observations ++ [a] := by
  rw [positives_concat, Option.filter_some_pos h]
  rfl

theorem positives_miss (h : a.positive q = false) : positives q (observations ++ [some a]) = [] := by
  rw [positives_concat, Option.filter_some_neg (by simp [h])]
  rfl

@[simp] theorem positives_break : positives q (observations ++ [none]) = [] := positives_concat none

theorem mem_positives (h : a ∈ positives q observations) :
    some a ∈ observations ∧ a.positive q = true := by
  have hmem : some a ∈ observations.map (Option.filter (OcrAnalysis.positive q)) := mem_of_streak h
  obtain ⟨entry, hentry, hfilter⟩ := List.mem_map.mp hmem
  obtain ⟨rfl, hpositive⟩ := Option.filter_eq_some_iff.mp hfilter
  exact ⟨hentry, hpositive⟩

end Positives

/-! ### The invariant -/

/-- The frames a query has yet to analyse, in the order it will. -/
def OcrQueryData.stamps (d : OcrQueryData) : List FrameStamp :=
  (d.execution.map OcrExecution.stamp).toList ++ (d.pending.map PendingFrame.stamp).toList

/-- The result is right about the run of positive analyses it ends. -/
structure Certifies (q : OcrQueryShared) (run : List OcrAnalysis) (r : OcrTextWatchResult) : Prop where
  analysed : run.getLast? = some ⟨r.frame, r.result⟩
  satisfying : r.satisfyingIndexes = r.result.regions.findIdxs q.satisfies
  confirmed : r.confirmedObservations = run.length
  required : q.stability.observations ≤ run.length
  first : run.head?.map OcrAnalysis.frame = some r.firstConfirmedFrame

/-- The run of positive analyses at the end of the history, and what the query remembers of it. -/
structure OcrConfirmed (q : OcrQueryShared) (run : List OcrAnalysis) (d : OcrQueryData) : Prop where
  leased : ∀ x, d.execution = some x → x.generation ≤ d.generation
  lined : (run.map OcrAnalysis.frame ++ d.stamps).Pairwise Continues
  counted : d.terminal = none → d.confirmed = run.length ∧
    d.firstConfirmed = run.head?.map OcrAnalysis.frame ∧ run.length < q.stability.observations
  matched : ∀ r, d.terminal = some (.matched r) → Certifies q run r

structure OcrRests (d d' : OcrQueryData) : Prop where
  generation : d.generation ≤ d'.generation
  leased : ∀ x, d'.execution = some x →
    d.execution = some x ∨ x.generation = d'.generation ∧ d.generation < d'.generation
  confirmed : d'.confirmed = d.confirmed
  first : d'.firstConfirmed = d.firstConfirmed
  source : d'.source = d.source
  stamps : d'.stamps.Sublist d.stamps
  terminal : d'.terminal = none → d.terminal = none
  matched : Unmatched d'.terminal ∨ d'.terminal = d.terminal

namespace OcrQueryData

variable {d : OcrQueryData} {q : OcrQueryShared}

theorem rests_refl (d : OcrQueryData) : OcrRests d d :=
  ⟨le_refl _, fun _ hx => Or.inl hx, rfl, rfl, rfl, List.Sublist.refl _, id, Or.inr rfl⟩

theorem finish_rests {d' : OcrQueryData} {o : OcrTextTerminalOutcome}
    (hgeneration : d'.generation = d.generation) (hconfirmed : d'.confirmed = d.confirmed)
    (hfirst : d'.firstConfirmed = d.firstConfirmed) (hsource : d'.source = d.source)
    (ho : Unmatched (some o)) : OcrRests d (d'.finish o) := by
  refine ⟨hgeneration.ge, fun x hx => ?_, hconfirmed, hfirst, hsource, List.nil_sublist _,
    fun h => ?_, Or.inl ho⟩
  · cases hx
  · cases h

theorem terminate_rests {authority : Option OcrTextTerminalOutcome}
    {proposed : OcrTextTerminalOutcome} (ha : Unmatched authority)
    (hp : Unmatched (some proposed)) : OcrRests d (d.terminate authority proposed).1 := by
  have hunmatched : d.terminal = none → Unmatched (d.terminate authority proposed).1.terminal :=
    fun hnone => terminate_unmatched hnone ha hp
  unfold terminate at hunmatched ⊢
  split
  · exact rests_refl d
  · rename_i hnone
    rw [hnone] at hunmatched
    exact finish_rests rfl rfl rfl rfl (hunmatched rfl)

theorem sweep_rests {authority : Option OcrTextTerminalOutcome} {now : ℕ} {ended : Bool}
    (ha : Unmatched authority) : OcrRests d (d.sweep q authority now ended).1 := by
  have hdue : Unmatched (d.due q authority now ended) := due_unmatched ha
  unfold sweep
  split
  · exact rests_refl d
  · split
    · exact rests_refl d
    · rename_i outcome heq
      rw [heq] at hdue
      split_ifs
      · exact finish_rests rfl rfl rfl rfl hdue
      · exact finish_rests rfl rfl rfl rfl hdue

theorem terminate_ended (authority : Option OcrTextTerminalOutcome)
    (proposed : OcrTextTerminalOutcome) : (d.terminate authority proposed).1.terminal ≠ none := by
  unfold terminate
  split
  · rename_i heq
    rw [heq]
    exact Option.some_ne_none _
  · exact Option.some_ne_none _

theorem claim_rests {stamp : FrameStamp} {now : ℕ} {physical : Bool}
    {interruption : Option Interruption} {d' : OcrQueryData} {w : OcrWork}
    (h : d.claim stamp now physical interruption = some (d', w)) : OcrRests d d' := by
  unfold claim at h
  split at h
  · cases h
  · rename_i hguard
    simp only [Bool.or_eq_true, not_or, Bool.not_eq_true] at hguard
    have hidle : d.execution = none := by simpa using hguard.1.1.1.2
    obtain ⟨generation, hgeneration, h⟩ := Option.bind_eq_some_iff.mp h
    obtain ⟨pending, hpending, h⟩ := Option.map_eq_some_iff.mp h
    obtain ⟨rfl, rfl⟩ := Prod.mk.inj h
    obtain ⟨rfl, -⟩ := checkedAdd_eq_some.mp hgeneration
    refine ⟨Nat.le_succ _, fun x hx => Or.inr ?_, rfl, rfl, rfl, ?_, id, Or.inr rfl⟩
    · obtain rfl := Option.some.inj hx
      exact ⟨rfl, Nat.lt_succ_self _⟩
    · simp [stamps, hidle, hpending]

theorem admitPrepared_rests (w : OcrWork) (region : PixelRect) (mapping : Option ℕ)
    (unchanged : Bool) (now : ℕ) : OcrRests d (d.admitPrepared q w region mapping unchanged now).1 := by
  unfold admitPrepared
  split
  · exact rests_refl d
  · dsimp only
    split
    · refine ⟨le_refl _, fun x hx => ?_, rfl, rfl, rfl, ?_, id, Or.inr rfl⟩
      · cases hx
      · exact List.sublist_append_right _ _
    · split
      · rename_i eligible pending heligible hpending
        have hheld : d.pending = some pending := hpending
        refine ⟨le_refl _, fun x hx => Or.inl hx, rfl, rfl, rfl, ?_, id, Or.inr rfl⟩
        simp [stamps, hheld]
      · exact ⟨le_refl _, fun x hx => Or.inl hx, rfl, rfl, rfl, List.Sublist.refl _, id, Or.inr rfl⟩

end OcrQueryData

/-- A lease that is current afterwards was current before, and nothing was confirmed in between. -/
def OcrKeeps (d d' : OcrQueryData) : Prop :=
  d.generation ≤ d'.generation ∧ ∀ w : OcrWork, w.generation ≤ d.generation →
    d'.executionCurrent w = true → d.executionCurrent w = true ∧
      d'.confirmed = d.confirmed ∧ d'.firstConfirmed = d.firstConfirmed

theorem OcrRests.keeps {d d' : OcrQueryData} (h : OcrRests d d') : OcrKeeps d d' := by
  refine ⟨h.generation, fun w hw hcurrent => ?_⟩
  obtain ⟨hnone, hexecution⟩ := OcrQueryData.executionCurrent_iff.mp hcurrent
  refine ⟨OcrQueryData.executionCurrent_iff.mpr ⟨h.terminal hnone, ?_⟩, h.confirmed, h.first⟩
  rcases h.leased _ hexecution with hsame | ⟨hnew, hlater⟩
  · exact hsame
  · -- a new lease has a later generation than the work
    have heq : w.generation = d'.generation := hnew
    omega

theorem OcrKeeps.of_idle {d d' : OcrQueryData} (hgeneration : d.generation ≤ d'.generation)
    (hidle : d'.execution = none) : OcrKeeps d d' := by
  refine ⟨hgeneration, fun w _ hcurrent => ?_⟩
  obtain ⟨-, hexecution⟩ := OcrQueryData.executionCurrent_iff.mp hcurrent
  rw [hidle] at hexecution
  cases hexecution

namespace OcrConfirmed

variable {q : OcrQueryShared} {run : List OcrAnalysis} {d d' : OcrQueryData}

theorem new : OcrConfirmed q [] .new := by
  refine ⟨fun x hx => ?_, List.Pairwise.nil, fun _ => ⟨rfl, rfl, q.stability.observations_pos⟩,
    fun r hr => ?_⟩
  · cases hx
  · cases hr

theorem rests (h : OcrConfirmed q run d) (hrests : OcrRests d d') : OcrConfirmed q run d' := by
  refine ⟨fun x hx => ?_, ?_, fun hnone => ?_, fun r hr => ?_⟩
  · have hgeneration := hrests.generation
    rcases hrests.leased x hx with hsame | ⟨hnew, -⟩
    · have hle := h.leased x hsame
      omega
    · exact hnew.le
  · exact h.lined.sublist (hrests.stamps.append_left _)
  · rw [hrests.confirmed, hrests.first]
    exact h.counted (hrests.terminal hnone)
  · rcases hrests.matched with hunmatched | hsame
    · exact absurd hr (hunmatched r)
    · rw [hsame] at hr
      exact h.matched r hr

end OcrConfirmed

/-! ### Sources -/

namespace OcrQueryData

variable {d : OcrQueryData} {q : OcrQueryShared} {run : List OcrAnalysis} {stamp : FrameStamp}

def runAfter (d : OcrQueryData) (run : List OcrAnalysis) (stamp : FrameStamp) : List OcrAnalysis :=
  if d.incompatible stamp then [] else run

theorem continues_source (hbefore : ∀ last, d.source = some last → isBefore last stamp = true)
    (hcompatible : d.incompatible stamp = false) {last : FrameStamp} (hlast : d.source = some last) :
    Continues last stamp := by
  have horder := QueryData.isBefore_iff.mp (hbefore last hlast)
  have hscene : last.epoch = stamp.epoch ∧ last.geometry = stamp.geometry := by
    unfold incompatible at hcompatible
    rw [hlast] at hcompatible
    simpa using hcompatible
  exact ⟨horder, hscene⟩

theorem noteSource_source (d : OcrQueryData) (stamp : FrameStamp) :
    (d.noteSource stamp).source = some stamp := by
  unfold noteSource
  split <;> rfl

theorem noteSource_confirmed (h : OcrConfirmed q run d) (hnone : d.terminal = none)
    (stamp : FrameStamp) :
    OcrConfirmed q (d.runAfter run stamp) (d.noteSource stamp) ∧ OcrKeeps d (d.noteSource stamp) := by
  unfold runAfter noteSource
  by_cases hincompatible : d.incompatible stamp = true
  · rw [if_pos hincompatible, if_pos hincompatible]
    refine ⟨⟨fun x hx => ?_, ?_, fun _ => ⟨rfl, rfl, q.stability.observations_pos⟩, fun r hr => ?_⟩,
      .of_idle (le_refl _) rfl⟩
    · cases hx
    · have hstamps := h.lined.sublist (List.sublist_append_right _ d.stamps)
      exact hstamps.sublist (List.sublist_append_right _ _)
    · have hmatched : d.terminal = some (.matched r) := hr
      rw [hnone] at hmatched
      cases hmatched
  · rw [if_neg hincompatible, if_neg hincompatible]
    exact ⟨⟨h.leased, h.lined, h.counted, h.matched⟩, le_refl _, fun w _ hw => ⟨hw, rfl, rfl⟩⟩

theorem noteSource_lined (h : Lined (run.map OcrAnalysis.frame ++ d.stamps) d.source)
    (hbefore : ∀ last, d.source = some last → isBefore last stamp = true) :
    Lined ((d.runAfter run stamp).map OcrAnalysis.frame ++
      (((d.noteSource stamp).execution.map OcrExecution.stamp).toList ++ [stamp])) (some stamp) := by
  unfold runAfter noteSource
  by_cases hincompatible : d.incompatible stamp = true
  · rw [if_pos hincompatible, if_pos hincompatible]
    have hempty : Lined [] none := Lined.nil
    exact hempty.snoc fun last hlast => (by cases hlast)
  · rw [if_neg hincompatible, if_neg hincompatible, ← List.append_assoc]
    have hleft : (run.map OcrAnalysis.frame ++ (d.execution.map OcrExecution.stamp).toList).Sublist
        (run.map OcrAnalysis.frame ++ d.stamps) := (List.sublist_append_left _ _).append_left _
    exact (h.sublist hleft).snoc fun last hlast =>
      continues_source hbefore (Bool.eq_false_of_not_eq_true hincompatible) hlast

theorem replacePending_confirmed (h : OcrConfirmed q run d) (hnone : d.terminal = none)
    {region : PixelRect} {now : ℕ}
    (hlined : Lined (run.map OcrAnalysis.frame ++
      ((d.execution.map OcrExecution.stamp).toList ++ [stamp])) (some stamp)) :
    OcrConfirmed q run (d.replacePending q stamp region now) := by
  refine ⟨h.leased, hlined.pairwise, h.counted, fun r hr => ?_⟩
  have hmatched : d.terminal = some (.matched r) := hr
  rw [hnone] at hmatched
  cases hmatched

end OcrQueryData

namespace OcrDesk

variable {s : OcrDesk} {q : OcrQueryShared} {stamp : FrameStamp}

def run (q : OcrQueryShared) (s : OcrDesk) : List OcrAnalysis := positives q s.book.observations

theorem noteEnqueued_run {enqueued : Enqueued} (hseen : enqueued ≠ .ignored) :
    positives q (s.noteEnqueued stamp enqueued).observations = s.data.runAfter (s.run q) stamp := by
  unfold noteEnqueued OcrQueryData.runAfter run
  by_cases hincompatible : s.data.incompatible stamp = true
  · simp [hincompatible, hseen]
  · simp [hincompatible]

/-- The frames of an open query are of one scene, and none is later than its source. -/
def Reached (q : OcrQueryShared) (s : OcrDesk) : Prop :=
  s.data.terminal = none → Lined ((s.run q).map OcrAnalysis.frame ++ s.data.stamps) s.data.source

/-- **What `enqueue` does to the confirmation.**  A source that is refused ends the query next. -/
theorem enqueue_confirmed (h : OcrConfirmed q (s.run q) s.data) (hreached : s.Reached q)
    (stamp : FrameStamp) (geometry : Except Error PixelRect) (now : ℕ) :
    OcrConfirmed q ((s.enqueue q stamp geometry now).1.run q) (s.enqueue q stamp geometry now).1.data ∧
    OcrKeeps s.data (s.enqueue q stamp geometry now).1.data ∧
    ((∃ o, (s.enqueue q stamp geometry now).2 = .publishTerminating o ∧
        (s.enqueue q stamp geometry now).1.publishing = s.publishing) ∨
      (s.enqueue q stamp geometry now).2 = .idle ∧
      (s.enqueue q stamp geometry now).1.Reached q) := by
  by_cases hseen : (s.data.terminal.isSome || q.stream ≠ stamp.stream ||
      s.data.source.any fun last => !isBefore last stamp) = true
  · -- an old source is ignored
    have hsame : s.data.enqueue q stamp geometry now = (s.data, .ignored) := by
      unfold OcrQueryData.enqueue
      rw [if_pos hseen]
    have hrun : positives q (s.noteEnqueued stamp .ignored).observations = s.run q := by
      simp [noteEnqueued, run]
    unfold enqueue
    rw [hsame]
    simp only [run, hrun]
    refine ⟨h, ⟨le_refl _, fun w _ hw => ⟨hw, rfl, rfl⟩⟩, Or.inr ⟨trivial, fun hnone => ?_⟩⟩
    have hlined := hreached hnone
    rw [← hrun] at hlined
    exact hlined
  · have hsource : ∀ last, s.data.source = some last → isBefore last stamp = true := by
      intro last hlast
      rw [hlast] at hseen
      simp only [Bool.or_eq_true, not_or] at hseen
      simpa using hseen.2
    have hnone : s.data.terminal = none := by
      simp only [Bool.or_eq_true, not_or, Bool.not_eq_true] at hseen
      simpa using hseen.1.1
    have hnoted := OcrQueryData.noteSource_confirmed h hnone stamp
    cases geometry with
    | error error =>
      have hrefused : s.data.enqueue q stamp (.error error) now =
          (s.data.noteSource stamp, .refused error) := by
        unfold OcrQueryData.enqueue
        rw [if_neg hseen]
      have hrun : positives q (s.noteEnqueued stamp (.refused error)).observations =
          s.data.runAfter (s.run q) stamp := noteEnqueued_run fun hr => by cases hr
      unfold enqueue
      rw [hrefused]
      simp only [run, hrun]
      exact ⟨hnoted.1, hnoted.2, Or.inl ⟨_, rfl, trivial⟩⟩
    | ok region =>
      have hpending : s.data.enqueue q stamp (.ok region) now =
          ((s.data.noteSource stamp).replacePending q stamp region now, .pending) := by
        unfold OcrQueryData.enqueue
        rw [if_neg hseen]
      have hrun : positives q (s.noteEnqueued stamp .pending).observations =
          s.data.runAfter (s.run q) stamp := noteEnqueued_run fun hr => by cases hr
      have hopen : (s.data.noteSource stamp).terminal = none :=
        (OcrQueryData.noteSource_pending s.data stamp).2.trans hnone
      have hafter := OcrQueryData.noteSource_lined (hreached hnone) hsource
      unfold enqueue
      rw [hpending]
      simp only [run, hrun]
      have hconfirmed : OcrConfirmed q (s.data.runAfter (s.run q) stamp)
          ((s.data.noteSource stamp).replacePending q stamp region now) :=
        OcrQueryData.replacePending_confirmed hnoted.1 hopen hafter
      have hsource' : (s.data.noteSource stamp).source = some stamp :=
        OcrQueryData.noteSource_source s.data stamp
      rw [← hsource'] at hafter
      refine ⟨hconfirmed, hnoted.2, Or.inr ⟨trivial, fun _ => ?_⟩⟩
      rw [← hrun] at hafter
      exact hafter

end OcrDesk

/-! ### Analyses -/

/-- What a worker read before it evaluated is still what the query remembers, and its answer is
that of `evaluate`. -/
structure Evaluated (q : OcrQueryShared) (d : OcrQueryData) (w : OcrWork)
    (output : Except Error OcrResult) (confirmed : ℕ) (first : Option FrameStamp)
    (evaluated : Except Error (Bool × Option OcrTextWatchResult)) : Prop where
  leased : w.generation ≤ d.generation
  read : d.executionCurrent w = true → confirmed = d.confirmed ∧ first = d.firstConfirmed
  answer : ∀ positive result, evaluated = .ok (positive, result) →
    ∃ recognized, output = .ok recognized ∧ Evaluates q w recognized confirmed first positive result

namespace OcrConfirmed

variable {q : OcrQueryShared} {run : List OcrAnalysis} {d : OcrQueryData} {w : OcrWork}

theorem stamps_current (hcurrent : d.executionCurrent w = true) :
    d.stamps = w.stamp :: (d.pending.map PendingFrame.stamp).toList := by
  obtain ⟨-, hexecution⟩ := OcrQueryData.executionCurrent_iff.mp hcurrent
  unfold OcrQueryData.stamps
  rw [hexecution]
  rfl

theorem succ_confirmed (h : OcrConfirmed q run d) (hnone : d.terminal = none) :
    saturatingAdd u32Max d.confirmed 1 = run.length + 1 := by
  obtain ⟨hconfirmed, -, hlt⟩ := h.counted hnone
  have hle := q.stability.observations_le
  unfold saturatingAdd
  rw [hconfirmed]
  omega

theorem positive {confirmed : ℕ} {first : Option FrameStamp} {mapping : Option ℕ} {output : OcrResult}
    (h : OcrConfirmed q run d) (hcurrent : d.executionCurrent w = true)
    (hread : confirmed = d.confirmed ∧ first = d.firstConfirmed)
    (heval : Evaluates q w output confirmed first true none) :
    OcrConfirmed q (run ++ [⟨w.stamp, output⟩])
      { d.observe w mapping true confirmed first with execution := none } := by
  obtain ⟨hnone, -⟩ := OcrQueryData.executionCurrent_iff.mp hcurrent
  obtain ⟨rfl, rfl⟩ := hread
  have hsucc := h.succ_confirmed hnone
  obtain ⟨-, hfirst, -⟩ := h.counted hnone
  have hlined := h.lined
  rw [stamps_current hcurrent] at hlined
  refine ⟨fun x hx => ?_, ?_, fun _ => ⟨?_, ?_, ?_⟩, fun r hr => ?_⟩
  · cases hx
  · rw [List.map_append, List.append_assoc]
    exact hlined
  · rw [List.length_append]
    exact hsucc
  · rw [List.head?_append, Option.map_or, ← hfirst]
    rfl
  · have hshort := heval.short rfl rfl
    rw [hsucc] at hshort
    rw [List.length_append]
    exact hshort
  · have hmatched : d.terminal = some (.matched r) := hr
    rw [hnone] at hmatched
    cases hmatched

theorem negative {confirmed : ℕ} {first : Option FrameStamp} {mapping : Option ℕ}
    (h : OcrConfirmed q run d) (hcurrent : d.executionCurrent w = true) :
    OcrConfirmed q [] { d.observe w mapping false confirmed first with execution := none } := by
  obtain ⟨hnone, -⟩ := OcrQueryData.executionCurrent_iff.mp hcurrent
  refine ⟨fun x hx => ?_, ?_, fun _ => ⟨rfl, rfl, q.stability.observations_pos⟩, fun r hr => ?_⟩
  · cases hx
  · have hstamps := h.lined.sublist (List.sublist_append_right _ d.stamps)
    exact hstamps.sublist (List.sublist_append_right _ _)
  · have hmatched : d.terminal = some (.matched r) := hr
    rw [hnone] at hmatched
    cases hmatched

theorem certifies {confirmed : ℕ} {first : Option FrameStamp} {output : OcrResult}
    {r : OcrTextWatchResult} (h : OcrConfirmed q run d) (hcurrent : d.executionCurrent w = true)
    (hread : confirmed = d.confirmed ∧ first = d.firstConfirmed)
    (heval : Evaluates q w output confirmed first true (some r)) :
    Certifies q (run ++ [⟨w.stamp, output⟩]) r := by
  obtain ⟨hnone, -⟩ := OcrQueryData.executionCurrent_iff.mp hcurrent
  obtain ⟨rfl, rfl⟩ := hread
  have hsucc := h.succ_confirmed hnone
  obtain ⟨-, hfirst, -⟩ := h.counted hnone
  obtain ⟨-, hrequired, hframe, hresult, hconfirmed, hhead, hindexes⟩ := heval.confirms r rfl
  rw [hsucc] at hrequired hconfirmed
  have hlength : ∀ a : OcrAnalysis, (run ++ [a]).length = run.length + 1 := fun a => by
    rw [List.length_append]
    rfl
  refine ⟨?_, ?_, ?_, ?_, ?_⟩
  · rw [List.getLast?_concat, hframe, hresult]
  · rw [hindexes, hresult]
  · rw [hconfirmed, hlength]
  · rw [hlength]
    exact hrequired
  · rw [List.head?_append, Option.map_or, ← hfirst, hhead, List.head?_cons, Option.map_some,
      Option.or_some]

theorem ended {d' : OcrQueryData} {r : OcrTextWatchResult} (hr : Certifies q run r)
    (hlined : (run.map OcrAnalysis.frame).Pairwise Continues) :
    OcrConfirmed q run (d'.finish (.matched r)) := by
  refine ⟨fun x hx => ?_, ?_, fun hnone => ?_, fun r' hr' => ?_⟩
  · cases hx
  · have hstamps : (d'.finish (.matched r)).stamps = [] := rfl
    rw [hstamps, List.append_nil]
    exact hlined
  · cases hnone
  · obtain rfl := OcrTextTerminalOutcome.matched.inj (Option.some.inj hr')
    exact hr

end OcrConfirmed

namespace OcrDesk

variable {s : OcrDesk} {q : OcrQueryShared} {w : OcrWork} {output : Except Error OcrResult} {confirmed : ℕ}
  {first : Option FrameStamp} {evaluated : Except Error (Bool × Option OcrTextWatchResult)}

/-- What `complete` leaves: the history, the data, and the frames that may follow. -/
structure Completed (q : OcrQueryShared) (s : OcrDesk) (run : List OcrAnalysis) (d : OcrQueryData) :
    Prop where
  confirmed : OcrConfirmed q run d
  keeps : OcrKeeps s.data d
  frames : (run.map OcrAnalysis.frame ++ d.stamps).Sublist
    ((s.run q).map OcrAnalysis.frame ++ s.data.stamps)
  source : d.source = s.data.source
  terminal : d.terminal = none → s.data.terminal = none

theorem Completed.of_rests {d : OcrQueryData} (h : OcrConfirmed q (s.run q) s.data)
    (hrests : OcrRests s.data d) : Completed q s (s.run q) d :=
  ⟨h.rests hrests, hrests.keeps, hrests.stamps.append_left _, hrests.source,
    hrests.terminal⟩

theorem complete_completed {refusal : Option OcrTextTerminalOutcome}
    (h : OcrConfirmed q (s.run q) s.data) (heval : Evaluated q s.data w output confirmed first evaluated)
    (hrefusal : Unmatched refusal) (mapping : Option ℕ) :
    Completed q s (positives q (s.book.observations ++ s.observation w output evaluated refusal))
      (s.data.complete w mapping confirmed first evaluated refusal).1 := by
  have hnothing : positives q (s.book.observations ++ []) = s.run q := by rw [List.append_nil]; rfl
  unfold observation OcrQueryData.complete
  by_cases hcurrent : s.data.executionCurrent w = true
  · have hread := heval.read hcurrent
    obtain ⟨hnone, hexecution⟩ := OcrQueryData.executionCurrent_iff.mp hcurrent
    have hframes : ∀ a : OcrAnalysis, a.frame = w.stamp →
        ((s.run q ++ [a]).map OcrAnalysis.frame).Sublist
          ((s.run q).map OcrAnalysis.frame ++ s.data.stamps) := by
      intro a ha
      rw [OcrConfirmed.stamps_current hcurrent, List.map_append, List.map_singleton, ha]
      exact (List.singleton_sublist.mpr (List.mem_cons_self ..)).append_left _
    simp only [hcurrent, Bool.not_true, Bool.false_eq_true, if_false, Bool.true_and]
    cases refusal with
    | some outcome =>
      simp only [Option.isNone_some, Bool.false_eq_true, if_false, hnothing]
      exact .of_rests h (OcrQueryData.finish_rests rfl rfl rfl rfl hrefusal)
    | none =>
      simp only [Option.isNone_none, if_true]
      cases evaluated with
      | error error =>
        simp only [hnothing]
        exact .of_rests h (OcrQueryData.finish_rests rfl rfl rfl rfl fun r hr => by cases hr)
      | ok answer =>
        obtain ⟨positive, result⟩ := answer
        obtain ⟨recognized, rfl, hanswer⟩ := heval.answer positive result rfl
        have hshown : positive = OcrAnalysis.positive q ⟨w.stamp, recognized⟩ := hanswer.shown
        cases result with
        | some r =>
          obtain rfl : positive = true := (hanswer.confirms r rfl).1
          have hcertifies := h.certifies hcurrent hread hanswer
          have hlast := hframes ⟨w.stamp, recognized⟩ rfl
          simp only [positives_hit hshown.symm]
          refine ⟨OcrConfirmed.ended hcertifies (h.lined.sublist hlast), .of_idle (le_refl _) rfl,
            ?_, rfl, fun _ => hnone⟩
          rw [show (OcrQueryData.finish _ _).stamps = [] from rfl, List.append_nil]
          exact hlast
        | none =>
          cases positive with
          | true =>
            simp only [positives_hit hshown.symm]
            refine ⟨h.positive hcurrent hread hanswer, .of_idle (le_refl _) rfl, ?_, rfl,
              fun _ => hnone⟩
            rw [OcrConfirmed.stamps_current hcurrent, List.map_append, List.append_assoc]
            exact List.Sublist.refl _
          | false =>
            simp only [positives_miss hshown.symm]
            refine ⟨h.negative hcurrent, .of_idle (le_refl _) rfl, ?_, rfl, fun _ => hnone⟩
            refine List.Sublist.trans ?_ (List.sublist_append_right _ s.data.stamps)
            exact List.sublist_append_right _ _
  · simp only [hcurrent, Bool.not_false, if_true, Bool.false_and, Bool.false_eq_true, if_false,
      hnothing]
    exact .of_rests h (OcrQueryData.rests_refl _)

end OcrDesk

/-! ### Steps -/

namespace OcrPlace

def Publishes : OcrPlace → Prop
  | .enqueuing _ | .publishTerminating _ => True
  | _ => False

def Reads (q : OcrQueryShared) (d : OcrQueryData) : OcrPlace → Prop
  | .completing w _ output confirmed first evaluated => Evaluated q d w output confirmed first evaluated
  | _ => True

variable {q : OcrQueryShared} {d d' : OcrQueryData} {p : OcrPlace}

theorem Reads.keeps (h : p.Reads q d) (hkeeps : OcrKeeps d d') : p.Reads q d' := by
  cases p with
  | completing w mapping output confirmed first evaluated =>
    refine ⟨h.leased.trans hkeeps.1, fun hcurrent => ?_, h.answer⟩
    obtain ⟨hbefore, hconfirmed, hfirst⟩ := hkeeps.2 w h.leased hcurrent
    rw [hconfirmed, hfirst]
    exact h.read hbefore
  | _ => trivial

end OcrPlace

theorem callComplete_reads {q : OcrQueryShared} {s : OcrDesk} {run : List OcrAnalysis}
    (h : OcrConfirmed q run s.data) (w : OcrWork) (mapping : Option ℕ)
    (output : Except Error OcrResult) (answers : EvaluateAnswers) :
    (s.callComplete q w mapping output answers).Reads q s.data ∧
      ¬ (s.callComplete q w mapping output answers).Publishes := by
  unfold OcrDesk.callComplete
  by_cases hcurrent : s.data.executionCurrent w = true
  · obtain ⟨-, hexecution⟩ := OcrQueryData.executionCurrent_iff.mp hcurrent
    rw [hcurrent]
    refine ⟨⟨h.leased _ hexecution, fun _ => ⟨rfl, rfl⟩, fun positive result hanswer => ?_⟩, id⟩
    obtain ⟨recognized, hok, hevaluate⟩ := bind_eq_ok.mp hanswer
    exact ⟨recognized, hok, OcrQueryShared.evaluate_eq_ok hevaluate⟩
  · rw [Bool.eq_false_of_not_eq_true hcurrent]
    exact ⟨trivial, id⟩

theorem enqueue_enters {q : OcrQueryShared} {s : OcrDesk} {stamp : FrameStamp}
    {geometry : Except Error PixelRect} {now : ℕ} {a : OcrAnalysis}
    (h : some a ∈ (s.enqueue q stamp geometry now).1.book.observations) :
    some a ∈ s.book.observations := by
  have hnote : ∀ enqueued, some a ∈ (s.noteEnqueued stamp enqueued).observations →
      some a ∈ s.book.observations := by
    intro enqueued hmem
    rcases List.mem_append.mp hmem with hbefore | hnew
    · exact hbefore
    · split_ifs at hnew
      · cases List.mem_singleton.mp hnew
      · exact absurd hnew List.not_mem_nil
  unfold OcrDesk.enqueue at h
  split at h
  · exact hnote _ h
  · exact hnote _ h

theorem complete_enters {q : OcrQueryShared} {s : OcrDesk} {w : OcrWork} {mapping : Option ℕ}
    {output : Except Error OcrResult} {confirmed : ℕ} {first : Option FrameStamp}
    {evaluated : Except Error (Bool × Option OcrTextWatchResult)} {capture : Option Error}
    {interruption again : Option Interruption} {a : OcrAnalysis}
    (heval : Evaluated q s.data w output confirmed first evaluated)
    (h : some a ∈ (s.complete w mapping output confirmed first evaluated capture interruption
      again).book.observations) :
    some a ∈ s.book.observations ∨ a.output.stamp = a.frame := by
  rcases List.mem_append.mp h with hbefore | hnew
  · exact Or.inl hbefore
  · unfold OcrDesk.observation at hnew
    split_ifs at hnew
    · cases evaluated with
      | error error => cases output <;> cases hnew
      | ok answer =>
        obtain ⟨recognized, rfl, hanswer⟩ := heval.answer answer.1 answer.2 rfl
        obtain rfl := Option.some.inj (List.mem_singleton.mp hnew)
        exact Or.inr hanswer.correlated
    · exact absurd hnew List.not_mem_nil

/-- What a step does to the confirmation, and to the thread that publishes. -/
structure OcrAdvance (q : OcrQueryShared) (s : OcrDesk) (p : OcrPlace) (s' : OcrDesk)
    (p' : OcrPlace) : Prop where
  enters : ∀ a, some a ∈ s'.book.observations → some a ∈ s.book.observations ∨ a.output.stamp = a.frame
  confirmed : OcrConfirmed q (s'.run q) s'.data
  keeps : OcrKeeps s.data s'.data
  reads : p'.Reads q s'.data
  reaches : (∃ o, p' = .publishTerminating o) ∨
    ((∃ o, p = .publishTerminating o) ∨ s.Reached q → s'.Reached q)
  begins : p'.Publishes → p.Publishes ∧ s'.publishing = s.publishing ∨
    s.publishing = false ∧ s'.publishing = true
  holds : ¬ p.Publishes → s.publishing = true → s'.publishing = true

namespace OcrAdvance

variable {q : OcrQueryShared} {s s' : OcrDesk} {p p' : OcrPlace}

theorem of_rests (h : OcrConfirmed q (s.run q) s.data) (hrests : OcrRests s.data s'.data)
    (hbook : s'.book.observations = s.book.observations) (hpublishing : s'.publishing = s.publishing)
    (hreads : p'.Reads q s'.data) (hp : ¬ p.Publishes) (hp' : ¬ p'.Publishes) :
    OcrAdvance q s p s' p' := by
  have hrun : s'.run q = s.run q := congrArg (positives q) hbook
  refine ⟨fun a ha => Or.inl (hbook ▸ ha), ?_, hrests.keeps, hreads, Or.inr ?_,
    fun hpub => absurd hpub hp', fun _ hset => ?_⟩
  · rw [hrun]
    exact h.rests hrests
  · rintro (⟨o, rfl⟩ | hreached) hnone
    · exact absurd trivial hp
    · have hlined := hreached (hrests.terminal hnone)
      rw [hrun, hrests.source]
      exact hlined.sublist (hrests.stamps.append_left _)
  · rw [hpublishing]
    exact hset

theorem rest (h : OcrConfirmed q (s.run q) s.data) (hdata : s'.data = s.data)
    (hbook : s'.book = s.book) (hpublishing : s'.publishing = s.publishing)
    (hreads : p'.Reads q s.data) (hp : ¬ p.Publishes) (hp' : ¬ p'.Publishes) :
    OcrAdvance q s p s' p' := by
  have hrests : OcrRests s.data s'.data := by
    rw [hdata]
    exact OcrQueryData.rests_refl _
  refine of_rests h hrests (by rw [hbook]) hpublishing ?_ hp hp'
  rw [hdata]
  exact hreads

theorem terminate {outcome : OcrTextTerminalOutcome} (h : OcrConfirmed q (s.run q) s.data)
    (ho : Unmatched (some outcome)) (interruption again : Option Interruption)
    (hp : ¬ p.Publishes) (hreads : p'.Reads q (s.terminate outcome interruption again).data)
    (hp' : ¬ p'.Publishes) : OcrAdvance q s p (s.terminate outcome interruption again) p' := by
  have hauthority := refreshInterruption_unmatched (authority_unmatched s.gate interruption) again
  exact of_rests h (OcrQueryData.terminate_rests hauthority ho) rfl rfl hreads hp hp'

theorem sweep (h : OcrConfirmed q (s.run q) s.data) (now : ℕ) (interruption again : Option Interruption)
    (hp : ¬ p.Publishes) (hreads : p'.Reads q (s.sweep q now interruption again).data)
    (hp' : ¬ p'.Publishes) : OcrAdvance q s p (s.sweep q now interruption again) p' := by
  have hauthority := refreshInterruption_unmatched (authority_unmatched s.gate interruption) again
  exact of_rests h (OcrQueryData.sweep_rests hauthority) rfl rfl hreads hp hp'

theorem publishTerminate {outcome : OcrTextTerminalOutcome} (h : OcrConfirmed q (s.run q) s.data)
    (ho : Unmatched (some outcome)) (interruption again : Option Interruption) :
    OcrAdvance q s (.publishTerminating outcome)
      { s.terminate outcome interruption again with publishing := false } .idle := by
  have hauthority := refreshInterruption_unmatched (authority_unmatched s.gate interruption) again
  have hrests : OcrRests s.data (s.terminate outcome interruption again).data :=
    OcrQueryData.terminate_rests hauthority ho
  refine ⟨fun a ha => Or.inl ha, h.rests hrests, hrests.keeps, trivial, Or.inr fun _ hnone => ?_,
    fun hpub => hpub.elim,
    fun hp => absurd trivial hp⟩
  exact absurd hnone (OcrQueryData.terminate_ended _ _)

theorem enqueue {stamp : FrameStamp} (h : OcrConfirmed q (s.run q) s.data) (hreached : s.Reached q)
    (geometry : Except Error PixelRect) (now : ℕ) :
    OcrAdvance q s (.enqueuing stamp) (s.enqueue q stamp geometry now).1
      (s.enqueue q stamp geometry now).2 := by
  obtain ⟨hconfirmed, hkeeps, hafter⟩ := OcrDesk.enqueue_confirmed h hreached stamp
    geometry now
  have henters : ∀ a, some a ∈ (s.enqueue q stamp geometry now).1.book.observations →
      some a ∈ s.book.observations ∨ a.output.stamp = a.frame := fun a ha => Or.inl (enqueue_enters ha)
  rcases hafter with ⟨o, hplace, hpublishing⟩ | ⟨hplace, hreached'⟩
  · rw [hplace]
    exact ⟨henters, hconfirmed, hkeeps, trivial, Or.inl ⟨o, rfl⟩, fun _ => Or.inl ⟨trivial, hpublishing⟩,
      fun hp => absurd trivial hp⟩
  · rw [hplace]
    exact ⟨henters, hconfirmed, hkeeps, trivial, Or.inr fun _ => hreached', fun hpub => hpub.elim,
      fun hp => absurd trivial hp⟩

theorem claim (h : OcrConfirmed q (s.run q) s.data) (stamp : FrameStamp) (now : ℕ)
    (interruption : Option Interruption) :
    OcrAdvance q s .idle (s.claim stamp now interruption).1 (s.claim stamp now interruption).2 := by
  unfold OcrDesk.claim
  split
  · rename_i d w heq
    exact of_rests h (OcrQueryData.claim_rests heq) rfl rfl trivial id id
  · exact rest h rfl rfl rfl trivial id id

theorem admitPrepared (h : OcrConfirmed q (s.run q) s.data) (w : OcrWork) (region : PixelRect)
    (mapping : Option ℕ) (unchanged : Bool) (now : ℕ) (interruption again : Option Interruption) :
    OcrAdvance q s (.claimed w) (s.admitPrepared q w region mapping unchanged now interruption again).1
      (s.admitPrepared q w region mapping unchanged now interruption again).2 := by
  have hrests := OcrQueryData.admitPrepared_rests (d := s.data) (q := q) w region mapping unchanged now
  unfold OcrDesk.admitPrepared
  split
  · exact rest h rfl rfl rfl trivial id id
  · split
    · exact rest h rfl rfl rfl trivial id id
    · split
      · exact rest h rfl rfl rfl trivial id id
      · split
        · rename_i d heq
          rw [heq] at hrests
          exact of_rests h hrests rfl rfl trivial id id
        · rename_i d admission _ heq
          rw [heq] at hrests
          exact of_rests h hrests rfl rfl trivial id id

theorem complete {w : OcrWork} {mapping : Option ℕ} {output : Except Error OcrResult} {confirmed : ℕ}
    {first : Option FrameStamp} {evaluated : Except Error (Bool × Option OcrTextWatchResult)}
    (h : OcrConfirmed q (s.run q) s.data) (heval : Evaluated q s.data w output confirmed first evaluated)
    (capture : Option Error) (interruption again : Option Interruption) :
    OcrAdvance q s (.completing w mapping output confirmed first evaluated)
      (s.complete w mapping output confirmed first evaluated capture interruption again)
      (.dropping w) := by
  have hrefusal := refusal_unmatched (authority_unmatched s.gate interruption) capture again
  have hcompleted := OcrDesk.complete_completed h heval hrefusal mapping
  refine ⟨fun a ha => complete_enters heval ha, hcompleted.confirmed, hcompleted.keeps, trivial, Or.inr ?_,
    fun hpub => hpub.elim, fun _ hset => hset⟩
  rintro (⟨o, hplace⟩ | hreached) hnone
  · cases hplace
  · have hlined := (hreached (hcompleted.terminal hnone)).sublist hcompleted.frames
    rw [← hcompleted.source] at hlined
    exact hlined

end OcrAdvance

theorem ocrStep_advance {q : OcrQueryShared} {τ : Type*} {t : τ} {s : OcrDesk} {p : OcrPlace}
    {e : OcrEvent} {r : OcrDesk × OcrPlace} (hp : p.Proposes) (h : OcrConfirmed q (s.run q) s.data)
    (hreads : p.Reads q s.data) (hreached : ∀ stamp, p = .enqueuing stamp → s.Reached q)
    (hstep : ocrStep q t s p e = some r) : OcrAdvance q s p r.1 r.2 := by
  unfold ocrStep at hstep
  split at hstep
  · split_ifs at hstep with hpublishing hconsidered
    · obtain rfl := Option.some.inj hstep
      exact .rest h rfl rfl rfl trivial id id
    · obtain rfl := Option.some.inj hstep
      refine ⟨fun a ha => Or.inl ha, h, (OcrQueryData.rests_refl _).keeps, trivial, Or.inr ?_,
        fun _ => Or.inr ⟨?_, rfl⟩, fun _ _ => rfl⟩
      · rintro (⟨o, hplace⟩ | hlined)
        · cases hplace
        · exact hlined
      · exact Bool.eq_false_of_not_eq_true hpublishing
  · rename_i stamp geometry now interruption
    split at hstep
    · obtain rfl := Option.some.inj hstep
      exact ⟨fun a ha => Or.inl ha, h, (OcrQueryData.rests_refl _).keeps, trivial, Or.inl ⟨_, rfl⟩,
        fun _ => Or.inl ⟨trivial, rfl⟩, fun _ hset => hset⟩
    · obtain rfl := Option.some.inj hstep
      exact .enqueue h (hreached stamp rfl) geometry now
  · split_ifs at hstep
    obtain rfl := Option.some.inj hstep
    exact .rest h rfl rfl rfl trivial id id
  · obtain rfl := Option.some.inj hstep
    exact .terminate h hp _ _ id trivial id
  · obtain rfl := Option.some.inj hstep
    exact .publishTerminate h hp _ _
  · obtain rfl := Option.some.inj hstep
    exact .terminate h hp _ _ id trivial id
  · obtain rfl := Option.some.inj hstep
    exact .sweep h _ _ _ id trivial id
  · obtain rfl := Option.some.inj hstep
    exact .sweep h _ _ _ id trivial id
  · obtain rfl := Option.some.inj hstep
    exact .sweep h _ _ _ id trivial id
  · obtain rfl := Option.some.inj hstep
    exact .claim h _ _ _
  · obtain rfl := Option.some.inj hstep
    refine .rest h rfl rfl rfl ?_ id ?_
    · dsimp only
      split_ifs <;> exact trivial
    · dsimp only
      split_ifs <;> exact id
  · obtain rfl := Option.some.inj hstep
    exact .admitPrepared h _ _ _ _ _ _ _
  · split_ifs at hstep
    obtain rfl := Option.some.inj hstep
    obtain ⟨hafter, hplace⟩ := callComplete_reads h _ _ _ _
    exact .rest h rfl rfl rfl hafter id hplace
  · obtain rfl := Option.some.inj hstep
    obtain ⟨hafter, hplace⟩ := callComplete_reads h _ _ _ _
    exact .rest h rfl rfl rfl hafter id hplace
  · obtain rfl := Option.some.inj hstep
    exact .complete h hreads _ _ _
  · obtain rfl := Option.some.inj hstep
    exact .rest h rfl rfl rfl trivial id id
  · obtain rfl := Option.some.inj hstep
    exact .rest h rfl rfl rfl trivial id id
  · obtain rfl := Option.some.inj hstep
    exact .rest h rfl rfl rfl trivial id id
  · obtain rfl := Option.some.inj hstep
    exact .rest h rfl rfl rfl trivial id id
  · cases hstep

/-! ### Runs -/

section Runs

variable {τ : Type*} {q : OcrQueryShared} {w w' : OcrWorld τ}

structure OcrSound (q : OcrQueryShared) (w : OcrWorld τ) : Prop where
  stamped : ∀ a, some a ∈ w.shared.book.observations → a.output.stamp = a.frame
  confirmed : OcrConfirmed q (w.shared.run q) w.shared.data
  reads : ∀ t, (w.pc t).Reads q w.shared.data
  serial : ∀ t u, (w.pc t).Publishes → (w.pc u).Publishes → t = u
  publishing : ∀ t, (w.pc t).Publishes → w.shared.publishing = true
  reached : w.shared.Reached q ∨ ∃ t o, w.pc t = .publishTerminating o

theorem OcrSound.start : OcrSound q (OcrWorld.start τ) :=
  ⟨fun _ h => absurd h List.not_mem_nil, .new, fun _ => trivial, fun _ _ h => h.elim,
    fun _ h => h.elim, Or.inl fun _ => .nil⟩

theorem OcrSound.enqueuing {t : τ} {stamp : FrameStamp} (h : OcrSound q w)
    (hpc : w.pc t = .enqueuing stamp) : w.shared.Reached q := by
  rcases h.reached with hreached | ⟨u, o, hu⟩
  · exact hreached
  · have htu := h.serial t u (by rw [hpc]; trivial) (by rw [hu]; trivial)
    rw [htu, hu] at hpc
    cases hpc

variable [DecidableEq τ]

theorem OcrSound.step {t : τ} {s' : OcrDesk} {p' : OcrPlace} (h : OcrSound q w)
    (hadvance : OcrAdvance q w.shared (w.pc t) s' p') : OcrSound q (w.move t s' p') := by
  -- another thread that publishes excludes this one
  have hother : ∀ u, u ≠ t → (w.pc u).Publishes → ¬ p'.Publishes ∧ s'.publishing = true := by
    intro u hu hpub
    have hset := h.publishing u hpub
    have hnot : ¬ (w.pc t).Publishes := fun hself => hu (h.serial u t hpub hself)
    refine ⟨fun hself => ?_, hadvance.holds hnot hset⟩
    rcases hadvance.begins hself with ⟨hbefore, -⟩ | ⟨hclear, -⟩
    · exact hnot hbefore
    · rw [hset] at hclear
      cases hclear
  constructor
  · exact fun a ha => (hadvance.enters a ha).elim (h.stamped a) id
  · exact hadvance.confirmed
  · exact w.forall_move t s' p' hadvance.reads fun u _ => (h.reads u).keeps hadvance.keeps
  · intro u v hu hv
    by_cases hut : u = t <;> by_cases hvt : v = t
    · exact hut.trans hvt.symm
    · subst hut
      rw [World.move_pc_self] at hu
      rw [World.move_pc_of_ne _ _ _ _ hvt] at hv
      exact absurd hu (hother v hvt hv).1
    · subst hvt
      rw [World.move_pc_self] at hv
      rw [World.move_pc_of_ne _ _ _ _ hut] at hu
      exact absurd hv (hother u hut hu).1
    · rw [World.move_pc_of_ne _ _ _ _ hut] at hu
      rw [World.move_pc_of_ne _ _ _ _ hvt] at hv
      exact h.serial u v hu hv
  · refine w.forall_move (P := fun p => p.Publishes → s'.publishing = true) t s' p' (fun hpub => ?_)
      fun u hu hpub => (hother u hu hpub).2
    rcases hadvance.begins hpub with ⟨hbefore, hsame⟩ | ⟨-, hset⟩
    · rw [hsame]
      exact h.publishing t hbefore
    · exact hset
  · rcases hadvance.reaches with ⟨o, hplace⟩ | hreaches
    · refine Or.inr ⟨t, o, ?_⟩
      rw [World.move_pc_self, hplace]
    · rcases h.reached with hreached | ⟨u, o, hu⟩
      · exact Or.inl (hreaches (Or.inr hreached))
      · by_cases hut : u = t
        · subst hut
          exact Or.inl (hreaches (Or.inl ⟨o, hu⟩))
        · refine Or.inr ⟨u, o, ?_⟩
          rw [World.move_pc_of_ne _ _ _ _ hut]
          exact hu

theorem ocr_sound (h : (ocrSystem τ q).Reachable w) : OcrSound q w := by
  refine threads_invariant OcrSound.start (fun w t e s' p' hr hsound hact => ?_) h
  exact hsound.step (ocrStep_advance (ocr_proposes hr t) hsound.confirmed (hsound.reads t)
    (fun stamp => hsound.enqueuing) hact)

theorem complete_negative {s : OcrDesk} {work : OcrWork} {mapping : Option ℕ}
    {output : Except Error OcrResult} {confirmed : ℕ} {first : Option FrameStamp}
    {result : Option OcrTextWatchResult} {capture : Option Error}
    {interruption again : Option Interruption}
    (heval : Evaluated q s.data work output confirmed first (.ok (false, result)))
    (hcurrent : s.data.executionCurrent work = true)
    (hopen : (s.complete work mapping output confirmed first (.ok (false, result)) capture interruption
      again).data.terminal = none) :
    (s.complete work mapping output confirmed first (.ok (false, result)) capture interruption
      again).run q = [] := by
  obtain ⟨recognized, rfl, hanswer⟩ := heval.answer false result rfl
  unfold OcrDesk.complete OcrDesk.write at hopen ⊢
  generalize OcrQueryData.refusal (s.gate.authority interruption) capture again = refusal at hopen ⊢
  cases refusal with
  | some outcome =>
    unfold OcrQueryData.complete at hopen
    rw [hcurrent] at hopen
    cases hopen
  | none =>
    unfold OcrDesk.run OcrDesk.observation
    rw [hcurrent]
    exact positives_miss hanswer.shown.symm

theorem enqueue_run {s : OcrDesk} (stamp : FrameStamp) (geometry : Except Error PixelRect)
    (now : ℕ) : (s.enqueue q stamp geometry now).1.data = s.data ∨
      (s.enqueue q stamp geometry now).1.run q = s.data.runAfter (s.run q) stamp := by
  have hignored : (s.data.enqueue q stamp geometry now).2 = .ignored →
      (s.data.enqueue q stamp geometry now).1 = s.data := by
    unfold OcrQueryData.enqueue
    split
    · exact fun _ => rfl
    · intro h
      cases geometry <;> cases h
  unfold OcrDesk.enqueue
  split
  · exact Or.inr (OcrDesk.noteEnqueued_run fun h => by cases h)
  · rename_i d enqueued _ heq
    rw [heq] at hignored
    by_cases hseen : enqueued = .ignored
    · exact Or.inl (hignored hseen)
    · exact Or.inr (OcrDesk.noteEnqueued_run hseen)

/-- A source that the last one is incompatible with, once it is the last one, leaves no run. -/
theorem enqueue_breaks {s : OcrDesk} {stamp : FrameStamp} {geometry : Except Error PixelRect} {now : ℕ}
    (hincompatible : s.data.incompatible stamp = true)
    (hsource : (s.enqueue q stamp geometry now).1.data.source = some stamp) :
    (s.enqueue q stamp geometry now).1.run q = [] := by
  rcases enqueue_run (q := q) (s := s) stamp geometry now with hdata | hrun
  · rw [hdata] at hsource
    simp [OcrQueryData.incompatible, hsource] at hincompatible
  · rw [hrun]
    unfold OcrQueryData.runAfter
    rw [if_pos hincompatible]

theorem admitPrepared_skipped {d : OcrQueryData} {work : OcrWork} {region : PixelRect}
    {mapping : Option ℕ} {unchanged : Bool} {now : ℕ}
    (h : (d.admitPrepared q work region mapping unchanged now).2 = .skipped) :
    d.terminal = none ∧ d.confirmed = 0 := by
  unfold OcrQueryData.admitPrepared at h
  split at h
  · cases h
  · rename_i hcurrent
    obtain ⟨hnone, -⟩ := OcrQueryData.executionCurrent_iff.mp (by simpa using hcurrent)
    dsimp only at h
    split at h
    · rename_i hskip
      simp only [Bool.and_eq_true, beq_iff_eq] at hskip
      exact ⟨hnone, hskip.2⟩
    · split at h <;> cases h

theorem admitPrepared_book {s : OcrDesk} (work : OcrWork) (region : PixelRect) (mapping : Option ℕ)
    (unchanged : Bool) (now : ℕ) (interruption again : Option Interruption) :
    (s.admitPrepared q work region mapping unchanged now interruption again).1.book = s.book := by
  unfold OcrDesk.admitPrepared
  split
  · rfl
  · split
    · rfl
    · split
      · rfl
      · split <;> rfl

/-- **Confirmed text.**  A match is the last of the analyses that show the text and that the history
ends in, with the satisfying positions of its regions in order, at least one, and counts them; they
are as many as required, each recognized on its own frame with a region that satisfies, of one scene
in order.  A negative analysis or an incompatible source leaves no run, and a frame is skipped only
while there is none. -/
theorem ocr_confirmation (h : (ocrSystem τ q).Reachable w) :
    (∀ r, w.shared.data.terminal = some (.matched r) →
      ((positives q w.shared.book.observations).getLast? = some ⟨r.frame, r.result⟩ ∧
        r.result.stamp = r.frame) ∧
      r.satisfyingIndexes ≠ [] ∧ r.satisfyingIndexes.Pairwise (· < ·) ∧
      (∀ i, i ∈ r.satisfyingIndexes ↔ ∃ region, r.result.regions[i]? = some region ∧
        q.minimumConfidence ≤ region.confidence ∧ q.literal.toList <:+: region.text.toList) ∧
      r.confirmedObservations = (positives q w.shared.book.observations).length ∧
      q.stability.observations ≤ r.confirmedObservations ∧
      (positives q w.shared.book.observations).head?.map OcrAnalysis.frame =
        some r.firstConfirmedFrame) ∧
    (∀ a ∈ positives q w.shared.book.observations, some a ∈ w.shared.book.observations ∧
      a.output.stamp = a.frame ∧ ∃ region ∈ a.output.regions,
        q.minimumConfidence ≤ region.confidence ∧ q.literal.toList <:+: region.text.toList) ∧
    ((positives q w.shared.book.observations).map OcrAnalysis.frame).Pairwise Continues ∧
    (w.shared.data.terminal = none →
      w.shared.data.confirmed = (positives q w.shared.book.observations).length ∧
      w.shared.data.firstConfirmed =
        (positives q w.shared.book.observations).head?.map OcrAnalysis.frame) ∧
    (∀ t w' work mapping output confirmed first result capture interruption again,
      w.pc t = .completing work mapping output confirmed first (.ok (false, result)) →
      w.shared.data.executionCurrent work = true →
      (ocrSystem τ q).step w (t, .complete capture interruption again) w' →
      w'.shared.data.terminal = none → positives q w'.shared.book.observations = []) ∧
    (∀ t w' stamp geometry now interruption, w.pc t = .enqueuing stamp →
      w.shared.data.incompatible stamp = true →
      (ocrSystem τ q).step w (t, .enqueue geometry now interruption) w' →
      w'.shared.data.source = some stamp → positives q w'.shared.book.observations = []) ∧
    ∀ t w' work region mapping unchanged now interruption again, w.pc t = .claimed work →
      (ocrSystem τ q).step w (t, .admitPrepared region mapping unchanged now interruption again) w' →
      w'.shared.book.observations = w.shared.book.observations ∧
      ((w.shared.data.admitPrepared q work region mapping unchanged now).2 = .skipped →
        positives q w.shared.book.observations = []) := by
  have hsound := ocr_sound h
  refine ⟨fun r hr => ?_, fun a ha => ?_, ?_, fun hnone => ?_, ?_, ?_, ?_⟩
  · have hcertifies := hsound.confirmed.matched r hr
    obtain ⟨hlast, hpositive⟩ := mem_positives (List.mem_of_getLast? hcertifies.analysed)
    refine ⟨⟨hcertifies.analysed, hsound.stamped _ hlast⟩, ?_, ?_, fun i => ?_, hcertifies.confirmed, ?_,
      hcertifies.first⟩
    · rw [hcertifies.satisfying, Ne, List.findIdxs_eq_nil_iff]
      exact fun hnone => absurd hpositive (by simpa [OcrAnalysis.positive] using hnone)
    · rw [hcertifies.satisfying]
      exact List.pairwise_findIdxs
    · rw [hcertifies.satisfying, List.mem_findIdxs_iff_exists_getElem_pos]
      simp [OcrQueryShared.satisfies, List.getElem?_eq_some_iff]
    · rw [hcertifies.confirmed]
      exact hcertifies.required
  · obtain ⟨hmem, hpositive⟩ := mem_positives ha
    obtain ⟨region, hregion, hsatisfies⟩ := List.any_eq_true.mp hpositive
    refine ⟨hmem, hsound.stamped a hmem, region, hregion, ?_⟩
    simpa [OcrQueryShared.satisfies] using hsatisfies
  · exact hsound.confirmed.lined.sublist (List.sublist_append_left _ _)
  · obtain ⟨hconfirmed, hfirst, -⟩ := hsound.confirmed.counted hnone
    exact ⟨hconfirmed, hfirst⟩
  · rintro t w' work mapping output confirmed first result capture interruption again hpc hcurrent
      ⟨s', p', hact, rfl⟩ hopen
    have hreads := hsound.reads t
    rw [hpc] at hact hreads
    obtain ⟨rfl, rfl⟩ := Prod.mk.inj (Option.some.inj hact)
    exact complete_negative hreads hcurrent hopen
  · rintro t w' stamp geometry now interruption hpc hincompatible ⟨s', p', hact, rfl⟩ hsource
    rw [hpc] at hact
    unfold Performs ocrStep at hact
    dsimp only at hact
    split at hact
    · obtain ⟨rfl, rfl⟩ := Prod.mk.inj (Option.some.inj hact)
      have hsame : w.shared.data.source = some stamp := hsource
      simp [OcrQueryData.incompatible, hsame] at hincompatible
    · have hleft := Option.some.inj hact
      have hbreaks : (w.shared.enqueue q stamp geometry now).1.data.source = some stamp →
          (w.shared.enqueue q stamp geometry now).1.run q = [] := enqueue_breaks hincompatible
      rw [hleft] at hbreaks
      exact hbreaks hsource
  · rintro t w' work region mapping unchanged now interruption again hpc ⟨s', p', hact, rfl⟩
    rw [hpc] at hact
    have hleft := Option.some.inj hact
    have hbook := admitPrepared_book (q := q) (s := w.shared) work region mapping unchanged now
      interruption again
    rw [hleft] at hbook
    refine ⟨congrArg OcrBook.observations hbook, fun hskip => ?_⟩
    obtain ⟨hnone, hzero⟩ := admitPrepared_skipped hskip
    obtain ⟨hconfirmed, -, -⟩ := hsound.confirmed.counted hnone
    rw [hzero] at hconfirmed
    exact List.length_eq_zero_iff.mp hconfirmed.symm

end Runs

/-! ### A run -/

def twiceOcrQuery : OcrQueryShared :=
  { plainOcrQuery with stability := ⟨.consecutive, 2, Nat.two_pos, by decide⟩ }

/-- One frame is published, claimed, prepared, recognized and done with. -/
def analysing (sequence : ℕ) (output : OcrResult) : List (Bool × OcrEvent) :=
  [(false, .callEnqueue (plainStamp sequence)), (false, .enqueue (.ok ⟨0, 0, 1, 1⟩) sequence none),
    (true, .claim (plainStamp sequence) sequence none),
    (true, .admitPrepared ⟨0, 0, 1, 1⟩ none false sequence none none),
    (true, .callComplete none (.ok output) plainAnswers), (true, .complete none none none), (true, .drop)]

def seenTwice : List (Bool × OcrEvent) :=
  analysing 1 (plainOutput 1) ++ analysing 2 { plainOutput 2 with regions := [⟨"ok", 1 / 4⟩] } ++
    analysing 3 (plainOutput 3) ++ analysing 4 (plainOutput 4)

def afterTwo : OcrWorld Bool :=
  (replay (ocrStep twiceOcrQuery) seenTwice (OcrWorld.start Bool)).get (by decide +kernel)

/-- The match of the fourth frame, whose second region shows the text. -/
def fourthMatch : OcrTextWatchResult :=
  ⟨twiceOcrQuery.target, plainStamp 4, plainOutput 4, "provider", "ok", 1 / 2,
    twiceOcrQuery.stability, 2, plainStamp 3, [1], ⟨64, 9, 2, 320⟩⟩

/-- The first sighting does not count towards the match. -/
theorem ocr_confirmation_sample :
    afterTwo.shared.data.terminal = some (.matched fourthMatch) ∧
    (positives twiceOcrQuery afterTwo.shared.book.observations).length = 2 ∧
    (positives twiceOcrQuery afterTwo.shared.book.observations).head?.map OcrAnalysis.frame =
      some (plainStamp 3) ∧
    (∀ a ∈ positives twiceOcrQuery afterTwo.shared.book.observations, ∃ region ∈ a.output.regions,
      "ok".toList <:+: region.text.toList) ∧
    ∃ region, (plainOutput 4).regions[1]? = some region ∧ "ok".toList <:+: region.text.toList := by
  have hr : (ocrSystem Bool twiceOcrQuery).Reachable afterTwo :=
    replay_reachable (Option.some_get
      (x := replay (ocrStep twiceOcrQuery) seenTwice (OcrWorld.start Bool)) (by decide +kernel)).symm
  have hmatched : afterTwo.shared.data.terminal = some (.matched fourthMatch) := by decide +kernel
  obtain ⟨hmatch, hrun, -⟩ := ocr_confirmation hr
  obtain ⟨-, -, -, hindexes, hcount, -, hfirst⟩ := hmatch fourthMatch hmatched
  obtain ⟨region, hregion, -, htext⟩ := (hindexes 1).mp (List.mem_singleton_self 1)
  refine ⟨hmatched, hcount.symm, hfirst, fun a ha => ?_, region, hregion, htext⟩
  obtain ⟨-, -, shown, hshown, -, hliteral⟩ := hrun a ha
  exact ⟨shown, hshown, hliteral⟩

end MadoPilot.Watch
