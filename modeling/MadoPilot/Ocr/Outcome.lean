import MadoPilot.Ocr.ZoneLaw

/-!
# What a recognition comes to

A recognition gives its whole result or none of it.  A success says that the sink accepted every push
and that the backend returned without an error; the result is the legible candidates in the
detector's order, for a scan those of them that are centered in some zone.  An interruption that
lasts decides the result wherever the operation still looks at its context, whatever the backend and
the sink have to report.

* `pushAnswers_accepted` : a sink without a fault has refused nothing;
* `Complete` : what a success says; `Complete.unique` : the order of the pushes does not matter;
* `recognizeInto_obeys` : an interruption that a push notices leaves a fault;
* `execute_prompt`, `scanPrepared_prompt` : the context is looked at before a failure is reported;
* `ocr_outcome` : what either way to recognize comes to.
-/

namespace MadoPilot.Ocr

open MadoPilot.Core MadoPilot.Lib

/-! ### Answers of the sink -/

/-- What the sink answers to the pushes of a backend, where nothing interrupts. -/
def pushAnswers (process : Sink → BackendCandidate → Attempted Error Sink) :
    Backend → Sink → List (Except Error PUnit)
  | .returns _, _ => []
  | .pushes c next, s =>
    match (push process s c).quiet with
    | .ok (s', answer) => answer :: pushAnswers process (next answer) s'
    | .error _ => []

theorem pushAnswers_accepted {process : Sink → BackendCandidate → Attempted Error Sink} {b : Backend}
    {s s' : Sink} {outcome : Except Error PUnit}
    (h : (recognizeInto process b s).quiet = .ok (s', outcome)) (hfault : s'.fault = none) :
    pushAnswers process b s = b.pushed.map fun _ => .ok ⟨⟩ := by
  induction b generalizing s with
  | returns o => rfl
  | pushes c next ih =>
    obtain ⟨⟨s₁, answer⟩, hpush, hrest⟩ := Guarded.quiet_bind_eq_ok h
    unfold pushAnswers
    rw [hpush]
    unfold push at hpush
    split at hpush
    · rename_i fault hsome
      obtain ⟨rfl, -⟩ := Prod.mk.inj (Except.ok.inj hpush)
      have hfaulted := recognizeInto_faulted (Option.isSome_iff_exists.mpr ⟨fault, hsome⟩)
        (Guarded.gives_quiet hrest)
      rw [hfault] at hfaulted
      cases hfaulted
    · obtain ⟨processed, -, hanswer⟩ := Guarded.quiet_bind_eq_ok hpush
      cases processed with
      | error fault =>
        obtain ⟨rfl, rfl⟩ := Prod.mk.inj (Except.ok.inj hanswer)
        have hfaulted := recognizeInto_faulted rfl (Guarded.gives_quiet hrest)
        rw [hfault] at hfaulted
        cases hfaulted
      | ok s₂ =>
        obtain ⟨rfl, rfl⟩ := Prod.mk.inj (Except.ok.inj hanswer)
        dsimp only
        rw [ih _ hrest]
        rfl

/-! ### Successes -/

/-- What a success says: the backend returned without an error, the sink accepted each of its pushes,
at most as many as there may be, and the regions are those that a test picks among the legible
candidates, which have different orders, in the detector's order. -/
structure Complete (r : Recognition) (process : Sink → BackendCandidate → Attempted Error Sink)
    (b : Backend) (test : BackendCandidate → Bool) (regions : List RecognizedRegion) : Prop where
  outcome : b.outcome = .ok ⟨⟩
  accepted : pushAnswers process b .new = b.pushed.map fun _ => .ok ⟨⟩
  count : b.pushed.length ≤ maxCandidates
  regions : ∃ ordered : List BackendCandidate, ordered.Perm b.pushed ∧
    ordered.Pairwise (fun a b => a.detectorOrder < b.detectorOrder) ∧
    (r.members ordered test).mapM r.read = .ok regions

theorem ordered_unique {l l' : List BackendCandidate} (hperm : l.Perm l')
    (h : l.Pairwise fun a b => a.detectorOrder < b.detectorOrder)
    (h' : l'.Pairwise fun a b => a.detectorOrder < b.detectorOrder) : l = l' :=
  hperm.eq_of_pairwise (fun _ _ _ _ hab hba => absurd hab (UInt32.lt_asymm hba)) h h'

theorem Complete.unique {r : Recognition}
    {process process' : Sink → BackendCandidate → Attempted Error Sink} {b b' : Backend}
    {test : BackendCandidate → Bool} {regions regions' : List RecognizedRegion}
    (h : Complete r process b test regions) (h' : Complete r process' b' test regions')
    (hperm : b'.pushed.Perm b.pushed) : regions' = regions := by
  obtain ⟨ordered, hordered, hascending, hregions⟩ := h.regions
  obtain ⟨ordered', hordered', hascending', hregions'⟩ := h'.regions
  have hsame : ordered' = ordered :=
    ordered_unique (hordered'.trans (hperm.trans hordered.symm)) hascending' hascending
  rw [hsame, hregions] at hregions'
  exact (Except.ok.inj hregions').symm

section Picked

variable {r : Recognition} {interests : BackendInterests}
  {entry : BackendCandidate → Except Error NormalizedCandidate} {c : BackendCandidate}
  {e : NormalizedCandidate}

theorem mapM_picked {test : BackendCandidate → Bool}
    (hentry : ∀ c e, entry c = .ok e → ∃ region, r.read c = .ok region ∧
      e.region = if (r.legible c && test c) = true then some region else none)
    {ordered : List BackendCandidate} {entries : List NormalizedCandidate}
    (h : List.Forall₂ (fun c e => entry c = .ok e) ordered entries) :
    (r.members ordered test).mapM r.read = .ok (entries.filterMap NormalizedCandidate.region) := by
  rw [mapM_eq_ok]
  unfold Recognition.members
  induction h with
  | nil => exact .nil
  | @cons c e l entries hce _ ih =>
    obtain ⟨region, hread, hregion⟩ := hentry c e hce
    by_cases hpick : (r.legible c && test c) = true
    · rw [if_pos hpick] at hregion
      rw [List.filter_cons_of_pos (p := fun c => r.legible c && test c) hpick, List.filterMap_cons_some hregion]
      exact .cons hread ih
    · rw [if_neg hpick] at hregion
      rw [List.filter_cons_of_neg (p := fun c => r.legible c && test c) hpick, List.filterMap_cons_none hregion]
      exact ih

theorem entry_picked (h : r.entry c = .ok e) : ∃ region, r.read c = .ok region ∧
    e.region = if (r.legible c && true) = true then some region else none := by
  obtain ⟨region, hread, h⟩ := bind_eq_ok.mp h
  obtain rfl := Except.ok.inj h
  refine ⟨region, hread, ?_⟩
  rw [Bool.and_true]
  by_cases htext : region.text = []
  · have hnot : ¬r.legible c = true := fun hlegible => (legible_iff hread).mp hlegible htext
    rw [if_neg hnot]
    exact if_pos htext
  · rw [if_pos ((legible_iff hread).mpr htext)]
    exact if_neg htext

theorem groupedEntry_picked {test : BackendCandidate → Bool}
    (htest : ∀ c e, r.groupedEntry interests c = .ok e → decide (e.membership ≠ 0#16) = test c)
    (h : r.groupedEntry interests c = .ok e) : ∃ region, r.read c = .ok region ∧
      e.region = if (r.legible c && test c) = true then some region else none := by
  obtain ⟨q, region, -, hread, -, hregion⟩ := groupedEntry_eq_ok h
  refine ⟨region, hread, ?_⟩
  have hpick : (r.legible c && test c) = true ↔ ¬(e.membership = 0#16 ∨ region.text = []) := by
    rw [← htest c e h, Bool.and_eq_true, legible_iff hread, decide_eq_true_iff]
    tauto
  rw [hregion]
  by_cases hnone : e.membership = 0#16 ∨ region.text = []
  · rw [if_pos hnone, if_neg fun h => hpick.mp h hnone]
  · rw [if_neg hnone, if_pos (hpick.mpr hnone)]

theorem complete_of_sink {process : Sink → BackendCandidate → Attempted Error Sink} {b : Backend}
    {test : BackendCandidate → Bool} {sink : Sink} (hkeeps : Keeps process entry)
    (horders : Orders entry)
    (hentry : ∀ c e, entry c = .ok e → ∃ region, r.read c = .ok region ∧
      e.region = if (r.legible c && test c) = true then some region else none)
    (hsink : (recognizeInto process b .new).quiet = .ok (sink, .ok ⟨⟩)) (hfault : sink.fault = none)
    (hduplicate : hasDuplicate sink.sorted = false) :
    Complete r process b test (sink.sorted.filterMap NormalizedCandidate.region) := by
  have hgives := Guarded.gives_quiet hsink
  obtain ⟨houtcome, hcount, -⟩ := recognizeInto_gives hkeeps hgives hfault
  obtain ⟨ordered, hperm, hascending, hsorted⟩ := sink_entries hkeeps horders hgives hfault hduplicate
  refine ⟨houtcome.symm, pushAnswers_accepted hsink hfault, ?_, ordered, hperm, hascending,
    mapM_picked hentry hsorted⟩
  by_cases hempty : b.pushed = []
  · rw [hempty]
    exact Nat.zero_le _
  · have hroom := hcount hempty
    rw [show Sink.new.submitted = 0 from rfl, Nat.zero_add] at hroom
    exact hroom

end Picked

/-! ### Interruptions of a sink -/

section Interruptions

variable {process : Sink → BackendCandidate → Attempted Error Sink} {reports : Error → Prop}
  {r : Recognition} {interests : BackendInterests} {op : Operation} {sink : Sink} {α : Type}

theorem process_obeys (s : Sink) (c : BackendCandidate) :
    (Ocr.process r s c).Obeys Interrupts := by
  refine (Guarded.Obeys.check toError_interrupts).bind fun _ => .ite (.fail _) ?_
  refine (Guarded.Obeys.lift _).bind fun _ => (Guarded.Obeys.lift _).bind fun _ => ?_
  exact (normalizeBackend_obeys _ _).bind fun _ => .pure _

theorem processGrouped_obeys (s : Sink) (c : BackendCandidate) :
    (processGrouped r interests s c).Obeys Interrupts := by
  refine (Guarded.Obeys.check toError_interrupts).bind fun _ => .ite (.fail _) ?_
  refine (Guarded.Obeys.lift _).bind fun _ => (Guarded.Obeys.lift _).bind fun _ => ?_
  refine (Guarded.Obeys.lift _).bind fun _ => ?_
  exact (normalizeBackend_obeys _ _).bind fun _ => .pure _

theorem recognizeInto_ends {b : Backend} {s : Sink} (hfault : s.fault.isSome = true) :
    (recognizeInto process b s).Ends reports fun r => r.1.fault.isSome = true := by
  induction b with
  | returns o => exact .ok hfault
  | pushes c next ih =>
    obtain ⟨fault, hsome⟩ := Option.isSome_iff_exists.mp hfault
    unfold recognizeInto push
    rw [hsome]
    exact ih _

theorem recognizeInto_obeys (hprocess : ∀ s c, (process s c).Obeys Interrupts) (b : Backend)
    (s : Sink) :
    (recognizeInto process b s).ObeysInto reports fun r => r.1.fault.isSome = true := by
  induction b generalizing s with
  | returns o => exact .done _
  | pushes c next ih =>
    have hpush : (push process s c).ObeysInto reports fun r => r.1.fault.isSome = true := by
      unfold push
      split
      · exact .done _
      · refine (hprocess s c).caught.bind (P := fun r => ∃ e, r = .error e) (fun outcome => ?_) ?_
        · cases outcome with
          | ok s' => exact .done _
          | error fault => exact .done _
        · rintro outcome ⟨fault, rfl⟩
          exact .ok rfl
    exact hpush.bind (fun r => ih _ _) fun r hr => recognizeInto_ends hr

theorem recognizeInto_total (b : Backend) (s : Sink) : (recognizeInto process b s).Total := by
  induction b generalizing s with
  | returns o => exact .done _
  | pushes c next ih =>
    refine Guarded.Total.bind ?_ fun r => ih _ _
    unfold push
    split
    · exact .done _
    · refine (Guarded.Total.caught _).bind fun outcome => ?_
      cases outcome with
      | ok s' => exact .done _
      | error fault => exact .done _

theorem settle_refused {outcome : Except Error PUnit} {β : Type} {settle : Attempted Error β}
    {f : β → Attempted Error α} (h : (settle >>= f).Refused fun _ => True) :
    (op.check Interruption.toError >>= fun _ =>
      (Guarded.lift outcome : Attempted Error PUnit) >>= fun _ => settle >>= f).Refused
        fun _ => True := by
  refine (Operation.check_ends fun _ => trivial).refused fun _ _ => ?_
  cases outcome with
  | error e => exact .done trivial
  | ok u => exact h

end Interruptions

/-! ### One region -/

section Regions

variable {call : OcrCall} {region : PixelRect} {regions : List RecognizedRegion}

theorem check_held {op : Operation} {α : Type} {f : PUnit → Attempted Error α} :
    (op.check Interruption.toError >>= f).Held Interrupts := by
  unfold Operation.check
  split
  · exact .done (toError_interrupts _)
  · exact .ask fun i => .done (toError_interrupts i)

theorem admitted_held {α : Type} {f : Operation → Attempted Error α} :
    (Operation.admitted Interruption.toError >>= f).Held Interrupts :=
  .ask fun i => .done (toError_interrupts i)

theorem execute_obeys : (call.execute region).Obeys fun _ => True := by
  unfold OcrCall.execute
  refine (Operation.admitted_obeys fun _ => trivial).bind fun op => ?_
  refine (recognizeInto_obeys process_obeys _ _).obeys (fun r => ?_) fun r hfault => ?_
  · refine (Operation.check_obeys fun _ => trivial).bind fun _ => (Guarded.Obeys.lift _).bind fun _ => ?_
    refine (Operation.check_obeys fun _ => trivial).bind fun _ => (Guarded.Obeys.lift _).bind fun _ => ?_
    exact Operation.committed_obeys fun _ => trivial
  · refine settle_refused ?_
    refine (Operation.check_ends fun _ => trivial).refused fun _ _ => ?_
    obtain ⟨fault, hsome⟩ := Option.isSome_iff_exists.mp hfault
    unfold Sink.finish
    rw [hsome]
    exact .done trivial

theorem execute_prompt : (call.execute region).Prompt Interrupts := by
  unfold OcrCall.execute
  refine (Operation.admitted_obeys toError_interrupts).then_prompt fun op => ?_
  refine (recognizeInto_total _ _).prompt (fun r => check_held) fun r => Guarded.Obeys.prompt ?_
  refine check_obeys.bind fun _ => (Guarded.Obeys.lift _).bind fun _ => ?_
  refine check_obeys.bind fun _ => (Guarded.Obeys.lift _).bind fun _ => ?_
  exact Operation.committed_obeys toError_interrupts

theorem finish_eq_ok {s : Sink} (h : s.finish = .ok regions) : s.fault = none ∧
    hasDuplicate s.sorted = false ∧ regions = s.sorted.filterMap NormalizedCandidate.region := by
  unfold Sink.finish at h
  split at h
  · cases h
  · rename_i hfault
    split at h
    · cases h
    · rename_i hduplicate
      exact ⟨hfault, Bool.eq_false_iff.mpr hduplicate, (Except.ok.inj h).symm⟩

theorem execute_complete (h : (call.execute region).quiet = .ok regions) :
    Complete (call.recognition region) (process (call.recognition region)) call.backend
      (fun _ => true) regions := by
  unfold OcrCall.execute at h
  obtain ⟨op, -, h⟩ := Guarded.quiet_bind_eq_ok h
  obtain ⟨⟨sink, outcome⟩, hsink, h⟩ := Guarded.quiet_bind_eq_ok h
  obtain ⟨_, -, h⟩ := Guarded.quiet_bind_eq_ok h
  obtain ⟨_, houtcome, h⟩ := Guarded.quiet_bind_eq_ok h
  obtain ⟨_, -, h⟩ := Guarded.quiet_bind_eq_ok h
  obtain ⟨regions', hfinish, h⟩ := Guarded.quiet_bind_eq_ok h
  obtain rfl := committed_gives (Guarded.gives_quiet h)
  rw [Guarded.quiet_lift] at houtcome hfinish
  obtain rfl : outcome = .ok ⟨⟩ := houtcome
  obtain ⟨hfault, hduplicate, rfl⟩ := finish_eq_ok hfinish
  exact complete_of_sink process_keeps entry_orders (fun c e => entry_picked) hsink hfault hduplicate

theorem prepare_region {selection : OcrRegion} (h : (call.prepare selection).Gives region) :
    resolveRegion call.transform selection = .ok region := by
  unfold OcrCall.prepare at h
  obtain ⟨op, -, h⟩ := Guarded.gives_bind h
  obtain ⟨_, -, h⟩ := Guarded.gives_bind h
  obtain ⟨region', hregion, h⟩ := Guarded.gives_bind h
  obtain ⟨_, -, h⟩ := Guarded.gives_bind h
  obtain ⟨_, -, h⟩ := Guarded.gives_bind h
  obtain ⟨_, -, h⟩ := Guarded.gives_bind h
  obtain rfl := Guarded.gives_pure h
  exact mapError_eq_ok.mp (Guarded.gives_lift hregion)

theorem recognize_complete {selection : OcrRegion} (h : (call.recognize selection).Gives regions) :
    ∃ region, resolveRegion call.transform selection = .ok region ∧
      Complete (call.recognition region) (process (call.recognition region)) call.backend
        (fun _ => true) regions := by
  unfold OcrCall.recognize at h
  obtain ⟨region, hprepare, h⟩ := Guarded.gives_bind h
  exact ⟨region, prepare_region hprepare, execute_complete (execute_obeys.gives h)⟩

end Regions

/-! ### Zones -/

namespace OcrCall

variable (call : OcrCall)

def prepareZones (zones : List OcrZone) : Attempted Error (Operation × ResolvedZones × BackendInterests) :=
  if 1 ≤ zones.length ∧ zones.length ≤ maxOcrZones then do
    let op ← Operation.admitted Interruption.toError
    let _ ← .lift call.selection
    let resolved ← .lift (resolveZones call.transform zones)
    let _ ← .lift (preflightOutput call.transform resolved.envelope call.outputSpace)
    let _ ← call.map resolved.envelope
    op.check Interruption.toError
    let interests ← .lift ((BackendInterests.new resolved.relative).mapError OcrFault.toError)
    pure (op, resolved, interests)
  else .fail OcrFault.zoneCountOutOfRange.toError

/-- What it does from there. -/
def scanPrepared (prepared : Operation × ResolvedZones × BackendInterests) :
    Attempted Error OcrZoneScanResult := do
  let (op, resolved, interests) := prepared
  let (sink, outcome) ← recognizeInto
    (processGrouped (call.recognition resolved.envelope) interests) call.backend .new
  op.check Interruption.toError
  let _ ← .lift outcome
  let groupedOutcome ← (sink.finishGrouped interests).caught
  op.check Interruption.toError
  let grouped ← .lift groupedOutcome
  op.committed Interruption.toError
    { sourceEnvelope := resolved.envelope
      effectiveZones := resolved.effective
      outputSpace := call.outputSpace
      candidates := grouped.candidates
      membershipIndexes := grouped.membershipIndexes
      groupOffsets := grouped.groupOffsets }

theorem scanZones_eq (zones : List OcrZone) :
    call.scanZones zones = call.prepareZones zones >>= call.scanPrepared := by
  unfold scanZones prepareZones
  split
  · simp only [Guarded.bind_assoc]
    rfl
  · rfl

end OcrCall

section Zones

variable {call : OcrCall} {prepared : Operation × ResolvedZones × BackendInterests}
  {result : OcrZoneScanResult}

theorem finishGrouped_obeys {sink : Sink} {interests : BackendInterests} :
    (sink.finishGrouped interests).Obeys fun _ => True := by
  unfold Sink.finishGrouped
  split
  · exact .fail _
  · refine (Guarded.Obeys.check fun _ => trivial).bind fun _ => .ite (.fail _) (.ite (.fail _) ?_)
    refine (Guarded.Obeys.foldlM (fun laid group => ?_) _ _).bind fun laid => ?_
    · refine (Guarded.Obeys.check fun _ => trivial).bind fun _ => (Guarded.Obeys.lift _).bind fun _ => ?_
      exact (Guarded.Obeys.lift _).bind fun _ => .pure _
    · exact (Guarded.Obeys.lift _).bind fun _ => .pure _

theorem scanPrepared_obeys : (call.scanPrepared prepared).Obeys fun _ => True := by
  unfold OcrCall.scanPrepared
  refine (recognizeInto_obeys processGrouped_obeys _ _).obeys (fun r => ?_) fun r hfault => ?_
  · refine (Operation.check_obeys fun _ => trivial).bind fun _ => (Guarded.Obeys.lift _).bind fun _ => ?_
    refine finishGrouped_obeys.caught.obeys (P := fun r => ∃ e, r = .error e) (fun r => ?_) ?_
    · refine (Operation.check_obeys fun _ => trivial).bind fun _ => (Guarded.Obeys.lift _).bind fun _ => ?_
      exact Operation.committed_obeys fun _ => trivial
    · rintro r ⟨e, rfl⟩
      exact (Operation.check_ends fun _ => trivial).refused fun _ _ => .done trivial
  · refine settle_refused ?_
    obtain ⟨fault, hsome⟩ := Option.isSome_iff_exists.mp hfault
    unfold Sink.finishGrouped
    rw [hsome]
    exact (Operation.check_ends fun _ => trivial).refused fun _ _ => .done trivial

theorem scanPrepared_held : (call.scanPrepared prepared).Held Interrupts := by
  unfold OcrCall.scanPrepared
  exact (recognizeInto_total _ _).held fun r => check_held

theorem scanPrepared_prompt : (call.scanPrepared prepared).Prompt Interrupts := by
  unfold OcrCall.scanPrepared
  refine (recognizeInto_total _ _).prompt (fun r => check_held) fun r => ?_
  refine check_obeys.then_prompt fun _ => (Guarded.Obeys.lift _).then_prompt fun _ => ?_
  refine (Guarded.Total.caught _).prompt (fun _ => check_held) fun _ => Guarded.Obeys.prompt ?_
  refine check_obeys.bind fun _ => (Guarded.Obeys.lift _).bind fun _ => ?_
  exact Operation.committed_obeys toError_interrupts

theorem prepareZones_gives {zones : List OcrZone} (h : (call.prepareZones zones).Gives prepared) :
    prepared.1 = ⟨none⟩ ∧ resolveZones call.transform zones = .ok prepared.2.1 ∧
      prepared.2.2.zones = prepared.2.1.relative := by
  unfold OcrCall.prepareZones at h
  split at h
  · obtain ⟨op, hop, h⟩ := Guarded.gives_bind h
    obtain ⟨_, -, h⟩ := Guarded.gives_bind h
    obtain ⟨resolved, hresolved, h⟩ := Guarded.gives_bind h
    obtain ⟨_, -, h⟩ := Guarded.gives_bind h
    obtain ⟨_, -, h⟩ := Guarded.gives_bind h
    obtain ⟨_, -, h⟩ := Guarded.gives_bind h
    obtain ⟨interests, hinterests, h⟩ := Guarded.gives_bind h
    obtain rfl := Guarded.gives_pure h
    refine ⟨Operation.admitted_gives hop, Guarded.gives_lift hresolved, ?_⟩
    have hnew := mapError_eq_ok.mp (Guarded.gives_lift hinterests)
    unfold BackendInterests.new at hnew
    split at hnew
    · rw [← Except.ok.inj hnew]
    · cases hnew
  · exact (Guarded.not_gives_fail h).elim

theorem scanPrepared_gives (h : (call.scanPrepared prepared).Gives result) :
    ∃ (sink : Sink) (grouped : GroupedNormalization),
      (recognizeInto (processGrouped (call.recognition prepared.2.1.envelope) prepared.2.2)
        call.backend .new).quiet = .ok (sink, .ok ⟨⟩) ∧
      (sink.finishGrouped prepared.2.2).quiet = .ok grouped ∧
      result = ⟨prepared.2.1.envelope, prepared.2.1.effective, call.outputSpace, grouped.candidates,
        grouped.membershipIndexes, grouped.groupOffsets⟩ := by
  have hquiet := scanPrepared_obeys.gives h
  unfold OcrCall.scanPrepared at hquiet
  obtain ⟨⟨sink, outcome⟩, hsink, h⟩ := Guarded.quiet_bind_eq_ok hquiet
  obtain ⟨_, -, h⟩ := Guarded.quiet_bind_eq_ok h
  obtain ⟨_, houtcome, h⟩ := Guarded.quiet_bind_eq_ok h
  obtain ⟨groupedOutcome, hgrouped, h⟩ := Guarded.quiet_bind_eq_ok h
  obtain ⟨_, -, h⟩ := Guarded.quiet_bind_eq_ok h
  obtain ⟨grouped, hok, h⟩ := Guarded.quiet_bind_eq_ok h
  obtain rfl := committed_gives (Guarded.gives_quiet h)
  rw [Guarded.quiet_lift] at houtcome hok
  obtain rfl : outcome = .ok ⟨⟩ := houtcome
  rw [Guarded.quiet_caught] at hgrouped
  exact ⟨sink, grouped, hsink, (Except.ok.inj hgrouped).trans hok, rfl⟩

theorem scanPrepared_complete {zones : List OcrZone}
    (hfits : prepared.2.1.Fits call.transform zones)
    (hinterests : prepared.2.2.zones = prepared.2.1.relative)
    (h : (call.scanPrepared prepared).Gives result) :
    Complete (call.recognition result.sourceEnvelope)
      (processGrouped (call.recognition result.sourceEnvelope) prepared.2.2) call.backend
      (fun c => result.effectiveZones.any fun zone => centered result.sourceEnvelope zone c)
      result.candidates := by
  obtain ⟨sink, grouped, hsink, hfinish, rfl⟩ := scanPrepared_gives h
  obtain ⟨hfault, hduplicate, hgrouped⟩ := finishGrouped_gives (Guarded.gives_quiet hfinish)
  have hcandidates : grouped.candidates = sink.sorted.filterMap NormalizedCandidate.region := by
    rw [hgrouped.candidates]
    unfold Sink.kept
    rw [List.filterMap_filter]
    refine List.filterMap_congr fun e _ => ?_
    cases hregion : e.region with
    | none => rfl
    | some region => rfl
  dsimp only
  rw [hcandidates]
  refine complete_of_sink processGrouped_keeps groupedEntry_orders (fun c e => ?_) hsink hfault hduplicate
  exact groupedEntry_picked fun c e hce => member_iff_centered hfits hinterests hce

theorem sorted_unique {process process' : Sink → BackendCandidate → Attempted Error Sink}
    {entry : BackendCandidate → Except Error NormalizedCandidate} {b b' : Backend} {s s' : Sink}
    {outcome outcome' : Except Error PUnit} (hkeeps : Keeps process entry)
    (hkeeps' : Keeps process' entry) (horders : Orders entry)
    (hsink : (recognizeInto process b .new).Gives (s, outcome)) (hfault : s.fault = none)
    (hduplicate : hasDuplicate s.sorted = false)
    (hsink' : (recognizeInto process' b' .new).Gives (s', outcome')) (hfault' : s'.fault = none)
    (hduplicate' : hasDuplicate s'.sorted = false) (hperm : b'.pushed.Perm b.pushed) :
    s'.sorted = s.sorted := by
  obtain ⟨ordered, hordered, hascending, hsorted⟩ := sink_entries hkeeps horders hsink hfault hduplicate
  obtain ⟨ordered', hordered', hascending', hsorted'⟩ :=
    sink_entries hkeeps' horders hsink' hfault' hduplicate'
  have hsame : ordered' = ordered :=
    ordered_unique (hordered'.trans (hperm.trans hordered.symm)) hascending' hascending
  rw [hsame] at hsorted'
  refine List.right_unique_forall₂' (fun c e e' he he' => ?_) hsorted' hsorted
  rw [he] at he'
  exact Except.ok.inj he'

theorem finishGrouped_congr {s s' : Sink} (hfault : s'.fault = s.fault) (hsorted : s'.sorted = s.sorted)
    (interests : BackendInterests) : s'.finishGrouped interests = s.finishGrouped interests := by
  unfold Sink.finishGrouped
  rw [hfault, hsorted]

theorem scanPrepared_unique {backend : Backend} {result' : OcrZoneScanResult}
    (h : (call.scanPrepared prepared).Gives result)
    (h' : (({ call with backend := backend } : OcrCall).scanPrepared prepared).Gives result')
    (hperm : backend.pushed.Perm call.backend.pushed) : result' = result := by
  obtain ⟨sink, grouped, hsink, hfinish, rfl⟩ := scanPrepared_gives h
  obtain ⟨sink', grouped', hsink', hfinish', rfl⟩ := scanPrepared_gives h'
  obtain ⟨hfault, hduplicate, -⟩ := finishGrouped_gives (Guarded.gives_quiet hfinish)
  obtain ⟨hfault', hduplicate', -⟩ := finishGrouped_gives (Guarded.gives_quiet hfinish')
  have hsorted := sorted_unique processGrouped_keeps processGrouped_keeps groupedEntry_orders
    (Guarded.gives_quiet hsink) hfault hduplicate (Guarded.gives_quiet hsink') hfault' hduplicate' hperm
  rw [finishGrouped_congr (hfault'.trans hfault.symm) hsorted, hfinish] at hfinish'
  obtain rfl := Except.ok.inj hfinish'
  rfl

theorem prepareZones_unique {zones : List OcrZone} {backend : Backend}
    {prepared' : Operation × ResolvedZones × BackendInterests}
    (h : (call.prepareZones zones).Gives prepared)
    (h' : (({ call with backend := backend } : OcrCall).prepareZones zones).Gives prepared') :
    prepared' = prepared := by
  obtain ⟨hop, hresolved, hinterests⟩ := prepareZones_gives h
  obtain ⟨hop', hresolved', hinterests'⟩ := prepareZones_gives h'
  obtain ⟨op, resolved, ⟨zones₁, _⟩⟩ := prepared
  obtain ⟨op', resolved', ⟨zones₂, _⟩⟩ := prepared'
  obtain rfl : op' = op := hop'.trans hop.symm
  obtain rfl : resolved' = resolved := Except.ok.inj (hresolved'.symm.trans hresolved)
  obtain rfl : zones₂ = zones₁ := hinterests'.trans hinterests.symm
  rfl

end Zones

/-! ### Outcomes -/

section Outcomes

variable {call : OcrCall} {answers : ℕ → Option Interruption}

theorem interrupted_result {α β : Type} {p : Attempted Error α} {f : α → Attempted Error β}
    (hheld : ∀ a, (f a).Held Interrupts) (hprompt : ∀ a, (f a).Prompt Interrupts)
    (hlasts : Guarded.Lasts answers) :
    (∀ b, (p >>= f).run answers = .ok b → ∀ n < (p >>= f).asked answers, answers n = none) ∧
      ∀ n < (p >>= f).asked answers, answers n ≠ none →
        ∃ e, (p >>= f).run answers = .error e ∧ (Interrupts e ∨ p.run answers = .error e) := by
  have hafter : ∀ n < (p >>= f).asked answers, answers n ≠ none →
      ∃ e, (p >>= f).run answers = .error e ∧ (Interrupts e ∨ p.run answers = .error e) :=
    fun n hn hi => Guarded.run_after hheld hprompt hlasts hn hi
  refine ⟨fun b hrun n hn => ?_, hafter⟩
  by_contra hi
  obtain ⟨e, herror, -⟩ := hafter n hn hi
  rw [hrun] at herror
  cases herror

/-- **What a recognition comes to.**  Whatever the backend does with its sink: a recognition and a scan
that succeed had each push accepted, the backend returned without an error, there were no more
candidates than there may be and no two of one order, and the result is the candidates with text, for
a scan those of them centered in some zone, in the detector's order; pushes in another order come to
the same.  An interruption that lasts lets neither succeed once they ask, and is reported before what
the backend and the sink have to report. -/
theorem ocr_outcome (call : OcrCall) (answers : ℕ → Option Interruption) :
    (∀ selection regions, (call.recognize selection).run answers = .ok regions →
      ∃ region, resolveRegion call.transform selection = .ok region ∧
        Complete (call.recognition region) (process (call.recognition region)) call.backend
          (fun _ => true) regions) ∧
    (∀ zones result, (call.scanZones zones).run answers = .ok result →
      zones.mapM (resolveZone call.transform) = .ok result.effectiveZones ∧
      ∃ interests, Complete (call.recognition result.sourceEnvelope)
        (processGrouped (call.recognition result.sourceEnvelope) interests) call.backend
        (fun c => result.effectiveZones.any fun zone => centered result.sourceEnvelope zone c)
        result.candidates) ∧
    (∀ (backend : Backend) (answers' : ℕ → Option Interruption),
      backend.pushed.Perm call.backend.pushed →
      (∀ selection regions regions', (call.recognize selection).run answers = .ok regions →
        (({ call with backend := backend } : OcrCall).recognize selection).run answers' = .ok regions' →
        regions' = regions) ∧
      ∀ zones result result', (call.scanZones zones).run answers = .ok result →
        (({ call with backend := backend } : OcrCall).scanZones zones).run answers' = .ok result' →
        result' = result) ∧
    (Guarded.Lasts answers →
      (∀ selection,
        (∀ regions, (call.recognize selection).run answers = .ok regions →
          ∀ n < (call.recognize selection).asked answers, answers n = none) ∧
        ∀ n < (call.recognize selection).asked answers, answers n ≠ none →
          ∃ e, (call.recognize selection).run answers = .error e ∧
            (Interrupts e ∨ (call.prepare selection).run answers = .error e)) ∧
      ∀ zones,
        (∀ result, (call.scanZones zones).run answers = .ok result →
          ∀ n < (call.scanZones zones).asked answers, answers n = none) ∧
        ∀ n < (call.scanZones zones).asked answers, answers n ≠ none →
          ∃ e, (call.scanZones zones).run answers = .error e ∧
            (Interrupts e ∨ (call.prepareZones zones).run answers = .error e)) := by
  refine ⟨fun selection regions h => recognize_complete ⟨answers, h⟩, fun zones result h => ?_,
    fun backend answers' hperm => ⟨fun selection regions regions' h h' => ?_,
      fun zones result result' h h' => ?_⟩, fun hlasts => ⟨fun selection => ?_, fun zones => ?_⟩⟩
  · rw [OcrCall.scanZones_eq] at h
    obtain ⟨prepared, hprepared, hscan⟩ := Guarded.gives_bind ⟨answers, h⟩
    obtain ⟨-, hresolved, hinterests⟩ := prepareZones_gives hprepared
    have hfits := resolveZones_fits hresolved
    refine ⟨?_, prepared.2.2, scanPrepared_complete hfits hinterests hscan⟩
    obtain ⟨sink, grouped, -, -, rfl⟩ := scanPrepared_gives hscan
    exact hfits.effective
  · obtain ⟨region, hregion, hcomplete⟩ := recognize_complete ⟨answers, h⟩
    obtain ⟨region', hregion', hcomplete'⟩ := recognize_complete ⟨answers', h'⟩
    obtain rfl : region' = region := Except.ok.inj (hregion'.symm.trans hregion)
    exact hcomplete.unique hcomplete' hperm
  · rw [OcrCall.scanZones_eq] at h h'
    obtain ⟨prepared, hprepared, hscan⟩ := Guarded.gives_bind ⟨answers, h⟩
    obtain ⟨prepared', hprepared', hscan'⟩ := Guarded.gives_bind ⟨answers', h'⟩
    obtain rfl := prepareZones_unique hprepared hprepared'
    exact scanPrepared_unique hscan hscan' hperm
  · exact interrupted_result (fun region => admitted_held) (fun region => execute_prompt) hlasts
  · rw [OcrCall.scanZones_eq]
    exact interrupted_result (fun prepared => scanPrepared_held) (fun prepared => scanPrepared_prompt) hlasts

end Outcomes

/-! ### One recognition -/

section Sample

def sampleWhole : PixelRect := ⟨0, 0, 20, 10, by decide, by decide⟩

def sampleWholeSink : Sink :=
  ⟨3, [⟨7, 0#16, some (sampleRegion 'b' 3)⟩, ⟨5, 0#16, none⟩, ⟨2, 0#16, some (sampleRegion 'a' 1)⟩], none⟩

theorem sample_finish :
    sampleWholeSink.finish = .ok [sampleRegion 'a' 1, sampleRegion 'b' 3] := by
  have hsorted : sampleWholeSink.sorted = sampleWholeSink.candidates.reverse :=
    sortBy_eq (List.reverse_perm _) (by decide)
  unfold Sink.finish
  rw [hsorted]
  rfl

theorem sample_recognize : (sampleCall.recognize .fullFrame).run (fun _ => none) =
    .ok [sampleRegion 'a' 1, sampleRegion 'b' 3] := by
  have hregion : (resolveRegion sampleCall.transform .fullFrame).mapError GeometryFault.toError =
      .ok sampleWhole := by decide +kernel
  have houtput : preflightOutput sampleCall.transform sampleWhole .capturePixels = .ok ⟨⟩ := by
    decide +kernel
  have hsink : (recognizeInto (process (sampleCall.recognition sampleWhole)) sampleCall.backend
      .new).quiet = .ok (sampleWholeSink, .ok ⟨⟩) := by decide +kernel
  rw [Guarded.run_eq_quiet fun _ _ => rfl]
  unfold OcrCall.recognize OcrCall.prepare OcrCall.execute
  rw [Guarded.quiet_bind_ok (a := sampleWhole)]
  · refine (Guarded.quiet_bind_ok rfl _).trans ?_
    refine (Guarded.quiet_bind_ok hsink _).trans ?_
    refine (Guarded.quiet_bind_ok rfl _).trans ?_
    refine (Guarded.quiet_bind_ok rfl _).trans ?_
    refine (Guarded.quiet_bind_ok rfl _).trans ?_
    exact Guarded.quiet_bind_ok ((Guarded.quiet_lift _).trans sample_finish) _
  · refine (Guarded.quiet_bind_ok rfl _).trans ?_
    refine (Guarded.quiet_bind_ok rfl _).trans ?_
    refine (Guarded.quiet_bind_ok ((Guarded.quiet_lift _).trans hregion) _).trans ?_
    exact Guarded.quiet_bind_ok ((Guarded.quiet_lift _).trans houtput) _

/-- The squares of `a` and `b` in the frame are read where nothing interrupts, whatever pushes the same
candidates scans to the same, and an operation that is cancelled from the start says so. -/
theorem ocr_outcome_sample :
    Complete (sampleCall.recognition sampleWhole) (process (sampleCall.recognition sampleWhole))
        sampleCall.backend (fun _ => true) [sampleRegion 'a' 1, sampleRegion 'b' 3] ∧
      (∃ interests, Complete (sampleCall.recognition sampleEnvelope)
        (processGrouped (sampleCall.recognition sampleEnvelope) interests) sampleCall.backend
        (fun c => sampleEffective.any fun zone => centered sampleEnvelope zone c)
        sampleResult.candidates) ∧
      (∀ backend result, backend.pushed.Perm sampleCall.backend.pushed →
        (({ sampleCall with backend := backend } : OcrCall).scanZones sampleZones).run (fun _ => none) =
          .ok result → result = sampleResult) ∧
      ∃ e, (sampleCall.scanZones sampleZones).run (fun _ => some .cancelled) = .error e ∧
        (Interrupts e ∨ (sampleCall.prepareZones sampleZones).run (fun _ => some .cancelled) = .error e) := by
  obtain ⟨hrecognize, hscan, hunique, -⟩ := ocr_outcome sampleCall fun _ => none
  have hlasts : Guarded.Lasts fun _ => some Interruption.cancelled := by
    intro k m _ _
    exact Option.some_ne_none _
  obtain ⟨region, hregion, hcomplete⟩ := hrecognize .fullFrame _ sample_recognize
  have hwhole : resolveRegion sampleCall.transform .fullFrame = .ok sampleWhole := by decide +kernel
  obtain rfl : region = sampleWhole := Except.ok.inj (hregion.symm.trans hwhole)
  have hasked : 0 < (sampleCall.scanZones sampleZones).asked fun _ => some .cancelled := by
    unfold OcrCall.scanZones
    rw [if_pos (by decide)]
    exact Nat.succ_pos _
  refine ⟨hcomplete, (hscan sampleZones _ sample_scan).2, fun backend result hperm hrun => ?_, ?_⟩
  · exact (hunique backend (fun _ => none) hperm).2 sampleZones _ _ sample_scan hrun
  · exact (((ocr_outcome sampleCall fun _ => some .cancelled).2.2.2 hlasts).2 sampleZones).2 0 hasked
      (Option.some_ne_none _)

theorem gap_left : (0 : Int32) ≤ 1 := by decide

theorem gap_right : (6 : Int32) ≤ 9 := by decide

theorem gap_envelope : (0 : Int32) ≤ 9 := by decide

theorem gap_lines : (0 : Int32) ≤ 5 := by decide

def gapZones : List OcrZone := [sampleZone 0 1 (by decide), sampleZone 6 9 (by decide)]

def gapEffective : List PixelRect :=
  [⟨0, 0, 1, 5, gap_left, gap_lines⟩, ⟨6, 0, 9, 5, gap_right, gap_lines⟩]

def gapEnvelope : PixelRect := ⟨0, 0, 9, 5, gap_envelope, gap_lines⟩

def gapInterests : BackendInterests := ⟨gapEffective, by decide⟩

def gapSink : Sink := ⟨3, [⟨7, 0#16, none⟩, ⟨5, 0#16, none⟩, ⟨2, 0#16, none⟩], none⟩

def gapGrouped : GroupedNormalization := ⟨[], [], List.replicate 17 0⟩

def gapResult : OcrZoneScanResult :=
  ⟨gapEnvelope, gapEffective, .capturePixels, [], [], List.replicate 17 0⟩

theorem gap_parts :
    resolveZones sampleCall.transform gapZones =
        .ok ⟨gapEffective, gapEnvelope, gapInterests.zones⟩ ∧
      preflightOutput sampleCall.transform gapEnvelope .capturePixels = .ok ⟨⟩ ∧
      (BackendInterests.new gapInterests.zones).mapError OcrFault.toError = .ok gapInterests ∧
      (recognizeInto (processGrouped (sampleCall.recognition gapEnvelope) gapInterests)
        sampleCall.backend .new).quiet = .ok (gapSink, .ok ⟨⟩) ∧
      (gapSink.finishGrouped gapInterests).quiet = .ok gapGrouped := by
  refine ⟨?_, ?_, ?_, ?_, ?_⟩
  · decide +kernel
  · decide +kernel
  · decide +kernel
  · decide +kernel
  · have hsorted : gapSink.sorted = gapSink.candidates.reverse :=
      sortBy_eq (List.reverse_perm _) (by decide)
    unfold Sink.finishGrouped
    rw [hsorted]
    decide +kernel

/-- `a` and `b` have text and lie in the gap: the scan succeeds without them. -/
theorem scan_zones_gap :
    (sampleCall.scanZones gapZones).run (fun _ => none) = .ok gapResult ∧
      gapResult.candidates = [] ∧ sampleCandidate 97 1 2 ∈ sampleCall.backend.pushed ∧
      (sampleCall.recognition gapResult.sourceEnvelope).legible (sampleCandidate 97 1 2) = true := by
  obtain ⟨hzones, hpreflight, hinterests, hsink, hgrouped⟩ := gap_parts
  refine ⟨?_, rfl, ?_, ?_⟩
  · exact sample_run (by decide) hzones hpreflight hinterests hsink hgrouped
  · exact List.mem_cons_of_mem _ (List.mem_cons_of_mem _ List.mem_cons_self)
  · decide +kernel

end Sample

end MadoPilot.Ocr
