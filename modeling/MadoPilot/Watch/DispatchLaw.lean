import MadoPilot.Watch.Dispatch

/-!
# OCR and template mapping exclude each other

* `barrier` : the dispatch state is a stage shared by the template mappings, which the mapping stage
  of one OCR lease excludes;
* `dispatchStep_moves` : what a step does to it, one case for each section;
* `dispatch_exclusion` : one lease at a time, no template mapping beside an OCR mapping or started
  while an OCR turn stands, and the reservations counted;
* `mapping_barrier_tells` : the atomic barrier mirrors the two flags.
-/

namespace MadoPilot.Watch

open MadoPilot.Lib

variable {τ : Type*}

/-! ### The barrier of a dispatch state -/

def DispatchState.barrier (d : DispatchState τ) : Barrier τ where
  shared := d.templateMappings
  turn := d.ocrTurn
  excluding := d.ocrMapping
  owner := d.ocrWorker

def WorkerPlace.place : WorkerPlace → Place
  | .templateMapping => .sharing
  | .ocrMapping _ => .excluding
  | .ocrMapped _ => .owning
  | _ => .outside

namespace WorkerPlace

variable {p : WorkerPlace}

theorem place_sharing : p.place = .sharing ↔ p.MapsTemplate := by
  cases p <;> simp [place, MapsTemplate]

theorem place_excluding : p.place = .excluding ↔ p.MapsOcr := by
  cases p <;> simp [place, MapsOcr]

theorem place_leased : p.place.Leased ↔ p.Leases := by
  cases p <;> simp [place, Leases, Place.Leased]

end WorkerPlace

namespace WatchScheduler

variable {s : WatchScheduler τ} {t : τ}

/-- What a section does to the barrier. -/
abbrev Moves (t : τ) (s : WatchScheduler τ) (p : WorkerPlace) (r : WatchScheduler τ × WorkerPlace) :
    Prop :=
  Barrier.Move t s.admission.barrier p.place r.1.admission.barrier r.2.place

theorem conclude_place : (s.conclude).2.place = .outside := by
  unfold conclude
  split_ifs <;> rfl

theorem takeTurn_moves {p : WorkerPlace} {ocr : List OcrCandidate} {granted : OcrCandidate → Bool}
    (hp : p.place = .outside) (hw : s.admission.ocrWorker = none) :
    Moves t s p (s.takeTurn t ocr granted) := by
  unfold Moves takeTurn
  rw [hp]
  split_ifs with hm
  · exact .turn .outside true hw
  · have hzero : s.admission.templateMappings = 0 := not_not.mp hm
    split
    · exact .grant hw hzero
    · rw [conclude_place]
      exact .turn .outside false hw

/-- **The last section of `next_dispatch`** takes the turn, gives it up or is granted the lease, each
only where no worker has the lease. -/
theorem select_moves {p : WorkerPlace} {publication cursor : ℕ} {ocr : List OcrCandidate}
    {ready : Bool} {granted : OcrCandidate → Bool} (hp : p.place = .outside) :
    Moves t s p (s.select t publication cursor ocr ready granted) := by
  unfold select
  split_ifs with hstale hw hempty hturn
  · rw [Moves, hp]
    exact .stay _ _
  · rw [Moves, hp, conclude_place]
    exact .stay _ _
  · have hnone : s.admission.ocrWorker = none := by simpa using hw
    rw [Moves, hp, conclude_place]
    exact .turn .outside false hnone
  · have hnone : (s.setReady true).admission.ocrWorker = none := by simpa [setReady] using hw
    exact takeTurn_moves hp hnone
  · rw [Moves, hp, conclude_place]
    exact .stay _ _

/-- **The section of `next_work`** reserves a mapping only where no turn stands and no OCR mapping
runs. -/
theorem choose_moves {p : WorkerPlace} {publication : ℕ} {c : TemplateChoice}
    (hp : p.place = .outside) : Moves t s p (s.choose publication c) := by
  unfold Moves choose
  rw [hp]
  split_ifs with hclosed hocr hnext hgone hgeneration
  · exact .stay _ _
  · exact .stay _ _
  · exact .stay _ _
  · exact .stay _ _
  · exact .stay _ _
  · simp only [Bool.or_eq_true, not_or, Bool.not_eq_true] at hocr
    exact .enter hocr.2 hocr.1

end WatchScheduler

theorem moves_stay {t : τ} {s s' : WatchScheduler τ} {p p' : WorkerPlace}
    (hs : s'.admission = s.admission) (hp : p.place = .outside) (hp' : p'.place = .outside) :
    s.Moves t p (s', p') := by
  unfold WatchScheduler.Moves
  rw [hs, hp, hp']
  exact .stay _ _

theorem dispatchStep_moves {t : τ} {s : WatchScheduler τ} {p : WorkerPlace} {e : DispatchEvent}
    {r : WatchScheduler τ × WorkerPlace} (h : dispatchStep t s p e = some r) : s.Moves t p r := by
  cases p with
  | idle =>
    cases e <;> simp only [dispatchStep, Option.some.injEq, reduceCtorEq] at h <;> subst h
    case dispatch =>
      refine moves_stay rfl rfl ?_
      split_ifs <;> rfl
    all_goals exact moves_stay rfl rfl rfl
  | probing =>
    cases e <;> simp only [dispatchStep, Option.some.injEq, reduceCtorEq] at h
    subst h
    refine moves_stay rfl rfl ?_
    cases s.admission.ocrWorker with
    | none => rfl
    | some worker =>
      simp only
      split_ifs <;> rfl
  | preparing =>
    cases e <;> simp only [dispatchStep, Option.some.injEq, reduceCtorEq] at h
    subst h
    exact moves_stay rfl rfl rfl
  | positioning publication =>
    cases e <;> simp only [dispatchStep, Option.some.injEq, reduceCtorEq] at h
    subst h
    exact moves_stay rfl rfl rfl
  | scanning publication cursor =>
    cases e <;> simp only [dispatchStep, Option.some.injEq, reduceCtorEq] at h
    subst h
    exact moves_stay rfl rfl rfl
  | selecting publication cursor ocr templateReady =>
    cases e <;> simp only [dispatchStep, Option.some.injEq, reduceCtorEq] at h
    subst h
    exact WatchScheduler.select_moves rfl
  | searching =>
    cases e <;> simp only [dispatchStep, Option.some.injEq, reduceCtorEq] at h
    subst h
    refine moves_stay rfl rfl ?_
    split_ifs <;> rfl
  | choosing publication =>
    cases e <;> simp only [dispatchStep, Option.some.injEq, reduceCtorEq] at h <;> subst h
    · exact WatchScheduler.choose_moves rfl
    · exact moves_stay rfl rfl rfl
  | templateMapping =>
    cases e <;> simp only [dispatchStep, Option.some.injEq, reduceCtorEq] at h
    subst h
    exact .leave _
  | templateMapped =>
    cases e <;> simp only [dispatchStep, Option.some.injEq, reduceCtorEq] at h
    subst h
    exact moves_stay rfl rfl rfl
  | ocrMapping c =>
    cases e <;> simp only [dispatchStep, Option.some.injEq, reduceCtorEq] at h <;> subst h
    · exact .prepared _
    · exact .drop (Or.inl rfl)
  | ocrMapped c =>
    cases e <;> simp only [dispatchStep, Option.some.injEq, reduceCtorEq] at h
    subst h
    exact .drop (Or.inr rfl)
  | ocrLeft c =>
    cases e <;> simp only [dispatchStep, Option.some.injEq, reduceCtorEq] at h
    subst h
    exact moves_stay rfl rfl rfl
  | publishing =>
    cases e <;> simp only [dispatchStep, Option.some.injEq, reduceCtorEq] at h
    subst h
    exact moves_stay rfl rfl rfl
  | published =>
    cases e <;> simp only [dispatchStep, Option.some.injEq, reduceCtorEq] at h
    subst h
    exact moves_stay rfl rfl rfl

/-! ### Runs -/

section Runs

variable [DecidableEq τ] {w w' : DispatchWorld τ} {t u : τ}

def DispatchWorld.Fits (w : DispatchWorld τ) : Prop :=
  w.shared.admission.barrier.Fits fun t => (w.pc t).place

theorem fits_reachable (h : (dispatching τ).Reachable w) : w.Fits := by
  have hstart : (DispatchWorld.start τ).Fits := Barrier.Fits.start
  refine threads_invariant (P := DispatchWorld.Fits) hstart ?_ h
  intro w t e s' p' _ hfits hact
  have hmove := hfits.move (dispatchStep_moves hact)
  have hplace : (fun u => ((w.move t s' p').pc u).place) =
      Function.update (fun u => (w.pc u).place) t p'.place := by
    funext u
    by_cases hu : u = t
    · subst hu
      simp
    · simp [hu]
  unfold DispatchWorld.Fits
  rw [hplace]
  exact hmove

theorem enters_template {e : DispatchEvent} (h : (dispatching τ).step w (t, e) w')
    (hout : ¬ (w.pc t).MapsTemplate) (hin : (w'.pc t).MapsTemplate) :
    w.shared.admission.ocrTurn = false ∧ w.shared.admission.ocrMapping = false := by
  obtain ⟨s', p', hact, rfl⟩ := h
  rw [World.move_pc_self] at hin
  have hmove := dispatchStep_moves hact
  have hin' : p'.place = .sharing := WorkerPlace.place_sharing.mpr hin
  have hout' : (w.pc t).place ≠ .sharing := fun hp => hout (WorkerPlace.place_sharing.mp hp)
  unfold WatchScheduler.Moves at hmove
  rw [hin'] at hmove
  generalize hp : (w.pc t).place = p at hmove hout'
  generalize hb : s'.admission.barrier = b at hmove
  cases hmove with
  | stay => exact absurd rfl hout'
  | turn => exact absurd rfl hout'
  | enter hturn hexcluding => exact ⟨hturn, hexcluding⟩

/-- **Template and OCR mappings exclude each other.**  One OCR lease exists at a time, and
`ocr_worker` names the worker that has it; no template mapping is outstanding while an OCR work item
is in its mapping stage, and none starts while an OCR turn is selected or mapping;
`template_mappings` is the number of outstanding template mappings, so that a release finds it
positive. -/
theorem dispatch_exclusion (h : (dispatching τ).Reachable w) :
    (∀ t u, (w.pc t).Leases → (w.pc u).Leases → t = u) ∧
    (∀ t, w.shared.admission.ocrWorker = some t ↔ (w.pc t).Leases) ∧
    (∀ t u, (w.pc t).MapsOcr → ¬ (w.pc u).MapsTemplate) ∧
    (∀ t e w', (dispatching τ).step w (t, e) w' → ¬ (w.pc t).MapsTemplate →
      (w'.pc t).MapsTemplate →
      w.shared.admission.ocrTurn = false ∧ ∀ u, ¬ (w.pc u).MapsOcr) ∧
    Census (fun t => (w.pc t).MapsTemplate) w.shared.admission.templateMappings ∧
    (∀ t, (w.pc t).MapsTemplate → 0 < w.shared.admission.templateMappings) := by
  have hfits := fits_reachable h
  refine ⟨fun t u ht hu => ?_, fun t => ?_, fun t u ht hu => ?_, fun t e w' hstep hout hin => ?_,
    ?_, fun t ht => ?_⟩
  · exact hfits.unique (WorkerPlace.place_leased.mpr ht) (WorkerPlace.place_leased.mpr hu)
  · exact (hfits.owner t).trans WorkerPlace.place_leased
  · exact hfits.exclusive (WorkerPlace.place_excluding.mpr ht) (WorkerPlace.place_sharing.mpr hu)
  · obtain ⟨hturn, hexcluding⟩ := enters_template hstep hout hin
    refine ⟨hturn, fun u hu => ?_⟩
    have hset := hfits.excluding.mpr ⟨u, WorkerPlace.place_excluding.mpr hu⟩
    exact absurd (hexcluding.symm.trans hset) (by simp)
  · exact hfits.shared.congr fun t => WorkerPlace.place_sharing.symm
  · exact hfits.shared_pos (WorkerPlace.place_sharing.mpr ht)

end Runs

/-- A template mapping is outstanding when an OCR turn is taken, and the lease is granted once it is
released. -/
def turnAfterTemplate : List (Bool × DispatchEvent) :=
  [(true, .useOcr),
    (false, .dispatch), (false, .probe), (false, .readPublication), (false, .readCursor),
    (false, .scan [] true), (false, .select fun _ => false), (false, .search),
    (false, .choose ⟨0, false, true, true⟩),
    (true, .dispatch), (true, .probe), (true, .readPublication), (true, .readCursor),
    (true, .scan [⟨0, 7, 0⟩] false), (true, .select fun _ => true),
    (false, .release), (false, .finish),
    (true, .dispatch), (true, .probe), (true, .readPublication), (true, .readCursor),
    (true, .scan [⟨0, 7, 0⟩] false), (true, .select fun _ => true)]

def afterTurn : DispatchWorld Bool :=
  (replay dispatchStep turnAfterTemplate (DispatchWorld.start Bool)).get rfl

/-- The worker that waited for the template mapping has the lease, and nothing maps beside it. -/
theorem dispatch_exclusion_sample :
    afterTurn.pc true = .ocrMapping ⟨0, 7, 0⟩ ∧ afterTurn.shared.admission.ocrWorker = some true ∧
    (∀ u, (afterTurn.pc u).Leases → u = true) ∧ ∀ u, ¬ (afterTurn.pc u).MapsTemplate := by
  have hr : (dispatching Bool).Reachable afterTurn :=
    replay_reachable (Option.some_get (x := replay dispatchStep turnAfterTemplate (DispatchWorld.start Bool)) rfl).symm
  have hpc : afterTurn.pc true = .ocrMapping ⟨0, 7, 0⟩ := rfl
  obtain ⟨honce, howner, hapart, -, -, -⟩ := dispatch_exclusion hr
  have hlease : (afterTurn.pc true).Leases := by
    rw [hpc]
    trivial
  have hmaps : (afterTurn.pc true).MapsOcr := by
    rw [hpc]
    trivial
  exact ⟨hpc, (howner true).mpr hlease, fun u hu => honce u true hu hlease,
    fun u => hapart true u hmaps⟩

/-! ### The barrier the queries read -/

namespace WatchScheduler

variable {s : WatchScheduler τ} {t : τ}

def Mirrors (s : WatchScheduler τ) : Prop :=
  s.mappingBarrier = (s.admission.ocrMapping || s.admission.ocrTurn)

theorem takeTurn_mirrors {ocr : List OcrCandidate} {granted : OcrCandidate → Bool}
    (hfree : s.admission.ocrMapping = false) : (s.takeTurn t ocr granted).1.Mirrors := by
  unfold takeTurn
  split_ifs
  · simp [Mirrors, setTurn, hfree]
  · split
    · simp [Mirrors, setTurn, grant]
    · simp [Mirrors, conclude, setTurn, setReady, hfree]

theorem select_mirrors {publication cursor : ℕ} {ocr : List OcrCandidate} {ready : Bool}
    {granted : OcrCandidate → Bool} (h : s.Mirrors)
    (hfree : s.admission.ocrWorker = none → s.admission.ocrMapping = false) :
    (s.select t publication cursor ocr ready granted).1.Mirrors := by
  unfold select
  split_ifs with hstale hw hempty hturn
  · exact h
  · exact h
  · have hnone : s.admission.ocrWorker = none := by simpa using hw
    simp [Mirrors, conclude, setTurn, setReady, hfree hnone]
  · have hnone : s.admission.ocrWorker = none := by simpa using hw
    exact takeTurn_mirrors (s := s.setReady true) (hfree hnone)
  · exact h

theorem choose_mirrors {publication : ℕ} {c : TemplateChoice} (h : s.Mirrors) :
    (s.choose publication c).1.Mirrors := by
  unfold choose
  split_ifs <;> exact h

end WatchScheduler

theorem dispatchStep_mirrors {t : τ} {s : WatchScheduler τ} {p : WorkerPlace} {e : DispatchEvent}
    {r : WatchScheduler τ × WorkerPlace} (h : s.Mirrors)
    (hfree : s.admission.ocrWorker = none → s.admission.ocrMapping = false)
    (hturn : p.Leases → s.admission.ocrTurn = false) (hstep : dispatchStep t s p e = some r) :
    r.1.Mirrors := by
  unfold dispatchStep at hstep
  split at hstep <;> first | cases hstep; done | skip
  all_goals obtain rfl := Option.some.inj hstep
  case h_6 => exact WatchScheduler.select_mirrors h hfree
  case h_8 => exact WatchScheduler.choose_mirrors h
  case h_12 =>
    have hoff := hturn trivial
    simp [WatchScheduler.Mirrors, WatchScheduler.prepared, hoff]
  case h_13 => simp [WatchScheduler.Mirrors, WatchScheduler.drop]
  case h_14 => simp [WatchScheduler.Mirrors, WatchScheduler.drop]
  all_goals exact h

/-- **The atomic barrier tells whether an OCR turn is selected or mapping.** -/
theorem mapping_barrier_tells [DecidableEq τ] {w : DispatchWorld τ}
    (h : (dispatching τ).Reachable w) :
    w.shared.mappingBarrier =
      (w.shared.admission.ocrMapping || w.shared.admission.ocrTurn) := by
  refine threads_invariant (P := fun w => w.shared.Mirrors) rfl ?_ h
  intro w t e s' p' hr hmirrors hact
  have hfits := fits_reachable hr
  refine dispatchStep_mirrors hmirrors (fun hnone => ?_) (fun hl => ?_) hact
  · -- without an owner no thread is in the excluding stage
    by_contra hset
    obtain ⟨u, hu⟩ := hfits.excluding.mp (Bool.eq_true_of_not_eq_false hset)
    exact hfits.owner_none_iff.mp hnone u (Or.inl hu)
  · have howner := (hfits.owner t).mpr (WorkerPlace.place_leased.mpr hl)
    refine hfits.turn fun hnone => ?_
    rw [hnone] at howner
    cases howner

/-- The template mapping is outstanding, and the turn is not taken yet. -/
def beforeTurn : DispatchWorld Bool :=
  (replay dispatchStep (turnAfterTemplate.take 9) (DispatchWorld.start Bool)).get rfl

def turnWaits : DispatchWorld Bool :=
  (replay dispatchStep (turnAfterTemplate.take 15) (DispatchWorld.start Bool)).get rfl

/-- The barrier is off while only a template is mapped; the turn sets it, and the mapping keeps it. -/
theorem mapping_barrier_tells_sample :
    ((beforeTurn.pc false).MapsTemplate ∧ beforeTurn.shared.mappingBarrier = false) ∧
    ((turnWaits.pc false).MapsTemplate ∧ turnWaits.shared.mappingBarrier = true) ∧
    (afterTurn.pc true).MapsOcr ∧ afterTurn.shared.mappingBarrier = true := by
  refine ⟨⟨trivial, ?_⟩, ⟨trivial, ?_⟩, trivial, ?_⟩
  · exact mapping_barrier_tells (w := beforeTurn) (replay_reachable (Option.some_get _).symm)
  · exact mapping_barrier_tells (w := turnWaits) (replay_reachable (Option.some_get _).symm)
  · exact mapping_barrier_tells (w := afterTurn) (replay_reachable (Option.some_get _).symm)

end MadoPilot.Watch
