import MadoPilot.Lib.System
import MadoPilot.Watch.Gating
import MadoPilot.Watch.QueryStability

/-!
# What a skipped frame would have shown

While a query has confirmed nothing, the mapping it remembers is that of a frame whose analysis found
nothing: of one that was analysed, or of one that was skipped because it showed the same.

* `Recalls` : what a section does to the remembered mapping, where nothing is confirmed afterwards;
* `GateSound` : the invariant of a gated query;
* `skipped_empty` : a frame that is skipped would have been found empty.
-/

namespace MadoPilot.Watch

open MadoPilot.Core MadoPilot.Lib MadoPilot.Capture

variable {R : Type}

/-! ### The remembered mapping -/

/-- Where nothing is confirmed afterwards, the remembered mapping is that of before, when nothing was
confirmed either, or none. -/
def Recalls (d d' : QueryData R) : Prop :=
  d'.stability.observations = 0 → d'.previousMapping = none ∨
    d.stability.observations = 0 ∧ d'.previousMapping = d.previousMapping

namespace Recalls

variable {d d' : QueryData R}

theorem of_eq (hstability : d'.stability = d.stability)
    (hprevious : d'.previousMapping = d.previousMapping) : Recalls d d' := by
  intro hzero
  rw [hstability] at hzero
  exact Or.inr ⟨hzero, hprevious⟩

theorem refl (d : QueryData R) : Recalls d d := of_eq rfl rfl

end Recalls

namespace QueryData

variable (d : QueryData R) (q : QueryShared)

theorem applyMappingBarrier_previous :
    (d.applyMappingBarrier q).1.previousMapping = d.previousMapping := by
  unfold applyMappingBarrier
  simp only
  split
  · rfl
  split
  · rfl
  split
  · rfl
  split
  · rfl
  split <;> rfl

theorem enqueue_recalls (stamp : FrameStamp) (now : ℕ) (barrier : Bool) :
    Recalls d (d.enqueue q stamp now barrier) := by
  have hreplaced : ∀ preserveAge : Bool, Recalls d (d.replacePending stamp now preserveAge) := by
    intro preserveAge
    unfold replacePending
    by_cases hincompatible : d.incompatible stamp = true
    · intro _
      exact Or.inl (if_pos hincompatible)
    · exact Recalls.of_eq (if_neg hincompatible) (if_neg hincompatible)
  unfold enqueue
  split
  · simp only
    split
    · have hbarrier := hreplaced (d.barrierDeferred || barrier)
      unfold Recalls at hbarrier ⊢
      rw [applyMappingBarrier_stability, applyMappingBarrier_previous]
      exact hbarrier
    · exact hreplaced _
  · exact Recalls.refl d

theorem claim_recalls (stamp : FrameStamp) : Recalls d (d.claim stamp).1 := by
  unfold claim
  split
  · exact Recalls.refl d
  · split
    · exact Recalls.refl d
    · split
      · exact Recalls.refl d
      · exact Recalls.of_eq rfl rfl

theorem terminate_recalls (o : TemplateTerminalOutcome R) : Recalls d (d.terminate o).1 := by
  unfold terminate
  split
  · exact Recalls.refl d
  · exact Recalls.of_eq rfl rfl

theorem releaseClaim_recalls (stamp : FrameStamp) : Recalls d (d.releaseClaim stamp) := by
  unfold releaseClaim
  split
  · exact Recalls.of_eq rfl rfl
  · exact Recalls.refl d

theorem failMapping_recalls (stamp : FrameStamp) (error : Error) :
    Recalls d (d.failMapping stamp error).1 := by
  unfold failMapping
  split
  · exact d.releaseClaim_recalls stamp
  · exact Recalls.of_eq rfl rfl

theorem finishMapping_recalls (mapped : MappedMatch) (mapping : Option ℕ) (decision : ChangeDecision)
    (now : ℕ) :
    Recalls d (d.finishMapping q mapped mapping decision now).1 ∨
      decision = .unchanged ∧ (d.finishMapping q mapped mapping decision now).2 = .skipped ∧
        (d.finishMapping q mapped mapping decision now).1.previousMapping = mapping := by
  unfold finishMapping
  simp only
  split
  · exact Or.inl (Recalls.refl d)
  split
  · exact Or.inl (Recalls.of_eq rfl rfl)
  split
  · rename_i hskip
    exact Or.inr ⟨hskip.1, rfl, rfl⟩
  split
  · split
    · exact Or.inl (Recalls.of_eq rfl rfl)
    · exact Or.inl (Recalls.of_eq rfl rfl)
  · split
    · exact Or.inl (Recalls.of_eq rfl rfl)
    · split
      · exact Or.inl (Recalls.of_eq rfl rfl)
      · exact Or.inl (Recalls.of_eq rfl rfl)

theorem finishMapping_unchanged {d : QueryData R} {q : QueryShared} {mapped : MappedMatch}
    {mapping : Option ℕ} {decision : ChangeDecision} {now : ℕ}
    (h : (d.finishMapping q mapped mapping decision now).2 = .skipped) : decision = .unchanged := by
  unfold finishMapping at h
  simp only at h
  split at h
  · cases h
  split at h
  · cases h
  split at h
  · rename_i hskip
    exact hskip.1
  split at h
  · split at h <;> cases h
  · split at h
    · cases h
    · split at h <;> cases h

theorem complete_recalls (generation : ℕ) (mapped : MappedMatch) (mapping : Option ℕ)
    (result : Except Error (ImmutableAnalysisResult R)) (now : ℕ) :
    Recalls d (d.complete q generation mapped mapping result now none).1 ∨
      result = .ok .empty ∧
        (d.complete q generation mapped mapping result now none).1.previousMapping = mapping := by
  unfold complete
  cases hremove : d.inFlight.remove (generation, mapped.frame) with
  | none =>
    simp only [hremove]
    exact Or.inl (Recalls.refl d)
  | some f =>
    simp only [hremove]
    by_cases ht : d.terminal.isSome = true
    · rw [if_pos ht]
      exact Or.inl (Recalls.refl d)
    rw [if_neg ht]
    by_cases hgen : generation ≠ d.generation
    · rw [if_pos hgen]
      exact Or.inl (Recalls.of_eq rfl rfl)
    rw [if_neg hgen]
    cases result with
    | error error => exact Or.inl (Recalls.of_eq rfl rfl)
    | ok result =>
      cases result with
      | empty => exact Or.inr ⟨rfl, rfl⟩
      | shared result =>
        -- one more observation is not none
        have hobserved : (d.observe now).observations ≠ 0 := by
          unfold observe saturatingAdd
          have hmax : 0 < u32Max := by decide
          dsimp only
          omega
        refine Or.inl fun hzero => absurd ?_ hobserved
        simp only at hzero
        split at hzero
        · exact hzero
        · exact hzero

end QueryData

/-! ### The invariant -/

/-- The reference is to the mapping of the frame, if it has one. -/
def ClaimedFrame.Remembered (F : Frames) (cache : MappingCache) (c : ClaimedFrame) : Prop :=
  ∀ n, c.mapping = some n → ∃ pixels, c.frame.pixels F = some pixels ∧
    cache.allocated[n]? = some pixels

theorem ClaimedFrame.Remembered.mono {F : Frames} {cache cache' : MappingCache} {c : ClaimedFrame}
    (h : c.Remembered F cache) (hle : cache.allocated <+: cache'.allocated) :
    c.Remembered F cache' := by
  intro n hn
  obtain ⟨pixels, hpixels, hlookup⟩ := h n hn
  exact ⟨pixels, hpixels, MappingCache.lookup_of_extension hle hlookup⟩

section Sound

variable (F : Frames) (backend : CpuMapping.Content → Except Error (ImmutableAnalysisResult R))

def ShowsNothing (cache : MappingCache) (mapping : Option ℕ) : Prop :=
  ∀ n, mapping = some n → ∃ m, cache.allocated[n]? = some m ∧ backend m.content = .ok .empty

/-- The invariant of a gated query. -/
structure GateSound (g : Gate R) : Prop where
  cache : g.cache.Genuine F
  claimed : ∀ c, g.claimed = some c → c.Remembered F g.cache
  analysing : ∀ a, g.analysing = some a → a.claimed.Remembered F g.cache
  previous : g.data.stability.observations = 0 →
    ShowsNothing backend g.cache g.data.previousMapping
  decided : g.decision = some .unchanged →
    ∃ c, g.claimed = some c ∧ findMapped F backend c.frame = .ok .empty

variable {F backend} {g g' : Gate R}

theorem ClaimedFrame.Remembered.showsNothing {cache : MappingCache} {c : ClaimedFrame}
    (h : c.Remembered F cache) (hempty : findMapped F backend c.frame = .ok .empty) :
    ShowsNothing backend cache c.mapping := by
  intro n hn
  obtain ⟨pixels, hpixels, hlookup⟩ := h n hn
  refine ⟨pixels, hlookup, ?_⟩
  unfold findMapped at hempty
  rw [hpixels] at hempty
  exact hempty

theorem ShowsNothing.mono {cache cache' : MappingCache} {mapping : Option ℕ}
    (h : ShowsNothing backend cache mapping) (hle : cache.allocated <+: cache'.allocated) :
    ShowsNothing backend cache' mapping := by
  intro n hn
  obtain ⟨m, hlookup, hempty⟩ := h n hn
  exact ⟨m, MappingCache.lookup_of_extension hle hlookup, hempty⟩

namespace GateSound

theorem new : GateSound F backend (Gate.new : Gate R) := by
  refine ⟨MappingCache.new_genuine, fun c hc => ?_, fun a ha => ?_, fun _ n hn => ?_, fun h => ?_⟩
  · cases hc
  · cases ha
  · cases hn
  · cases h

theorem recalls (h : GateSound F backend g) {d : QueryData R} (hd : Recalls g.data d) :
    GateSound F backend { g with data := d } := by
  refine ⟨h.cache, h.claimed, h.analysing, fun hzero => ?_, h.decided⟩
  rcases hd hzero with hnone | ⟨hbefore, hsame⟩
  · intro n hn
    have hprevious : d.previousMapping = some n := hn
    rw [hnone] at hprevious
    cases hprevious
  · have hshown := h.previous hbefore
    rw [← hsame] at hshown
    exact hshown

theorem unclaimed (h : GateSound F backend g) :
    GateSound F backend { g with claimed := none, decision := none } :=
  ⟨h.cache, fun c hc => (by cases hc), h.analysing, h.previous, fun hd => (by cases hd)⟩

theorem extended (h : GateSound F backend g) {cache : MappingCache} (hcache : cache.Genuine F)
    (hle : g.cache.allocated <+: cache.allocated) : GateSound F backend { g with cache := cache } :=
  ⟨hcache, fun c hc => (h.claimed c hc).mono hle, fun a ha => (h.analysing a ha).mono hle,
    fun hzero => (h.previous hzero).mono hle, h.decided⟩

variable {q : QueryShared} {policy : ChangeDetectionPolicy}

variable (policy) in
theorem rememberMapped (h : g.cache.Genuine F) (m : MappedFrame) (shared closed : Bool) :
    (g.rememberMapped F policy m shared closed).1.Genuine F ∧
    g.cache.allocated <+: (g.rememberMapped F policy m shared closed).1.allocated ∧
    (⟨m, (g.rememberMapped F policy m shared closed).2⟩ : ClaimedFrame).Remembered F
      (g.rememberMapped F policy m shared closed).1 := by
  have hnothing : ∀ cache : MappingCache, (⟨m, none⟩ : ClaimedFrame).Remembered F cache :=
    fun _ n hn => by cases hn
  unfold Gate.rememberMapped
  cases hpixels : m.pixels F with
  | none => exact ⟨h, List.prefix_refl _, hnothing _⟩
  | some pixels =>
    obtain ⟨layout, hlayout, rfl⟩ := Option.map_eq_some_iff.mp hpixels
    dsimp only
    split_ifs
    · refine ⟨MappingCache.remember_genuine h _ _ _, MappingCache.remember_allocated _,
        fun n hn => ⟨_, hpixels, MappingCache.remember_lookup h hn⟩⟩
    · exact ⟨h, List.prefix_refl _, hnothing _⟩

theorem mappingDecision (h : GateSound F backend g) {alive : Bool} {m : MappedFrame}
    (hunchanged : g.mappingDecision F policy alive m = .unchanged) :
    findMapped F backend m = .ok .empty := by
  unfold Gate.mappingDecision at hunchanged
  split_ifs at hunchanged with hconfirmed
  have hzero : g.data.stability.observations = 0 := not_not.mp hconfirmed
  split at hunchanged
  · rename_i previous current hprevious hcurrent
    obtain ⟨n, hn, hupgrade⟩ := Option.bind_eq_some_iff.mp hprevious
    obtain ⟨m', hlookup, hempty⟩ := h.previous hzero n hn
    obtain rfl : previous = m' :=
      Option.some.inj ((MappingCache.upgrade_eq_some hupgrade).symm.trans hlookup)
    have hcontent := compare_unchanged hunchanged
    unfold findMapped
    rw [hcurrent]
    dsimp only
    rw [← hcontent]
    exact hempty
  · cases hunchanged

theorem finished (h : GateSound F backend g) {c : ClaimedFrame} (hc : g.claimed = some c)
    {decision : ChangeDecision} (hdecision : g.decision = some decision) (now : ℕ) :
    GateSound F backend
      (g.finished c (g.data.finishMapping q (c.frame.matched F) c.mapping decision now)) := by
  have hdata : GateSound F backend { g with
      data := (g.data.finishMapping q (c.frame.matched F) c.mapping decision now).1 } := by
    rcases g.data.finishMapping_recalls q (c.frame.matched F) c.mapping decision now with
      hrecalls | ⟨hunchanged, -, hprevious⟩
    · exact h.recalls hrecalls
    · -- the skipped frame is remembered: it would be found empty
      refine ⟨h.cache, h.claimed, h.analysing, fun _ => ?_, h.decided⟩
      rw [hunchanged] at hdecision
      obtain ⟨c', hc', hempty⟩ := h.decided hdecision
      obtain rfl : c = c' := Option.some.inj (hc.symm.trans hc')
      have hshown := (h.claimed c hc).showsNothing hempty
      rw [← hprevious] at hshown
      exact hshown
  have hleft := hdata.unclaimed
  unfold Gate.finished
  dsimp only
  split
  · refine ⟨hleft.cache, hleft.claimed, fun a ha => ?_, hleft.previous, hleft.decided⟩
    obtain rfl := Option.some.inj ha
    exact h.claimed c hc
  · exact hleft.recalls (QueryData.terminate_recalls _ _)
  · exact hleft.recalls (QueryData.terminate_recalls _ _)
  · exact hleft
  · exact hleft
  · exact hleft

theorem complete (h : GateSound F backend g) {a : Analysis} (ha : g.analysing = some a) (now : ℕ) :
    GateSound F backend { g with
      data := (g.data.complete q a.generation (a.claimed.frame.matched F) a.claimed.mapping
        (findMapped F backend a.claimed.frame) now none).1
      analysing := none } := by
  have hdone : GateSound F backend { g with analysing := none } :=
    ⟨h.cache, h.claimed, fun b hb => (by cases hb), h.previous, h.decided⟩
  rcases g.data.complete_recalls q a.generation (a.claimed.frame.matched F) a.claimed.mapping
    (findMapped F backend a.claimed.frame) now with hrecalls | ⟨hempty, hprevious⟩
  · exact hdone.recalls hrecalls
  · refine ⟨hdone.cache, hdone.claimed, hdone.analysing, fun _ => ?_, hdone.decided⟩
    have hshown := (h.analysing a ha).showsNothing hempty
    rw [← hprevious] at hshown
    exact hshown

theorem step (h : GateSound F backend g) (e : GateEvent R) :
    GateSound F backend (g.step F backend q policy e) := by
  unfold Gate.step
  cases e with
  | publish stamp now barrier => exact h.recalls (g.data.enqueue_recalls q stamp now barrier)
  | claim stamp =>
    dsimp only
    split_ifs
    · exact (h.recalls (g.data.claim_recalls stamp)).unclaimed
    · exact h
  | map m shared closed =>
    dsimp only
    split_ifs
    · obtain ⟨hgenuine, hle, hremembered⟩ := rememberMapped policy h.cache m shared closed
      have hextended := h.extended hgenuine hle
      refine ⟨hextended.cache, fun c hc => ?_, hextended.analysing, hextended.previous,
        fun hd => (by cases hd)⟩
      obtain rfl := Option.some.inj hc
      exact hremembered
    · exact h
  | decide alive =>
    refine ⟨h.cache, h.claimed, h.analysing, h.previous, fun hd => ?_⟩
    obtain ⟨c, hc, hunchanged⟩ := Option.map_eq_some_iff.mp hd
    exact ⟨c, hc, h.mappingDecision hunchanged⟩
  | finish now =>
    dsimp only
    split
    · rename_i c decision hc hdecision
      exact h.finished hc hdecision now
    · exact h
  | complete now =>
    dsimp only
    split
    · exact h
    · rename_i a ha
      exact h.complete ha now
  | failMapping stamp error => exact h.recalls (g.data.failMapping_recalls stamp error)
  | releaseClaim stamp => exact h.recalls (g.data.releaseClaim_recalls stamp)
  | remember i region descriptor =>
    exact h.extended (MappingCache.remember_genuine h.cache _ _ _) (MappingCache.remember_allocated _)
  | clear => exact h.extended MappingCache.clear_genuine (List.prefix_refl _)
  | terminate outcome => exact h.recalls (g.data.terminate_recalls outcome)

end GateSound

variable {q : QueryShared} {policy : ChangeDetectionPolicy}

theorem gate_sound (script : List (GateEvent R)) :
    GateSound F backend (script.foldl (Gate.step F backend q policy) .new) :=
  List.foldlRecOn script _ GateSound.new fun _ h e _ => h.step e

theorem skipped_empty {script : List (GateEvent R)} {c : ClaimedFrame} {decision : ChangeDecision}
    {now : ℕ} (hc : (script.foldl (Gate.step F backend q policy) .new).claimed = some c)
    (hdecision : (script.foldl (Gate.step F backend q policy) .new).decision = some decision)
    (hskip : ((script.foldl (Gate.step F backend q policy) .new).data.finishMapping q
      (c.frame.matched F) c.mapping decision now).2 = .skipped) :
    findMapped F backend c.frame = .ok .empty := by
  have hsound : GateSound F backend (script.foldl (Gate.step F backend q policy) .new) :=
    gate_sound script
  have hunchanged := QueryData.finishMapping_unchanged hskip
  rw [hunchanged] at hdecision
  obtain ⟨c', hc', hempty⟩ := hsound.decided hdecision
  obtain rfl : c = c' := Option.some.inj (hc.symm.trans hc')
  exact hempty

end Sound

end MadoPilot.Watch
