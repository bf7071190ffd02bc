import MadoPilot.Platform.WindowsTransition

/-!
# What a Windows session publishes across a change of geometry

* `fence_stands` : an observed change keeps older frames back until a frame as late has been let through;
* `geometry_fence` : the law of the transitions.
-/

namespace MadoPilot.Platform.WindowsTransition

open MadoPilot.Core MadoPilot.Capture MadoPilot.Lib
open NativeFrame (Shows Reveals Passes Publishes Resizes)

/-! ### What one frame does to the state -/

section OneFrame

variable {s : TransitionState} {f : NativeFrame}

theorem publishes_cases (h : Publishes s f) :
    Passes s f ∧ ∃ placement, f.Shows s placement ∧ (processFrame s f).2 = s.afterPublication placement ∧
      (processFrame s f).1 =
        .published (frameTime s.clockAnchor f.nativeTime) placement s.continuity := by
  obtain ⟨capturedAt, placement, continuity, houtcome⟩ := h
  have hstep := processFrame_step s f
  generalize (processFrame s f).2 = s' at hstep ⊢
  generalize (processFrame s f).1 = outcome at hstep houtcome ⊢
  cases hstep with
  | publishes placement hshows hsame hpast =>
    exact ⟨⟨placement, hshows, hsame, hpast⟩, placement, hshows, rfl, rfl⟩
  | passes _ _ _ _ _ hrest =>
    rcases hrest with rfl | ⟨fault, rfl⟩
    · cases houtcome
    · cases houtcome
  | fails | recreates | reveals | holds => cases houtcome

theorem reveals_cases (h : Reveals s f) :
    ¬ Publishes s f ∧ ∃ placement, (processFrame s f).2 = s.revealed f placement := by
  obtain ⟨hpublished, placement, hshows, hne⟩ := h
  have hplacement : ∀ other, f.Shows s other → other = placement := by
    intro other hother
    exact Except.ok.inj (hother.2.2.symm.trans hshows.2.2)
  refine ⟨fun hp => ?_, ?_⟩
  · obtain ⟨⟨other, hother, hsame, -⟩, -⟩ := publishes_cases hp
    rw [hplacement other hother] at hsame
    exact hne (hsame hpublished)
  · have hstep := processFrame_step s f
    generalize (processFrame s f).2 = s' at hstep ⊢
    generalize (processFrame s f).1 = outcome at hstep
    cases hstep with
    | reveals other => exact ⟨other, rfl⟩
    | fails _ hnone | recreates hnone => exact absurd hshows (hnone placement)
    | holds other _ hother hsame | passes other _ hother hsame | publishes other hother hsame =>
      rw [hplacement other hother] at hsame
      exact absurd (hsame hpublished) hne

theorem resizes_cases (h : Resizes s f) : (processFrame s f).2 = s.poolRecreated f.extent := by
  have houtcome : (processFrame s f).1 = .recreated := h
  have hstep := processFrame_step s f
  generalize (processFrame s f).2 = s' at hstep ⊢
  generalize (processFrame s f).1 = outcome at hstep houtcome
  cases hstep with
  | recreates => rfl
  | passes _ _ _ _ _ hrest =>
    rcases hrest with rfl | ⟨fault, rfl⟩
    · cases houtcome
    · cases houtcome
  | fails | reveals | holds | publishes => cases houtcome

theorem unpublished_flags (h : ¬ Publishes s f) :
    (processFrame s f).2.published = s.published ∧
      (s.pendingGeometryChange = true → (processFrame s f).2.pendingGeometryChange = true) ∧
      ((s.pendingDiscontinuity = true → s.published = true) → s.pendingDiscontinuity = true →
        (processFrame s f).2.pendingDiscontinuity = true) := by
  have hstep := processFrame_step s f
  have hpublishes : ∀ t p k, (processFrame s f).1 ≠ .published t p k := fun t p k houtcome =>
    h ⟨t, p, k, houtcome⟩
  generalize (processFrame s f).2 = s' at hstep ⊢
  generalize (processFrame s f).1 = outcome at hstep hpublishes
  cases hstep with
  | publishes => exact absurd rfl (hpublishes _ _ _)
  | recreates => exact ⟨rfl, id, id⟩
  | reveals => exact ⟨rfl, fun _ => rfl, fun _ => id⟩
  | fails | holds | passes => exact ⟨rfl, id, fun _ => id⟩

theorem fence_step {fence : ℤ} (h : s.movementNotBefore = some fence) :
    (∃ fence', (processFrame s f).2.movementNotBefore = some fence' ∧ fence ≤ fence') ∨
      (Passes s f ∧ fence ≤ f.nativeTime) := by
  have hstep := processFrame_step s f
  generalize (processFrame s f).2 = s' at hstep ⊢
  generalize (processFrame s f).1 = outcome at hstep
  cases hstep with
  | fails | recreates | holds => exact Or.inl ⟨fence, h, le_refl _⟩
  | reveals placement =>
    refine Or.inl ⟨max fence f.instant, ?_, le_max_left ..⟩
    unfold TransitionState.revealed
    simp only [h, Option.map_some, Option.getD_some]
  | passes placement _ hshows hsame hpast | publishes placement hshows hsame hpast =>
    exact Or.inr ⟨⟨placement, hshows, hsame, hpast⟩, hpast fence h⟩

theorem remembers_step :
    (∀ placement, f.Shows s placement → (processFrame s f).2.published = true →
      geometry (processFrame s f).2.placement = geometry placement) ∧
    ((∀ placement, ¬ f.Shows s placement) → (processFrame s f).2.placement = s.placement ∧
      (processFrame s f).2.published = s.published) := by
  have hstep := processFrame_step s f
  generalize (processFrame s f).2 = s' at hstep ⊢
  generalize (processFrame s f).1 = outcome at hstep
  have hplacement : ∀ p q, f.Shows s p → f.Shows s q → p = q := fun p q hp hq =>
    Except.ok.inj (hp.2.2.symm.trans hq.2.2)
  cases hstep with
  | fails _ hnone | recreates hnone =>
    exact ⟨fun placement hshows => absurd hshows (hnone placement), fun _ => ⟨rfl, rfl⟩⟩
  | reveals shown hshown | publishes shown hshown =>
    refine ⟨fun placement hshows _ => ?_, fun hnone => absurd hshown (hnone shown)⟩
    rw [hplacement placement shown hshows hshown]
    rfl
  | holds shown _ hshown hsame | passes shown _ hshown hsame =>
    refine ⟨fun placement hshows hpublished => ?_, fun hnone => absurd hshown (hnone shown)⟩
    rw [hplacement placement shown hshows hshown]
    exact (hsame hpublished).symm

end OneFrame

/-! ### Runs -/

section Runs

abbrev transitionSystem (start : TransitionState) : System TransitionState NativeFrame :=
  System.computed start fun s f => some (processFrame s f).2

variable {extent : PixelExtent} {placement : TargetPlacement} {anchor : ℤ × ℕ}
  {start s u : TransitionState} {f : NativeFrame} {trail : List (TransitionState × NativeFrame)}

theorem step_eq (h : (transitionSystem start).step s f u) : u = (processFrame s f).2 :=
  (Option.some.inj h).symm

theorem published_along (hstart : start = .opened extent placement anchor)
    (h : (transitionSystem start).Path start trail s) :
    (s.published = true ↔ ∃ x ∈ trail, Publishes x.1 x.2) ∧
      (s.pendingDiscontinuity = true → s.published = true) := by
  refine h.along (P := fun trail s => (s.published = true ↔ ∃ x ∈ trail, Publishes x.1 x.2) ∧
    (s.pendingDiscontinuity = true → s.published = true)) ?_ fun trail s f u hpath hP hstep => ?_
  · subst hstart
    exact ⟨iff_of_false Bool.false_ne_true (fun ⟨x, hx, _⟩ => by cases hx), nofun⟩
  obtain ⟨hiff, hdiscontinuity⟩ := hP
  rw [step_eq hstep]
  by_cases hp : Publishes s f
  · obtain ⟨-, placement, -, hnext, -⟩ := publishes_cases hp
    rw [hnext]
    exact ⟨iff_of_true rfl ⟨(s, f), List.mem_append_right _ (List.mem_singleton_self _), hp⟩, nofun⟩
  · obtain ⟨hpublished, -, -⟩ := unpublished_flags hp
    refine ⟨?_, fun hd => ?_⟩
    · rw [hpublished, hiff]
      constructor
      · rintro ⟨x, hx, hpx⟩
        exact ⟨x, List.mem_append_left _ hx, hpx⟩
      · rintro ⟨x, hx, hpx⟩
        rcases List.mem_append.mp hx with hold | hnew
        · exact ⟨x, hold, hpx⟩
        · rw [List.mem_singleton.mp hnew] at hpx
          exact absurd hpx hp
    · rw [hpublished]
      have houtcome := processFrame_step s f
      generalize (processFrame s f).2 = s' at houtcome hd hpublished
      generalize (processFrame s f).1 = outcome at houtcome
      cases houtcome with
      | recreates => exact hd
      | publishes => cases hd
      | fails | reveals | holds | passes => exact hdiscontinuity hd

theorem flag_lasts {flag : TransitionState → Bool}
    (hkeep : ∀ trail s f, (transitionSystem start).Path start trail s → ¬ Publishes s f →
      flag s = true → flag (processFrame s f).2 = true)
    {front : List (TransitionState × NativeFrame)} (hfront : (transitionSystem start).Path start front s)
    (h : (transitionSystem start).Path s trail u) (hflag : flag s = true)
    (hnone : ∀ y ∈ trail, ¬ Publishes y.1 y.2) : flag u = true := by
  induction h with
  | nil => exact hflag
  | @snoc t u trail f hpath hstep ih =>
    have hbefore := ih fun y hy => hnone y (List.mem_append_left _ hy)
    have hlast := hnone _ (List.mem_append_right _ (List.mem_singleton_self _))
    obtain ⟨front', hfront'⟩ : ∃ front', (transitionSystem start).Path start front' t :=
      System.Leads.trans ⟨front, hfront⟩ ⟨trail, hpath⟩
    rw [step_eq hstep]
    exact hkeep front' t f hfront' hlast hbefore

theorem fence_stands {bound fence : ℤ} (h : (transitionSystem start).Path s trail u)
    (hfence : s.movementNotBefore = some fence) (hbound : bound ≤ fence) :
    (∃ fence', u.movementNotBefore = some fence' ∧ bound ≤ fence') ∨
      ∃ k ∈ trail, Passes k.1 k.2 ∧ bound ≤ k.2.nativeTime := by
  induction h with
  | nil => exact Or.inl ⟨fence, hfence, hbound⟩
  | @snoc t u trail f hpath hstep ih =>
    rcases ih with ⟨found, hfound, hle⟩ | ⟨k, hk, hpasses, hle⟩
    · rw [step_eq hstep]
      rcases fence_step (f := f) hfound with ⟨next, hnext, hmono⟩ | ⟨hpasses, hlate⟩
      · exact Or.inl ⟨next, hnext, hle.trans hmono⟩
      · exact Or.inr ⟨(t, f), List.mem_append_right _ (List.mem_singleton_self _), hpasses,
          hle.trans hlate⟩
    · exact Or.inr ⟨k, List.mem_append_left _ hk, hpasses, hle⟩

end Runs

/-! ### The law -/

/-- A frame was published before `x`, and `x` shows another geometry than was observed last. -/
def Revealed (front : List (TransitionState × NativeFrame)) (x : TransitionState × NativeFrame) : Prop :=
  (∃ y ∈ front, Publishes y.1 y.2) ∧
    ∃ placement, x.2.Shows x.1 placement ∧ geometry placement ≠ geometry x.1.placement

/-- What holds after a run, and of the frame that comes next. -/
structure TransitionLaw (trail : List (TransitionState × NativeFrame)) (s : TransitionState) : Prop where
  /-- A published frame is as late as every change observed before it, or a frame as late as the change
  was let through since. -/
  fence : ∀ f, Publishes s f → ∀ front x back, trail = front ++ x :: back → Revealed front x →
    x.2.instant ≤ f.nativeTime ∨ ∃ k ∈ back, Passes k.1 k.2 ∧ x.2.instant ≤ k.2.nativeTime
  /-- Where no frame let through before it is later, it is as late as every change. -/
  ordered : ∀ f, Publishes s f → (∀ k ∈ trail, Passes k.1 k.2 → k.2.nativeTime ≤ f.nativeTime) →
    ∀ front x back, trail = front ++ x :: back → Revealed front x → x.2.instant ≤ f.nativeTime
  /-- After the first publication the state holds the geometry that was observed last. -/
  remembers : ∀ front x back placement, trail = front ++ x :: back → x.2.Shows x.1 placement →
    (∀ y ∈ back, ∀ other, ¬ y.2.Shows y.1 other) → (∃ y ∈ trail, Publishes y.1 y.2) →
    geometry s.placement = geometry placement
  /-- A frame with another geometry is not published by the observation that reveals it. -/
  revealing : ∀ f placement, (∃ y ∈ trail, Publishes y.1 y.2) → f.Shows s placement →
    geometry placement ≠ geometry s.placement → ¬ Publishes s f
  /-- The first frame published after a change says so. -/
  change : ∀ f capturedAt placement continuity,
    (processFrame s f).1 = .published capturedAt placement continuity →
    ∀ front x back, trail = front ++ x :: back → Revealed front x → (∀ y ∈ back, ¬ Publishes y.1 y.2) →
    continuity = .geometryChanged ∨ continuity = .discontinuous
  /-- The first frame published after a resize that follows a publication is discontinuous. -/
  resize : ∀ f capturedAt placement continuity,
    (processFrame s f).1 = .published capturedAt placement continuity →
    ∀ front x back, trail = front ++ x :: back → Resizes x.1 x.2 →
    (∃ y ∈ front, Publishes y.1 y.2) → (∀ y ∈ back, ¬ Publishes y.1 y.2) → continuity = .discontinuous
  /-- What is pending stays pending until a publication succeeds. -/
  pending : ∀ f, ¬ Publishes s f →
    (s.pendingGeometryChange = true → (processFrame s f).2.pendingGeometryChange = true) ∧
    (s.pendingDiscontinuity = true → (processFrame s f).2.pendingDiscontinuity = true)

section Law

variable {extent : PixelExtent} {placement : TargetPlacement} {anchor : ℤ × ℕ}
  {start s : TransitionState} {trail : List (TransitionState × NativeFrame)}

theorem Revealed.reveals (hstart : start = .opened extent placement anchor)
    {front back : List (TransitionState × NativeFrame)} {x : TransitionState × NativeFrame}
    (h : (transitionSystem start).Path start (front ++ x :: back) s) (hx : Revealed front x) :
    Reveals x.1 x.2 := by
  obtain ⟨u, hfront, -, -⟩ := h.around
  exact ⟨(published_along hstart hfront).1.mpr hx.1, hx.2⟩

theorem change_pending (h : (transitionSystem start).Path start trail s)
    {front back : List (TransitionState × NativeFrame)} {x : TransitionState × NativeFrame}
    (htrail : trail = front ++ x :: back) (hreveals : Reveals x.1 x.2)
    (hnone : ∀ y ∈ back, ¬ Publishes y.1 y.2) : s.pendingGeometryChange = true := by
  subst htrail
  obtain ⟨u, hfront, hstep, hback⟩ := h.around
  obtain ⟨-, placement, hnext⟩ := reveals_cases hreveals
  have hflag : u.pendingGeometryChange = true := by
    rw [step_eq hstep, hnext]
    rfl
  exact flag_lasts (fun _ _ _ _ hp => (unpublished_flags hp).2.1) (hfront.snoc hstep) hback hflag hnone

theorem resize_pending (hstart : start = .opened extent placement anchor)
    (h : (transitionSystem start).Path start trail s)
    {front back : List (TransitionState × NativeFrame)} {x : TransitionState × NativeFrame}
    (htrail : trail = front ++ x :: back) (hresizes : Resizes x.1 x.2)
    (hpublished : ∃ y ∈ front, Publishes y.1 y.2) (hnone : ∀ y ∈ back, ¬ Publishes y.1 y.2) :
    s.pendingDiscontinuity = true := by
  subst htrail
  obtain ⟨u, hfront, hstep, hback⟩ := h.around
  have hflag : u.pendingDiscontinuity = true := by
    rw [step_eq hstep, resizes_cases hresizes]
    exact (published_along hstart hfront).1.mpr hpublished
  refine flag_lasts (fun _ _ _ hpath hp => (unpublished_flags hp).2.2 ?_) (hfront.snoc hstep) hback hflag
    hnone
  exact (published_along hstart hpath).2

/-- **The geometry fence**: in every run of observed frames, a frame is not published with the geometry
of a later change, unless a frame as late as the change has been let through since, and changes stay
declared until a publication succeeds. -/
theorem geometry_fence
    (h : (transitionSystem (.opened extent placement anchor)).Path (.opened extent placement anchor) trail
      s) : TransitionLaw trail s := by
  have hfence : ∀ f, Publishes s f → ∀ front x back, trail = front ++ x :: back → Revealed front x →
      x.2.instant ≤ f.nativeTime ∨ ∃ k ∈ back, Passes k.1 k.2 ∧ x.2.instant ≤ k.2.nativeTime := by
    rintro f hp front x back rfl hrevealed
    obtain ⟨u, -, hstep, hback⟩ := h.around
    obtain ⟨-, placement, hnext⟩ := reveals_cases (hrevealed.reveals rfl h)
    obtain ⟨fence, hup, hle⟩ : ∃ fence, u.movementNotBefore = some fence ∧ x.2.instant ≤ fence := by
      refine ⟨_, by rw [step_eq hstep, hnext]; rfl, ?_⟩
      cases x.1.movementNotBefore with
      | none => exact le_refl _
      | some previous => exact le_max_right ..
    rcases fence_stands hback hup hle with ⟨last, hlast, hle'⟩ | hthrough
    · obtain ⟨⟨_, _, _, hpast⟩, -⟩ := publishes_cases hp
      exact Or.inl (hle'.trans (hpast last hlast))
    · exact Or.inr hthrough
  refine ⟨hfence, fun f hp hlate front x back htrail hrevealed => ?_, ?_,
    fun f placement hpublished hshows hne => ?_, ?_, ?_,
    fun f hp => ⟨(unpublished_flags hp).2.1, (unpublished_flags hp).2.2 ?_⟩⟩
  · rcases hfence f hp front x back htrail hrevealed with hle | ⟨k, hk, hpasses, hle⟩
    · exact hle
    · have hmem : k ∈ trail := by
        rw [htrail]
        exact List.mem_append_right _ (List.mem_cons_of_mem _ hk)
      exact hle.trans (hlate k hmem hpasses)
  · rintro front x back placement rfl hshows hnone hbefore
    have hpublished := (published_along rfl h).1.mpr hbefore
    obtain ⟨u, -, hstep, hback⟩ := h.around
    have hlast : s.placement = u.placement ∧ s.published = u.published := by
      clear h hfence hpublished hbefore
      induction hback with
      | nil => exact ⟨rfl, rfl⟩
      | @snoc t v trail f hpath hstep' ih =>
        obtain ⟨hplacement, hflag⟩ := ih fun y hy => hnone y (List.mem_append_left _ hy)
        have hquiet := remembers_step.2 (hnone _ (List.mem_append_right _ (List.mem_singleton_self _)))
        rw [step_eq hstep']
        exact ⟨hquiet.1.trans hplacement, hquiet.2.trans hflag⟩
    rw [hlast.1]
    rw [hlast.2] at hpublished
    rw [step_eq hstep] at hpublished ⊢
    exact remembers_step.1 placement hshows hpublished
  · exact (reveals_cases ⟨(published_along rfl h).1.mpr hpublished, placement, hshows, hne⟩).1
  · intro f capturedAt placement continuity hout front x back htrail hrevealed hnone
    have hpending := change_pending h htrail (Revealed.reveals rfl (htrail ▸ h) hrevealed) hnone
    obtain ⟨-, _, -, -, hpublished⟩ := publishes_cases ⟨_, _, _, hout⟩
    obtain ⟨-, -, rfl⟩ := Outcome.published.inj (hout.symm.trans hpublished)
    unfold TransitionState.continuity
    rw [if_pos hpending]
    split_ifs
    · exact Or.inr rfl
    · exact Or.inl rfl
  · intro f capturedAt placement continuity hout front x back htrail hresizes hbefore hnone
    have hpending := resize_pending rfl h htrail hresizes hbefore hnone
    obtain ⟨-, _, -, -, hpublished⟩ := publishes_cases ⟨_, _, _, hout⟩
    obtain ⟨-, -, rfl⟩ := Outcome.published.inj (hout.symm.trans hpublished)
    unfold TransitionState.continuity
    rw [if_pos hpending]
  · exact (published_along rfl h).2

end Law

/-! ### A window that moves -/

section Sample

theorem unit_pos : (0 : ℚ) < 1 := by decide +kernel

theorem size_pos : (0 : ℚ) < 4 := by decide +kernel

def samplePlacement (origin : ℚ) : TargetPlacement :=
  ⟨(origin, 0), (4, 4), ⟨1, 1, unit_pos, unit_pos⟩, ⟨1, 1, unit_pos, unit_pos⟩, size_pos, size_pos⟩

def plainFrame (origin : ℚ) (nativeTime : ℤ) (observedNow : Option ℤ) : NativeFrame :=
  ⟨.ok (), ⟨4, 4⟩, nativeTime, .ok (), .ok (), .ok (samplePlacement origin), observedNow, .ok true, .ok (),
    .ok ()⟩

abbrev sampleStart : TransitionState := .opened ⟨4, 4⟩ (samplePlacement 0) (0, 0)

def observe (frames : List NativeFrame) : TransitionState :=
  frames.foldl (fun s f => (processFrame s f).2) sampleStart

/-- A window is published, moves, and is published again with a frame from after the move. -/
theorem geometry_fence_sample :
    ∃ trail, TransitionLaw trail (observe [plainFrame 0 90 none, plainFrame 20 95 (some 100),
      plainFrame 20 99 none, plainFrame 20 100 none]) := by
  have hpath := ((((System.Path.nil (S := transitionSystem sampleStart) sampleStart).snoc
    (i := plainFrame 0 90 none) rfl).snoc (i := plainFrame 20 95 (some 100)) rfl).snoc
    (i := plainFrame 20 99 none) rfl).snoc (i := plainFrame 20 100 none) rfl
  exact ⟨_, geometry_fence hpath⟩

/-- A frame from before the move is published once a frame from after it has been. -/
theorem stale_frame_published :
    ¬ ∀ (trail : List (TransitionState × NativeFrame)) (s : TransitionState) (f : NativeFrame),
      (transitionSystem sampleStart).Path sampleStart trail s → Publishes s f →
        ∀ front x back, trail = front ++ x :: back → Revealed front x → x.2.instant ≤ f.nativeTime := by
  intro hclaim
  have hpath := (((System.Path.nil (S := transitionSystem sampleStart) sampleStart).snoc
    (i := plainFrame 0 90 none) rfl).snoc (i := plainFrame 20 95 (some 100)) rfl).snoc
    (i := plainFrame 20 150 none) rfl
  have hpublishes : Publishes (observe [plainFrame 0 90 none, plainFrame 20 95 (some 100),
      plainFrame 20 150 none]) (plainFrame 20 50 none) :=
    ⟨5000, samplePlacement 20, .continuous, by decide +kernel⟩
  have hfirst : Publishes sampleStart (plainFrame 0 90 none) :=
    ⟨9000, samplePlacement 0, .continuous, by decide +kernel⟩
  have hrevealed : Revealed [(sampleStart, plainFrame 0 90 none)]
      (observe [plainFrame 0 90 none], plainFrame 20 95 (some 100)) :=
    ⟨⟨_, List.mem_singleton_self _, hfirst⟩, samplePlacement 20, ⟨rfl, by decide +kernel, rfl⟩,
      by decide +kernel⟩
  have hlate := hclaim _ _ _ hpath hpublishes [(sampleStart, plainFrame 0 90 none)]
    (observe [plainFrame 0 90 none], plainFrame 20 95 (some 100)) [_] rfl hrevealed
  exact absurd hlate (by decide +kernel)

end Sample

end MadoPilot.Platform.WindowsTransition
