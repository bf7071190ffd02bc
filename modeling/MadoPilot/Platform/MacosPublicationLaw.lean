import MadoPilot.Platform.MacosPublication

/-!
# The continuity of macOS publications

A run of a session is a sequence of committed samples, between which drops are recorded, the producer
stops, and the stream is closed and waited on.  Its *log* is what became of the samples.

* `Continues` : what a publication has to do with the samples before it;
* `Remembers.perform` : what the two remembered extents and the stream have to do with the log;
* `publication_continuity` : the law of the publications.
-/

namespace MadoPilot.Platform.MacosPublication

open MadoPilot.Core MadoPilot.Capture MadoPilot.Lib
open MadoPilot.Platform.MacosReconfigure (FrameInfo ReconfigurePublication)

/-! ### Runs -/

/-- What happens to a session. -/
inductive Input where
  | sample (info : Sample) (handle : ℕ) (answer : ReconfigurePublication)
  | recordDrop
  | stopped (fault : CaptureFault)
  | beginClose
  | close
  | wait (waiters : ℕ)

structure Observation where
  info : Sample
  outcome : Outcome

section Runs

variable (round : ℚ → Option ℚ) (core : SessionCore)

def withInner (s : Session) (inner : Inner) : Session := { s with state := { s.state with inner := inner } }

def perform (s : Session) : Input → Option Observation × Session
  | .sample info handle answer =>
    let r := commitStagedFrame round core s info handle answer
    (some ⟨info, r.1⟩, r.2)
  | .recordDrop => (none, { s with state := tryRecordDrop s.state })
  | .stopped fault => (none, failNative core s fault)
  | .beginClose =>
    (none, { s with state := { s.state with acceptingDrops := false, inner := s.state.inner.beginClose } })
  | .close => (none, withInner s s.state.inner.close)
  | .wait waiters => (none, withInner s { s.state.inner with waiters := waiters })

/-- A session on a stream of its own, whose samples had the extent `opening` when it was opened. -/
def Session.start (stream : StreamId) (opening : PixelExtent) (geometry : GeometryLedger NativeBounds) :
    Session :=
  ⟨⟨opening, opening, none⟩, .build stream true, geometry⟩

def sessionSystem (start : Session) : System Session (Input × Option Observation) where
  init s := s = start
  step s label s' := perform round core s label.1 = (label.2, s')

end Runs

def log (trail : List (Session × (Input × Option Observation))) : List Observation :=
  trail.filterMap fun x => x.2.2

def Outcome.frame : Outcome → Option PublishedFrame
  | .published frame => some frame
  | _ => none

def lastPublished (observations : List Observation) : Option PublishedFrame :=
  (observations.filterMap fun o => o.outcome.frame).getLast?

/-- The extent that the last sample had, or the one the session was opened with. -/
def lastExtent (opening : PixelExtent) (observations : List Observation) : Option PixelExtent :=
  (observations.getLast?.map fun o => o.info.extent).getD (some opening)

structure Continues (round : ℚ → Option ℚ) (opening : PixelExtent) (before : List Observation)
    (info : Sample) (p : PublishedFrame) : Prop where
  extent : info.extent = some p.frame.descriptor.extent
  placement : framePlacement round info = .ok p.placement ∧ p.frame.transform.target = some p.placement
  nativeBounds : info.nativeBounds = some p.nativeBounds
  settled : lastExtent opening before = some p.frame.descriptor.extent
  first : lastPublished before = none → p.continuity = .continuous
  discontinuous : ∀ q, lastPublished before = some q →
    (p.continuity = .discontinuous ↔ p.frame.descriptor.extent ≠ q.frame.descriptor.extent)
  geometryChanged : ∀ q, lastPublished before = some q →
    p.frame.descriptor.extent = q.frame.descriptor.extent →
    (p.continuity = .geometryChanged ↔
      p.placement ≠ q.placement ∨ q.nativeBounds.captureEquivalentTo round p.nativeBounds = false)
  epoch : ∀ q, lastPublished before = some q → q.frame.stamp.epoch ≤ p.frame.stamp.epoch ∧
    (q.frame.stamp.epoch < p.frame.stamp.epoch ↔ p.frame.descriptor.extent ≠ q.frame.descriptor.extent)

def Lawful (round : ℚ → Option ℚ) (opening : PixelExtent) (observations : List Observation) : Prop :=
  ∀ before o after p, observations = before ++ o :: after → o.outcome = .published p →
    Continues round opening before o.info p

/-! ### One more observation -/

theorem lastPublished_published (observations : List Observation) (info : Sample) (p : PublishedFrame) :
    lastPublished (observations ++ [⟨info, .published p⟩]) = some p := by
  unfold lastPublished
  rw [List.filterMap_append]
  exact List.getLast?_concat ..

theorem lastPublished_other {observations : List Observation} {o : Observation}
    (h : o.outcome.frame = none) : lastPublished (observations ++ [o]) = lastPublished observations := by
  have hnone : [o].filterMap (fun o => o.outcome.frame) = [] := by
    rw [List.filterMap_cons_none (f := fun o : Observation => o.outcome.frame) h, List.filterMap_nil]
  unfold lastPublished
  rw [List.filterMap_append, hnone, List.append_nil]

theorem lastExtent_concat (opening : PixelExtent) (observations : List Observation) (o : Observation) :
    lastExtent opening (observations ++ [o]) = o.info.extent := by
  unfold lastExtent
  rw [List.getLast?_concat]
  rfl

theorem Lawful.concat {round : ℚ → Option ℚ} {opening : PixelExtent} {observations : List Observation}
    {o : Observation} (h : Lawful round opening observations)
    (hlast : ∀ p, o.outcome = .published p → Continues round opening observations o.info p) :
    Lawful round opening (observations ++ [o]) := by
  intro before o' after p hsplit hp
  rcases List.eq_nil_or_concat after with rfl | ⟨after', last, rfl⟩
  · obtain ⟨rfl, hone⟩ := List.append_inj' hsplit rfl
    obtain rfl := List.singleton_inj.mp hone
    exact hlast p hp
  · rw [List.concat_eq_append, ← List.cons_append, ← List.append_assoc] at hsplit
    obtain ⟨hfront, -⟩ := List.append_inj' hsplit rfl
    exact h before o' after' p hfront hp

/-! ### What the session remembers -/

section Invariant

variable {round : ℚ → Option ℚ} {core : SessionCore} {opening : PixelExtent} {stream : StreamId}
  {s s' : Session} {observations : List Observation}

/-- What the session has published is what the log says, and while the stream lives the session
remembers the last sample's extent and the stream stands right after the last published frame. -/
structure Remembers (opening : PixelExtent) (stream : StreamId) (observations : List Observation)
    (s : Session) : Prop where
  published : s.transition.published = (lastPublished observations).map fun p =>
    ⟨p.frame.descriptor.extent, p.placement, p.nativeBounds⟩
  format : ∀ p, lastPublished observations = some p → p.frame.descriptor.format = .bgra8
  covers : s.state.coversTarget = true
  identity : s.state.inner.cursor.stream = stream
  extent : s.state.inner.Live → lastExtent opening observations = some s.transition.extent
  journal : s.state.inner.Live → ∃ journal : List Entry, Synced s.state.inner journal ∧
    journal.map Entry.frame = ((lastPublished observations).map PublishedFrame.frame).toList ∧
    ∀ a ∈ journal, a.Formed stream true

structure Onward (inner inner' : Inner) : Prop where
  stream : inner'.cursor.stream = inner.cursor.stream
  live : inner'.Live → inner.Live
  latest : inner'.Live → inner'.latest = inner.latest
  cursor : inner'.Live → inner'.cursor = inner.cursor
  geometry : inner'.Live → inner'.geometry = inner.geometry

theorem Onward.refl (inner : Inner) : Onward inner inner :=
  ⟨rfl, id, fun _ => rfl, fun _ => rfl, fun _ => rfl⟩

theorem Onward.of_not_live {inner inner' : Inner} (hstream : inner'.cursor.stream = inner.cursor.stream)
    (h : ¬ inner'.Live) : Onward inner inner' :=
  ⟨hstream, fun hl => absurd hl h, fun hl => absurd hl h, fun hl => absurd hl h, fun hl => absurd hl h⟩

theorem Onward.synced {inner inner' : Inner} {journal : List Entry} (h : Onward inner inner')
    (hlive : inner'.Live) (hs : Synced inner journal) : Synced inner' journal := by
  cases journal with
  | nil =>
    unfold Synced at *
    rw [h.latest hlive, h.cursor hlive]
    exact hs
  | cons a journal =>
    unfold Synced at *
    rw [h.latest hlive, h.cursor hlive, h.geometry hlive]
    exact hs

theorem Remembers.onward {observations' : List Observation} (h : Remembers opening stream observations s)
    (hpublished : s'.transition.published = s.transition.published)
    (hcovers : s'.state.coversTarget = s.state.coversTarget)
    (hinner : Onward s.state.inner s'.state.inner)
    (hlast : lastPublished observations' = lastPublished observations)
    (hextent : s'.state.inner.Live → lastExtent opening observations' = some s'.transition.extent) :
    Remembers opening stream observations' s' := by
  refine ⟨?_, ?_, hcovers.trans h.covers, hinner.stream.trans h.identity, hextent, fun hlive => ?_⟩
  · rw [hpublished, hlast, h.published]
  · rw [hlast]
    exact h.format
  · obtain ⟨journal, hsynced, hframes, hformed⟩ := h.journal (hinner.live hlive)
    refine ⟨journal, hinner.synced hlive hsynced, ?_, hformed⟩
    rw [hlast]
    exact hframes

theorem remembers_start (stream : StreamId) (opening : PixelExtent)
    (geometry : GeometryLedger NativeBounds) :
    Remembers opening stream [] (Session.start stream opening geometry) := by
  have hnone : lastPublished [] = none := rfl
  refine ⟨rfl, ?_, rfl, rfl, fun _ => rfl, fun _ => ⟨[], ⟨rfl, rfl, rfl⟩, rfl, ?_⟩⟩
  · intro p hp
    rw [hnone] at hp
    cases hp
  · intro a ha
    cases ha

/-! ### One publication -/

theorem continuityAgainst_some {last : Published} {extent : PixelExtent} {placement : TargetPlacement}
    {nativeBounds : NativeBounds} :
    (continuityAgainst round (some last) extent placement nativeBounds = .discontinuous ↔
      extent ≠ last.extent) ∧
    (extent = last.extent →
      (continuityAgainst round (some last) extent placement nativeBounds = .geometryChanged ↔
        placement ≠ last.placement ∨ last.nativeBounds.captureEquivalentTo round nativeBounds = false)) := by
  by_cases hextent : last.extent = extent
  · have hreach : continuityAgainst round (some last) extent placement nativeBounds =
        if last.placement ≠ placement then .geometryChanged
        else if last.nativeBounds.captureEquivalentTo round nativeBounds = false then .geometryChanged
        else .continuous := if_neg (not_not.mpr hextent)
    rw [hreach]
    by_cases hplacement : last.placement = placement
    · rw [if_neg (not_not.mpr hplacement)]
      by_cases hbounds : last.nativeBounds.captureEquivalentTo round nativeBounds = false
      · rw [if_pos hbounds]
        simp [hextent, hbounds]
      · rw [if_neg hbounds]
        simp [hextent, hbounds, hplacement]
    · rw [if_pos hplacement]
      simp [hextent, Ne.symm hplacement]
  · have hreach : continuityAgainst round (some last) extent placement nativeBounds = .discontinuous :=
      if_pos hextent
    rw [hreach]
    simp [Ne.symm hextent]

theorem epoch_follows {b a : Entry} (h : b.Follows a)
    (hformat : b.frame.descriptor.format = a.frame.descriptor.format)
    (hdeclared : b.request.continuity = .discontinuous →
      b.frame.descriptor.extent ≠ a.frame.descriptor.extent) :
    a.frame.stamp.epoch ≤ b.frame.stamp.epoch ∧
      (a.frame.stamp.epoch < b.frame.stamp.epoch ↔
        b.frame.descriptor.extent ≠ a.frame.descriptor.extent) := by
  by_cases hextent : b.frame.descriptor.extent = a.frame.descriptor.extent
  · have hkeeps : ¬ b.Reopens a := by
      rintro (hne | hne | hdiscontinuous)
      · exact hne hextent
      · exact hne hformat
      · exact hdeclared hdiscontinuous hextent
    obtain ⟨hepoch, -⟩ := h.resume hkeeps
    exact ⟨hepoch.ge, iff_of_false (by omega) (not_not.mpr hextent)⟩
  · obtain ⟨hepoch, -⟩ := h.reopen (Or.inl hextent)
    exact ⟨by omega, iff_of_true (by omega) hextent⟩

theorem Remembers.publishes {info : Sample} {handle : ℕ} {p : PublishedFrame}
    (h : Remembers opening stream observations s)
    (hobserves : Observes round core s info handle (.published p) s') :
    Continues round opening observations info p ∧
      Remembers opening stream (observations ++ [⟨info, .published p⟩]) s' := by
  cases hobserves with
  | publishes placement nativeBounds continuity descriptor prepared _ hextent hplacement hbounds
      hdescriptor hformat hcontinuity hresolves hextent' hpublished' hinner' hcovers' =>
    obtain ⟨drops, hresolves⟩ := hresolves
    obtain ⟨hterminal, hopened, -, -, htransform⟩ := prepare_eq_ok hresolves
    obtain ⟨journal, hsynced, hframes, hformed⟩ := h.journal ⟨hopened, hterminal⟩
    rw [h.covers] at hresolves
    obtain ⟨hextends, hform, hsynced', -, -⟩ := prepare_extends hresolves hsynced hformed h.identity
    obtain ⟨-, hcursor, -⟩ := prepare_stream hresolves
    have hdeclared : ∀ q, lastPublished observations = some q →
        (continuity = .discontinuous ↔ descriptor.extent ≠ q.frame.descriptor.extent) ∧
        (descriptor.extent = q.frame.descriptor.extent → (continuity = .geometryChanged ↔
          placement ≠ q.placement ∨
            q.nativeBounds.captureEquivalentTo round nativeBounds = false)) := by
      intro q hq
      rw [hcontinuity, h.published, hq, hdescriptor]
      exact continuityAgainst_some
    refine ⟨⟨?_, ⟨hplacement, ?_⟩, hbounds, ?_, ?_, fun q hq => (hdeclared q hq).1,
      fun q hq => (hdeclared q hq).2, ?_⟩, ⟨?_, ?_, ?_, ?_, ?_, ?_⟩⟩
    · show info.extent = some descriptor.extent
      rw [hdescriptor]
      exact hextent
    · show prepared.transform.target = _
      rw [htransform]
      rfl
    · show lastExtent opening observations = some descriptor.extent
      rw [hdescriptor]
      exact h.extent ⟨hopened, hterminal⟩
    · intro hnone
      rw [h.published, hnone] at hcontinuity
      exact hcontinuity
    · intro q hq
      rw [hq] at hframes
      cases journal with
      | nil => cases hframes
      | cons a older =>
        have ha : a.frame = q.frame := (List.cons.inj hframes).1
        have hsame : descriptor.format = a.frame.descriptor.format := by
          rw [ha, h.format q hq, hformat]
        rw [← ha]
        refine epoch_follows hextends hsame fun hdiscontinuous => ?_
        rw [ha]
        exact (hdeclared q hq).1.mp hdiscontinuous
    · rw [hpublished', lastPublished_published, ← hdescriptor]
      rfl
    · intro q hq
      rw [lastPublished_published] at hq
      obtain rfl := Option.some.inj hq
      exact hformat
    · exact hcovers'.trans h.covers
    · rw [hinner']
      exact hcursor.trans h.identity
    · intro _
      rw [lastExtent_concat, hextent']
      exact hextent
    · intro _
      refine ⟨[⟨info.request core handle descriptor placement continuity,
        prepared.frame (info.request core handle descriptor placement continuity)⟩], ?_, ?_, ?_⟩
      · rw [hinner']
        exact hsynced'
      · rw [lastPublished_published]
        rfl
      · intro a ha
        obtain rfl := List.mem_singleton.mp ha
        exact hform

/-! ### Runs -/

theorem Remembers.sample {info : Sample} {handle : ℕ} {answer : ReconfigurePublication}
    {outcome : Outcome} (h : Remembers opening stream observations s)
    (hcommit : commitStagedFrame round core s info handle answer = (outcome, s')) :
    (∀ p, outcome = .published p → Continues round opening observations info p) ∧
      Remembers opening stream (observations ++ [⟨info, outcome⟩]) s' := by
  rcases @commitStagedFrame_cases round core s info handle answer with
    ⟨fault, s'', hfailed, hended, hpublished, hcursor, hcovers⟩ | ⟨hnot, hobserves⟩
  · rw [hfailed] at hcommit
    obtain ⟨rfl, rfl⟩ := Prod.mk.inj hcommit
    refine ⟨fun p hp => ?_, h.onward hpublished hcovers (.of_not_live ?_ hended)
      (lastPublished_other rfl) fun hlive => absurd hlive hended⟩
    · cases hp
    · rw [hcursor]
  · rw [hcommit] at hnot hobserves
    cases outcome with
    | failed fault => exact absurd rfl (hnot fault)
    | dropped =>
      cases hobserves with
      | drops extent _ hextent _ hkept =>
        refine ⟨fun p hp => (by cases hp), ?_⟩
        refine h.onward hkept.published hkept.covers ?_ (lastPublished_other rfl) fun _ => ?_
        · rw [hkept.inner]
          exact .refl _
        · rw [lastExtent_concat, hkept.extent]
          exact hextent
    | published p =>
      obtain ⟨hcontinues, hremembers⟩ := h.publishes hobserves
      refine ⟨fun q hq => ?_, hremembers⟩
      obtain rfl := Outcome.published.inj hq
      exact hcontinues

theorem Remembers.perform {input : Input} {observation : Option Observation}
    (h : Remembers opening stream observations s)
    (hperform : perform round core s input = (observation, s')) :
    (∀ o ∈ observation, ∀ p, o.outcome = .published p →
      Continues round opening observations o.info p) ∧
    Remembers opening stream (observations ++ observation.toList) s' := by
  -- An input that is no sample leaves the log as it is.
  have hother : ∀ s₁ : Session, (none, s₁) = (observation, s') →
      s₁.transition = s.transition → s₁.state.coversTarget = s.state.coversTarget →
      Onward s.state.inner s₁.state.inner →
      (∀ o ∈ observation, ∀ p, o.outcome = .published p →
        Continues round opening observations o.info p) ∧
      Remembers opening stream (observations ++ observation.toList) s' := by
    intro s₁ hsame htransition hcovers hinner
    obtain ⟨rfl, rfl⟩ := Prod.mk.inj hsame
    rw [Option.toList_none, List.append_nil]
    refine ⟨fun o ho => absurd ho (Option.not_mem_none o),
      h.onward (congrArg TransitionState.published htransition) hcovers hinner rfl fun hlive => ?_⟩
    rw [htransition]
    exact h.extent (hinner.live hlive)
  cases input with
  | sample info handle answer =>
    obtain ⟨rfl, rfl⟩ := Prod.mk.inj hperform
    obtain ⟨hcontinues, hremembers⟩ := h.sample (Prod.eta _).symm
    refine ⟨fun o ho => ?_, hremembers⟩
    obtain rfl := Option.some.inj ho
    exact hcontinues
  | recordDrop =>
    obtain ⟨hinner, hcovers⟩ := tryRecordDrop_inner s.state
    refine hother _ hperform rfl hcovers ?_
    show Onward s.state.inner (tryRecordDrop s.state).inner
    rw [hinner]
    exact .refl _
  | stopped fault =>
    exact hother _ hperform rfl rfl (.of_not_live rfl (terminate_not_live _ _))
  | beginClose =>
    exact hother _ hperform rfl rfl
      (.of_not_live rfl fun hlive => Lifecycle.beginClose_ne_opened _ hlive.1)
  | close =>
    refine hother _ hperform rfl rfl (.of_not_live ?_ ?_)
    · show s.state.inner.close.cursor.stream = _
      unfold Inner.close
      split_ifs <;> rfl
    · intro hlive
      have hopened : s.state.inner.close.lifecycle = .opened := hlive.1
      unfold Inner.close at hopened
      split_ifs at hopened with hclosed
      rw [not_not.mp hclosed] at hopened
      cases hopened
  | wait waiters =>
    exact hother _ hperform rfl rfl ⟨rfl, id, fun _ => rfl, fun _ => rfl, fun _ => rfl⟩

/-- **Publications continue.**  In every run, a frame is published only at the extent of the sample
before it, or at the opening extent; the declared continuity compares with the last published frame; and
the epoch grows exactly where the extent does not stay, whatever was observed and dropped in between. -/
theorem publication_continuity {geometry : GeometryLedger NativeBounds}
    {trail : List (Session × (Input × Option Observation))}
    (h : (sessionSystem round core (.start stream opening geometry)).Path
      (.start stream opening geometry) trail s) :
    Lawful round opening (log trail) := by
  have halong : Lawful round opening (log trail) ∧ Remembers opening stream (log trail) s := by
    refine System.Path.along (P := fun trail s =>
      Lawful round opening (log trail) ∧ Remembers opening stream (log trail) s) ?_ ?_ h
    · refine ⟨?_, remembers_start stream opening geometry⟩
      intro before o after p hsplit
      exact absurd hsplit.symm (List.append_ne_nil_of_right_ne_nil _ (List.cons_ne_nil _ _))
    · rintro trail s ⟨input, observation⟩ s' - ⟨hlawful, hremembers⟩ hstep
      obtain ⟨hcontinues, hremembers'⟩ := hremembers.perform hstep
      have hlog : log (trail ++ [(s, (input, observation))]) = log trail ++ observation.toList := by
        unfold log
        rw [List.filterMap_append]
        cases observation <;> rfl
      rw [hlog]
      refine ⟨?_, hremembers'⟩
      cases observation with
      | none => rwa [Option.toList_none, List.append_nil]
      | some o => exact hlawful.concat (hcontinues o rfl)
  exact halong.1

end Invariant

/-! ### Two runs -/

/-- A window of some points on a display of two pixels a point, captured at one. -/
def windowSample (width height : UInt32) (points : ℚ × ℚ) : Sample :=
  ⟨⟨width, height, width, height, false, 0, 0⟩, pixelBgra8, true, 0, .finite 1, .finite 2,
    (.finite (-120), .finite 80), (.finite points.1, .finite points.2)⟩

def windowCore : SessionCore := ⟨.window, none, (0, 0)⟩

def observe : List Sample → Session → List Observation × Session
  | [], s => ([], s)
  | info :: samples, s =>
    let r := commitStagedFrame some windowCore s info 0 .published
    let rest := observe samples r.2
    (⟨info, r.1⟩ :: rest.1, rest.2)

theorem observe_path (samples : List Sample) (start s : Session)
    {trail : List (Session × (Input × Option Observation))}
    (h : (sessionSystem some windowCore start).Path start trail s) :
    ∃ trail', (sessionSystem some windowCore start).Path start trail' (observe samples s).2 ∧
      log trail' = log trail ++ (observe samples s).1 := by
  induction samples generalizing trail s with
  | nil => exact ⟨trail, h, (List.append_nil _).symm⟩
  | cons info samples ih =>
    have hstep : (sessionSystem some windowCore start).step s
        (.sample info 0 .published,
          some ⟨info, (commitStagedFrame some windowCore s info 0 .published).1⟩)
        (commitStagedFrame some windowCore s info 0 .published).2 := rfl
    obtain ⟨trail', hpath, hlog⟩ := ih _ (h.snoc hstep)
    refine ⟨trail', hpath, hlog.trans ?_⟩
    unfold log
    rw [List.filterMap_append, List.append_assoc]
    rfl

def windowSession : Session := .start ⟨firstOrdinal, firstOrdinal⟩ ⟨320, 240⟩ .new

/-- A window that grows: the first sample of its new extent is dropped, and the next opens an epoch. -/
theorem publication_continuity_grown :
    ∃ trail s, (sessionSystem some windowCore windowSession).Path windowSession trail s ∧
      (log trail).map (fun o => o.outcome.frame.map fun p => (p.frame.stamp.epoch, p.continuity)) =
        [some (0, .continuous), none, some (1, .discontinuous)] ∧
      Lawful some ⟨320, 240⟩ (log trail) := by
  obtain ⟨trail, hpath, hlog⟩ := observe_path
    [windowSample 320 240 (320, 240), windowSample 640 480 (640, 480), windowSample 640 480 (640, 480)]
    windowSession windowSession (.nil _)
  refine ⟨trail, _, hpath, ?_, publication_continuity hpath⟩
  rw [hlog]
  decide +kernel

/-- Other bounds are the same geometry where they round to the same pixels of the display. -/
theorem other_bounds_continuous :
    ∃ trail s, (sessionSystem some windowCore windowSession).Path windowSession trail s ∧
      (log trail).map (fun o => o.outcome.frame.map fun p =>
        (p.frame.descriptor.extent, p.nativeBounds.size.1, p.continuity)) =
        [some (⟨320, 240⟩, .finite (320 + 3 / 8), .continuous),
          some (⟨320, 240⟩, .finite (320 + 7 / 16), .continuous)] := by
  obtain ⟨trail, hpath, hlog⟩ := observe_path
    [windowSample 320 240 (320 + 3 / 8, 240), windowSample 320 240 (320 + 7 / 16, 240)]
    windowSession windowSession (.nil _)
  refine ⟨trail, _, hpath, ?_⟩
  rw [hlog]
  decide +kernel

end MadoPilot.Platform.MacosPublication
