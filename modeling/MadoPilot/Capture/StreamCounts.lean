import MadoPilot.Capture.Publish
import MadoPilot.Capture.StreamLifecycle

/-!
# What a stream has counted

The counters of a stream are bounded by the length of its journal: the geometry revision always, the
epoch and the sequence as long as no drop was recorded.  A publication that is right in itself is
therefore refused for one reason only, unless the stream has published as many frames as a counter
holds.

* `climbInv_reachable` : the revision moves by at most one with each frame;
* `latest_journalled` : the maintained frame is the newest of the journal;
* `prepare_isOk` : when a publication passes.
-/

namespace MadoPilot.Capture

open MadoPilot.Core MadoPilot.Lib

variable {τ : Type*} {round : ℚ → Option ℚ} {stream : StreamId} {covers : Bool}

theorem Act.journal_suffix {t : τ} {s s' : Shared τ} {pc pc' : Pc} {e : Event}
    (h : Act round t s pc e s' pc') : s.journal <:+ s'.journal := by
  rcases h.cases with hpublish | ⟨hq, -, -⟩
  · cases hpublish with
    | settle => exact List.suffix_cons _ _
    | _ => exact List.suffix_rfl
  · rw [hq.journal]

/-! ### The geometry revision -/

/-- How far the revision is, at each step of a publication. -/
def Climbs (s : Shared τ) : Pc → Prop
  | .prepared _ p => p.geometry ≤ s.journal.length + 1
  | .installed .. => s.inner.geometry ≤ s.journal.length + 1
  | .settled .. | .announced .. => s.inner.geometry ≤ s.journal.length
  | _ => True

/-- The revision is bounded by the number of frames. -/
structure ClimbInv (w : StreamWorld τ) : Prop where
  free : w.shared.holder = none → w.shared.inner.geometry ≤ w.shared.journal.length
  phase : ∀ t, Climbs w.shared (w.pc t)

theorem climbs_of_not_publishing {s : Shared τ} {pc : Pc} (h : pc.publishing = false) :
    Climbs s pc := by
  cases pc <;> trivial

theorem Climbs.of_quiet {s s' : Shared τ} {pc : Pc} (h : Climbs s pc) (hq : Quiet s s') :
    Climbs s' pc := by
  unfold Climbs at *
  rw [hq.geometry, hq.journal]
  exact h

variable [DecidableEq τ] {w : StreamWorld τ}

theorem climbs_move {t : τ} {s' : Shared τ} {pc' : Pc}
    (h : ∀ u, (w.pc u).publishing = true ↔ w.shared.holder = some u)
    (hbefore : w.shared.holder = none ∨ w.shared.holder = some t) (ht : Climbs s' pc') :
    ∀ u, Climbs s' ((w.move t s' pc').pc u) := by
  refine w.forall_move t s' pc' ht fun u hu => climbs_of_not_publishing ?_
  rw [← Bool.not_eq_true, h u]
  rcases hbefore with hb | hb <;> simp [hb, Ne.symm hu]

theorem ClimbInv.publish {t : τ} {e : Event} {s' : Shared τ} {pc' : Pc} (hw : ClimbInv w)
    (hinv : StreamInv round stream covers w)
    (h : PublishAct round t w.shared (w.pc t) e s' pc') : ClimbInv (w.move t s' pc') := by
  have hpt := hw.phase t
  have hht := hinv.holder t
  generalize hpc : w.pc t = pc at h hpt hht
  cases h with
  | refuse hnone => exact ⟨hw.free, climbs_move hinv.holder (Or.inl hnone) trivial⟩
  | @begin r p hnone hr =>
    refine ⟨fun hn => (by cases hn), climbs_move hinv.holder (Or.inl hnone) ?_⟩
    have hgeo := nextGeometry_eq_some (prepare_eq_ok hr).2.2.1
    have hle := hw.free hnone
    change p.geometry ≤ w.shared.journal.length + 1
    rw [hgeo]
    unfold Shared.inner at hle
    split_ifs <;> omega
  | @install r p =>
    have hsome : w.shared.holder = some t := hht.1 rfl
    exact ⟨fun hn => absurd (hsome.symm.trans hn) (by simp),
      climbs_move hinv.holder (Or.inr hsome) hpt⟩
  | @settle r p =>
    have hsome : w.shared.holder = some t := hht.1 rfl
    exact ⟨fun hn => absurd (hsome.symm.trans hn) (by simp),
      climbs_move hinv.holder (Or.inr hsome) hpt⟩
  | announce =>
    have hsome : w.shared.holder = some t := hht.1 rfl
    exact ⟨fun hn => absurd (hsome.symm.trans hn) (by simp),
      climbs_move hinv.holder (Or.inr hsome) hpt⟩
  | release =>
    have hsome : w.shared.holder = some t := hht.1 rfl
    exact ⟨fun _ => hpt, climbs_move hinv.holder (Or.inr hsome) trivial⟩

theorem ClimbInv.quiet {t : τ} {s' : Shared τ} {pc' : Pc} (hw : ClimbInv w)
    (hq : Quiet w.shared s') (ha : pc'.publishing = false) : ClimbInv (w.move t s' pc') where
  free hn := by
    have hle := hw.free (hq.holder.symm.trans hn)
    change s'.inner.geometry ≤ s'.journal.length
    rw [hq.geometry, hq.journal]
    exact hle
  phase := w.forall_move t s' pc' (climbs_of_not_publishing ha) fun u _ => (hw.phase u).of_quiet hq

theorem climbInv_reachable (hw : (streamSystem round τ stream covers).Reachable w) : ClimbInv w := by
  have hstart : ClimbInv (StreamWorld.start τ stream covers) := ⟨fun _ => le_rfl, fun _ => trivial⟩
  refine threads_invariant hstart (fun w t e s' pc' hr hclimb hact => ?_) hw
  rcases hact.cases with hpub | ⟨hq, -, ha⟩
  · exact hclimb.publish (streamInv_reachable hr) hpub
  · exact hclimb.quiet hq ha

/-! ### The maintained frame -/

omit [DecidableEq τ] in
theorem CloseAct.latest {s s' : Shared τ} {pc pc' : Pc} {e : Event} (h : CloseAct s pc e s' pc')
    (hs : s.inner.lifecycle = .closed → s.inner.latest = none) :
    s'.inner.lifecycle = .closed → s'.inner.latest = none := by
  cases h with
  | terminate | close | drainClose => exact fun hc => hs (Lifecycle.beginClose_eq_closed.mp hc)
  | drainFinal =>
    intro hc
    by_cases hclosed : s.inner.lifecycle = .closed
    · have hsame : s.inner.close = s.inner := if_neg (not_not.mpr hclosed)
      change s.inner.close.latest = none
      rw [hsame]
      exact hs hclosed
    · have hclose : s.inner.close = { s.inner with lifecycle := .closed, latest := none } :=
        if_pos hclosed
      change s.inner.close.latest = none
      rw [hclose]
  | _ => exact hs

theorem closed_latest (hw : (streamSystem round τ stream covers).Reachable w) :
    w.shared.inner.lifecycle = .closed → w.shared.inner.latest = none := by
  refine threads_invariant (P := fun w : StreamWorld τ => w.shared.inner.lifecycle = .closed →
    w.shared.inner.latest = none) (fun h => (by cases h)) (fun w t e s' pc' hr hlatest hact => ?_) hw
  have hphase := (streamInv_reachable hr).phase t
  generalize w.pc t = pc at hact hphase
  cases hact with
  | close h => exact h.latest hlatest
  | drop h => cases h <;> exact hlatest
  | frame h => cases h <;> exact hlatest
  | publish h =>
    cases h with
    | install =>
      intro hc
      have hopen : w.shared.inner.lifecycle = .opened := hphase.1.1
      exact absurd (hopen.symm.trans hc) (by simp)
    | _ => exact hlatest

theorem latest_journalled (hw : (streamSystem round τ stream covers).Reachable w)
    (hn : w.shared.holder = none) {frame : Frame} (hl : w.shared.inner.latest = some frame) :
    ∃ r older, w.shared.journal = ⟨r, frame⟩ :: older := by
  have hopen : w.shared.inner.lifecycle ≠ .closed := fun hc => by
    rw [closed_latest hw hc] at hl
    cases hl
  have hsync := (streamInv_reachable hw).synced hn hopen
  cases hj : w.shared.journal with
  | nil =>
    rw [hj] at hsync
    exact absurd (hsync.1.symm.trans hl) (by simp)
  | cons a older =>
    rw [hj] at hsync
    obtain rfl : a.frame = frame := Option.some.inj (hsync.1.symm.trans hl)
    exact ⟨a.request, older, rfl⟩

/-! ### The epoch and the sequence -/

omit [DecidableEq τ] in
theorem counted {j : List Entry} (hs : Sound j) (hc : totalCost Entry.gap j = 0) :
    ∀ e older, j = e :: older → e.frame.stamp.epoch + e.frame.stamp.sequence ≤ older.length := by
  induction j with
  | nil =>
    intro e older hj
    cases hj
  | cons b j ih =>
    intro e older hj
    obtain ⟨he, hrest⟩ := List.cons.inj hj
    subst he hrest
    have hstep : stepCost Entry.gap b j + totalCost Entry.gap j = 0 := hc
    cases j with
    | nil =>
      obtain ⟨hepoch, hsequence⟩ : b.frame.stamp.epoch = 0 ∧ b.frame.stamp.sequence = 0 := hs.1
      simp [hepoch, hsequence]
    | cons a j =>
      have hle := ih hs.2 (by omega) a j rfl
      have hfollows : b.Follows a := hs.1
      have hgap : Entry.gap b a = 0 := by
        have hfirst : stepCost Entry.gap b (a :: j) = Entry.gap b a := rfl
        omega
      rw [List.length_cons]
      by_cases hreopen : b.Reopens a
      · obtain ⟨hepoch, hsequence⟩ := hfollows.reopen hreopen
        omega
      · obtain ⟨hepoch, hsequence⟩ := hfollows.resume hreopen
        unfold Entry.gap at hgap
        rw [if_pos hepoch] at hgap
        omega

/-- **When a publication passes.**  On an open stream that recorded no drop, a publication with the
right length and a placement that covers its frame is refused by no counter, as long as fewer frames
were published than a counter holds. -/
theorem prepare_isOk (hw : (streamSystem round τ stream covers).Reachable w)
    (hn : w.shared.holder = none) (hopen : w.shared.inner.lifecycle = .opened)
    (hterminal : w.shared.inner.terminal = none) (hrecorded : w.shared.recorded = 0)
    (hcount : w.shared.journal.length < u64Max) {r : Request}
    (hlen : ∀ len, r.pixelLen = some len → len = r.descriptor.byteLen)
    (hplaced : ∀ q, r.placement = some q → q.covers round r.descriptor.extent) :
    ∃ p, r.prepare round w.shared.state = .ok p := by
  have hinv := streamInv_reachable hw
  have hbooks := hinv.recorded
  have hpending : w.shared.state.pendingDrops = 0 := by omega
  have hcost : totalCost Entry.gap w.shared.journal = 0 := by omega
  have hsync := hinv.synced hn (by simp [hopen])
  have hgeometry := (climbInv_reachable hw).free hn
  refine prepare_isOk_iff.mpr ⟨hterminal, hopen, hlen, fun _ => ?_, fun hsome _ => ?_, fun _ => ?_,
    hplaced⟩
  · exact lt_of_le_of_lt hgeometry hcount
  · cases hj : w.shared.journal with
    | nil =>
      rw [hj] at hsync
      have hnone : w.shared.state.inner.latest = none := hsync.1
      rw [hnone] at hsome
      cases hsome
    | cons a older =>
      have hle := counted hinv.sound hcost a older hj
      rw [hj] at hsync hcount
      have hepoch : w.shared.state.inner.cursor.epoch = a.frame.stamp.epoch := hsync.2.1
      rw [List.length_cons] at hcount
      omega
  · have hdrops : ∀ next : ℕ, w.shared.state.inner.latest.isSome = true →
        0 < w.shared.state.pendingDrops → next + w.shared.state.pendingDrops ≤ u64Max :=
      fun next _ hpos => by omega
    cases hj : w.shared.journal with
    | nil =>
      rw [hj] at hsync
      exact ⟨0, hsync.2.2, hdrops 0⟩
    | cons a older =>
      have hle := counted hinv.sound hcost a older hj
      rw [hj] at hsync hcount
      rw [List.length_cons] at hcount
      have hnext : checkedAdd u64Max a.frame.stamp.sequence 1 = some (a.frame.stamp.sequence + 1) :=
        checkedAdd_eq_some.mpr ⟨rfl, by omega⟩
      exact ⟨_, hsync.2.2.1.trans hnext, hdrops _⟩

end MadoPilot.Capture
