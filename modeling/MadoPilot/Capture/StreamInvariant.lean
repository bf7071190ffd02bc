import MadoPilot.Capture.StreamJournal

/-!
# The invariant of one stream

`Quiet` is everything a step outside a publication can do to the shared part: the drop recorders
move the atomic counter by one, closing moves the lifecycle, and neither touches the cursor or the
journal, nor anything under the mutex while a publication holds it.  `Phase` says what a publication
knows at each of its steps, and `StreamInv` adds the books on the drops.

* `Act.cases` : a step is a publication step or a quiet one;
* `streamInv_reachable` : the invariant holds in every reachable world.
-/

namespace MadoPilot.Capture

open MadoPilot.Core MadoPilot.Lib

variable {τ : Type*}

def Pc.publishing : Pc → Bool
  | prepared .. | installed .. | settled .. | announced .. => true
  | _ => false

/-- What a step outside a publication does to the shared part. -/
structure Quiet (s s' : Shared τ) : Prop where
  holder : s'.holder = s.holder
  journal : s'.journal = s.journal
  discarded : s'.discarded = s.discarded
  coversTarget : s'.state.coversTarget = s.state.coversTarget
  cursor : s'.inner.cursor = s.inner.cursor
  geometry : s'.inner.geometry = s.inner.geometry
  latest : s'.inner.latest = s.inner.latest ∨ s'.inner.lifecycle = .closed
  locked : s.holder ≠ none → s'.inner = s.inner
  lifecycle : s.inner.lifecycle.rank ≤ s'.inner.lifecycle.rank
  terminal : s'.inner.terminal = s.inner.terminal ∨
    s.inner.terminal = none ∧ s.inner.lifecycle ≠ .closed ∧ s'.inner.lifecycle ≠ .opened
  drops : s'.state.pendingDrops = s.state.pendingDrops ∧ s'.recorded = s.recorded ∨
    s'.state.pendingDrops = s.state.pendingDrops + 1 ∧ s'.recorded = s.recorded + 1 ∧
      s'.state.pendingDrops ≤ u64Max

namespace Quiet

theorem refl (s : Shared τ) : Quiet s s :=
  ⟨rfl, rfl, rfl, rfl, rfl, rfl, Or.inl rfl, fun _ => rfl, le_rfl, Or.inl rfl, Or.inl ⟨rfl, rfl⟩⟩

theorem refuseDrops (s : Shared τ) : Quiet s s.refuseDrops :=
  ⟨rfl, rfl, rfl, rfl, rfl, rfl, Or.inl rfl, fun _ => rfl, le_rfl, Or.inl rfl, Or.inl ⟨rfl, rfl⟩⟩

theorem setWaiters {s : Shared τ} (h : s.holder = none) (n : ℕ) : Quiet s (s.setWaiters n) :=
  ⟨rfl, rfl, rfl, rfl, rfl, rfl, Or.inl rfl, fun hn => absurd h hn, le_rfl, Or.inl rfl,
    Or.inl ⟨rfl, rfl⟩⟩

theorem beginClose {s : Shared τ} (h : s.holder = none) : Quiet s (s.setInner s.inner.beginClose) :=
  ⟨rfl, rfl, rfl, rfl, rfl, rfl, Or.inl rfl, fun hn => absurd h hn,
    s.inner.lifecycle.rank_le_beginClose, Or.inl rfl, Or.inl ⟨rfl, rfl⟩⟩

theorem terminate {s : Shared τ} (h : s.holder = none) (fault : CaptureFault) :
    Quiet s (s.setInner (s.inner.terminate fault)) := by
  refine ⟨rfl, rfl, rfl, rfl, rfl, rfl, Or.inl rfl, fun hn => absurd h hn,
    s.inner.lifecycle.rank_le_beginClose, ?_, Or.inl ⟨rfl, rfl⟩⟩
  by_cases hc : s.inner.lifecycle ≠ .closed ∧ s.inner.terminal = none
  · exact Or.inr ⟨hc.2, hc.1, s.inner.lifecycle.beginClose_ne_opened⟩
  · exact Or.inl (if_neg hc)

theorem close {s : Shared τ} (h : s.holder = none) : Quiet s (s.setInner s.inner.close) := by
  by_cases hc : s.inner.lifecycle = .closed
  · have hid : s.setInner s.inner.close = s := by
      rw [Inner.close, if_neg (not_not.2 hc)]
      rfl
    rw [hid]
    exact refl s
  · have hcl : s.inner.close = { s.inner with lifecycle := .closed, latest := none } := if_pos hc
    rw [hcl]
    exact ⟨rfl, rfl, rfl, rfl, rfl, rfl, Or.inr rfl, fun hn => absurd h hn,
      s.inner.lifecycle.rank_le_two, Or.inl rfl, Or.inl ⟨rfl, rfl⟩⟩

end Quiet

/-! ### Steps outside a publication -/

theorem DropAct.quiet {s s' : Shared τ} {pc pc' : Pc} {e : Event} (h : DropAct s pc e s' pc') :
    Quiet s s' ∧ pc.publishing = false ∧ pc'.publishing = false := by
  cases h with
  | record hn =>
    obtain ⟨hv, hle⟩ := checkedAdd_eq_some.1 hn
    refine ⟨⟨rfl, rfl, rfl, rfl, rfl, rfl, Or.inl rfl, fun _ => rfl, le_rfl, Or.inl rfl,
      Or.inr ⟨hv, rfl, ?_⟩⟩, rfl, rfl⟩
    exact hv ▸ hle
  | notAccepting | accepting | nonePublished | somePublished | exhausted =>
    exact ⟨.refl _, rfl, rfl⟩

theorem CloseAct.quiet {s s' : Shared τ} {pc pc' : Pc} {e : Event} (h : CloseAct s pc e s' pc') :
    Quiet s s' ∧ pc.publishing = false ∧ pc'.publishing = false := by
  cases h with
  | terminateCall | closeCall | drainCall => exact ⟨.refuseDrops _, rfl, rfl⟩
  | terminate h => exact ⟨.terminate h _, rfl, rfl⟩
  | close h => exact ⟨.beginClose h, rfl, rfl⟩
  | drainClose h => exact ⟨.beginClose h, rfl, rfl⟩
  | drainFinal h => exact ⟨.close h, rfl, rfl⟩
  | drainRefused | drainAdmitted | drainSeesClosed | drainSeesIdle | drainWaits | drainDone
  | drainInterrupted | drainCommits | drainExpires | drainWakes => exact ⟨.refl _, rfl, rfl⟩

theorem FrameAct.quiet {s s' : Shared τ} {pc pc' : Pc} {e : Event} (h : FrameAct s pc e s' pc') :
    Quiet s s' ∧ pc.publishing = false ∧ pc'.publishing = false := by
  cases h with
  | registers h => exact ⟨.setWaiters h _, rfl, rfl⟩
  | wakes h => exact ⟨.setWaiters h _, rfl, rfl⟩
  | call | refused | admitted | terminal | notOpen | foreign | selected | expires | retries
  | interrupted | commits | final | commitCall | commitRefused | commitAdmitted
  | commitInterrupted | commitCommits | commitFinal => exact ⟨.refl _, rfl, rfl⟩

theorem Act.cases {round : ℚ → Option ℚ} {t : τ} {s s' : Shared τ} {pc pc' : Pc} {e : Event}
    (h : Act round t s pc e s' pc') :
    PublishAct round t s pc e s' pc' ∨
      Quiet s s' ∧ pc.publishing = false ∧ pc'.publishing = false := by
  cases h with
  | publish h => exact Or.inl h
  | drop h => exact Or.inr h.quiet
  | close h => exact Or.inr h.quiet
  | frame h => exact Or.inr h.quiet

/-! ### The invariant -/

def Inner.Live (inner : Inner) : Prop := inner.lifecycle = .opened ∧ inner.terminal = none

section Invariant

variable (round : ℚ → Option ℚ) (stream : StreamId) (covers : Bool)

def Phase (s : Shared τ) : Pc → Prop
  | .prepared r p => s.inner.Live ∧ Synced s.inner s.journal ∧
      ∃ drops ≤ s.state.pendingDrops, Resolves round covers s.inner drops r p
  | .installed r p => s.inner.Live ∧ Synced s.inner (⟨r, p.frame r⟩ :: s.journal) ∧
      (Entry.mk r (p.frame r)).Extends s.journal ∧ (Entry.mk r (p.frame r)).Formed stream covers ∧
      p.consumedDrops = stepCost Entry.gap ⟨r, p.frame r⟩ s.journal ∧
      p.consumedDrops ≤ s.state.pendingDrops
  | .settled r p | .announced r p => s.inner.Live ∧ Synced s.inner s.journal ∧
      s.journal.head? = some ⟨r, p.frame r⟩
  | _ => True

structure StreamInv (w : StreamWorld τ) : Prop where
  identity : w.shared.inner.cursor.stream = stream
  coverage : w.shared.state.coversTarget = covers
  formed : ∀ e ∈ w.shared.journal, e.Formed stream covers
  sound : Sound w.shared.journal
  holder : ∀ t, (w.pc t).publishing = true ↔ w.shared.holder = some t
  synced : w.shared.holder = none → w.shared.inner.lifecycle ≠ .closed →
    Synced w.shared.inner w.shared.journal
  phase : ∀ t, Phase round stream covers w.shared (w.pc t)
  pending : w.shared.state.pendingDrops ≤ u64Max
  recorded : w.shared.recorded =
    w.shared.discarded + w.shared.state.pendingDrops + totalCost Entry.gap w.shared.journal
  discarded : w.shared.discarded = 0

end Invariant

section Steps

variable {round : ℚ → Option ℚ} {stream : StreamId} {covers : Bool} {s s' : Shared τ}

theorem phase_of_not_publishing {pc : Pc} (h : pc.publishing = false) :
    Phase round stream covers s pc := by
  cases pc <;> trivial

theorem Phase.of_quiet {pc : Pc} (h : Phase round stream covers s pc) (hq : Quiet s s')
    (hh : pc.publishing = true → s.holder ≠ none) : Phase round stream covers s' pc := by
  have hle : s.state.pendingDrops ≤ s'.state.pendingDrops := by
    rcases hq.drops with ⟨hd, -⟩ | ⟨hd, -⟩ <;> omega
  cases pc with
  | prepared r p =>
    obtain ⟨hlive, hs, drops, hdrops, hr⟩ := h
    have hi := hq.locked (hh rfl)
    rw [Phase, hi, hq.journal]
    exact ⟨hlive, hs, drops, hdrops.trans hle, hr⟩
  | installed r p =>
    obtain ⟨hlive, hs, hext, hf, hc, hp⟩ := h
    have hi := hq.locked (hh rfl)
    rw [Phase, hi, hq.journal]
    exact ⟨hlive, hs, hext, hf, hc, hp.trans hle⟩
  | settled r p | announced r p =>
    have hi := hq.locked (hh rfl)
    simp only [Phase] at h ⊢
    rw [hi, hq.journal]
    exact h
  | _ => trivial

theorem settle_books {r : Request} {p : Prepared} (hpend : s.state.pendingDrops ≤ u64Max)
    (hc : p.consumedDrops = stepCost Entry.gap ⟨r, p.frame r⟩ s.journal)
    (hp : p.consumedDrops ≤ s.state.pendingDrops) :
    (s.settle r p).state.pendingDrops = s.state.pendingDrops - p.consumedDrops ∧
      (s.settle r p).discarded = s.discarded := by
  constructor
  · by_cases h0 : p.consumedDrops > 0
    · exact (if_pos h0).trans (wrappingSub_of_le hpend hp)
    · refine (if_neg h0).trans ?_
      omega
  · unfold Shared.settle Shared.opensEpoch
    cases hj : s.journal with
    | nil => simp
    | cons a j =>
      rw [hj] at hc
      by_cases he : a.frame.stamp.epoch = p.stamp.epoch
      · simp [he]
      · -- a frame of another epoch has no gap, so it consumes nothing
        have hz : p.consumedDrops = 0 := hc.trans (if_neg (Ne.symm he))
        simp [hz]

theorem Synced.of_quiet {j : List Entry} (h : Synced s.inner j) (hq : Quiet s s')
    (hl : s'.inner.lifecycle ≠ .closed) : Synced s'.inner j := by
  have hlat : s'.inner.latest = s.inner.latest := hq.latest.resolve_right hl
  cases j with
  | nil => rwa [Synced, hlat, hq.cursor]
  | cons a j => rwa [Synced, hlat, hq.cursor, hq.geometry]

theorem streamInv_start : StreamInv round stream covers (StreamWorld.start τ stream covers) where
  identity := rfl
  coverage := rfl
  formed := by simp [StreamWorld.start]
  sound := trivial
  holder t := by simp [StreamWorld.start, Pc.publishing]
  synced _ _ := ⟨rfl, rfl, rfl⟩
  phase t := trivial
  pending := Nat.zero_le _
  recorded := rfl
  discarded := rfl

variable [DecidableEq τ]

theorem holder_move {w : StreamWorld τ} {t : τ} {pc' : Pc}
    (h : ∀ u, (w.pc u).publishing = true ↔ w.shared.holder = some u)
    (hbefore : w.shared.holder = none ∨ w.shared.holder = some t)
    (hafter : s'.holder = if pc'.publishing then some t else none) (u : τ) :
    ((w.move t s' pc').pc u).publishing = true ↔ (w.move t s' pc').shared.holder = some u := by
  by_cases hu : u = t
  · subst hu
    by_cases hp : pc'.publishing = true <;> simp [hafter, hp]
  · have hnot : ¬ (w.pc u).publishing = true := by
      rw [h u]
      rcases hbefore with hb | hb <;> simp [hb, Ne.symm hu]
    rw [World.move_pc_of_ne _ _ _ _ hu, World.move_shared]
    refine iff_of_false hnot ?_
    rw [hafter]
    split_ifs
    · simp [Ne.symm hu]
    · simp

theorem phase_move {w : StreamWorld τ} {t : τ} {pc' : Pc}
    (h : ∀ u, (w.pc u).publishing = true ↔ w.shared.holder = some u)
    (hbefore : w.shared.holder = none ∨ w.shared.holder = some t)
    (ht : Phase round stream covers s' pc') :
    ∀ u, Phase round stream covers s' ((w.move t s' pc').pc u) := by
  refine w.forall_move t s' pc' ht fun u hu => phase_of_not_publishing ?_
  rw [← Bool.not_eq_true, h u]
  rcases hbefore with hb | hb <;> simp [hb, Ne.symm hu]

theorem StreamInv.publish {w : StreamWorld τ} {t : τ} {e : Event} {pc' : Pc}
    (hw : StreamInv round stream covers w) (h : PublishAct round t w.shared (w.pc t) e s' pc') :
    StreamInv round stream covers (w.move t s' pc') := by
  obtain ⟨hst, hcov, hform, hsound, hhold, hsync, hphase, hpend, hrec, hdisc⟩ := hw
  have hpt := hphase t
  have hht := hhold t
  generalize hpc : w.pc t = pc at h hpt hht
  cases h with
  | refuse hnone =>
    exact ⟨hst, hcov, hform, hsound, holder_move hhold (Or.inl hnone) hnone, hsync,
      phase_move hhold (Or.inl hnone) trivial, hpend, hrec, hdisc⟩
  | @begin r p hnone hr =>
    obtain ⟨hterm, hopen, -⟩ := prepare_eq_ok hr
    have hsy := hsync hnone (by simp [Shared.inner, hopen])
    refine ⟨hst, hcov, hform, hsound, holder_move hhold (Or.inl hnone) rfl, by simp,
      phase_move hhold (Or.inl hnone) ⟨⟨hopen, hterm⟩, hsy, _, le_rfl, ?_⟩, hpend, hrec, hdisc⟩
    rwa [Request.prepare, hcov] at hr
  | @install r p =>
    have hsome : w.shared.holder = some t := hht.1 rfl
    obtain ⟨hlive, hsy, drops, hdrops, hr⟩ := hpt
    obtain ⟨hext, hf, hsy', hc, hle⟩ := prepare_extends hr hsy hform hst
    have hcs := (prepare_stream hr).2.1
    refine ⟨hcs.trans hst, hcov, hform, hsound, holder_move hhold (Or.inr hsome) hsome, ?_,
      phase_move hhold (Or.inr hsome) ⟨hlive, hsy', hext, hf, hc, hle.trans hdrops⟩, hpend, hrec,
      hdisc⟩
    intro hn
    simp [Shared.setInner, hsome] at hn
  | @settle r p =>
    have hsome : w.shared.holder = some t := hht.1 rfl
    obtain ⟨hlive, hsy, hext, hf, hc, hle⟩ := hpt
    obtain ⟨hp', hd'⟩ := settle_books hpend hc hle
    refine ⟨hst, hcov, ?_, ⟨hext, hsound⟩, holder_move hhold (Or.inr hsome) hsome, ?_,
      phase_move hhold (Or.inr hsome) ⟨hlive, hsy, rfl⟩, ?_, ?_, hd'.trans hdisc⟩
    · exact List.forall_mem_cons.2 ⟨hf, hform⟩
    · intro hn
      simp [Shared.settle, hsome] at hn
    · exact hp' ▸ (Nat.sub_le _ _).trans hpend
    · change w.shared.recorded = (w.shared.settle r p).discarded +
        (w.shared.settle r p).state.pendingDrops +
        (stepCost Entry.gap ⟨r, p.frame r⟩ w.shared.journal + totalCost Entry.gap w.shared.journal)
      rw [hp', hd', ← hc]
      omega
  | @announce r p =>
    have hsome : w.shared.holder = some t := hht.1 rfl
    exact ⟨hst, hcov, hform, hsound, holder_move hhold (Or.inr hsome) hsome, hsync,
      phase_move hhold (Or.inr hsome) hpt, hpend, hrec, hdisc⟩
  | @release r p =>
    have hsome : w.shared.holder = some t := hht.1 rfl
    obtain ⟨-, hsy, -⟩ := hpt
    exact ⟨hst, hcov, hform, hsound, holder_move hhold (Or.inr hsome) rfl, fun _ _ => hsy,
      phase_move hhold (Or.inr hsome) trivial, hpend, hrec, hdisc⟩

theorem StreamInv.quiet {w : StreamWorld τ} {t : τ} {pc' : Pc} (hw : StreamInv round stream covers w)
    (hq : Quiet w.shared s') (hb : (w.pc t).publishing = false) (ha : pc'.publishing = false) :
    StreamInv round stream covers (w.move t s' pc') where
  identity := (congrArg _ hq.cursor).trans hw.identity
  coverage := hq.coversTarget.trans hw.coverage
  formed := hq.journal.symm ▸ hw.formed
  sound := hq.journal.symm ▸ hw.sound
  holder u := by
    change _ ↔ s'.holder = some u
    rw [hq.holder, ← hw.holder u]
    by_cases hu : u = t
    · subst hu
      simp [ha, hb]
    · simp [hu]
  synced hn hl := by
    have hl' : w.shared.inner.lifecycle ≠ .closed := by
      intro hc
      have hr := hq.lifecycle
      rw [hc] at hr
      exact hl (Lifecycle.eq_closed_of_rank hr)
    change Synced s'.inner s'.journal
    rw [hq.journal]
    exact (hw.synced (hq.holder.symm.trans hn) hl').of_quiet hq hl
  phase := by
    refine w.forall_move t s' pc' (phase_of_not_publishing ha) fun u _ => ?_
    exact (hw.phase u).of_quiet hq fun hp => by simp [(hw.holder u).1 hp]
  pending := by
    have := hw.pending
    rcases hq.drops with ⟨hd, -⟩ | ⟨-, -, hd⟩
    · exact hd ▸ this
    · exact hd
  recorded := by
    have := hw.recorded
    change s'.recorded = s'.discarded + s'.state.pendingDrops + totalCost Entry.gap s'.journal
    rw [hq.journal, hq.discarded]
    rcases hq.drops with ⟨hd, hr⟩ | ⟨hd, hr, -⟩ <;> omega
  discarded := hq.discarded.trans hw.discarded

theorem streamInv_reachable {w : StreamWorld τ}
    (hw : (streamSystem round τ stream covers).Reachable w) : StreamInv round stream covers w := by
  refine threads_invariant streamInv_start (fun w t e s' pc' _ hinv hact => ?_) hw
  rcases hact.cases with hpub | ⟨hq, hb, ha⟩
  · exact hinv.publish hpub
  · exact hinv.quiet hq hb ha

end Steps

end MadoPilot.Capture
