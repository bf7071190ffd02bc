import MadoPilot.Capture.StreamMachine

/-!
# How the frames of one stream follow each other

`Entry.Follows b a` is everything one publication promises about the frame published before it, and
`Sound` is a journal in which every frame keeps that promise.  `Synced` ties the mutex-guarded state
to the newest entry of the journal; `prepare_extends` is the step: on a synced state, a publication
that passes resolves to an entry that extends the journal, and installing it keeps the state synced.
-/

namespace MadoPilot.Capture

open MadoPilot.Core MadoPilot.Lib

namespace Entry

/-- The extent or the format changed, or the adapter declared a discontinuity. -/
def Reopens (b a : Entry) : Prop :=
  b.frame.descriptor.extent ≠ a.frame.descriptor.extent ∨
    b.frame.descriptor.format ≠ a.frame.descriptor.format ∨ b.request.continuity = .discontinuous

/-- `b` was published right after `a`. -/
structure Follows (b a : Entry) : Prop where
  reopen : b.Reopens a →
    b.frame.stamp.epoch = a.frame.stamp.epoch + 1 ∧ b.frame.stamp.sequence = 0
  resume : ¬ b.Reopens a →
    b.frame.stamp.epoch = a.frame.stamp.epoch ∧ a.frame.stamp.sequence < b.frame.stamp.sequence
  geometry : a.frame.stamp.geometry ≤ b.frame.stamp.geometry
  transform : a.frame.stamp.geometry = b.frame.stamp.geometry → a.frame.transform = b.frame.transform

/-- `e` may be published on top of the journal `j`; the first frame of all has epoch and sequence
zero. -/
def Extends (e : Entry) : List Entry → Prop
  | [] => e.frame.stamp.epoch = 0 ∧ e.frame.stamp.sequence = 0
  | a :: _ => e.Follows a

/-- What the stream `stream` publishes, whatever came before. -/
structure Formed (stream : StreamId) (covers : Bool) (e : Entry) : Prop where
  stream : e.frame.stamp.stream = stream
  descriptor : e.frame.descriptor = e.request.descriptor
  transform : e.frame.transform = ⟨e.frame.stamp.geometry, e.frame.descriptor.extent,
    e.request.placement.isSome || covers, e.request.placement⟩

/-- The sequence numbers a frame skips within its epoch. -/
def gap (b a : Entry) : ℕ :=
  if b.frame.stamp.epoch = a.frame.stamp.epoch then
    b.frame.stamp.sequence - a.frame.stamp.sequence - 1 else 0

theorem Follows.precedes {b a : Entry} (h : b.Follows a) : a.frame.stamp.Precedes b.frame.stamp := by
  by_cases hr : b.Reopens a
  · exact Or.inl (by have := (h.reopen hr).1; omega)
  · exact Or.inr ⟨(h.resume hr).1.symm, (h.resume hr).2⟩

theorem Follows.sequence_eq_zero {b a : Entry} (h : b.Follows a)
    (hne : b.frame.stamp.epoch ≠ a.frame.stamp.epoch) : b.frame.stamp.sequence = 0 := by
  by_cases hr : b.Reopens a
  · exact (h.reopen hr).2
  · exact absurd (h.resume hr).1 hne

end Entry

def Sound : List Entry → Prop
  | [] => True
  | e :: j => e.Extends j ∧ Sound j

theorem Sound.chain {j : List Entry} (h : Sound j) : j.IsChain Entry.Follows := by
  induction j with
  | nil => exact .nil
  | cons b j ih =>
    cases j with
    | nil => exact .singleton b
    | cons a j => exact .cons_cons h.1 (ih h.2)

theorem Sound.epoch_first {j older : List Entry} {newer : List Entry} {e : Entry} (h : Sound j)
    (hj : j = newer ++ e :: older)
    (hfirst : ∀ a ∈ older, a.frame.stamp.epoch ≠ e.frame.stamp.epoch) :
    e.frame.stamp.sequence = 0 := by
  subst hj
  induction newer with
  | cons b newer ih => exact ih h.2
  | nil =>
    cases older with
    | nil => exact h.1.2
    | cons a older => exact h.1.sequence_eq_zero (hfirst a List.mem_cons_self).symm

/-- The state under the mutex stands right after the newest entry of the journal. -/
def Synced (inner : Inner) : List Entry → Prop
  | [] => inner.latest = none ∧ inner.cursor.epoch = 0 ∧ inner.cursor.nextSequence = some 0
  | a :: _ => inner.latest = some a.frame ∧ inner.cursor.epoch = a.frame.stamp.epoch ∧
      inner.cursor.nextSequence = checkedAdd u64Max a.frame.stamp.sequence 1 ∧
      inner.geometry = a.frame.stamp.geometry

/-! ### The enforced continuity -/

section Enforced

variable {current : Option Frame} {descriptor : FrameDescriptor} {placement : Option TargetPlacement}
  {declared : Continuity}

theorem enforced_eq_discontinuous :
    enforced current descriptor placement declared = .discontinuous ↔
      reshaped current descriptor = true ∨ declared = .discontinuous := by
  unfold enforced
  split_ifs with h₁ h₂
  · simp [h₁]
  · simp only [Bool.and_eq_true, decide_eq_true_eq] at h₂
    simp [h₁, h₂.2]
  · simp [h₁]

theorem enforced_eq_continuous (h : enforced current descriptor placement declared = .continuous) :
    reshaped current descriptor = false ∧ replacedTransform current placement = false := by
  unfold enforced at h
  split_ifs at h with h₁ h₂
  rw [Bool.not_eq_true] at h₁
  refine ⟨h₁, ?_⟩
  simpa [h] using h₂

theorem reshaped_some {frame : Frame} : reshaped (some frame) descriptor = true ↔
    descriptor.extent ≠ frame.descriptor.extent ∨ descriptor.format ≠ frame.descriptor.format := by
  rw [reshaped, Option.any_some, Bool.or_eq_true, decide_eq_true_eq, decide_eq_true_eq]
  exact or_congr ne_comm ne_comm

theorem replacedTransform_some {frame : Frame} :
    replacedTransform (some frame) placement = false ↔ frame.transform.target = placement := by
  simp [replacedTransform]

end Enforced

/-! ### One publication -/

section Prepare

variable {round : ℚ → Option ℚ} {stream : StreamId} {covers : Bool} {r : Request} {p : Prepared}
  {inner : Inner} {drops : ℕ} {j : List Entry}

/-- The check of one request against the state under the mutex and a loaded number of drops. -/
abbrev Resolves (round : ℚ → Option ℚ) (covers : Bool) (inner : Inner) (drops : ℕ) (r : Request)
    (p : Prepared) : Prop :=
  prepare round inner covers r.descriptor r.placement r.continuity r.pixelLen drops = .ok p

theorem prepare_first (h : Resolves round covers inner drops r p) (hs : Synced inner []) :
    p.stamp.epoch = 0 ∧ p.stamp.sequence = 0 ∧ p.consumedDrops = 0 ∧ p.cursor.epoch = 0 ∧
      p.cursor.nextSequence = checkedAdd u64Max 0 1 := by
  obtain ⟨-, -, -, ⟨cursor, hadv, hpub⟩, -⟩ := prepare_eq_ok h
  obtain ⟨n, hn, hstamp, hcur⟩ := StreamCursor.publish_eq_ok.1 hpub
  obtain ⟨hnone, hep, hseq⟩ := hs
  rcases advance_eq_ok hadv with ⟨-, rfl, hc⟩ | ⟨hsome, -⟩ | ⟨hsome, -⟩
  · obtain rfl : n = 0 := by simpa [hseq] using hn.symm
    rw [hstamp, hcur]
    exact ⟨hep, rfl, hc, hep, rfl⟩
  · simp [hnone] at hsome
  · simp [hnone] at hsome

theorem prepare_later {frame : Frame} (h : Resolves round covers inner drops r p)
    (hl : inner.latest = some frame) (hep : inner.cursor.epoch = frame.stamp.epoch)
    (hseq : inner.cursor.nextSequence = checkedAdd u64Max frame.stamp.sequence 1) :
    (if enforced inner.latest r.descriptor r.placement r.continuity = .discontinuous then
      p.stamp.epoch = frame.stamp.epoch + 1 ∧ p.stamp.sequence = 0 ∧ p.consumedDrops = 0
     else p.stamp.epoch = frame.stamp.epoch ∧
      p.stamp.sequence = frame.stamp.sequence + 1 + p.consumedDrops ∧ p.consumedDrops = drops) ∧
      p.cursor.epoch = p.stamp.epoch ∧
      p.cursor.nextSequence = checkedAdd u64Max p.stamp.sequence 1 := by
  obtain ⟨-, -, -, ⟨cursor, hadv, hpub⟩, -⟩ := prepare_eq_ok h
  obtain ⟨n, hn, hstamp, hcur⟩ := StreamCursor.publish_eq_ok.1 hpub
  refine ⟨?_, by rw [hstamp, hcur], by rw [hstamp, hcur]⟩
  rcases advance_eq_ok hadv with ⟨hnone, -⟩ | ⟨-, hd, hc, rfl⟩ | ⟨-, hd, hc, -, hce, hcs⟩
  · simp [hl] at hnone
  · obtain rfl : n = 0 := by simpa using hn.symm
    rw [if_pos hd, hstamp]
    exact ⟨by simp [hep], rfl, hc⟩
  · rw [hcs, hseq, Option.map_eq_some_iff] at hn
    obtain ⟨m, hm, rfl⟩ := hn
    obtain ⟨rfl, -⟩ := checkedAdd_eq_some.1 hm
    rw [if_neg hd, hstamp, hc]
    exact ⟨hce.trans hep, rfl, rfl⟩

theorem prepare_stream (h : Resolves round covers inner drops r p) :
    p.stamp.stream = inner.cursor.stream ∧ p.cursor.stream = inner.cursor.stream ∧
      p.stamp.geometry = p.geometry := by
  obtain ⟨-, -, -, ⟨cursor, hadv, hpub⟩, -⟩ := prepare_eq_ok h
  obtain ⟨n, -, hstamp, hcur⟩ := StreamCursor.publish_eq_ok.1 hpub
  have hc : cursor.stream = inner.cursor.stream := by
    rcases advance_eq_ok hadv with ⟨-, rfl, -⟩ | ⟨-, -, -, rfl⟩ | ⟨-, -, -, hst, -⟩
    · rfl
    · rfl
    · exact hst
  rw [hstamp, hcur]
  exact ⟨hc, hc, rfl⟩

/-- **One publication.**  On a state that stands right after its journal, a publication that passes
resolves to a well-formed entry that extends the journal, consumes exactly the gap it opens and no
more than was loaded, and leaves the state right after the longer journal. -/
theorem prepare_extends (h : Resolves round covers inner drops r p) (hs : Synced inner j)
    (hform : ∀ a ∈ j, a.Formed stream covers) (hstream : inner.cursor.stream = stream) :
    (Entry.mk r (p.frame r)).Extends j ∧ (Entry.mk r (p.frame r)).Formed stream covers ∧
      Synced (inner.install p (p.frame r)) (⟨r, p.frame r⟩ :: j) ∧
      p.consumedDrops = stepCost Entry.gap ⟨r, p.frame r⟩ j ∧ p.consumedDrops ≤ drops := by
  obtain ⟨-, -, hgeo, -, htransform⟩ := prepare_eq_ok h
  obtain ⟨hst, -, hpg⟩ := prepare_stream h
  have hgeo := nextGeometry_eq_some hgeo
  have hformed : (Entry.mk r (p.frame r)).Formed stream covers :=
    ⟨hst.trans hstream, rfl, by simpa [Prepared.frame, hpg] using htransform⟩
  cases j with
  | nil =>
    obtain ⟨he, hq, hc, hce, hcs⟩ := prepare_first h hs
    refine ⟨⟨he, hq⟩, hformed, ⟨rfl, ?_, ?_, hpg.symm⟩, hc, by omega⟩
    · exact hce.trans he.symm
    · simpa [Inner.install, Prepared.frame, hq] using hcs
  | cons a j =>
    obtain ⟨hl, hep, hseq, hg⟩ := hs
    obtain ⟨hstep, hce, hcs⟩ := prepare_later h hl hep hseq
    have ha := hform a List.mem_cons_self
    have hre : (Entry.mk r (p.frame r)).Reopens a ↔
        enforced inner.latest r.descriptor r.placement r.continuity = .discontinuous := by
      rw [enforced_eq_discontinuous, hl, reshaped_some, Entry.Reopens, or_assoc]
      rfl
    refine ⟨⟨fun hr => ?_, fun hr => ?_, ?_, fun heq => ?_⟩, hformed, ⟨rfl, hce, hcs, hpg.symm⟩, ?_, ?_⟩
    · rw [if_pos (hre.1 hr)] at hstep
      exact ⟨hstep.1, hstep.2.1⟩
    · rw [if_neg (mt hre.2 hr)] at hstep
      exact ⟨hstep.1, by change _ < p.stamp.sequence; omega⟩
    · change _ ≤ p.stamp.geometry
      rw [hpg, hgeo, ← hg]
      split_ifs <;> omega
    · -- an unchanged revision means the publication was treated as continuous
      have heq : a.frame.stamp.geometry = p.geometry := heq.trans hpg
      by_cases hcont : enforced inner.latest r.descriptor r.placement r.continuity = .continuous
      · obtain ⟨hns, hnt⟩ := enforced_eq_continuous hcont
        rw [hl, ← Bool.not_eq_true, reshaped_some, not_or, not_not, not_not] at hns
        rw [hl, replacedTransform_some] at hnt
        rw [ha.transform] at hnt
        change a.frame.transform = p.transform
        rw [ha.transform, htransform, heq, ← hns.1]
        simp only at hnt
        rw [hnt]
      · rw [if_neg hcont] at hgeo
        omega
    · change _ = Entry.gap _ a
      unfold Entry.gap
      change _ = if p.stamp.epoch = _ then p.stamp.sequence - _ - 1 else 0
      split_ifs at hstep ⊢ <;> omega
    · split_ifs at hstep <;> omega

end Prepare

end MadoPilot.Capture
