import Mathlib.Order.Interval.Finset.Nat
import MadoPilot.Capture.StreamIdentity
import MadoPilot.Lib.Revisions

/-!
# The geometry ledger of a macOS target

The ledger keeps, for every live stream, the transform and the native bounds of its latest geometry
revisions.  Records come from the frames that the streams publish.

* `recordIn_eq` : on frames of one stream in their order, `record` keeps the latest record of a revision;
* `tracks_run` : what the history of a stream says about the records since it was last retired;
* `geometry_ledger` is the result.
-/

namespace MadoPilot.Platform

open MadoPilot.Core MadoPilot.Capture MadoPilot.Lib

/-- Source-frame geometry retained for each live capture stream. -/
def geometryHistoryRevisions : ℕ := 64

structure GeometryEntry (β : Type) where
  stamp : FrameStamp
  transform : TransformSnapshot
  nativeBounds : β

/-- The histories of the streams, oldest entry first; a stream without an entry has an empty one. -/
structure GeometryLedger (β : Type) where
  streams : StreamId → List (GeometryEntry β)

namespace GeometryLedger

variable {β : Type} (l : GeometryLedger β)

def new : GeometryLedger β := ⟨fun _ => []⟩

/-- The end of `record`: a new entry, after the oldest one where the history is full. -/
def append (history : List (GeometryEntry β)) (entry : GeometryEntry β) : List (GeometryEntry β) :=
  (if history.length = geometryHistoryRevisions then history.tail else history) ++ [entry]

/-- `record` on the history of the stamp's stream. -/
def recordIn (history : List (GeometryEntry β)) (entry : GeometryEntry β) : List (GeometryEntry β) :=
  match history.getLast? with
  | some latest =>
    if latest.stamp.geometry = entry.stamp.geometry then
      match latest.stamp.order entry.stamp with
      | .ok .before | .ok .same => history.dropLast ++ [entry]
      | _ => history
    else
      match latest.stamp.order entry.stamp with
      | .ok .before => append history entry
      | _ => history
  | none => append history entry

def record (entry : GeometryEntry β) : GeometryLedger β :=
  ⟨Function.update l.streams entry.stamp.stream (recordIn (l.streams entry.stamp.stream) entry)⟩

def publish (frame : Frame) (nativeBounds : β) : GeometryLedger β :=
  l.record ⟨frame.stamp, frame.transform, nativeBounds⟩

def remove (stream : StreamId) : GeometryLedger β := ⟨Function.update l.streams stream []⟩

def answers (source : FrameStamp) (entry : GeometryEntry β) : Bool :=
  entry.stamp.geometry = source.geometry &&
    match source.order entry.stamp with
    | .ok .before | .ok .same => true
    | _ => false

def sourceGeometry (source : FrameStamp) : Option (TransformSnapshot × β) :=
  ((l.streams source.stream).find? (answers source)).map fun entry =>
    (entry.transform, entry.nativeBounds)

end GeometryLedger

inductive LedgerOp (β : Type) where
  | publish (frame : Frame) (nativeBounds : β)
  | remove (stream : StreamId)

namespace LedgerOp

variable {β : Type}

def perform (l : GeometryLedger β) : LedgerOp β → GeometryLedger β
  | publish frame nativeBounds => l.publish frame nativeBounds
  | remove stream => l.remove stream

def run (ops : List (LedgerOp β)) : GeometryLedger β := ops.foldl perform .new

def tracked (stream : StreamId) (ops : List (LedgerOp β)) : List (GeometryEntry β) :=
  ops.foldl (fun entries op =>
    match op with
    | publish frame nativeBounds =>
      if frame.stamp.stream = stream then entries ++ [⟨frame.stamp, frame.transform, nativeBounds⟩]
      else entries
    | remove other => if other = stream then [] else entries) []

def recorded (stream : StreamId) (ops : List (LedgerOp β)) : List Frame :=
  ops.filterMap fun op =>
    match op with
    | publish frame _ => if frame.stamp.stream = stream then some frame else none
    | remove _ => none

end LedgerOp

def PublishedOn (stream : StreamId) (frames : List Frame) : Prop :=
  ∃ (τ : Type) (_ : DecidableEq τ) (round : ℚ → Option ℚ) (covers : Bool)
    (trail : List (StreamWorld τ × (τ × Event))) (w : StreamWorld τ),
    (streamSystem round τ stream covers).Path (StreamWorld.start τ stream covers) trail w ∧
      frames = (published (events trail)).map Entry.frame

/-- The records of a stream come from frames that it published, and their stamps never decrease. -/
structure RecordsOf {β : Type} (stream : StreamId) (ops : List (LedgerOp β)) (frames : List Frame) :
    Prop where
  published : PublishedOn stream frames
  mem : ∀ frame ∈ LedgerOp.recorded stream ops, frame ∈ frames
  monotone : (LedgerOp.recorded stream ops).Pairwise fun a b =>
    a.stamp = b.stamp ∨ a.stamp.Precedes b.stamp

/-! ### What the frames of one stream have in common -/

def GeometryEntry.NotAfter {β : Type} (a b : GeometryEntry β) : Prop :=
  a.stamp = b.stamp ∨ a.stamp.Precedes b.stamp

/-- Frames of one stream: their stamps are ordered, revisions follow that order, and a revision has
one transform. -/
structure Coherent (stream : StreamId) (frames : List Frame) : Prop where
  stream : ∀ f ∈ frames, f.stamp.stream = stream
  total : ∀ f ∈ frames, ∀ g ∈ frames,
    f.stamp = g.stamp ∨ f.stamp.Precedes g.stamp ∨ g.stamp.Precedes f.stamp
  revision : ∀ f ∈ frames, ∀ g ∈ frames, f.stamp.Precedes g.stamp →
    f.stamp.geometry ≤ g.stamp.geometry
  transform : ∀ f ∈ frames, ∀ g ∈ frames, f.stamp.geometry = g.stamp.geometry →
    f.transform = g.transform

theorem PublishedOn.coherent {stream : StreamId} {frames : List Frame} (h : PublishedOn stream frames) :
    Coherent stream frames := by
  obtain ⟨τ, _, round, covers, trail, w, hpath, rfl⟩ := h
  have hprec := published_precedes hpath
  have hjournal := (told_of_path hpath).1
  have hformed := (invariant_of_path hpath).formed
  refine ⟨?_, ?_, ?_, ?_⟩
  · intro f hf
    obtain ⟨e, he, rfl⟩ := List.mem_map.mp hf
    refine (hformed e ?_).stream
    rw [hjournal]
    exact List.mem_append_right _ (List.mem_reverse.mpr he)
  · intro f hf g hg
    obtain ⟨a, ha, rfl⟩ := List.mem_map.mp hf
    obtain ⟨b, hb, rfl⟩ := List.mem_map.mp hg
    refine List.Pairwise.forall_of_forall_of_flip (R := fun a b : Entry =>
      a.frame.stamp = b.frame.stamp ∨ a.frame.stamp.Precedes b.frame.stamp ∨
        b.frame.stamp.Precedes a.frame.stamp) ?_ ?_ ?_ ha hb
    · exact fun a _ => Or.inl rfl
    · exact hprec.imp fun hab => Or.inr (Or.inl hab)
    · exact hprec.imp fun hab => Or.inr (Or.inr hab)
  · intro f hf g hg hfg
    obtain ⟨a, ha, rfl⟩ := List.mem_map.mp hf
    obtain ⟨b, hb, rfl⟩ := List.mem_map.mp hg
    refine List.Pairwise.forall_of_forall_of_flip (R := fun a b : Entry =>
      a.frame.stamp.Precedes b.frame.stamp → a.frame.stamp.geometry ≤ b.frame.stamp.geometry)
      ?_ ?_ ?_ ha hb hfg
    · exact fun a _ _ => le_rfl
    · refine (published_geometry hpath).imp ?_
      intro a b hab _
      exact hab
    · exact hprec.imp fun hab hba => absurd rfl (hab.trans hba).ne
  · intro f hf g hg hfg
    obtain ⟨a, ha, rfl⟩ := List.mem_map.mp hf
    obtain ⟨b, hb, rfl⟩ := List.mem_map.mp hg
    exact published_transform hpath a ha b hb hfg

/-! ### One record -/

section Record

variable {β : Type} {history : List (GeometryEntry β)} {entry : GeometryEntry β}

theorem order_of_notAfter {latest : GeometryEntry β}
    (hstream : latest.stamp.stream = entry.stamp.stream) (horder : latest.NotAfter entry) :
    latest.stamp.order entry.stamp = .ok .same ∨
      latest.stamp.order entry.stamp = .ok .before ∧ latest.stamp.Precedes entry.stamp := by
  rcases horder with heq | hprec
  · left
    rw [heq]
    simp [FrameStamp.order]
  · exact Or.inr ⟨FrameStamp.order_eq_before.mpr ⟨hstream, hprec⟩, hprec⟩

theorem recordIn_eq (hstream : ∀ e ∈ history, e.stamp.stream = entry.stamp.stream)
    (horder : ∀ e ∈ history, e.NotAfter entry) :
    GeometryLedger.recordIn history entry =
      Revisions.keep (fun e : GeometryEntry β => e.stamp.geometry) geometryHistoryRevisions history
        entry := by
  unfold GeometryLedger.recordIn Revisions.keep
  cases hlast : history.getLast? with
  | none => rfl
  | some latest =>
    have hmem : latest ∈ history := List.mem_of_getLast? hlast
    have hcases := order_of_notAfter (hstream latest hmem) (horder latest hmem)
    dsimp only
    by_cases hsame : latest.stamp.geometry = entry.stamp.geometry
    · rw [if_pos hsame, if_pos hsame]
      rcases hcases with heq | ⟨heq, -⟩ <;> rw [heq]
    · rw [if_neg hsame, if_neg hsame]
      have hbefore : latest.stamp.order entry.stamp = .ok .before := by
        rcases horder latest hmem with heq | hprec
        · exact absurd (congrArg FrameStamp.geometry heq) hsame
        · exact FrameStamp.order_eq_before.mpr ⟨hstream latest hmem, hprec⟩
      rw [hbefore]
      rfl

end Record

/-! ### A run of records -/

section Runs

variable {β : Type} {stream : StreamId} {ops : List (LedgerOp β)} {frames : List Frame}

theorem recorded_append (ops ops' : List (LedgerOp β)) : LedgerOp.recorded stream (ops ++ ops') =
    LedgerOp.recorded stream ops ++ LedgerOp.recorded stream ops' := List.filterMap_append

theorem tracked_snoc (ops : List (LedgerOp β)) (op : LedgerOp β) :
    LedgerOp.tracked stream (ops ++ [op]) = match op with
      | .publish frame nativeBounds =>
        if frame.stamp.stream = stream then
          LedgerOp.tracked stream ops ++ [⟨frame.stamp, frame.transform, nativeBounds⟩]
        else LedgerOp.tracked stream ops
      | .remove other => if other = stream then [] else LedgerOp.tracked stream ops := by
  unfold LedgerOp.tracked
  rw [List.foldl_append]
  cases op <;> rfl

theorem run_snoc (ops : List (LedgerOp β)) (op : LedgerOp β) :
    LedgerOp.run (ops ++ [op]) = LedgerOp.perform (LedgerOp.run ops) op := by
  unfold LedgerOp.run
  rw [List.foldl_append]
  rfl

theorem run_snoc_streams (ops : List (LedgerOp β)) (op : LedgerOp β) :
    (LedgerOp.run (ops ++ [op])).streams stream = match op with
      | .publish frame nativeBounds =>
        if frame.stamp.stream = stream then
          GeometryLedger.recordIn ((LedgerOp.run ops).streams stream)
            ⟨frame.stamp, frame.transform, nativeBounds⟩
        else (LedgerOp.run ops).streams stream
      | .remove other => if other = stream then [] else (LedgerOp.run ops).streams stream := by
  rw [run_snoc]
  cases op with
  | publish frame nativeBounds =>
    simp only [LedgerOp.perform, GeometryLedger.publish, GeometryLedger.record]
    by_cases hstream : frame.stamp.stream = stream
    · rw [if_pos hstream, ← hstream, Function.update_self]
    · rw [if_neg hstream, Function.update_of_ne (Ne.symm hstream)]
  | remove other =>
    simp only [LedgerOp.perform, GeometryLedger.remove]
    by_cases hstream : other = stream
    · rw [if_pos hstream, ← hstream, Function.update_self]
    · rw [if_neg hstream, Function.update_of_ne (Ne.symm hstream)]

theorem recorded_of_tracked (ops : List (LedgerOp β)) :
    ∀ e ∈ LedgerOp.tracked stream ops, ∃ f ∈ LedgerOp.recorded stream ops,
      e.stamp = f.stamp ∧ e.transform = f.transform := by
  induction ops using List.reverseRecOn with
  | nil => exact fun e he => absurd he List.not_mem_nil
  | append_singleton ops op ih =>
    intro e he
    rw [recorded_append]
    have hold : e ∈ LedgerOp.tracked stream ops →
        ∃ f ∈ LedgerOp.recorded stream ops ++ LedgerOp.recorded stream [op],
          e.stamp = f.stamp ∧ e.transform = f.transform := fun he => by
      obtain ⟨f, hf, hsame⟩ := ih e he
      exact ⟨f, List.mem_append_left _ hf, hsame⟩
    rw [tracked_snoc] at he
    cases op with
    | publish frame nativeBounds =>
      dsimp only at he
      split at he
      · rename_i hstream
        rcases List.mem_append.mp he with he | he
        · exact hold he
        · obtain rfl := List.mem_singleton.mp he
          refine ⟨frame, List.mem_append_right _ ?_, rfl, rfl⟩
          simp [LedgerOp.recorded, hstream]
      · exact hold he
    | remove other =>
      dsimp only at he
      split at he
      · exact absurd he List.not_mem_nil
      · exact hold he

theorem tracks_run (hcoherent : Coherent stream frames)
    (hmem : ∀ f ∈ LedgerOp.recorded stream ops, f ∈ frames)
    (hmonotone : (LedgerOp.recorded stream ops).Pairwise fun a b =>
      a.stamp = b.stamp ∨ a.stamp.Precedes b.stamp) :
    Revisions.Tracks (fun e : GeometryEntry β => e.stamp.geometry) geometryHistoryRevisions
      GeometryEntry.NotAfter (LedgerOp.tracked stream ops) ((LedgerOp.run ops).streams stream) := by
  induction ops using List.reverseRecOn with
  | nil => exact .nil
  | append_singleton ops op ih =>
    rw [recorded_append] at hmem hmonotone
    obtain ⟨hbefore, -, hnext⟩ := List.pairwise_append.mp hmonotone
    have ih := ih (fun f hf => hmem f (List.mem_append_left _ hf)) hbefore
    rw [run_snoc_streams, tracked_snoc]
    cases op with
    | publish frame nativeBounds =>
      by_cases hstream : frame.stamp.stream = stream
      · simp only [if_pos hstream]
        have hlast : frame ∈ LedgerOp.recorded stream [LedgerOp.publish frame nativeBounds] := by
          simp [LedgerOp.recorded, hstream]
        have hframe := hmem frame (List.mem_append_right _ hlast)
        have hin : ∀ e ∈ LedgerOp.tracked stream ops, e.stamp.stream = frame.stamp.stream ∧
            e.NotAfter ⟨frame.stamp, frame.transform, nativeBounds⟩ ∧
            e.stamp.geometry ≤ frame.stamp.geometry := by
          intro e he
          obtain ⟨f, hf, hstamp, -⟩ := recorded_of_tracked ops e he
          have hfm := hmem f (List.mem_append_left _ hf)
          have horder := hnext f hf frame hlast
          rw [← hstamp] at horder
          refine ⟨?_, horder, ?_⟩
          · rw [hstamp, hcoherent.stream f hfm, hstream]
          · rcases horder with heq | hprec
            · rw [heq]
            · rw [hstamp] at hprec ⊢
              exact hcoherent.revision f hfm frame hframe hprec
        rw [recordIn_eq (fun e he => (hin e (ih.mem e he)).1) fun e he => (hin e (ih.mem e he)).2.1]
        exact ih.keep (by decide) (fun e he => (hin e he).2.2) fun e he => Or.inr (hin e he).2.1
      · simp only [if_neg hstream]
        exact ih
    | remove other =>
      dsimp only
      split
      · exact .nil
      · exact ih

theorem RecordsOf.tracks (h : RecordsOf stream ops frames) :
    Revisions.Tracks (fun e : GeometryEntry β => e.stamp.geometry) geometryHistoryRevisions
      GeometryEntry.NotAfter (LedgerOp.tracked stream ops) ((LedgerOp.run ops).streams stream) :=
  tracks_run h.published.coherent h.mem h.monotone

theorem RecordsOf.frame (h : RecordsOf stream ops frames) {e : GeometryEntry β}
    (he : e ∈ (LedgerOp.run ops).streams stream) :
    ∃ f ∈ frames, e.stamp = f.stamp ∧ e.transform = f.transform := by
  obtain ⟨f, hf, hsame⟩ := recorded_of_tracked ops e (h.tracks.mem e he)
  exact ⟨f, h.mem f hf, hsame⟩

theorem RecordsOf.sorted (h : RecordsOf stream ops frames) :
    ((LedgerOp.run ops).streams stream).Pairwise fun a b => a.stamp.Precedes b.stamp := by
  have hcoherent := h.published.coherent
  refine List.Pairwise.imp_of_mem ?_ h.tracks.keys
  intro a b ha hb hlt
  obtain ⟨f, hf, hfa, -⟩ := h.frame ha
  obtain ⟨g, hg, hgb, -⟩ := h.frame hb
  rw [hfa, hgb] at hlt ⊢
  rcases hcoherent.total f hf g hg with heq | hprec | hprec
  · exact absurd (congrArg FrameStamp.geometry heq) hlt.ne
  · exact hprec
  · exact absurd (hcoherent.revision g hg f hf hprec) (not_le.mpr hlt)

theorem sourceGeometry_eq_some {l : GeometryLedger β} {source : FrameStamp}
    {transform : TransformSnapshot} {nativeBounds : β}
    (h : l.sourceGeometry source = some (transform, nativeBounds)) :
    ∃ e ∈ l.streams source.stream, e.stamp.geometry = source.geometry ∧ e.transform = transform ∧
      e.nativeBounds = nativeBounds := by
  unfold GeometryLedger.sourceGeometry at h
  obtain ⟨e, hfind, heq⟩ := Option.map_eq_some_iff.mp h
  have hanswers := List.find?_some hfind
  unfold GeometryLedger.answers at hanswers
  rw [Bool.and_eq_true, decide_eq_true_eq] at hanswers
  obtain ⟨ht, hb⟩ := Prod.mk.inj heq
  exact ⟨e, List.mem_of_find?_eq_some hfind, hanswers.1, ht, hb⟩

theorem sourceGeometry_isSome {l : GeometryLedger β} {source : FrameStamp} {e : GeometryEntry β}
    (he : e ∈ l.streams source.stream) (hstream : e.stamp.stream = source.stream)
    (hkey : e.stamp.geometry = source.geometry)
    (horder : source = e.stamp ∨ source.Precedes e.stamp) : (l.sourceGeometry source).isSome := by
  unfold GeometryLedger.sourceGeometry
  rw [Option.isSome_map, List.find?_isSome]
  refine ⟨e, he, ?_⟩
  unfold GeometryLedger.answers
  rw [Bool.and_eq_true]
  refine ⟨decide_eq_true hkey, ?_⟩
  rcases horder with heq | hprec
  · rw [heq]
    simp [FrameStamp.order]
  · rw [FrameStamp.order_eq_before.mpr ⟨hstream.symm, hprec⟩]

/-- **The geometry ledger.**  Over every sequence of records made from published frames, in the order
of their stamps, and of retirements: the history of a stream has at most 64 entries, strictly
increasing in stamp order and revision; an answer for a published frame is the transform of its own
revision, with bounds that were recorded for that revision; and a revision that is recorded since the
stream was last retired, and that fewer than 64 such revisions follow, is answered for each of its
frames that is not after the record. -/
theorem geometry_ledger (ops : List (LedgerOp β)) (frames : StreamId → List Frame)
    (h : ∀ stream, RecordsOf stream ops (frames stream)) (stream : StreamId) :
    ((LedgerOp.run ops).streams stream).length ≤ 64 ∧
      ((LedgerOp.run ops).streams stream).Pairwise (fun a b =>
        a.stamp.Precedes b.stamp ∧ a.stamp.geometry < b.stamp.geometry) ∧
      (∀ f ∈ frames stream, ∀ transform nativeBounds,
        (LedgerOp.run ops).sourceGeometry f.stamp = some (transform, nativeBounds) →
          transform = f.transform ∧ ∃ e ∈ LedgerOp.tracked stream ops,
            e.stamp.geometry = f.stamp.geometry ∧ e.nativeBounds = nativeBounds) ∧
      ∀ e ∈ LedgerOp.tracked stream ops,
        (Revisions.later (fun e : GeometryEntry β => e.stamp.geometry)
          (LedgerOp.tracked stream ops) e).card < 64 →
        ∀ f ∈ frames stream, f.stamp.geometry = e.stamp.geometry →
          (f.stamp = e.stamp ∨ f.stamp.Precedes e.stamp) →
          ∃ nativeBounds, (LedgerOp.run ops).sourceGeometry f.stamp = some (f.transform, nativeBounds) := by
  have hs := h stream
  have hcoherent := hs.published.coherent
  have htracks := hs.tracks
  have hsound : ∀ f ∈ frames stream, ∀ transform nativeBounds,
      (LedgerOp.run ops).sourceGeometry f.stamp = some (transform, nativeBounds) →
        transform = f.transform ∧ ∃ e ∈ LedgerOp.tracked stream ops,
          e.stamp.geometry = f.stamp.geometry ∧ e.nativeBounds = nativeBounds := by
    intro f hf transform nativeBounds heq
    obtain ⟨e, he, hkey, rfl, hb⟩ := sourceGeometry_eq_some heq
    rw [hcoherent.stream f hf] at he
    obtain ⟨g, hg, hstamp, htransform⟩ := hs.frame he
    refine ⟨?_, e, htracks.mem e he, hkey, hb⟩
    rw [htransform]
    exact hcoherent.transform g hg f hf (hstamp ▸ hkey)
  refine ⟨htracks.length_le, hs.sorted.and htracks.keys, hsound, ?_⟩
  intro e he hcard f hf hkey horder
  obtain ⟨kept, hkept, hsame, hlater⟩ := (htracks.covered e he).resolve_right (not_le.mpr hcard)
  obtain ⟨g, hg, hstamp, -⟩ := hs.frame hkept
  have hnot : f.stamp = kept.stamp ∨ f.stamp.Precedes kept.stamp := by
    rcases hlater with rfl | hek | hek
    · exact horder
    · rwa [← hek]
    · rcases horder with hfe | hfe
      · exact Or.inr (hfe ▸ hek)
      · exact Or.inr (hfe.trans hek)
  have hstream : kept.stamp.stream = f.stamp.stream := by
    rw [hstamp, hcoherent.stream g hg, hcoherent.stream f hf]
  have hfind := sourceGeometry_isSome (l := LedgerOp.run ops) (e := kept)
    (hcoherent.stream f hf ▸ hkept) hstream (hsame.trans hkey.symm) hnot
  obtain ⟨⟨transform, nativeBounds⟩, heq⟩ := Option.isSome_iff_exists.mp hfind
  obtain ⟨rfl, -⟩ := hsound f hf transform nativeBounds heq
  exact ⟨nativeBounds, heq⟩

end Runs

/-! ### A stream with two revisions too many -/

def sampleStream : StreamId := ⟨firstOrdinal, firstOrdinal⟩

def alternating : List Request := (List.range 66).map fun i => if i % 2 = 0 then narrow else wide

def sampleEntries : List Entry :=
  ((StreamWorld.start Unit sampleStream false).shared.publishEach some alternating).elim [] fun found =>
    found.2

def sampleFrames : List Frame := sampleEntries.map Entry.frame

def sampleOps : List (LedgerOp Unit) := sampleFrames.map fun frame => .publish frame ()

theorem recorded_publish {β : Type} {frames : List Frame} {stream : StreamId} (b : β)
    (h : ∀ f ∈ frames, f.stamp.stream = stream) (other : StreamId) :
    LedgerOp.recorded other (frames.map fun frame => .publish frame b) =
      if other = stream then frames else [] := by
  induction frames with
  | nil => split <;> rfl
  | cons f frames ih =>
    have hrest := ih fun g hg => h g (List.mem_cons_of_mem _ hg)
    have hf := h f List.mem_cons_self
    unfold LedgerOp.recorded at hrest ⊢
    rw [List.map_cons, List.filterMap_cons, hrest]
    by_cases hother : other = stream
    · simp only [if_pos (hf.trans hother.symm), if_pos hother]
    · have hne : ¬ f.stamp.stream = other := fun heq => hother (heq.symm.trans hf)
      simp only [if_neg hne, if_neg hother]

theorem sampleFrames_published : PublishedOn sampleStream sampleFrames := by
  have hsome : ((StreamWorld.start Unit sampleStream false).shared.publishEach some
      alternating).isSome = true := by decide +kernel
  obtain ⟨⟨s, entries⟩, hfound⟩ := Option.isSome_iff_exists.mp hsome
  obtain ⟨trail, hpath, hpublished⟩ := path_publishEach (t := ()) hfound rfl rfl
    (.nil (StreamWorld.start Unit sampleStream false))
  refine ⟨Unit, inferInstance, some, false, trail, _, hpath, ?_⟩
  unfold sampleFrames sampleEntries
  rw [hfound, hpublished]
  rfl

theorem sample_recordsOf (other : StreamId) :
    RecordsOf other sampleOps (if other = sampleStream then sampleFrames else []) := by
  have hstream : ∀ f ∈ sampleFrames, f.stamp.stream = sampleStream := by decide +kernel
  have hrecorded := recorded_publish () hstream other
  refine ⟨?_, fun f hf => hrecorded ▸ hf, ?_⟩
  · by_cases hother : other = sampleStream
    · rw [if_pos hother, hother]
      exact sampleFrames_published
    · rw [if_neg hother]
      exact ⟨Unit, inferInstance, some, false, [], _, .nil _, rfl⟩
  · have hsorted : sampleFrames.Pairwise fun a b => a.stamp.Precedes b.stamp := by decide +kernel
    unfold sampleOps
    rw [hrecorded]
    split
    · exact hsorted.imp fun hab => Or.inr hab
    · exact .nil

/-- The first two of the sixty-six revisions are forgotten, and the others are answered. -/
theorem geometry_ledger_sample :
    (∀ f ∈ sampleFrames, f.stamp.geometry < 2 →
      (LedgerOp.run sampleOps).sourceGeometry f.stamp = none) ∧
    ∀ f ∈ sampleFrames, 2 ≤ f.stamp.geometry →
      ∃ nativeBounds,
        (LedgerOp.run sampleOps).sourceGeometry f.stamp = some (f.transform, nativeBounds) := by
  refine ⟨by decide +kernel, fun f hf hkey => ?_⟩
  have hkeys : (LedgerOp.tracked sampleStream sampleOps).map (fun e => e.stamp.geometry) =
      List.range 66 := by decide +kernel
  have htracked : ∀ f ∈ sampleFrames, ∃ e ∈ LedgerOp.tracked sampleStream sampleOps,
      e.stamp = f.stamp := by decide +kernel
  obtain ⟨e, he, hstamp⟩ := htracked f hf
  have hledger := geometry_ledger sampleOps _ sample_recordsOf sampleStream
  rw [if_pos rfl] at hledger
  refine hledger.2.2.2 e he ?_ f hf (hstamp ▸ rfl) (Or.inl hstamp.symm)
  have hlater : Revisions.later (fun e : GeometryEntry Unit => e.stamp.geometry)
      (LedgerOp.tracked sampleStream sampleOps) e ⊆ Finset.Ioo e.stamp.geometry 66 := by
    intro key hmem
    unfold Revisions.later at hmem
    rw [hkeys, Finset.mem_filter, List.mem_toFinset, List.mem_range] at hmem
    exact Finset.mem_Ioo.mpr ⟨hmem.2, hmem.1⟩
  have hcard := Finset.card_le_card hlater
  rw [Nat.card_Ioo] at hcard
  have hsame : e.stamp.geometry = f.stamp.geometry := congrArg FrameStamp.geometry hstamp
  omega

end MadoPilot.Platform
