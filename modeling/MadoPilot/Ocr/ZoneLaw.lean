import Mathlib.Tactic.Linarith
import Mathlib.Tactic.Ring
import MadoPilot.Lib.Rows
import MadoPilot.Ocr.SinkLaw

/-!
# The groups of a zone scan

A scan that succeeds has one group for each zone of the caller: the candidates with text whose centroid
lies in the zone, in the detector's order, as indexes into the regions that are owned once.  The
centroid is that of the four points in whatever order around the quadrilateral they are listed.

* `membershipOf_getLsbD` : the bits of a membership;
* `holds_relative` : a zone from the origin of the envelope holds what the zone holds;
* `finishGrouped_gives` : the layout of the groups;
* `zone_groups` : the result of a scan.
-/

namespace MadoPilot.Ocr

open MadoPilot.Core MadoPilot.Lib

/-! ### Memberships -/

section Membership

variable {point : ℚ × ℚ} {zones : List PixelRect}

theorem getLsbD_step (m : BitVec 16) {k : ℕ} (hk : k < 16) (i : ℕ) :
    (m ||| 1#16 <<< k).getLsbD i = (m.getLsbD i || decide (i = k)) := by
  rw [BitVec.getLsbD_or, BitVec.getLsbD_shiftLeft, BitVec.getLsbD_one]
  congr 1
  by_cases hi : i = k
  · subst hi
    simp [hk]
  · have hne : ¬ (i < 16 ∧ ¬ i < k ∧ i - k = 0) := by omega
    simp only [hi, decide_false]
    rw [Bool.eq_false_iff]
    intro h
    simp only [Bool.and_eq_true, decide_eq_true_eq, Bool.not_eq_true', decide_eq_false_iff_not] at h
    omega

theorem foldl_membership (zones : List PixelRect) (m : BitVec 16) (k : ℕ) (h : k + zones.length ≤ 16)
    (i : ℕ) : ((zones.zipIdx k).foldl (membershipStep point) m).getLsbD i =
      (m.getLsbD i || (decide (k ≤ i) && (zones[i - k]?).any (holds · point))) := by
  induction zones generalizing m k with
  | nil => simp
  | cons zone zones ih =>
    rw [List.length_cons] at h
    rw [List.zipIdx_cons, List.foldl_cons, ih _ (k + 1) (by omega)]
    have hbit : (membershipStep point m (zone, k)).getLsbD i =
        (m.getLsbD i || (decide (i = k) && holds zone point)) := by
      unfold membershipStep
      dsimp only
      cases hholds : holds zone point with
      | true => rw [if_pos rfl, getLsbD_step m (by omega), Bool.and_true]
      | false => rw [if_neg Bool.false_ne_true, Bool.and_false, Bool.or_false]
    rw [hbit]
    rcases Nat.lt_trichotomy i k with hi | rfl | hi
    · have hne : i ≠ k := by omega
      have hk : ¬ k ≤ i := by omega
      have hk' : ¬ k + 1 ≤ i := by omega
      simp [hne, hk, hk']
    · simp
    · have hne : i ≠ k := by omega
      have hk : k ≤ i := by omega
      have hk' : k + 1 ≤ i := by omega
      obtain ⟨j, rfl⟩ : ∃ j, i = k + 1 + j := ⟨i - (k + 1), by omega⟩
      have hsub : k + 1 + j - k = j + 1 := by omega
      have hsub' : k + 1 + j - (k + 1) = j := by omega
      simp [hne, hk, hk', hsub]

theorem membershipOf_getLsbD (h : zones.length ≤ maxOcrZones) (i : ℕ) :
    (membershipOf point zones).getLsbD i = (zones[i]?).any (holds · point) := by
  unfold membershipOf
  have hfold := @foldl_membership point zones 0#16 0 (by simpa [maxOcrZones] using h) i
  simpa using hfold

theorem and_groupBit (m : BitVec 16) {g : ℕ} (hg : g < 16) :
    m &&& 1#16 <<< g ≠ 0#16 ↔ m.getLsbD g = true := by
  have hbit : ∀ i, (m &&& 1#16 <<< g).getLsbD i = (m.getLsbD i && decide (i = g)) := by
    intro i
    have hstep := getLsbD_step 0#16 hg i
    rw [BitVec.zero_or, BitVec.getLsbD_zero, Bool.false_or] at hstep
    rw [BitVec.getLsbD_and, hstep]
  constructor
  · intro hne
    by_contra hclear
    refine hne (BitVec.eq_of_getLsbD_eq fun i _ => ?_)
    rw [hbit, BitVec.getLsbD_zero]
    by_cases hi : i = g
    · subst hi
      simp [hclear]
    · simp [hi]
  · intro hset hzero
    have hget := hbit g
    rw [hzero, BitVec.getLsbD_zero, hset] at hget
    simp at hget

theorem membership_ne_zero {m : BitVec 16} : m ≠ 0#16 ↔ ∃ g, m.getLsbD g = true := by
  constructor
  · intro hne
    by_contra hnone
    refine hne (BitVec.eq_of_getLsbD_eq fun i _ => ?_)
    rw [BitVec.getLsbD_zero]
    exact Bool.eq_false_iff.mpr fun h => hnone ⟨i, h⟩
  · rintro ⟨g, hg⟩ rfl
    rw [BitVec.getLsbD_zero] at hg
    cases hg

end Membership

/-! ### Points -/

namespace Quad

def emitted (q : Quad (ℚ × ℚ)) : Quad (Coordinate × Coordinate) :=
  ⟨(some q.p0.1, some q.p0.2), (some q.p1.1, some q.p1.2), (some q.p2.1, some q.p2.2),
    (some q.p3.1, some q.p3.2)⟩

def mean (q : Quad (ℚ × ℚ)) : ℚ × ℚ :=
  ((q.p0.1 + q.p1.1 + q.p2.1 + q.p3.1) / 4, (q.p0.2 + q.p1.2 + q.p2.2 + q.p3.2) / 4)

theorem mapM_eq_ok {α β ε : Type*} {q : Quad α} {f : α → Except ε β} {q' : Quad β}
    (h : q.mapM f = .ok q') :
    f q.p0 = .ok q'.p0 ∧ f q.p1 = .ok q'.p1 ∧ f q.p2 = .ok q'.p2 ∧ f q.p3 = .ok q'.p3 := by
  unfold mapM at h
  obtain ⟨p0, h0, h⟩ := bind_eq_ok.mp h
  obtain ⟨p1, h1, h⟩ := bind_eq_ok.mp h
  obtain ⟨p2, h2, h⟩ := bind_eq_ok.mp h
  obtain ⟨p3, h3, h⟩ := bind_eq_ok.mp h
  obtain rfl := Except.ok.inj h
  exact ⟨h0, h1, h2, h3⟩

end Quad

theorem centroid_eq_mean (q : Quad (ℚ × ℚ)) : centroid q = q.mean := by
  unfold centroid Quad.mean
  refine Prod.ext ?_ ?_
  · dsimp only
    ring
  · dsimp only
    ring

theorem checkedPoint_eq_ok {extent : PixelExtent} {p : Coordinate × Coordinate} {p' : ℚ × ℚ}
    (h : checkedPoint extent p = .ok p') : p = (some p'.1, some p'.2) := by
  unfold checkedPoint at h
  split at h
  · split at h
    · cases h
    · obtain rfl := Except.ok.inj h
      rfl
  · cases h

theorem checkedPoints_eq_ok {extent : PixelExtent} {q : Quad (Coordinate × Coordinate)}
    {q' : Quad (ℚ × ℚ)} (h : q.mapM (checkedPoint extent) = .ok q') : q = q'.emitted := by
  obtain ⟨h0, h1, h2, h3⟩ := Quad.mapM_eq_ok h
  obtain ⟨p0, p1, p2, p3⟩ := q
  unfold Quad.emitted
  rw [Quad.mk.injEq]
  exact ⟨checkedPoint_eq_ok h0, checkedPoint_eq_ok h1, checkedPoint_eq_ok h2, checkedPoint_eq_ok h3⟩

theorem checkedPoint_total (extent : PixelExtent) (p : Coordinate × Coordinate) :
    (∃ p', checkedPoint extent p = .ok p') ∨ checkedPoint extent p = .error .backendGeometryInvalid := by
  unfold checkedPoint
  split
  · split
    · exact Or.inr rfl
    · exact Or.inl ⟨_, rfl⟩
  · exact Or.inr rfl

theorem membership_order (q : Quad (Coordinate × Coordinate)) (extent : PixelExtent)
    (interests : BackendInterests) :
    candidateInterestMembership q.shifted extent interests =
        candidateInterestMembership q extent interests ∧
      candidateInterestMembership q.reversed extent interests =
        candidateInterestMembership q extent interests := by
  obtain ⟨p0, p1, p2, p3⟩ := q
  unfold candidateInterestMembership Quad.mapM Quad.shifted Quad.reversed
  rcases checkedPoint_total extent p0 with ⟨p0', h0⟩ | h0 <;>
    rcases checkedPoint_total extent p1 with ⟨p1', h1⟩ | h1 <;>
    rcases checkedPoint_total extent p2 with ⟨p2', h2⟩ | h2 <;>
    rcases checkedPoint_total extent p3 with ⟨p3', h3⟩ | h3 <;>
    rw [h0, h1, h2, h3]
  all_goals try exact ⟨rfl, rfl⟩
  -- all four are points, of one centroid
  have hcentroid : ∀ q q' : Quad (ℚ × ℚ), q.mean = q'.mean →
      membershipOf (centroid q) interests.zones = membershipOf (centroid q') interests.zones := by
    intro q q' hmean
    rw [centroid_eq_mean, centroid_eq_mean, hmean]
  refine ⟨congrArg Except.ok (hcentroid ⟨p1', p2', p3', p0'⟩ ⟨p0', p1', p2', p3'⟩ ?_),
    congrArg Except.ok (hcentroid ⟨p3', p2', p1', p0'⟩ ⟨p0', p1', p2', p3'⟩ ?_)⟩
  all_goals
    unfold Quad.mean
    refine Prod.ext ?_ ?_
    · dsimp only
      ring
    · dsimp only
      ring

/-! ### Zones from the envelope -/

section Envelope

variable {envelope zone relative : PixelRect}

theorem toInt_sub_edge {a b : Int32} (hb : 0 ≤ b.toInt) (hle : b.toInt ≤ a.toInt) :
    (a - b).toInt = a.toInt - b.toInt := by
  have ha : a.toInt < 2 ^ 31 := a.toInt_lt
  rw [Int32.toInt_sub, Int.bmod_eq_of_le] <;> omega

theorem holds_relative (hplaced : envelope.Placed) (hleft : envelope.left.toInt ≤ zone.left.toInt)
    (htop : envelope.top.toInt ≤ zone.top.toInt) (h : relativeTo envelope zone = .ok relative)
    (point : ℚ × ℚ) : holds relative point =
      holds zone (envelope.left.toInt + point.1, envelope.top.toInt + point.2) := by
  obtain ⟨hl, ht, hr, hb⟩ := new_eq_ok h
  have hcolumns := Int32.le_iff_toInt_le.mp zone.columns
  have hlines := Int32.le_iff_toInt_le.mp zone.lines
  unfold holds
  rw [hl, ht, hr, hb, toInt_sub_edge hplaced.1 hleft, toInt_sub_edge hplaced.2 htop,
    toInt_sub_edge hplaced.1 (hleft.trans hcolumns), toInt_sub_edge hplaced.2 (htop.trans hlines)]
  push_cast
  simp only [sub_le_iff_le_add', lt_sub_iff_add_lt']

theorem foldl_min_le {α : Type*} (f : α → Int32) (l : List α) (start : Int32) :
    (l.foldl (fun low a => min low (f a)) start).toInt ≤ start.toInt ∧
      ∀ a ∈ l, (l.foldl (fun low a => min low (f a)) start).toInt ≤ (f a).toInt := by
  induction l generalizing start with
  | nil => exact ⟨le_rfl, fun a ha => absurd ha List.not_mem_nil⟩
  | cons b l ih =>
    obtain ⟨hstart, hrest⟩ := ih (min start (f b))
    have hmin : (min start (f b)).toInt ≤ start.toInt ∧ (min start (f b)).toInt ≤ (f b).toInt := by
      rw [← Int32.le_iff_toInt_le, ← Int32.le_iff_toInt_le]
      exact ⟨Std.min_le_left, Std.min_le_right⟩
    refine ⟨hstart.trans hmin.1, fun a ha => ?_⟩
    rcases List.mem_cons.mp ha with rfl | ha
    · exact hstart.trans hmin.2
    · exact hrest a ha

theorem le_foldl_min {α : Type*} (f : α → Int32) (l : List α) (start : Int32) (low : ℤ)
    (hstart : low ≤ start.toInt) (hl : ∀ a ∈ l, low ≤ (f a).toInt) :
    low ≤ (l.foldl (fun low a => min low (f a)) start).toInt := by
  induction l generalizing start with
  | nil => exact hstart
  | cons b l ih =>
    refine ih _ ?_ fun a ha => hl a (List.mem_cons_of_mem _ ha)
    dsimp only
    have hmin : min start (f b) = start ∨ min start (f b) = f b := Std.min_eq_or
    rcases hmin with h | h <;> rw [h]
    · exact hstart
    · exact hl b List.mem_cons_self

structure ResolvedZones.Fits (transform : TransformSnapshot) (zones : List OcrZone)
    (resolved : ResolvedZones) : Prop where
  effective : zones.mapM (resolveZone transform) = .ok resolved.effective
  /-- a zone from the origin of the envelope holds what the zone itself holds from there -/
  relative : List.Forall₂ (fun zone relative => ∀ point : ℚ × ℚ, holds relative point =
    holds zone (resolved.envelope.left.toInt + point.1, resolved.envelope.top.toInt + point.2))
    resolved.effective resolved.relative

theorem resolveZone_placed {transform : TransformSnapshot} {zone : OcrZone} {resolved : PixelRect}
    (h : resolveZone transform zone = .ok resolved) : resolved.Placed := by
  obtain ⟨_, -, h⟩ := bind_eq_ok.mp h
  exact resolveCapturePixels_eq_ok h

theorem envelopeOf_bounds {first : PixelRect} {rest : List PixelRect}
    (hplaced : ∀ zone ∈ first :: rest, zone.Placed) (h : envelopeOf first rest = .ok envelope) :
    envelope.Placed ∧ ∀ zone ∈ first :: rest,
      envelope.left.toInt ≤ zone.left.toInt ∧ envelope.top.toInt ≤ zone.top.toInt := by
  obtain ⟨hl, ht, -, -⟩ := new_eq_ok h
  have hfirst := hplaced first List.mem_cons_self
  have hrest := fun zone (hz : zone ∈ rest) => hplaced zone (List.mem_cons_of_mem _ hz)
  refine ⟨⟨?_, ?_⟩, fun zone hz => ?_⟩
  · rw [hl]
    exact le_foldl_min _ rest _ 0 hfirst.1 fun zone hz => (hrest zone hz).1
  · rw [ht]
    exact le_foldl_min _ rest _ 0 hfirst.2 fun zone hz => (hrest zone hz).2
  · obtain ⟨hleft, hlefts⟩ := foldl_min_le PixelRect.left rest first.left
    obtain ⟨htop, htops⟩ := foldl_min_le PixelRect.top rest first.top
    rw [hl, ht]
    rcases List.mem_cons.mp hz with rfl | hz
    · exact ⟨hleft, htop⟩
    · exact ⟨hlefts zone hz, htops zone hz⟩

theorem resolveZones_fits {transform : TransformSnapshot} {zones : List OcrZone}
    {resolved : ResolvedZones} (h : resolveZones transform zones = .ok resolved) :
    resolved.Fits transform zones := by
  unfold resolveZones at h
  split at h
  · obtain ⟨effective, heffective, h⟩ := bind_eq_ok.mp h
    rw [mapError_eq_ok] at heffective
    cases effective with
    | nil => cases h
    | cons first rest =>
      obtain ⟨envelope, henvelope, h⟩ := bind_eq_ok.mp h
      obtain ⟨relative, hrelative, h⟩ := bind_eq_ok.mp h
      obtain rfl := Except.ok.inj h
      rw [mapError_eq_ok] at henvelope hrelative
      have hplaced : ∀ zone ∈ first :: rest, zone.Placed := by
        intro zone hzone
        obtain ⟨i, hi, rfl⟩ := List.mem_iff_getElem.mp hzone
        have hresolved := List.forall₂_iff_get.mp (mapM_eq_ok.mp heffective)
        exact resolveZone_placed (hresolved.2 i (hresolved.1 ▸ hi) hi)
      obtain ⟨henvelopePlaced, hbounds⟩ := envelopeOf_bounds hplaced henvelope
      refine ⟨heffective, List.forall₂_iff_get.mpr ?_⟩
      have hmoved := List.forall₂_iff_get.mp (mapM_eq_ok.mp hrelative)
      refine ⟨hmoved.1, fun i hi hi' point => ?_⟩
      obtain ⟨hleft, htop⟩ := hbounds _ (List.getElem_mem hi)
      exact holds_relative henvelopePlaced hleft htop (hmoved.2 i hi hi') point
  · cases h

end Envelope

/-! ### The layout of the groups -/

section Layout

variable {memberships : List (BitVec 16)} {laid laid' : List ℕ × List ℕ}

def groupRow (memberships : List (BitVec 16)) (g : ℕ) : List ℕ :=
  positions (fun m => m.getLsbD g) memberships 0

theorem u16From_eq_ok {n k : ℕ} (h : u16From n = .ok k) : k = n := by
  unfold u16From at h
  split at h
  · exact (Except.ok.inj h).symm
  · cases h

theorem groupIndexes_eq_ok {g : ℕ} (hg : g < 16) {ms : List (BitVec 16)} {start : ℕ}
    {indexes result : List ℕ}
    (h : groupIndexes (1#16 <<< g) (ms.zipIdx start) indexes = .ok result) :
    result = indexes ++ positions (fun m => m.getLsbD g) ms start := by
  induction ms generalizing start indexes with
  | nil =>
    obtain rfl := Except.ok.inj h
    exact (List.append_nil _).symm
  | cons m ms ih =>
    rw [List.zipIdx_cons] at h
    rw [positions_cons]
    unfold groupIndexes at h
    split at h
    · rename_i hbit
      rw [and_groupBit m hg] at hbit
      obtain ⟨index, hindex, h⟩ := bind_eq_ok.mp h
      obtain rfl := u16From_eq_ok hindex
      rw [ih h, if_pos hbit, List.append_assoc]
      rfl
    · rename_i hbit
      rw [and_groupBit m hg] at hbit
      rw [ih h, if_neg hbit]

structure Laid (memberships : List (BitVec 16)) (count : ℕ) (laid : List ℕ × List ℕ) : Prop where
  indexes : laid.1 = layout (groupRow memberships) count
  slots : laid.2.length = maxOcrZones + 1
  offsets : ∀ j ≤ count, laid.2[j]? = some (layout (groupRow memberships) j).length

theorem laid_start : Laid memberships 0 ([], List.replicate (maxOcrZones + 1) 0) := by
  refine ⟨rfl, List.length_replicate, fun j hj => ?_⟩
  obtain rfl : j = 0 := by omega
  rfl

theorem Laid.step {g : ℕ} (hlaid : Laid memberships g laid) (hg : g < maxOcrZones)
    (h : (groupStep memberships laid g).Gives laid') : Laid memberships (g + 1) laid' := by
  obtain ⟨_, -, h⟩ := Guarded.gives_bind h
  obtain ⟨indexes, hindexes, h⟩ := Guarded.gives_bind h
  obtain ⟨offset, hoffset, h⟩ := Guarded.gives_bind h
  obtain rfl := Guarded.gives_pure h
  obtain rfl := u16From_eq_ok (Guarded.gives_lift hoffset)
  have hrow : indexes = layout (groupRow memberships) (g + 1) := by
    rw [groupIndexes_eq_ok hg (Guarded.gives_lift hindexes), hlaid.indexes, layout_succ]
    rfl
  refine ⟨hrow, by rw [List.length_set, hlaid.slots], fun j hj => ?_⟩
  by_cases hlast : j = g + 1
  · subst hlast
    rw [List.getElem?_set_self (by rw [hlaid.slots]; omega), hrow]
  · rw [List.getElem?_set_ne (Ne.symm hlast)]
    exact hlaid.offsets j (by omega)

theorem laid_groups {start count : ℕ} (hlaid : Laid memberships start laid)
    (hcount : start + count ≤ maxOcrZones)
    (h : ((List.range' start count).foldlM (groupStep memberships) laid).Gives laid') :
    Laid memberships (start + count) laid' := by
  induction count generalizing start laid with
  | zero =>
    obtain rfl := Guarded.gives_pure h
    exact hlaid
  | succ count ih =>
    rw [List.range'_succ, List.foldlM_cons] at h
    obtain ⟨next, hnext, h⟩ := Guarded.gives_bind h
    have hrest := ih (hlaid.step (by omega) hnext) (by omega) h
    rw [Nat.add_right_comm] at hrest
    exact hrest

end Layout

/-! ### Groups -/

/-- What the grouping sink keeps: the candidates with a region, in the detector's order. -/
def Sink.kept (s : Sink) : List NormalizedCandidate := s.sorted.filter fun c => c.region.isSome

/-- What kept candidates become: regions owned once, and the groups as positions in them. -/
structure Grouped (kept : List NormalizedCandidate) (groups : ℕ) (grouped : GroupedNormalization) :
    Prop where
  candidates : grouped.candidates = kept.filterMap NormalizedCandidate.region
  indexes : grouped.membershipIndexes =
    layout (groupRow (kept.map NormalizedCandidate.membership)) groups
  slots : grouped.groupOffsets.length = maxOcrZones + 1
  offsets : ∀ j ≤ maxOcrZones, grouped.groupOffsets[j]? =
    some (layout (groupRow (kept.map NormalizedCandidate.membership)) (min j groups)).length

section Finish

variable {s : Sink} {interests : BackendInterests} {grouped : GroupedNormalization}

theorem finishGrouped_gives (h : (s.finishGrouped interests).Gives grouped) :
    s.fault = none ∧ hasDuplicate s.sorted = false ∧ Grouped s.kept interests.zones.length grouped := by
  have hcount := interests.count.2
  unfold Sink.finishGrouped at h
  split at h
  · exact (Guarded.not_gives_fail h).elim
  · rename_i hfault
    obtain ⟨_, -, h⟩ := Guarded.gives_bind h
    split at h
    · exact (Guarded.not_gives_fail h).elim
    · rename_i hduplicate
      dsimp only at h
      split at h
      · exact (Guarded.not_gives_fail h).elim
      · obtain ⟨⟨indexes, offsets⟩, hloop, h⟩ := Guarded.gives_bind h
        obtain ⟨finalOffset, hfinal, h⟩ := Guarded.gives_bind h
        obtain rfl := Guarded.gives_pure h
        obtain rfl := u16From_eq_ok (Guarded.gives_lift hfinal)
        rw [List.range_eq_range'] at hloop
        have hlaid := laid_groups laid_start (by omega) hloop
        rw [Nat.zero_add] at hlaid
        have hslots : offsets.length = maxOcrZones + 1 := hlaid.slots
        refine ⟨hfault, Bool.eq_false_iff.mpr hduplicate, rfl, hlaid.indexes, ?_, fun j hj => ?_⟩
        · rw [List.length_append, List.length_take, List.length_replicate, hslots]
          omega
        · dsimp only
          have htake : (offsets.take (interests.zones.length + 1)).length = interests.zones.length + 1 := by
            rw [List.length_take, hslots]
            omega
          by_cases hlow : j ≤ interests.zones.length
          · rw [List.getElem?_append_left (by omega), List.getElem?_take_of_lt (by omega),
              Nat.min_eq_left hlow]
            exact hlaid.offsets j hlow
          -- behind the last group there is nothing more
          · have hindexes : indexes = layout _ interests.zones.length := hlaid.indexes
            rw [List.getElem?_append_right (by omega), htake, List.getElem?_replicate_of_lt (by omega),
              Nat.min_eq_right (by omega), hindexes]
            rfl

end Finish

section Groups

variable {kept : List NormalizedCandidate} {grouped : GroupedNormalization} {groups : ℕ}
  {result : OcrZoneScanResult}

theorem Grouped.offsets_mono (h : Grouped kept groups grouped) :
    grouped.groupOffsets.Pairwise (· ≤ ·) := by
  rw [List.pairwise_iff_getElem]
  intro i j hi hj hlt
  have hslots := h.slots
  have hoffsetI := h.offsets i (by omega)
  have hoffsetJ := h.offsets j (by omega)
  rw [List.getElem?_eq_getElem hi] at hoffsetI
  rw [List.getElem?_eq_getElem hj] at hoffsetJ
  rw [Option.some.inj hoffsetI, Option.some.inj hoffsetJ]
  exact offset_mono _ (by omega)

theorem Grouped.offsets_le (h : Grouped kept groups grouped) :
    ∀ offset ∈ grouped.groupOffsets, offset ≤ grouped.membershipIndexes.length := by
  intro offset hmem
  obtain ⟨j, hj, rfl⟩ := List.mem_iff_getElem.mp hmem
  have hslots := h.slots
  have hoffset := h.offsets j (by omega)
  rw [List.getElem?_eq_getElem hj] at hoffset
  rw [Option.some.inj hoffset, h.indexes]
  exact offset_mono _ (Nat.min_le_right _ _)

end Groups

/-! ### Members -/

namespace Quad

def finite : Quad (Coordinate × Coordinate) → Option (Quad (ℚ × ℚ))
  | ⟨(some x0, some y0), (some x1, some y1), (some x2, some y2), (some x3, some y3)⟩ =>
    some ⟨(x0, y0), (x1, y1), (x2, y2), (x3, y3)⟩
  | _ => none

@[simp] theorem finite_emitted (q : Quad (ℚ × ℚ)) : q.emitted.finite = some q := rfl

end Quad

/-- The centroid of the candidate, from the origin of the envelope, lies in the half-open zone. -/
def centered (envelope zone : PixelRect) (c : BackendCandidate) : Bool :=
  c.quadrilateral.finite.any fun q =>
    holds zone (envelope.left.toInt + q.mean.1, envelope.top.toInt + q.mean.2)

def Recognition.legible (r : Recognition) (c : BackendCandidate) : Bool :=
  match r.read c with
  | .ok region => !region.text.isEmpty
  | .error _ => false

section Members

variable {r : Recognition} {interests : BackendInterests} {c : BackendCandidate}
  {e : NormalizedCandidate}

theorem groupedEntry_eq_ok (h : r.groupedEntry interests c = .ok e) :
    ∃ q region, c.quadrilateral.finite = some q ∧ r.read c = .ok region ∧
      e.membership = membershipOf q.mean interests.zones ∧
      e.region = if e.membership = 0#16 ∨ region.text = [] then none else some region := by
  obtain ⟨membership, hmembership, h⟩ := bind_eq_ok.mp h
  obtain ⟨region, hread, h⟩ := bind_eq_ok.mp h
  obtain rfl := Except.ok.inj h
  rw [mapError_eq_ok] at hmembership
  obtain ⟨q, hq, hmembership⟩ := bind_eq_ok.mp hmembership
  refine ⟨q, region, ?_, hread, ?_, rfl⟩
  · rw [checkedPoints_eq_ok hq, Quad.finite_emitted]
  · rw [← centroid_eq_mean]
    exact (Except.ok.inj hmembership).symm

theorem legible_iff {region : RecognizedRegion} (h : r.read c = .ok region) :
    r.legible c = true ↔ region.text ≠ [] := by
  unfold Recognition.legible
  rw [h]
  simp

theorem region_isSome_iff (h : r.groupedEntry interests c = .ok e) :
    e.region.isSome = true ↔ r.legible c = true ∧ e.membership ≠ 0#16 := by
  obtain ⟨q, region, -, hread, -, hregion⟩ := groupedEntry_eq_ok h
  rw [hregion, legible_iff hread]
  split_ifs with hnone
  · simp only [Option.isSome_none, Bool.false_eq_true, false_iff]
    tauto
  · simp only [Option.isSome_some, true_iff]
    tauto

theorem bit_iff_centered {transform : TransformSnapshot} {zones : List OcrZone}
    {resolved : ResolvedZones} (hfits : resolved.Fits transform zones)
    (hinterests : interests.zones = resolved.relative) (h : r.groupedEntry interests c = .ok e)
    {g : ℕ} : e.membership.getLsbD g =
      (resolved.effective[g]?).any fun zone => centered resolved.envelope zone c := by
  obtain ⟨q, region, hq, -, hmembership, -⟩ := groupedEntry_eq_ok h
  rw [hmembership, membershipOf_getLsbD interests.count.2, hinterests]
  obtain ⟨hlength, hzones⟩ := List.forall₂_iff_get.mp hfits.relative
  unfold centered
  rw [hq]
  by_cases hg : g < resolved.effective.length
  · rw [List.getElem?_eq_getElem hg, List.getElem?_eq_getElem (hlength ▸ hg)]
    exact hzones g hg (hlength ▸ hg) q.mean
  · rw [List.getElem?_eq_none (by omega), List.getElem?_eq_none (by omega)]
    rfl

theorem member_iff_centered {transform : TransformSnapshot} {zones : List OcrZone}
    {resolved : ResolvedZones} (hfits : resolved.Fits transform zones)
    (hinterests : interests.zones = resolved.relative) (h : r.groupedEntry interests c = .ok e) :
    decide (e.membership ≠ 0#16) =
      resolved.effective.any fun zone => centered resolved.envelope zone c := by
  rw [Bool.eq_iff_iff, decide_eq_true_iff, membership_ne_zero, List.any_eq_true]
  constructor
  · rintro ⟨g, hg⟩
    rw [bit_iff_centered hfits hinterests h, Option.any_eq_true] at hg
    obtain ⟨zone, hget, hin⟩ := hg
    exact ⟨zone, List.mem_of_getElem? hget, hin⟩
  · rintro ⟨zone, hmem, hin⟩
    obtain ⟨g, hget⟩ := List.mem_iff_getElem?.mp hmem
    refine ⟨g, ?_⟩
    rw [bit_iff_centered hfits hinterests h, hget]
    exact hin

theorem mapM_read {l : List BackendCandidate} {entries : List NormalizedCandidate}
    (h : List.Forall₂ (fun c e => r.groupedEntry interests c = .ok e) l entries)
    (hsome : ∀ e ∈ entries, e.region.isSome = true) :
    l.mapM r.read = .ok (entries.filterMap NormalizedCandidate.region) := by
  rw [mapM_eq_ok]
  induction h with
  | nil => exact .nil
  | @cons c e l entries hce hrest ih =>
    obtain ⟨region, hregion⟩ := Option.isSome_iff_exists.mp (hsome e List.mem_cons_self)
    obtain ⟨q, region', -, hread, -, heq⟩ := groupedEntry_eq_ok hce
    rw [List.filterMap_cons_some hregion]
    refine .cons ?_ (ih fun e' he' => hsome e' (List.mem_cons_of_mem _ he'))
    rw [heq, Option.ite_none_left_eq_some] at hregion
    rw [hread, Option.some.inj hregion.2]

end Members

/-! ### Scans -/

structure OcrZoneScanResult.Holds (result : OcrZoneScanResult) (grouped : GroupedNormalization) :
    Prop where
  candidates : result.candidates = grouped.candidates
  indexes : result.membershipIndexes = grouped.membershipIndexes
  offsets : result.groupOffsets = grouped.groupOffsets

section Results

variable {kept : List NormalizedCandidate} {grouped : GroupedNormalization}
  {result : OcrZoneScanResult}

theorem group_eq (hgrouped : Grouped kept result.effectiveZones.length grouped)
    (hholds : result.Holds grouped) (hcount : result.effectiveZones.length ≤ maxOcrZones)
    (hsome : ∀ e ∈ kept, e.region.isSome = true) {g : ℕ} (hg : g < result.effectiveZones.length) :
    ∃ group, result.group g = .ok (some group) ∧
      group.indexes = groupRow (kept.map NormalizedCandidate.membership) g ∧
      group.iter = .ok ((kept.filter fun e => e.membership.getLsbD g).filterMap
        NormalizedCandidate.region) := by
  have hstart := hgrouped.offsets g (by omega)
  have hstop := hgrouped.offsets (g + 1) (by omega)
  rw [Nat.min_eq_left hg.le] at hstart
  rw [Nat.min_eq_left hg] at hstop
  refine ⟨⟨result.candidates, groupRow (kept.map NormalizedCandidate.membership) g⟩, ?_, rfl, ?_⟩
  · unfold OcrZoneScanResult.group
    rw [if_neg (by omega), hholds.offsets, hstart, hstop, hholds.indexes, hgrouped.indexes]
    dsimp only
    rw [if_pos ⟨offset_mono _ (Nat.le_succ g), offset_mono _ hg⟩, slice_layout _ hg]
  · unfold OcrZoneGroup.iter groupRow
    dsimp only
    rw [positions_map]
    refine mapM_positions _ kept NormalizedCandidate.region 0 _ hsome fun i e region hi hregion => ?_
    rw [Nat.zero_add, hholds.candidates, hgrouped.candidates, getElem?_filterMap hsome, hi,
      Option.bind_some, hregion]

theorem index_mem_group (hgrouped : Grouped kept result.effectiveZones.length grouped)
    (hholds : result.Holds grouped) (hcount : result.effectiveZones.length ≤ maxOcrZones)
    (hsome : ∀ e ∈ kept, e.region.isSome = true)
    (hmember : ∀ e ∈ kept, ∃ g < result.effectiveZones.length, e.membership.getLsbD g = true)
    {i : ℕ} (hi : i < result.candidates.length) :
    ∃ g group, result.group g = .ok (some group) ∧ i ∈ group.indexes := by
  have hregion : (result.candidates)[i]? = kept[i]?.bind NormalizedCandidate.region := by
    rw [hholds.candidates, hgrouped.candidates, getElem?_filterMap hsome]
  rw [List.getElem?_eq_getElem hi] at hregion
  obtain ⟨e, he, -⟩ := Option.bind_eq_some_iff.mp hregion.symm
  obtain ⟨g, hg, hbit⟩ := hmember e (List.mem_of_getElem? he)
  obtain ⟨group, hgroup, hindexes, -⟩ := group_eq hgrouped hholds hcount hsome hg
  refine ⟨g, group, hgroup, ?_⟩
  rw [hindexes]
  unfold groupRow
  rw [positions_map, mem_positions]
  exact ⟨e, Nat.zero_le _, he, hbit⟩

theorem group_total (hgrouped : Grouped kept result.effectiveZones.length grouped)
    (hholds : result.Holds grouped) (hcount : result.effectiveZones.length ≤ maxOcrZones)
    (hsome : ∀ e ∈ kept, e.region.isSome = true) (g : ℕ) : ∃ group, result.group g = .ok group := by
  by_cases hg : g < result.effectiveZones.length
  · obtain ⟨group, hgroup, -⟩ := group_eq hgrouped hholds hcount hsome hg
    exact ⟨_, hgroup⟩
  · exact ⟨none, if_pos (by omega)⟩

end Results

theorem committed_gives {α : Type} {op : Operation} {value a : α}
    (h : (op.committed Interruption.toError value).Gives a) : a = value := by
  unfold Operation.committed at h
  split at h
  · exact (Guarded.not_gives_fail h).elim
  · obtain ⟨answers, hrun⟩ := h
    exact (Operation.commit_eq_ok hrun).1

theorem scanZones_gives {call : OcrCall} {zones : List OcrZone} {result : OcrZoneScanResult}
    (h : (call.scanZones zones).Gives result) :
    ∃ (resolved : ResolvedZones) (interests : BackendInterests) (sink : Sink)
      (grouped : GroupedNormalization), resolved.Fits call.transform zones ∧
      result.sourceEnvelope = resolved.envelope ∧ result.effectiveZones = resolved.effective ∧
      interests.zones = resolved.relative ∧
      (recognizeInto (processGrouped (call.recognition resolved.envelope) interests) call.backend
        .new).Gives (sink, .ok ⟨⟩) ∧
      (sink.finishGrouped interests).Gives grouped ∧ result.Holds grouped := by
  unfold OcrCall.scanZones at h
  split at h
  · obtain ⟨op, -, h⟩ := Guarded.gives_bind h
    obtain ⟨_, -, h⟩ := Guarded.gives_bind h
    obtain ⟨resolved, hresolved, h⟩ := Guarded.gives_bind h
    obtain ⟨_, -, h⟩ := Guarded.gives_bind h
    obtain ⟨_, -, h⟩ := Guarded.gives_bind h
    obtain ⟨_, -, h⟩ := Guarded.gives_bind h
    obtain ⟨interests, hinterests, h⟩ := Guarded.gives_bind h
    obtain ⟨⟨sink, outcome⟩, hsink, h⟩ := Guarded.gives_bind h
    obtain ⟨_, -, h⟩ := Guarded.gives_bind h
    obtain ⟨_, houtcome, h⟩ := Guarded.gives_bind h
    obtain ⟨groupedOutcome, hgrouped, h⟩ := Guarded.gives_bind h
    obtain ⟨_, -, h⟩ := Guarded.gives_bind h
    obtain ⟨grouped, hok, h⟩ := Guarded.gives_bind h
    obtain rfl := committed_gives h
    obtain rfl := Guarded.gives_lift houtcome
    have hzones : interests.zones = resolved.relative := by
      have hnew := mapError_eq_ok.mp (Guarded.gives_lift hinterests)
      unfold BackendInterests.new at hnew
      split at hnew
      · rw [← Except.ok.inj hnew]
      · cases hnew
    exact ⟨resolved, interests, sink, grouped, resolveZones_fits (Guarded.gives_lift hresolved),
      rfl, rfl, hzones, hsink, Guarded.gives_caught hgrouped (Guarded.gives_lift hok), ⟨rfl, rfl, rfl⟩⟩
  · exact (Guarded.not_gives_fail h).elim

theorem exists_of_entries {α β : Type*} {R : α → β → Prop} {l : List α} {l' : List β}
    (h : List.Forall₂ R l l') {b : β} (hb : b ∈ l') : ∃ a, R a b := by
  obtain ⟨i, hi, rfl⟩ := List.mem_iff_getElem.mp hb
  obtain ⟨hlength, hget⟩ := List.forall₂_iff_get.mp h
  exact ⟨l[i], hget i (hlength ▸ hi) hi⟩

/-- Among candidates in order, those with text that a test picks. -/
def Recognition.members (r : Recognition) (ordered : List BackendCandidate)
    (test : BackendCandidate → Bool) : List BackendCandidate :=
  ordered.filter fun c => r.legible c && test c

section Members

variable {r : Recognition} {interests : BackendInterests} {ordered : List BackendCandidate}
  {entries : List NormalizedCandidate}

theorem mapM_members (h : List.Forall₂ (fun c e => r.groupedEntry interests c = .ok e) ordered entries)
    {test : BackendCandidate → Bool} {bit : NormalizedCandidate → Bool}
    (htest : ∀ c e, r.groupedEntry interests c = .ok e → bit e = test c)
    (hzone : ∀ e, bit e = true → e.membership ≠ 0#16) :
    (r.members ordered test).mapM r.read =
      .ok (((entries.filter fun e => e.region.isSome).filter bit).filterMap
        NormalizedCandidate.region) := by
  rw [List.filter_filter]
  refine mapM_read (List.rel_filter ?_ h) fun e he => ?_
  · intro c e hce
    have hregion := region_isSome_iff hce
    have hbit := htest c e hce
    have hne := hzone e
    dsimp only
    rw [Bool.and_eq_true, Bool.and_eq_true, hregion, ← hbit]
    tauto
  · have hpicked := (List.mem_filter.mp he).2
    rw [Bool.and_eq_true] at hpicked
    exact hpicked.2

end Members

/-- **The groups of a zone scan.**  Whatever the backend pushes, in whatever order: a scan that
succeeds has one group for each zone, the candidates with text that are centered in it, in the
detector's order; the regions owned once are those of the candidates centered in some zone, and each is
in a group; the offsets do not decrease and stay in bounds, so asking for a group never panics; and
the zones of a quadrilateral do not depend on where and which way around its points begin. -/
theorem zone_groups (call : OcrCall) (zones : List OcrZone) (answers : ℕ → Option Interruption)
    (result : OcrZoneScanResult) (h : (call.scanZones zones).run answers = .ok result) :
    (zones.mapM (resolveZone call.transform) = .ok result.effectiveZones ∧
      ∃ ordered : List BackendCandidate, ordered.Perm call.backend.pushed ∧
        ordered.Pairwise (fun a b => a.detectorOrder < b.detectorOrder) ∧
        ((call.recognition result.sourceEnvelope).members ordered fun c =>
          result.effectiveZones.any fun zone => centered result.sourceEnvelope zone c).mapM
            (call.recognition result.sourceEnvelope).read = .ok result.candidates ∧
        ∀ g zone, result.effectiveZones[g]? = some zone → ∃ group regions,
          result.group g = .ok (some group) ∧ group.iter = .ok regions ∧
          ((call.recognition result.sourceEnvelope).members ordered
            (centered result.sourceEnvelope zone)).mapM
              (call.recognition result.sourceEnvelope).read = .ok regions) ∧
    (∀ i < result.candidates.length, ∃ g group, result.group g = .ok (some group) ∧ i ∈ group.indexes) ∧
    (result.groupOffsets.Pairwise (· ≤ ·) ∧
      (∀ offset ∈ result.groupOffsets, offset ≤ result.membershipIndexes.length) ∧
      ∀ g, ∃ group, result.group g = .ok group) ∧
    ∀ q extent interests,
      candidateInterestMembership q.shifted extent interests =
          candidateInterestMembership q extent interests ∧
        candidateInterestMembership q.reversed extent interests =
          candidateInterestMembership q extent interests := by
  obtain ⟨resolved, interests, sink, grouped, hfits, henvelope, heffective, hinterests, hsink, hfinish,
    hholds⟩ := scanZones_gives ⟨answers, h⟩
  obtain ⟨hfault, hduplicate, hgrouped⟩ := finishGrouped_gives hfinish
  obtain ⟨ordered, hperm, hascending, hsorted⟩ :=
    sink_entries processGrouped_keeps groupedEntry_orders hsink hfault hduplicate
  have hcount : result.effectiveZones.length = interests.zones.length := by
    rw [heffective, hinterests]
    exact hfits.relative.length_eq
  have hmax : result.effectiveZones.length ≤ maxOcrZones := hcount ▸ interests.count.2
  rw [← hcount] at hgrouped
  have hsome : ∀ e ∈ sink.kept, e.region.isSome = true := fun e he => (List.mem_filter.mp he).2
  have hbit : ∀ g c e, (call.recognition resolved.envelope).groupedEntry interests c = .ok e →
      e.membership.getLsbD g = (result.effectiveZones[g]?).any fun zone =>
        centered result.sourceEnvelope zone c := by
    intro g c e hce
    rw [heffective, henvelope]
    exact bit_iff_centered hfits hinterests hce
  have hzone : ∀ c e, (call.recognition resolved.envelope).groupedEntry interests c = .ok e →
      decide (e.membership ≠ 0#16) = result.effectiveZones.any fun zone =>
        centered result.sourceEnvelope zone c := by
    intro c e hce
    rw [heffective, henvelope]
    exact member_iff_centered hfits hinterests hce
  have hmember : ∀ e ∈ sink.kept, ∃ g < result.effectiveZones.length, e.membership.getLsbD g = true := by
    intro e he
    obtain ⟨c, hce⟩ := exists_of_entries hsorted (List.mem_filter.mp he).1
    obtain ⟨g, hg⟩ := membership_ne_zero.mp ((region_isSome_iff hce).mp (hsome e he)).2
    refine ⟨g, ?_, hg⟩
    rw [hbit g c e hce, Option.any_eq_true] at hg
    obtain ⟨zone, hget, -⟩ := hg
    exact (List.getElem?_eq_some_iff.mp hget).1
  refine ⟨⟨heffective ▸ hfits.effective, ordered, hperm, hascending, ?_, fun g zone hget => ?_⟩, ?_,
    ⟨?_, ?_, group_total hgrouped hholds hmax hsome⟩, membership_order⟩
  · rw [henvelope] at hzone ⊢
    rw [mapM_members hsorted hzone fun e he => of_decide_eq_true he, hholds.candidates,
      hgrouped.candidates]
    congr 2
    refine List.filter_eq_self.mpr fun e he => decide_eq_true ?_
    obtain ⟨g, -, hg⟩ := hmember e he
    exact membership_ne_zero.mpr ⟨g, hg⟩
  · obtain ⟨hg, -⟩ := List.getElem?_eq_some_iff.mp hget
    obtain ⟨group, hgroup, -, hiter⟩ := group_eq hgrouped hholds hmax hsome hg
    refine ⟨group, _, hgroup, hiter, ?_⟩
    rw [henvelope] at hbit ⊢
    refine mapM_members hsorted (fun c e hce => ?_) fun e he => membership_ne_zero.mpr ⟨g, he⟩
    rw [hbit g c e hce, hget]
    rfl
  · intro i hi
    exact index_mem_group hgrouped hholds hmax hsome hmember hi
  · exact hholds.offsets ▸ hgrouped.offsets_mono
  · rw [hholds.offsets, hholds.indexes]
    exact hgrouped.offsets_le

/-! ### One scan -/

section Sample

def sampleCandidate (letter : UInt8) (x : ℚ) (order : UInt32) : BackendCandidate :=
  ⟨⟨#[letter]⟩, ⟨(some x, some 0), (some (x + 2), some 0), (some (x + 2), some 2), (some x, some 2)⟩,
    some (1 / 2), order⟩

def sampleCall : OcrCall where
  unicode := accentUnicode
  transform := .frameOnly 1 ⟨20, 10⟩
  outputSpace := .capturePixels
  selection := .ok ⟨⟩
  map _ := pure ⟨⟩
  backend := .pushes (sampleCandidate 98 3 7) fun _ => .pushes (sampleCandidate 32 1 5) fun _ =>
    .pushes (sampleCandidate 97 1 2) fun _ => .returns (.ok ⟨⟩)

def sampleZone (left right : ℚ) (h : left ≤ right) : OcrZone :=
  ⟨⟨.capturePixels, left, 0, right, 5, h, by decide, fun hunit => (by cases hunit)⟩, .reject⟩

def sampleZones : List OcrZone := [sampleZone 4 9 (by decide), sampleZone 3 6 (by decide)]

def sampleEffective : List PixelRect :=
  [⟨4, 0, 9, 5, by decide, by decide⟩, ⟨3, 0, 6, 5, by decide, by decide⟩]

def sampleEnvelope : PixelRect := ⟨3, 0, 9, 5, by decide, by decide⟩

def sampleInterests : BackendInterests :=
  ⟨[⟨1, 0, 6, 5, by decide, by decide⟩, ⟨0, 0, 3, 5, by decide, by decide⟩], by decide⟩

def sampleRegion (letter : Char) (x : ℚ) : RecognizedRegion :=
  ⟨[letter], ⟨⟨.capturePixels, x, 0⟩, ⟨.capturePixels, x + 2, 0⟩, ⟨.capturePixels, x + 2, 2⟩,
    ⟨.capturePixels, x, 2⟩⟩, 1 / 2⟩

def sampleSink : Sink :=
  ⟨3, [⟨7, 1#16, some (sampleRegion 'b' 6)⟩, ⟨5, 3#16, none⟩, ⟨2, 3#16, some (sampleRegion 'a' 4)⟩], none⟩

def sampleGrouped : GroupedNormalization :=
  ⟨[sampleRegion 'a' 4, sampleRegion 'b' 6], [0, 1, 0], [0, 2] ++ List.replicate 15 3⟩

def sampleResult : OcrZoneScanResult :=
  ⟨sampleEnvelope, sampleEffective, .capturePixels, sampleGrouped.candidates,
    sampleGrouped.membershipIndexes, sampleGrouped.groupOffsets⟩

theorem sample_sorted : sampleSink.sorted = sampleSink.candidates.reverse :=
  sortBy_eq (List.reverse_perm _) (by decide)

theorem sample_parts :
    resolveZones sampleCall.transform sampleZones =
        .ok ⟨sampleEffective, sampleEnvelope, sampleInterests.zones⟩ ∧
      preflightOutput sampleCall.transform sampleEnvelope .capturePixels = .ok ⟨⟩ ∧
      (BackendInterests.new sampleInterests.zones).mapError OcrFault.toError = .ok sampleInterests ∧
      (recognizeInto (processGrouped (sampleCall.recognition sampleEnvelope) sampleInterests)
        sampleCall.backend .new).quiet = .ok (sampleSink, .ok ⟨⟩) ∧
      (sampleSink.finishGrouped sampleInterests).quiet = .ok sampleGrouped := by
  refine ⟨?_, ?_, ?_, ?_, ?_⟩
  · decide +kernel
  · decide +kernel
  · decide +kernel
  · decide +kernel
  · unfold Sink.finishGrouped
    rw [sample_sorted]
    decide +kernel

theorem sample_run {zones : List OcrZone} {resolved : ResolvedZones} {interests : BackendInterests}
    {sink : Sink} {grouped : GroupedNormalization}
    (hcount : 1 ≤ zones.length ∧ zones.length ≤ maxOcrZones)
    (hzones : resolveZones sampleCall.transform zones = .ok resolved)
    (hpreflight : preflightOutput sampleCall.transform resolved.envelope .capturePixels = .ok ⟨⟩)
    (hinterests : (BackendInterests.new resolved.relative).mapError OcrFault.toError = .ok interests)
    (hsink : (recognizeInto (processGrouped (sampleCall.recognition resolved.envelope) interests)
      sampleCall.backend .new).quiet = .ok (sink, .ok ⟨⟩))
    (hgrouped : (sink.finishGrouped interests).quiet = .ok grouped) :
    (sampleCall.scanZones zones).run (fun _ => none) = .ok ⟨resolved.envelope, resolved.effective,
      .capturePixels, grouped.candidates, grouped.membershipIndexes, grouped.groupOffsets⟩ := by
  rw [Guarded.run_eq_quiet fun _ _ => rfl]
  unfold OcrCall.scanZones
  rw [if_pos hcount]
  refine (Guarded.quiet_bind_ok rfl _).trans ?_
  refine (Guarded.quiet_bind_ok rfl _).trans ?_
  refine (Guarded.quiet_bind_ok ((Guarded.quiet_lift _).trans hzones) _).trans ?_
  refine (Guarded.quiet_bind_ok ((Guarded.quiet_lift _).trans hpreflight) _).trans ?_
  refine (Guarded.quiet_bind_ok rfl _).trans ?_
  refine (Guarded.quiet_bind_ok rfl _).trans ?_
  refine (Guarded.quiet_bind_ok ((Guarded.quiet_lift _).trans hinterests) _).trans ?_
  refine (Guarded.quiet_bind_ok hsink _).trans ?_
  refine (Guarded.quiet_bind_ok rfl _).trans ?_
  refine (Guarded.quiet_bind_ok rfl _).trans ?_
  refine (Guarded.quiet_bind_ok (Guarded.quiet_caught _) _).trans ?_
  refine (Guarded.quiet_bind_ok rfl _).trans ?_
  exact Guarded.quiet_bind_ok ((Guarded.quiet_lift _).trans hgrouped) _

theorem sample_scan : (sampleCall.scanZones sampleZones).run (fun _ => none) = .ok sampleResult := by
  obtain ⟨hzones, hpreflight, hinterests, hsink, hgrouped⟩ := sample_parts
  exact sample_run (by decide) hzones hpreflight hinterests hsink hgrouped

/-- `a` and `b` lie in the first zone and `a` in the second; each is in a group. -/
theorem zone_groups_sample :
    (sampleCall.scanZones sampleZones).run (fun _ => none) = .ok sampleResult ∧
      (sampleResult.group 0).map (Option.map OcrZoneGroup.indexes) = .ok (some [0, 1]) ∧
      (sampleResult.group 1).map (Option.map OcrZoneGroup.indexes) = .ok (some [0]) ∧
      ∀ i < sampleResult.candidates.length, ∃ g group,
        sampleResult.group g = .ok (some group) ∧ i ∈ group.indexes :=
  ⟨sample_scan, by decide, by decide,
    (zone_groups sampleCall sampleZones (fun _ => none) sampleResult sample_scan).2.1⟩

end Sample

end MadoPilot.Ocr
