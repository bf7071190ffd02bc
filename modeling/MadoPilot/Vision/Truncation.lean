import MadoPilot.Vision.MatchLaw
import MadoPilot.Vision.PeaksLaw

/-!
# Where the adapter cuts

The adapter reports as many peaks as matches may be reported, and the matcher sorts them again.  Both
go through the places from the highest score down and in the order of the map among equal scores; but
the adapter takes the two zeros for one score, and the matcher puts `-0.0` after `0.0`.

* `matchAt` : the match of a place, and `canonicalOrder_matchAt`, `overlaps_matchAt`: the two orders
  and the two overlap tests agree, up to the sign of zero;
* `normalize_places` : what the matcher makes of some places of a map;
* `truncation_exact` : when the cut changes the result;
* `truncation_changes` : a map for which it does.
-/

namespace MadoPilot.Vision

open MadoPilot.Core MadoPilot.Lib

/-- The search of `find` in a score map. -/
def findSearch (template : PreparedTemplate) (options : MatchOptions) (width height : ℕ) :
    PeakSearch :=
  ⟨width, height, template.extent.width, template.extent.height, options.minScore,
    options.maxResults.toNat, options.suppression⟩

def peakCandidate (peak : Peak) : Option Candidate := do
  let left ← (i32From peak.left).toOption
  let top ← (i32From peak.top).toOption
  some ⟨left, top, peak.score⟩

def reportPeaks (template : PreparedTemplate) (region : PixelRect) (options : MatchOptions)
    (found : List Peak) : Option (Except VisionFault (List Match)) :=
  (found.mapM peakCandidate).map (normalize template region options)

def finitePeaks (scores : List Binary64) (width : ℕ) : List Peak :=
  (entries 0 scores).map fun winner => winner.peak width

/-- The score map of a template in a region that begins in the frame: one place for each position of
the template. -/
structure Correlates (template : PreparedTemplate) (region : PixelRect) (width height : ℕ)
    (scores : List Binary64) : Prop where
  left : 0 ≤ region.left.toInt
  top : 0 ≤ region.top.toInt
  columns : region.left.toInt + (width + template.extent.width : ℕ) = region.right.toInt + 1
  rows : region.top.toInt + (height + template.extent.height : ℕ) = region.bottom.toInt + 1
  extent : template.extent.isEmpty = false
  complete : scores.length = width * height

/-- The places that the adapter takes: from the highest score down, in the order of the map among
equal scores, zeros of either sign alike. -/
def takenPlaces (scores : List Binary64) (search : PeakSearch) : List RowWinner :=
  (greedy (fun a b => search.suppression = .dropOverlapping && search.overlap a b)
    (ordered scores search)).take search.candidateBudget

/-- A place of score `-0.0` is taken, and one of score `0.0` is left that overlaps no taken place
before it, but for places of score `-0.0`. -/
def ZeroOvertakes (scores : List Binary64) (search : PeakSearch) : Prop :=
  ∃ n ∈ takenPlaces scores search, n.score.negative = true ∧
    ∃ p ∈ ordered scores search, p.score.negative = false ∧ p ∉ takenPlaces scores search ∧
      ∀ s ∈ takenPlaces scores search, s.score.negative = false → s.cmp p = .gt →
        (decide (search.suppression = .dropOverlapping) && search.overlap s p) = false

/-! ### The match of a place -/

section Places

variable {template : PreparedTemplate} {region : PixelRect} {options : MatchOptions}
  {width height : ℕ} {scores : List Binary64}

def boundsAt (template : PreparedTemplate) (region : PixelRect) (width : ℕ) (w : RowWinner) :
    Option PixelRect :=
  (peakCandidate (w.peak width)).bind fun c => candidateBounds region c template.extent

def matchAt (template : PreparedTemplate) (region : PixelRect) (width : ℕ) (w : RowWinner) : Match :=
  ⟨template.id, (boundsAt template region width w).getD region, w.score⟩

def candidateAt (width : ℕ) (w : RowWinner) : Candidate :=
  (peakCandidate (w.peak width)).getD ⟨0, 0, w.score⟩

structure RowWinner.Placed (width height : ℕ) (w : RowWinner) : Prop where
  index : w.index < width * height
  low : 0 ≤ w.score.key
  high : w.score.key ≤ Binary64.one.key

theorem RowWinner.Placed.of_mem (hlen : scores.length = width * height) {w : RowWinner}
    (h : w ∈ entries 0 scores) : w.Placed width height := by
  have hindex := index_lt_of_mem h
  obtain ⟨hlow, hhigh⟩ := range_of_mem h
  exact ⟨by omega, hlow, hhigh⟩

theorem placed_lt {w : RowWinner} (hw : w.Placed width height) :
    w.index % width < width ∧ w.index / width < height := by
  have hpos : 0 < width := by
    by_contra hzero
    have hindex := hw.index
    rw [Nat.eq_zero_of_not_pos hzero, Nat.zero_mul] at hindex
    omega
  exact ⟨Nat.mod_lt _ hpos, Nat.div_lt_of_lt_mul hw.index⟩

theorem Match.overlaps_iff {a b : Match} : a.overlaps b = true ↔
    max a.bounds.left.toInt b.bounds.left.toInt < min a.bounds.right.toInt b.bounds.right.toInt ∧
    max a.bounds.top.toInt b.bounds.top.toInt < min a.bounds.bottom.toInt b.bounds.bottom.toInt := by
  have hmax : ∀ x y : Int32, (if x ≤ y then y else x).toInt = max x.toInt y.toInt := by
    intro x y
    split_ifs with h <;> rw [Int32.le_iff_toInt_le] at h <;> omega
  have hmin : ∀ x y : Int32, (if x ≤ y then x else y).toInt = min x.toInt y.toInt := by
    intro x y
    split_ifs with h <;> rw [Int32.le_iff_toInt_le] at h <;> omega
  have hleft := hmax a.bounds.left b.bounds.left
  have htop := hmax a.bounds.top b.bounds.top
  have hright := hmin a.bounds.right b.bounds.right
  have hbottom := hmin a.bounds.bottom b.bounds.bottom
  unfold Match.overlaps PixelRect.intersect
  simp only
  generalize (if a.bounds.left ≤ b.bounds.left then b.bounds.left else a.bounds.left) = left at hleft ⊢
  generalize (if a.bounds.top ≤ b.bounds.top then b.bounds.top else a.bounds.top) = top at htop ⊢
  generalize (if a.bounds.right ≤ b.bounds.right then a.bounds.right else b.bounds.right) = right
    at hright ⊢
  generalize (if a.bounds.bottom ≤ b.bounds.bottom then a.bounds.bottom else b.bounds.bottom) = bottom
    at hbottom ⊢
  rw [← hleft, ← htop, ← hright, ← hbottom]
  by_cases hempty : right ≤ left ∨ bottom ≤ top
  · rw [if_pos hempty]
    rw [Int32.le_iff_toInt_le, Int32.le_iff_toInt_le] at hempty
    simp only [Bool.false_eq_true, false_iff]
    omega
  · rw [if_neg hempty]
    rw [Int32.le_iff_toInt_le, Int32.le_iff_toInt_le] at hempty
    have hsides : left ≤ right ∧ top ≤ bottom := by
      rw [Int32.le_iff_toInt_le, Int32.le_iff_toInt_le]
      omega
    unfold PixelRect.new
    rw [dif_pos hsides]
    simp only [Except.toOption]
    rw [Bool.not_eq_true', PixelRect.isEmpty_eq_false]
    unfold PixelRect.width PixelRect.height
    simp only
    omega

theorem totalKey_of_low {x : Binary64} (h : 0 ≤ x.key) :
    (x.negative = true → x.key = 0 ∧ x.totalKey = -1) ∧
      (x.negative = false → x.totalKey = x.key) := by
  unfold Binary64.key at h ⊢
  unfold Binary64.totalKey
  constructor
  · intro hneg
    rw [hneg, if_pos rfl] at h
    rw [hneg, if_pos rfl, if_pos rfl]
    omega
  · intro hneg
    rw [hneg]
    rfl

section Placed

variable {w a b : RowWinner} (hmap : Correlates template region width height scores)
  (hw : w.Placed width height) (ha : a.Placed width height) (hb : b.Placed width height)
include hmap

include hw in
theorem peakCandidate_placed : ∃ c, peakCandidate (w.peak width) = some c ∧
    c.left.toInt = (w.index % width : ℕ) ∧ c.top.toInt = (w.index / width : ℕ) ∧
      c.score = w.score := by
  obtain ⟨hleft, htop⟩ := placed_lt hw
  have hcolumns := hmap.columns
  have hrows := hmap.rows
  have hregion := hmap.left
  have hregion' := hmap.top
  have hextent := hmap.extent
  unfold PixelExtent.isEmpty at hextent
  simp only [Bool.or_eq_false_iff, beq_eq_false_iff_ne] at hextent
  have hright := region.right.toInt_lt
  have hbottom := region.bottom.toInt_lt
  obtain ⟨left, hl⟩ := @i32From_of_le (w.index % width) (by unfold i32Max; omega)
  obtain ⟨top, ht⟩ := @i32From_of_le (w.index / width) (by unfold i32Max; omega)
  refine ⟨⟨left, top, w.score⟩, ?_, i32From_eq_ok hl, i32From_eq_ok ht, rfl⟩
  unfold peakCandidate RowWinner.peak
  simp only [hl, ht]
  rfl

include hw in
theorem boundsAt_placed : ∃ bounds, boundsAt template region width w = some bounds ∧
    candidateBounds region (candidateAt width w) template.extent = some bounds ∧
    (candidateAt width w).score = w.score ∧
    peakCandidate (w.peak width) = some (candidateAt width w) ∧
    bounds.left.toInt = region.left.toInt + (w.index % width : ℕ) ∧
    bounds.top.toInt = region.top.toInt + (w.index / width : ℕ) ∧
    bounds.right.toInt = bounds.left.toInt + template.extent.width ∧
    bounds.bottom.toInt = bounds.top.toInt + template.extent.height := by
  obtain ⟨c, hc, hleft, htop, hscore⟩ := peakCandidate_placed hmap hw
  obtain ⟨hcolumn, hrow⟩ := placed_lt hw
  have hcolumns := hmap.columns
  have hrows := hmap.rows
  have hx := Int.natCast_nonneg (w.index % width)
  have hy := Int.natCast_nonneg (w.index / width)
  have hinside : c.Inside region template.extent :=
    (inside_iff hmap.left hmap.top).mpr ⟨⟨by omega, by omega⟩, by omega, by omega⟩
  obtain ⟨bounds, hbounds⟩ := candidateBounds_isSome.mpr hinside
  obtain ⟨⟨hl, ht, hr, hb⟩, -⟩ := candidateBounds_eq_some hbounds
  have hat : candidateAt width w = c := by
    unfold candidateAt
    rw [hc, Option.getD_some]
  refine ⟨bounds, ?_, by rw [hat]; exact hbounds, by rw [hat]; exact hscore, by rw [hat]; exact hc,
    by omega, by omega, hr, hb⟩
  unfold boundsAt
  rw [hc, Option.bind_some, hbounds]

include hw in
theorem matchAt_bounds : ∃ bounds, (matchAt template region width w).bounds = bounds ∧
    bounds.left.toInt = region.left.toInt + (w.index % width : ℕ) ∧
    bounds.top.toInt = region.top.toInt + (w.index / width : ℕ) ∧
    bounds.right.toInt = bounds.left.toInt + template.extent.width ∧
    bounds.bottom.toInt = bounds.top.toInt + template.extent.height := by
  obtain ⟨bounds, hbounds, -, -, -, hplace⟩ := boundsAt_placed hmap hw
  refine ⟨bounds, ?_, hplace⟩
  unfold matchAt
  rw [hbounds, Option.getD_some]

variable (options) in
include ha hb in
theorem overlaps_matchAt : (matchAt template region width a).overlaps (matchAt template region width b) =
    (findSearch template options width height).overlap a b := by
  obtain ⟨A, hA, hal, hat, har, hab⟩ := matchAt_bounds hmap ha
  obtain ⟨B, hB, hbl, hbt, hbr, hbb⟩ := matchAt_bounds hmap hb
  have hextent := hmap.extent
  unfold PixelExtent.isEmpty at hextent
  simp only [Bool.or_eq_false_iff, beq_eq_false_iff_ne] at hextent
  rw [Bool.eq_iff_iff, Match.overlaps_iff, hA, hB]
  unfold PeakSearch.overlap findSearch RowWinner.peak
  simp only [decide_eq_true_eq]
  omega

include ha hb in
theorem canonicalOrder_matchAt
    (h : beforeLast (fun w : RowWinner => w.score.negative) (fun a b => a.cmp b = .gt) a b) :
    (matchAt template region width a).canonicalOrder (matchAt template region width b) = .lt := by
  obtain ⟨A, hA, hal, hat, -⟩ := matchAt_bounds hmap ha
  obtain ⟨B, hB, hbl, hbt, -⟩ := matchAt_bounds hmap hb
  obtain ⟨ha₁, ha₂⟩ := totalKey_of_low ha.low
  obtain ⟨hb₁, hb₂⟩ := totalKey_of_low hb.low
  have hscores : (matchAt template region width a).score = a.score ∧
      (matchAt template region width b).score = b.score := ⟨rfl, rfl⟩
  have hcases : b.score.totalKey < a.score.totalKey ∨
      b.score.totalKey = a.score.totalKey ∧ a.index < b.index := by
    rcases h with ⟨hearly, hlate⟩ | ⟨hsame, hbefore⟩
    · have hlow := ha.low
      rw [ha₂ hearly, (hb₁ hlate).2]
      omega
    · rw [RowWinner.cmp_eq_gt] at hbefore
      cases hneg : a.score.negative with
      | true =>
        have hneg' : b.score.negative = true := hsame.symm.trans hneg
        rw [(ha₁ hneg).2, (hb₁ hneg').2]
        rw [(ha₁ hneg).1, (hb₁ hneg').1] at hbefore
        omega
      | false =>
        have hneg' : b.score.negative = false := hsame.symm.trans hneg
        rw [ha₂ hneg, hb₂ hneg']
        omega
  unfold Match.canonicalOrder Binary64.totalCmp
  rw [hscores.1, hscores.2, hA, hB]
  rcases hcases with hlt | ⟨heq, hindex⟩
  · rw [compare_lt_iff_lt.mpr hlt]
    rfl
  · have hdiv := Nat.div_le_div_right (c := width) (Nat.le_of_lt hindex)
    have ha' := Nat.div_add_mod a.index width
    have hb' := Nat.div_add_mod b.index width
    rw [compare_eq_iff_eq.mpr heq, Ordering.eq_then]
    rcases Nat.lt_or_eq_of_le hdiv with hrow | hrow
    · have htop : A.top < B.top := Int32.lt_iff_toInt_lt.mpr (by omega)
      rw [Std.compare_eq_lt.mpr htop]
      rfl
    · have hcolumn : a.index % width < b.index % width := by
        rw [hrow] at ha'
        omega
      have htop : A.top = B.top := Int32.toInt_inj.mp (by rw [hat, hbt, hrow])
      have hleft : A.left < B.left := Int32.lt_iff_toInt_lt.mpr (by omega)
      rw [Std.LawfulEqOrd.compare_eq_iff_eq.mpr htop, Ordering.eq_then, Std.compare_eq_lt.mpr hleft]
      rfl

include ha hb in
theorem matchAt_injective (h : matchAt template region width a = matchAt template region width b) :
    a = b := by
  obtain ⟨A, hA, hal, hat, -⟩ := matchAt_bounds hmap ha
  obtain ⟨B, hB, hbl, hbt, -⟩ := matchAt_bounds hmap hb
  have hbounds : A = B := by rw [← hA, ← hB, h]
  have hscore : a.score = b.score := congrArg Match.score h
  have hcolumn : a.index % width = b.index % width := by
    rw [hbounds] at hal
    omega
  have hrow : a.index / width = b.index / width := by
    rw [hbounds] at hat
    omega
  have hindex : a.index = b.index := by
    rw [← Nat.div_add_mod a.index width, ← Nat.div_add_mod b.index width, hcolumn, hrow]
  cases a
  cases b
  rw [RowWinner.mk.injEq]
  exact ⟨hindex, hscore⟩

end Placed

/-! ### What the matcher makes of places -/

theorem qualifies_place (hmap : Correlates template region width height scores) {w : RowWinner}
    (hw : w.Placed width height) : qualifies template region options (candidateAt width w) =
      if options.minScore.le w.score then some (matchAt template region width w) else none := by
  obtain ⟨bounds, hbounds, hcandidate, hscore, -⟩ := boundsAt_placed hmap hw
  have hnan := Binary64.isNan_eq_false w.finite
  have hmin := Binary64.isNan_eq_false (Bool.and_eq_true_iff.mp options.minScore_valid).1
  unfold qualifies matchAt
  rw [hcandidate, hscore, hbounds]
  cases hle : options.minScore.le w.score with
  | true =>
    rw [if_neg]
    · rfl
    · rw [Bool.not_eq_true, Binary64.lt_eq_false_iff hnan hmin]
      exact (Binary64.le_iff hmin hnan).mp hle
  | false =>
    rw [if_pos]
    · rfl
    · rw [Binary64.lt_iff hnan hmin]
      by_contra hge
      rw [(Binary64.le_iff hmin hnan).mpr (not_lt.mp hge)] at hle
      cases hle

theorem mapM_some {α β : Type*} {f : α → Option β} {g : α → β} {l : List α}
    (h : ∀ x ∈ l, f x = some (g x)) : l.mapM f = some (l.map g) := by
  induction l with
  | nil => rfl
  | cons a l ih =>
    rw [List.mapM_cons, h a List.mem_cons_self, ih fun x hx => h x (List.mem_cons_of_mem _ hx)]
    rfl

variable (options) in
theorem normalize_places (hmap : Correlates template region width height scores)
    {ws : List RowWinner} (hws : ∀ w ∈ ws, w.Placed width height) :
    reportPeaks template region options (ws.map fun w => w.peak width) =
      some (.ok ((greedy (clashes options) (sortBy Match.canonicalOrder
        ((ws.filter fun w => options.minScore.le w.score).map (matchAt template region width)))).take
          options.maxResults.toNat)) := by
  have hcandidates : (ws.map fun w => w.peak width).mapM peakCandidate =
      some (ws.map (candidateAt width)) := by
    rw [mapM_some (g := fun peak => (peakCandidate peak).getD ⟨0, 0, peak.score⟩), List.map_map]
    · rfl
    · intro peak hpeak
      obtain ⟨w, hw, rfl⟩ := List.mem_map.mp hpeak
      obtain ⟨c, hc, -⟩ := peakCandidate_placed hmap (hws w hw)
      rw [hc]
      rfl
  have hqualifying : qualifying template region options (ws.map (candidateAt width)) =
      (ws.filter fun w => options.minScore.le w.score).map (matchAt template region width) := by
    unfold qualifying
    clear hcandidates
    induction ws with
    | nil => rfl
    | cons w ws ih =>
      have hrest := ih fun x hx => hws x (List.mem_cons_of_mem _ hx)
      rw [List.map_cons, List.filterMap_cons, qualifies_place hmap (hws w List.mem_cons_self), hrest]
      cases hle : options.minScore.le w.score with
      | true => simp only [List.filter_cons, hle, if_true, List.map_cons]
      | false => simp only [List.filter_cons, hle, Bool.false_eq_true, if_false]
  have haccepted : ∀ c ∈ ws.map (candidateAt width), c.Accepted region template.extent := by
    intro c hc
    obtain ⟨w, hw, rfl⟩ := List.mem_map.mp hc
    obtain ⟨bounds, -, hcandidate, hscore, -⟩ := boundsAt_placed hmap (hws w hw)
    refine ⟨?_, candidateBounds_isSome.mp ⟨bounds, hcandidate⟩⟩
    have hnan := Binary64.isNan_eq_false w.finite
    have hzero : Binary64.zero.key = 0 := rfl
    unfold validScore
    rw [hscore, w.finite, Bool.true_and, Bool.and_eq_true, Binary64.le_iff rfl hnan,
      Binary64.le_iff hnan rfl, hzero]
    exact ⟨(hws w hw).low, (hws w hw).high⟩
  unfold reportPeaks normalize
  rw [hcandidates, Option.map_some]
  rcases unlimited_cases options (ws.map (candidateAt width)) with ⟨-, hok⟩ | ⟨⟨c, hc, hrefused⟩, -⟩
  · rw [hok, sorted, hqualifying]
    rfl
  · exact absurd (haccepted c hc) hrefused

/-! ### The cut -/

theorem ordered_before (scores : List Binary64) (search : PeakSearch) :
    (ordered scores search).Pairwise fun a b => a.cmp b = .gt := by
  refine (ordered_sorted.and ordered_places).imp fun {a b} h => ?_
  have hge := RowWinner.cmp_isGE.mp h.1
  rw [RowWinner.cmp_eq_gt]
  omega

theorem before_asymm (a b : RowWinner) (h : a.cmp b = .gt) : ¬ b.cmp a = .gt := by
  rw [RowWinner.cmp_eq_gt] at h ⊢
  omega

theorem overlap_comm (search : PeakSearch) (a b : RowWinner) :
    search.overlap a b = search.overlap b a := by
  unfold PeakSearch.overlap
  simp only [decide_eq_decide]
  omega

theorem map_inj_of_mem {α β : Type*} {f : α → β} {l l' : List α}
    (hf : ∀ a ∈ l, ∀ b ∈ l', f a = f b → a = b) : l.map f = l'.map f ↔ l = l' := by
  refine ⟨fun h => ?_, fun h => by rw [h]⟩
  induction l generalizing l' with
  | nil => exact (List.map_eq_nil_iff.mp h.symm).symm
  | cons a l ih =>
    cases l' with
    | nil => cases h
    | cons b l' =>
      rw [List.map_cons, List.map_cons, List.cons.injEq] at h
      rw [hf a List.mem_cons_self b List.mem_cons_self h.1, ih (fun x hx y hy =>
        hf x (List.mem_cons_of_mem _ hx) y (List.mem_cons_of_mem _ hy)) h.2]

theorem sortBy_matchAt (hmap : Correlates template region width height scores) {ws l : List RowWinner}
    (hws : ∀ w ∈ ws, w.Placed width height) (hperm : l.Perm ws)
    (hl : l.Pairwise fun a b => a.cmp b = .gt) :
    sortBy Match.canonicalOrder (ws.map (matchAt template region width)) =
      (putLast (fun w : RowWinner => w.score.negative) l).map (matchAt template region width) := by
  refine sortBy_eq (((putLast_perm _ l).trans hperm).map _) (List.pairwise_map.mpr ?_)
  refine (putLast_pairwise _ hl).imp_of_mem fun {a b} ha hb hab => ?_
  have hmem : ∀ {x}, x ∈ putLast (fun w : RowWinner => w.score.negative) l → x.Placed width height :=
    fun hx => hws _ (hperm.subset (mem_putLast.mp hx))
  exact canonicalOrder_matchAt hmap (hmem ha) (hmem hb) hab

theorem Correlates.covered (hmap : Correlates template region width height scores) :
    (findSearch template options width height).Covered scores := by
  have hextent := hmap.extent
  unfold PixelExtent.isEmpty at hextent
  simp only [Bool.or_eq_false_iff, beq_eq_false_iff_ne] at hextent
  have hcolumns := hmap.columns
  have hrows := hmap.rows
  have hleft := hmap.left
  have htop := hmap.top
  have hright := region.right.toInt_lt
  have hbottom := region.bottom.toInt_lt
  have hwidth : width ≤ 2 ^ 31 := by omega
  have hheight : height ≤ 2 ^ 31 := by omega
  refine ⟨Nat.pos_of_ne_zero hextent.1, Nat.pos_of_ne_zero hextent.2,
    Nat.le_of_eq hmap.complete.symm, ?_⟩
  calc width * height ≤ 2 ^ 31 * 2 ^ 31 := Nat.mul_le_mul hwidth hheight
    _ ≤ u64Max := by decide

/-- **When the cut changes the result.**  What the matcher reports of the peaks that the adapter
extracts, as many as matches may be reported, is what it reports of all finite places of the map,
exactly where no place of score `-0.0` overtakes one of score `0.0`. -/
theorem truncation_exact (template : PreparedTemplate) (region : PixelRect) (options : MatchOptions)
    (width height : ℕ) (scores : List Binary64) (answers : ℕ → Option Interruption)
    {found : List Peak} (hmap : Correlates template region width height scores)
    (hrun : (peaks scores (findSearch template options width height)).run answers = .ok (some found)) :
    ∃ cut whole, reportPeaks template region options found = some (.ok cut) ∧
      reportPeaks template region options (finitePeaks scores width) = some (.ok whole) ∧
      (cut = whole ↔ ¬ ZeroOvertakes scores (findSearch template options width height)) := by
  set search := findSearch template options width height
  set late := fun w : RowWinner => w.score.negative
  set clash := fun a b : RowWinner =>
    decide (search.suppression = .dropOverlapping) && search.overlap a b with hclash
  have hfound : found = (takenPlaces scores search).map fun w => w.peak width := by
    rcases (peaks_obeys scores search).run_cases answers with ⟨-, hok⟩ | ⟨-, i, herror, -⟩
    · rw [quiet_peaks, if_pos hmap.covered] at hok
      exact (Option.some.inj (Except.ok.inj (hok.symm.trans hrun))).symm
    · rw [herror] at hrun
      cases hrun
  have htake : scores.take (search.width * search.height) = scores :=
    List.take_of_length_le (Nat.le_of_eq hmap.complete)
  have hordered : ∀ w ∈ ordered scores search, w ∈ entries 0 scores ∧
      options.minScore.le w.score = true := by
    intro w hw
    have hoffer := (sortBy_perm (offers scores search)).subset hw
    unfold offers at hoffer
    rw [htake] at hoffer
    exact List.mem_filter.mp hoffer
  have htaken : ∀ w ∈ takenPlaces scores search, w ∈ ordered scores search := fun w hw =>
    mem_of_mem_greedy (List.mem_of_mem_take hw)
  have hplaced : ∀ w ∈ ordered scores search, w.Placed width height := fun w hw =>
    .of_mem hmap.complete (hordered w hw).1
  have hclashes : ∀ a ∈ ordered scores search, ∀ b ∈ ordered scores search,
      clashes options (matchAt template region width a) (matchAt template region width b) =
        clash a b := by
    intro a ha b hb
    unfold clashes
    rw [overlaps_matchAt options hmap (hplaced a ha) (hplaced b hb)]
    rfl
  have hsymm : ∀ a b, clash a b = clash b a := fun a b => by
    rw [hclash]
    simp only [overlap_comm search a b]
  have hselected := selected_take clash search.candidateBudget
    (ordered_before scores search)
  refine ⟨(putLast late (takenPlaces scores search)).map (matchAt template region width),
    ((greedy clash (putLast late (ordered scores search))).take search.candidateBudget).map
      (matchAt template region width), ?_, ?_, ?_⟩
  · rw [hfound, normalize_places options hmap fun w hw => hplaced w (htaken w hw)]
    have hall : (takenPlaces scores search).filter (fun w => options.minScore.le w.score) =
        takenPlaces scores search :=
      List.filter_eq_self.mpr fun w hw => (hordered w (htaken w hw)).2
    rw [hall, sortBy_matchAt hmap (fun w hw => hplaced w (htaken w hw)) (.refl _)
      ((ordered_before scores search).sublist hselected.sublist), greedy_of_quiet]
    · rw [List.take_of_length_le]
      rw [List.length_map, (putLast_perm late _).length_eq]
      exact hselected.length_le
    · refine List.pairwise_map.mpr ?_
      refine ((putLast_perm late _).symm.pairwise hselected.quiet fun {a b} hab => ?_).imp_of_mem
        fun {a b} ha hb hab => ?_
      · rw [hsymm b a]
        exact hab
      · rw [hclashes a (htaken a (mem_putLast.mp ha)) b (htaken b (mem_putLast.mp hb))]
        exact hab
  · have hoffers : (entries 0 scores).filter (fun w => options.minScore.le w.score) =
        offers scores search := by
      unfold offers
      rw [htake]
      rfl
    unfold finitePeaks
    rw [normalize_places options hmap fun w hw => .of_mem hmap.complete hw, hoffers,
      sortBy_matchAt hmap (fun w hw => hplaced w ((sortBy_perm _).symm.subset hw))
        (sortBy_perm (offers scores search) : (ordered scores search).Perm _)
        (ordered_before scores search), greedy_map]
    have hcongr : greedy (fun a b => clashes options (matchAt template region width a)
        (matchAt template region width b)) (putLast late (sortBy candidateOrder (offers scores search))) =
          greedy clash (putLast late (ordered scores search)) :=
      greedy_congr ((putLast_pairwise _ (ordered_before scores search)).imp_of_mem fun {a b} ha hb _ =>
        hclashes a (mem_putLast.mp ha) b (mem_putLast.mp hb))
    rw [hcongr, ← List.map_take]
    rfl
  · rw [map_inj_of_mem fun a ha b hb => matchAt_injective hmap
      (hplaced a (htaken a (mem_putLast.mp ha)))
      (hplaced b (mem_putLast.mp (mem_of_mem_greedy (List.mem_of_mem_take hb)))), eq_comm]
    exact take_greedy_putLast hsymm before_asymm (ordered_before scores search) search.candidateBudget

end Places

theorem not_zeroOvertakes {scores : List Binary64} {search : PeakSearch}
    (hpos : 0 < search.minScore.key) : ¬ ZeroOvertakes scores search := by
  rintro ⟨n, hn, hnegative, -⟩
  have hoffer := mem_ordered.mp (mem_of_mem_greedy (List.mem_of_mem_take hn))
  unfold reaching at hoffer
  obtain ⟨hentry, hreaches⟩ := List.mem_filter.mp hoffer
  have hle := (Bool.and_eq_true_iff.mp hreaches).2
  rw [decide_eq_true_eq] at hle
  have hzero := ((totalKey_of_low (range_of_mem hentry).1).1 hnegative).1
  omega

/-! ### Two maps -/

/-- A template of two pixels, in a region of three. -/
def pairTemplate : PreparedTemplate := ⟨"template", ⟨2, 1⟩⟩

theorem triple_columns : (0 : Int32) ≤ 3 := by decide

theorem triple_lines : (0 : Int32) ≤ 1 := by decide

def tripleRegion : PixelRect := ⟨0, 0, 3, 1, triple_columns, triple_lines⟩

theorem zero_valid : validScore .zero = true := by decide

theorem one_valid : validScore .one = true := by decide

theorem one_pos : 0 < (1 : UInt32).toNat := by decide

def oneOfAll : MatchOptions := ⟨.zero, 1, .keepAll, zero_valid, one_pos⟩

def onePerfect : MatchOptions := ⟨.one, 1, .keepAll, one_valid, one_pos⟩

def negativeZero : Binary64 := ⟨true, Binary64.zero.magnitude⟩

theorem pair_correlates (x y : Binary64) : Correlates pairTemplate tripleRegion 2 1 [x, y] :=
  ⟨by decide, by decide, by decide, by decide, by decide, rfl⟩

theorem peaks_quiet {scores : List Binary64} (search : PeakSearch) (h : search.Covered scores) :
    (peaks scores search).run (fun _ => none) = .ok (some (reference scores search)) := by
  rcases (peaks_obeys scores search).run_cases fun _ => none with ⟨-, hok⟩ | ⟨⟨n, -, hn⟩, -⟩
  · rw [hok, quiet_peaks, if_pos h]
  · exact absurd rfl hn

/-- A perfect place is reported in either way. -/
theorem truncation_exact_perfect :
    ∃ whole, reportPeaks pairTemplate tripleRegion onePerfect [⟨0, 0, .one⟩] = some (.ok whole) ∧
      reportPeaks pairTemplate tripleRegion onePerfect (finitePeaks [.one, .zero] 2) =
        some (.ok whole) := by
  have hreference : reference [.one, .zero] (findSearch pairTemplate onePerfect 2 1) =
      [⟨0, 0, .one⟩] := by
    have hsorted : sortBy candidateOrder (offers [.one, .zero] (findSearch pairTemplate onePerfect 2 1)) =
        [⟨0, .one, by decide⟩] := List.mergeSort_singleton _
    unfold reference
    rw [hsorted]
    rfl
  have hrun := peaks_quiet (findSearch pairTemplate onePerfect 2 1)
    (pair_correlates .one .zero).covered
  rw [hreference] at hrun
  obtain ⟨cut, whole, hcut, hwhole, hsame⟩ := truncation_exact pairTemplate tripleRegion onePerfect 2 1
    [.one, .zero] (fun _ => none) (pair_correlates _ _) hrun
  have hpos : 0 < onePerfect.minScore.key := by decide
  rw [hsame.mpr (not_zeroOvertakes hpos)] at hcut
  exact ⟨whole, hcut, hwhole⟩

/-- **The cut changes the result**: of the places of score `-0.0` and `0.0` the adapter extracts the
first, and the matcher would report the second. -/
theorem truncation_changes :
    (peaks [negativeZero, .zero] (findSearch pairTemplate oneOfAll 2 1)).run (fun _ => none) =
      .ok (some [⟨0, 0, negativeZero⟩]) ∧
    ∃ cut whole, reportPeaks pairTemplate tripleRegion oneOfAll [⟨0, 0, negativeZero⟩] =
        some (.ok [cut]) ∧
      reportPeaks pairTemplate tripleRegion oneOfAll (finitePeaks [negativeZero, .zero] 2) =
        some (.ok [whole]) ∧ cut.score = negativeZero ∧ whole.score = .zero := by
  have hmap := pair_correlates negativeZero .zero
  set first : RowWinner := ⟨0, negativeZero, by decide⟩
  set second : RowWinner := ⟨1, .zero, by decide⟩
  have hplaced : ∀ w ∈ [first, second], w.Placed 2 1 := by
    intro w hw
    have hentries : entries 0 [negativeZero, .zero] = [first, second] := rfl
    rw [← hentries] at hw
    exact .of_mem hmap.complete hw
  have hfirst : ∀ w ∈ [first], w.Placed 2 1 := fun w hw =>
    hplaced w (List.mem_cons.mpr (Or.inl (List.mem_singleton.mp hw)))
  have hbefore : [first, second].Pairwise fun a b => a.cmp b = .gt := by decide
  have hquiet : ∀ l, greedy (clashes oneOfAll) l = l := fun l =>
    greedy_of_quiet (List.pairwise_of_forall fun _ _ => rfl)
  have hone : oneOfAll.maxResults.toNat = 1 := by decide
  have hpeak : [first].map (fun w => w.peak 2) = [⟨0, 0, negativeZero⟩] := by decide
  refine ⟨?_, matchAt pairTemplate tripleRegion 2 first, matchAt pairTemplate tripleRegion 2 second,
    ?_, ?_, rfl, rfl⟩
  · have hsorted : sortBy candidateOrder
        (offers [negativeZero, .zero] (findSearch pairTemplate oneOfAll 2 1)) = [first, second] :=
      sortBy_eq (.refl _) (by decide)
    rw [peaks_quiet _ hmap.covered]
    unfold reference
    have hkept : greedy (fun a b =>
        decide ((findSearch pairTemplate oneOfAll 2 1).suppression = Suppression.dropOverlapping) &&
          (findSearch pairTemplate oneOfAll 2 1).overlap a b) [first, second] = [first, second] :=
      greedy_of_quiet (List.pairwise_of_forall fun _ _ => rfl)
    rw [hsorted, hkept]
    show Except.ok (some (([first, second].take oneOfAll.maxResults.toNat).map _)) = _
    rw [hone]
    exact congrArg (fun found => Except.ok (some found)) hpeak
  · have hreport := normalize_places oneOfAll hmap hfirst
    have hall : [first].filter (fun w => oneOfAll.minScore.le w.score) = [first] := rfl
    rw [hall, sortBy_matchAt hmap hfirst (.refl _) (List.pairwise_singleton _ _), hquiet, hone]
      at hreport
    have hput : putLast (fun w : RowWinner => w.score.negative) [first] = [first] := rfl
    rw [hput, hpeak] at hreport
    exact hreport
  · have hreport := normalize_places oneOfAll hmap hplaced
    have hall : [first, second].filter (fun w => oneOfAll.minScore.le w.score) = [first, second] := rfl
    rw [hall, sortBy_matchAt hmap hplaced (.refl _) hbefore, hquiet, hone] at hreport
    exact hreport

end MadoPilot.Vision
