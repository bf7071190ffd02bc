import Mathlib.Data.List.Nodup
import MadoPilot.Lib.Raster
import MadoPilot.Onnx.Batches
import MadoPilot.Onnx.DecodeLaw

/-!
# What batching guarantees

Batches are ranges of the sorted order.  Every batch grows item by item, and what is checked for its
last item holds of the whole of it, since the last item is the widest.

* `growBatch_ok`, `growBatch_stuck` : how far a batch grows;
* `Ran.tiles`, `loop_gives`, `loop_ends` : the ranges of a run of the loop tile the order, and the loop
  ends;
* `plan_fails_iff` : when planning fails;
* `Ran.written` : where the texts go;
* `recognition_batches` : the law.
-/

namespace MadoPilot.Onnx

open MadoPilot.Core MadoPilot.Lib
open MadoPilot.Capture (usizeMax)

/-! ### Widths -/

theorem recognizerWidthForRatio_eq_ok {ratio : ℚ} {width : ℕ}
    (h : recognizerWidthForRatio ratio = .ok width) :
    0 < ratio ∧ width ≤ MAX_RECOGNIZER_WIDTH ∧ width = min usizeMax
      (f64 (RECOGNIZER_HEIGHT * max ratio (f64 (RECOGNIZER_BASE_WIDTH / RECOGNIZER_HEIGHT)))).floor.toNat := by
  unfold recognizerWidthForRatio at h
  by_cases hratio : (!isFinite ratio) = true ∨ ratio ≤ 0
  · rw [if_pos hratio] at h
    cases h
  · rw [if_neg hratio] at h
    obtain ⟨width', hwidth', h⟩ := bind_eq_ok.mp h
    unfold f64ToUsize at hwidth'
    split at hwidth'
    · cases hwidth'
    · obtain rfl := Except.ok.inj hwidth'
      split at h
      · cases h
      · rename_i hlimit
        obtain rfl := Except.ok.inj h
        have hpos := not_le.mp (not_or.mp hratio).2
        exact ⟨hpos, by omega, rfl⟩

theorem recognizerWidth_mono {ratio ratio' : ℚ} {width width' : ℕ} (h : ratio ≤ ratio')
    (hw : recognizerWidthForRatio ratio = .ok width)
    (hw' : recognizerWidthForRatio ratio' = .ok width') : width ≤ width' := by
  obtain ⟨hpos, -, rfl⟩ := recognizerWidthForRatio_eq_ok hw
  obtain ⟨-, -, rfl⟩ := recognizerWidthForRatio_eq_ok hw'
  have hheight : (0 : ℚ) < RECOGNIZER_HEIGHT := by norm_num [RECOGNIZER_HEIGHT]
  have hproduct : f64 (RECOGNIZER_HEIGHT * max ratio (f64 (RECOGNIZER_BASE_WIDTH / RECOGNIZER_HEIGHT))) ≤
      f64 (RECOGNIZER_HEIGHT * max ratio' (f64 (RECOGNIZER_BASE_WIDTH / RECOGNIZER_HEIGHT))) := by
    refine f64_mono ?_ ?_
    · exact mul_pos hheight (lt_max_of_lt_left hpos)
    · exact mul_le_mul_of_nonneg_left (max_le_max_right _ h) hheight.le
  have hfloor := Int.toNat_le_toNat (Rat.floor_monotone hproduct)
  omega

/-! ### The estimate -/

/-- The output that a batch of `items` at `width` is expected to have. -/
def outputBytes (items width : ℕ) : ℕ := items * ((width + 7) / 8) * CLASSES * 4

theorem outputBytes_mono {items items' width : ℕ} (h : items ≤ items') :
    outputBytes items width ≤ outputBytes items' width := by
  unfold outputBytes
  gcongr

theorem estimated_eq {items width : ℕ} (hi : items ≤ RECOGNITION_BATCH) (hw : width ≤ MAX_RECOGNIZER_WIDTH) :
    estimatedRecognizerOutputBytes items width = .ok (outputBytes items width) := by
  have hsteps : (width + 7) / 8 ≤ 512 := by
    unfold MAX_RECOGNIZER_WIDTH at hw
    omega
  have hcells : items * ((width + 7) / 8) ≤ 6 * 512 := Nat.mul_le_mul hi hsteps
  have helements : items * ((width + 7) / 8) * CLASSES ≤ 6 * 512 * 18710 :=
    Nat.mul_le_mul hcells (le_refl CLASSES)
  have hmax : usizeMax = 18446744073709551615 := rfl
  unfold estimatedRecognizerOutputBytes recognizerOutputBytes recognizerOutputElements outputBytes
  rw [checkedMul_of_le (by omega), Option.bind_some, checkedMul_of_le (by omega)]
  show okOr _ _ = _
  rw [checkedMul_of_le (by omega)]
  rfl

/-! ### One batch -/

variable {order : List (ℕ × ℚ)} {start stop stop' budget : ℕ}

def Refused (item : ℕ × ℚ) : Prop := ∃ e, recognizerWidthForRatio item.2 = .error e

def Oversized (budget : ℕ) (item : ℕ × ℚ) : Prop :=
  ∃ width bytes, recognizerWidthForRatio item.2 = .ok width ∧
    estimatedRecognizerOutputBytes 1 width = .ok bytes ∧ budget < bytes

/-- The batch from `start` through the position `p` stays within the budget, at the width of its last
item. -/
def Fits (order : List (ℕ × ℚ)) (start budget p : ℕ) : Prop :=
  ∃ item width, order[p]? = some item ∧ recognizerWidthForRatio item.2 = .ok width ∧
    outputBytes (p - start + 1) width ≤ budget

theorem Fits.lt_length {p : ℕ} (h : Fits order start budget p) : p < order.length := by
  obtain ⟨item, -, hp, -⟩ := h
  obtain ⟨hlt, -⟩ := List.getElem?_eq_some_iff.mp hp
  exact hlt

theorem growBatch_turn {room width : ℕ} {item : ℕ × ℚ} (hroom : stop - start + (room + 1) ≤ RECOGNITION_BATCH)
    (hitem : order[stop]? = some item) (hwidth : recognizerWidthForRatio item.2 = .ok width) :
    growBatch order start budget (room + 1) stop =
      if budget < outputBytes (stop - start + 1) width then .ok stop
      else growBatch order start budget room (stop + 1) := by
  obtain ⟨-, hmax, -⟩ := recognizerWidthForRatio_eq_ok hwidth
  rw [growBatch, hitem]
  dsimp only
  rw [hwidth]
  show (estimatedRecognizerOutputBytes (stop - start + 1) width >>= _) = _
  rw [estimated_eq (by omega) hmax]
  rfl

theorem growBatch_refused {room : ℕ} {item : ℕ × ℚ} {e : Stop} (hitem : order[stop]? = some item)
    (hwidth : recognizerWidthForRatio item.2 = .error e) :
    growBatch order start budget (room + 1) stop = .error e := by
  rw [growBatch, hitem]
  dsimp only
  rw [hwidth]
  rfl

theorem growBatch_ok {room : ℕ} (hroom : stop - start + room ≤ RECOGNITION_BATCH)
    (hstart : start ≤ stop) (h : growBatch order start budget room stop = .ok stop') :
    stop ≤ stop' ∧ stop' ≤ stop + room ∧ ∀ p, stop ≤ p → p < stop' → Fits order start budget p := by
  induction room generalizing stop with
  | zero =>
    obtain rfl := Except.ok.inj h
    exact ⟨le_refl _, le_refl _, fun p hp hp' => by omega⟩
  | succ room ih =>
    cases hitem : order[stop]? with
    | none =>
      rw [growBatch, hitem] at h
      obtain rfl := Except.ok.inj h
      exact ⟨le_refl _, Nat.le_add_right _ _, fun p hp hp' => by omega⟩
    | some item =>
      cases hwidth : recognizerWidthForRatio item.2 with
      | error e =>
        rw [growBatch_refused hitem hwidth] at h
        cases h
      | ok width =>
        rw [growBatch_turn hroom hitem hwidth] at h
        split at h
        · obtain rfl := Except.ok.inj h
          exact ⟨le_refl _, Nat.le_add_right _ _, fun p hp hp' => by omega⟩
        · rename_i hfits
          obtain ⟨hle, hbound, hall⟩ := ih (by omega) (by omega) h
          refine ⟨by omega, by omega, fun p hp hp' => ?_⟩
          rcases Nat.eq_or_lt_of_le hp with rfl | hlt
          · exact ⟨item, width, hitem, hwidth, not_lt.mp hfits⟩
          · exact hall p hlt hp'

theorem growBatch_error {room : ℕ} {e : Stop} (hroom : stop - start + room ≤ RECOGNITION_BATCH)
    (hstart : start ≤ stop) (h : growBatch order start budget room stop = .error e) :
    ∃ item ∈ order, Refused item := by
  induction room generalizing stop with
  | zero => cases h
  | succ room ih =>
    cases hitem : order[stop]? with
    | none =>
      rw [growBatch, hitem] at h
      cases h
    | some item =>
      cases hwidth : recognizerWidthForRatio item.2 with
      | error e => exact ⟨item, List.mem_of_getElem? hitem, e, hwidth⟩
      | ok width =>
        rw [growBatch_turn hroom hitem hwidth] at h
        split at h
        · cases h
        · exact ih (by omega) (by omega) h

theorem growBatch_stuck (hlt : start < order.length)
    (h : growBatch order start budget RECOGNITION_BATCH start = .ok start) :
    ∃ item ∈ order, Oversized budget item := by
  have hitem : order[start]? = some order[start] := List.getElem?_eq_getElem hlt
  have hroom : start - start + (5 + 1) ≤ RECOGNITION_BATCH := by
    rw [Nat.sub_self]
    exact le_refl 6
  cases hwidth : recognizerWidthForRatio order[start].2 with
  | error e =>
    have herror : growBatch order start budget RECOGNITION_BATCH start = .error e :=
      growBatch_refused hitem hwidth
    exact absurd (herror.symm.trans h) nofun
  | ok width =>
    have hturn : growBatch order start budget RECOGNITION_BATCH start = _ :=
      growBatch_turn hroom hitem hwidth
    rw [h, Nat.sub_self] at hturn
    replace hturn := hturn.symm
    split at hturn
    · rename_i hover
      obtain ⟨-, hmax, -⟩ := recognizerWidthForRatio_eq_ok hwidth
      have hone := estimated_eq (show 1 ≤ RECOGNITION_BATCH by decide) hmax
      exact ⟨_, List.mem_of_getElem? hitem, width, _, hwidth, hone, hover⟩
    · obtain ⟨hle, -, -⟩ := growBatch_ok (by omega) (by omega) hturn
      omega

/-! ### The ranges of a run -/

structure IsBatch (order : List (ℕ × ℚ)) (budget : ℕ) (range : ℕ × ℕ) : Prop where
  nonempty : range.1 < range.2
  size : range.2 - range.1 ≤ RECOGNITION_BATCH
  fits : ∀ p, range.1 ≤ p → p < range.2 → Fits order range.1 budget p

theorem IsBatch.le_length {range : ℕ × ℕ} (h : IsBatch order budget range) : range.2 ≤ order.length := by
  have hpos := h.nonempty
  have hlast := (h.fits (range.2 - 1) (by omega) (by omega)).lt_length
  omega

theorem range_gives {range : ℕ × ℕ} (h : (recognitionBatchRange order start budget).Gives range) :
    range.1 = start ∧ IsBatch order budget range := by
  obtain ⟨-, -, h⟩ := Guarded.gives_bind h
  split at h
  · exact absurd h Guarded.not_gives_fail
  · obtain ⟨stop, hgrow, h⟩ := Guarded.gives_bind h
    have hgrow := Guarded.gives_lift hgrow
    split at h
    · exact absurd h Guarded.not_gives_fail
    · rename_i hne
      obtain rfl := Guarded.gives_pure h
      obtain ⟨hle, hbound, hall⟩ := growBatch_ok (by omega) (le_refl _) hgrow
      refine ⟨rfl, ⟨?_, ?_, hall⟩⟩
      · show start < stop
        omega
      · show stop - start ≤ RECOGNITION_BATCH
        omega

section Loop

variable {σ : Type} {body : ℕ × ℕ → σ → Guarded Interruption Stop σ} {acc acc₀ acc' : σ}
  {ranges : List (ℕ × ℕ)} {fuel start₀ : ℕ}

/-- The loop has taken the batches `ranges` and stands at `stop` with `acc'`. -/
inductive Ran (order : List (ℕ × ℚ)) (budget : ℕ) (body : ℕ × ℕ → σ → Guarded Interruption Stop σ) :
    ℕ → σ → List (ℕ × ℕ) → ℕ → σ → Prop
  | nil (start : ℕ) (acc : σ) : Ran order budget body start acc [] start acc
  | snoc {start middle stop : ℕ} {acc acc' acc'' : σ} {ranges : List (ℕ × ℕ)} :
      Ran order budget body start acc ranges middle acc' →
      (recognitionBatchRange order middle budget).Gives (middle, stop) →
      (body (middle, stop) acc').Gives acc'' →
      Ran order budget body start acc (ranges ++ [(middle, stop)]) stop acc''

theorem Ran.tiles (h : Ran order budget body start acc ranges stop acc') :
    Tiles start ranges stop ∧ (∀ range ∈ ranges, IsBatch order budget range) ∧
      (start ≤ order.length → stop ≤ order.length) := by
  induction h with
  | nil => exact ⟨.nil _, fun range hr => (by cases hr), id⟩
  | snoc _ hrange _ ih =>
    obtain ⟨htiles, hbatches, -⟩ := ih
    obtain ⟨-, hbatch⟩ := range_gives hrange
    refine ⟨htiles.snoc hbatch.nonempty, fun range hr => ?_, fun _ => hbatch.le_length⟩
    rcases List.mem_append.mp hr with hr | hr
    · exact hbatches range hr
    · rw [List.mem_singleton.mp hr]
      exact hbatch

theorem loop_gives (hran : Ran order budget body start₀ acc₀ ranges start acc)
    (h : (batchLoop order budget body fuel start acc).Gives (some acc')) :
    ∃ ranges' stop, Ran order budget body start₀ acc₀ ranges' stop acc' ∧ order.length ≤ stop := by
  induction fuel generalizing start acc ranges with
  | zero =>
    unfold batchLoop at h
    split at h
    · cases Guarded.gives_pure h
    · rename_i hend
      obtain rfl := Option.some.inj (Guarded.gives_pure h)
      exact ⟨ranges, start, hran, not_lt.mp hend⟩
  | succ fuel ih =>
    unfold batchLoop at h
    split at h
    · obtain ⟨range, hrange, hturn⟩ := Guarded.gives_bind h
      obtain ⟨acc₁, hbody, hrest⟩ := Guarded.gives_bind hturn
      obtain ⟨hfirst, -⟩ := range_gives hrange
      obtain ⟨middle, stop⟩ := range
      obtain rfl : middle = start := hfirst
      exact ih (hran.snoc hrange hbody) hrest
    · rename_i hend
      obtain rfl := Option.some.inj (Guarded.gives_pure h)
      exact ⟨ranges, start, hran, not_lt.mp hend⟩

theorem loop_ends (hfuel : order.length - start ≤ fuel) :
    ¬ (batchLoop order budget body fuel start acc).Gives none := by
  induction fuel generalizing start acc with
  | zero =>
    intro h
    unfold batchLoop at h
    rw [if_neg (by omega)] at h
    cases Guarded.gives_pure h
  | succ fuel ih =>
    intro h
    unfold batchLoop at h
    split at h
    · obtain ⟨range, hrange, h⟩ := Guarded.gives_bind h
      obtain ⟨acc₁, -, h⟩ := Guarded.gives_bind h
      obtain ⟨hfirst, hbatch⟩ := range_gives hrange
      have hpos := hbatch.nonempty
      exact ih (by omega) h
    · cases Guarded.gives_pure h

end Loop

/-! ### Planning -/

theorem Ran.collects {ranges acc acc' : List (ℕ × ℕ)}
    (h : Ran order budget (fun range ranges => pure (ranges ++ [range])) start acc ranges stop acc') :
    acc' = acc ++ ranges := by
  induction h with
  | nil => rw [List.append_nil]
  | snoc _ _ hbody ih => rw [Guarded.gives_pure hbody, ih, List.append_assoc]

theorem plan_gives {ranges : List (ℕ × ℕ)} (h : (planBatches order budget).Gives (some ranges)) :
    Tiles 0 ranges order.length ∧ ∀ range ∈ ranges, IsBatch order budget range := by
  obtain ⟨ranges', stop, hran, hstop⟩ := loop_gives (.nil 0 []) h
  obtain rfl : ranges = ranges' := hran.collects
  obtain ⟨htiles, hbatches, hle⟩ := hran.tiles
  obtain rfl : stop = order.length := le_antisymm (hle (Nat.zero_le _)) hstop
  exact ⟨htiles, hbatches⟩

theorem range_quiet (hgood : ∀ item ∈ order, ¬ Refused item ∧ ¬ Oversized budget item)
    (hlt : start < order.length) :
    ∃ range, (recognitionBatchRange order start budget).quiet = .ok range := by
  unfold recognitionBatchRange checkpoint
  rw [Guarded.bind_check_quiet, if_neg (not_le.mpr hlt), Guarded.quiet_bind, Guarded.quiet_lift]
  cases hgrow : growBatch order start budget RECOGNITION_BATCH start with
  | error e =>
    obtain ⟨item, hmem, hrefused⟩ := growBatch_error (by omega) (le_refl _) hgrow
    exact absurd hrefused (hgood item hmem).1
  | ok stop =>
    by_cases heq : stop = start
    · subst heq
      obtain ⟨item, hmem, hover⟩ := growBatch_stuck hlt hgrow
      exact absurd hover (hgood item hmem).2
    · refine ⟨(start, stop), ?_⟩
      show (if stop = start then _ else _ : Guarded Interruption Stop (ℕ × ℕ)).quiet = _
      rw [if_neg heq]
      rfl

theorem loop_quiet {fuel : ℕ} {acc : List (ℕ × ℕ)}
    (hgood : ∀ item ∈ order, ¬ Refused item ∧ ¬ Oversized budget item) :
    ∃ result, (batchLoop order budget (fun range ranges => pure (ranges ++ [range])) fuel start
      acc).quiet = .ok result := by
  induction fuel generalizing start acc with
  | zero =>
    unfold batchLoop
    split
    · exact ⟨none, rfl⟩
    · exact ⟨some acc, rfl⟩
  | succ fuel ih =>
    unfold batchLoop
    split
    · rename_i hlt
      obtain ⟨range, hrange⟩ := range_quiet hgood hlt
      rw [Guarded.quiet_bind_ok hrange]
      exact ih
    · exact ⟨some acc, rfl⟩

theorem plan_fails_iff : (∃ e, (planBatches order budget).quiet = .error e) ↔
    ∃ item ∈ order, Refused item ∨ Oversized budget item := by
  constructor
  · rintro ⟨e, he⟩
    by_contra hnone
    have hgood : ∀ item ∈ order, ¬ Refused item ∧ ¬ Oversized budget item := by
      intro item hmem
      exact not_or.mp fun hbad => hnone ⟨item, hmem, hbad⟩
    have hloop : ∃ result, (planBatches order budget).quiet = .ok result := loop_quiet hgood
    obtain ⟨result, hresult⟩ := hloop
    exact absurd (hresult.symm.trans he) nofun
  · rintro ⟨item, hmem, hbad⟩
    cases hquiet : (planBatches order budget).quiet with
    | error e => exact ⟨e, rfl⟩
    | ok result =>
      have hgives : (planBatches order budget).Gives result := by
        refine ⟨fun _ => none, ?_⟩
        rw [Guarded.run_eq_quiet fun _ _ => rfl, hquiet]
      cases result with
      | none => exact absurd hgives (loop_ends (Nat.sub_le _ _))
      | some ranges =>
        obtain ⟨htiles, hbatches⟩ := plan_gives hgives
        obtain ⟨p, hp, rfl⟩ := List.getElem_of_mem hmem
        obtain ⟨range, hr, hlow, hhigh⟩ := htiles.covers (Nat.zero_le p) hp
        obtain ⟨item, width, hitem, hwidth, hfits⟩ := (hbatches range hr).fits p hlow hhigh
        rw [List.getElem?_eq_getElem hp] at hitem
        obtain rfl := Option.some.inj hitem
        rcases hbad with ⟨e, he⟩ | ⟨width', bytes, hwidth', hbytes, hover⟩
        · exact absurd (he.symm.trans hwidth) nofun
        · obtain rfl := Except.ok.inj (hwidth.symm.trans hwidth')
          obtain ⟨-, hmax, -⟩ := recognizerWidthForRatio_eq_ok hwidth
          have hsingle := estimated_eq (show 1 ≤ RECOGNITION_BATCH by decide) hmax
          obtain rfl := Except.ok.inj (hsingle.symm.trans hbytes)
          have hone : outputBytes 1 width ≤ outputBytes (p - range.1 + 1) width :=
            outputBytes_mono (by omega)
          omega

/-- **A batch is within the budget** at the width of its widest item, which is its last. -/
theorem IsBatch.within (hsorted : order.Pairwise fun left right => left.2 ≤ right.2) {range : ℕ × ℕ}
    (h : IsBatch order budget range) : ∃ width bytes,
      estimatedRecognizerOutputBytes (range.2 - range.1) width = .ok bytes ∧ bytes ≤ budget ∧
      (∃ p item, range.1 ≤ p ∧ p < range.2 ∧ order[p]? = some item ∧
        recognizerWidthForRatio item.2 = .ok width) ∧
      ∀ p item, range.1 ≤ p → p < range.2 → order[p]? = some item →
        ∃ width', recognizerWidthForRatio item.2 = .ok width' ∧ width' ≤ width := by
  have hpos := h.nonempty
  obtain ⟨last, width, hlast, hwidth, hfits⟩ := h.fits (range.2 - 1) (by omega) (by omega)
  have hcount : range.2 - 1 - range.1 + 1 = range.2 - range.1 := by omega
  rw [hcount] at hfits
  obtain ⟨-, hmax, -⟩ := recognizerWidthForRatio_eq_ok hwidth
  refine ⟨width, _, estimated_eq h.size hmax, hfits, ⟨_, last, by omega, by omega, hlast, hwidth⟩,
    fun p item hp hp' hitem => ?_⟩
  obtain ⟨item', width', hitem', hwidth', -⟩ := h.fits p hp hp'
  obtain rfl := Option.some.inj (hitem.symm.trans hitem')
  refine ⟨width', hwidth', ?_⟩
  rcases Nat.lt_or_ge p (range.2 - 1) with hlt | hge
  · obtain ⟨hp₁, rfl⟩ := List.getElem?_eq_some_iff.mp hitem
    obtain ⟨hp₂, rfl⟩ := List.getElem?_eq_some_iff.mp hlast
    exact recognizerWidth_mono (List.pairwise_iff_getElem.mp hsorted _ _ hp₁ hp₂ hlt) hwidth' hwidth
  · obtain rfl : p = range.2 - 1 := by omega
    obtain rfl := Option.some.inj (hitem.symm.trans hlast)
    exact (Except.ok.inj (hwidth'.symm.trans hwidth)).le

/-! ### Recognition -/

variable {Q : Type} {cropDimensions : Q → Except Stop (ℕ × ℕ × Bool)}
  {inference : ℕ → List Q → Guarded Interruption Stop (List DecodedText)}
  {detections : List (Detection Q)} {decoded decoded' : List (Option DecodedText)}

theorem recognitionOrder_eq_ok (h : recognitionOrder cropDimensions detections = .ok order) :
    (order.map Prod.fst).Perm (List.range detections.length) ∧
      order.Pairwise fun left right => left.2 ≤ right.2 := by
  obtain ⟨unsorted, hunsorted, hsort⟩ := bind_eq_ok.mp h
  clear h
  obtain rfl := Except.ok.inj hsort
  have hindices : unsorted.map Prod.fst = List.range detections.length := by
    have hforall := mapM_eq_ok.mp hunsorted
    have hsame : unsorted.map Prod.fst = detections.zipIdx.map Prod.snd := by
      clear hunsorted hsort
      generalize detections.zipIdx = zipped at hforall ⊢
      induction hforall with
      | nil => rfl
      | cons hone _ ih =>
        obtain ⟨dimensions, -, hone⟩ := bind_eq_ok.mp hone
        obtain ⟨ratio, -, hone⟩ := bind_eq_ok.mp hone
        obtain rfl := Except.ok.inj hone
        rw [List.map_cons, List.map_cons, ih]
    rw [hsame, List.zipIdx_map_snd, List.range_eq_range']
  refine ⟨?_, ?_⟩
  · rw [← hindices]
    exact (List.mergeSort_perm _ _).map Prod.fst
  · refine (List.pairwise_mergeSort (fun a b c hab hbc => ?_) (fun a b => ?_) unsorted).imp
      of_decide_eq_true
    · exact decide_eq_true ((of_decide_eq_true hab).trans (of_decide_eq_true hbc))
    · rw [Bool.or_eq_true, decide_eq_true_eq, decide_eq_true_eq]
      exact le_total a.2 b.2

theorem write_ok {pairs : List ((ℕ × ℚ) × DecodedText)}
    (h : pairs.foldlM (fun decoded (pair : (ℕ × ℚ) × DecodedText) =>
      if pair.1.1 < decoded.length then .ok (decoded.set pair.1.1 (some pair.2))
      else (.error .panicked : Except Stop (List (Option DecodedText)))) decoded = .ok decoded') :
    decoded'.length = decoded.length ∧
      (∀ i, (∀ pair ∈ pairs, pair.1.1 ≠ i) → decoded'[i]? = decoded[i]?) ∧
      ((pairs.map fun pair => pair.1.1).Nodup →
        ∀ pair ∈ pairs, decoded'[pair.1.1]? = some (some pair.2)) := by
  induction pairs generalizing decoded with
  | nil =>
    obtain rfl := Except.ok.inj h
    exact ⟨rfl, fun i _ => rfl, fun _ pair hp => (by cases hp)⟩
  | cons pair pairs ih =>
    rw [List.foldlM_cons] at h
    obtain ⟨middle, hset, hrest⟩ := bind_eq_ok.mp h
    split at hset
    · rename_i hlt
      obtain rfl := Except.ok.inj hset
      obtain ⟨hlen, hkeep, hput⟩ := ih hrest
      rw [List.length_set] at hlen
      refine ⟨hlen, fun i hi => ?_, fun hnodup other hother => ?_⟩
      · rw [hkeep i fun other ho => hi other (List.mem_cons_of_mem _ ho),
          List.getElem?_set_ne (hi pair List.mem_cons_self)]
      · rw [List.map_cons, List.nodup_cons] at hnodup
        rcases List.mem_cons.mp hother with rfl | hother
        · rw [hkeep _ fun o ho heq => hnodup.1 (List.mem_map.mpr ⟨o, ho, heq⟩),
            List.getElem?_set_self hlt]
        · exact hput hnodup.2 other hother
    · cases hset

/-- The texts of a batch stand in the places of the detections that it recognized. -/
structure Written (detections : List (Detection Q))
    (inference : ℕ → List Q → Guarded Interruption Stop (List DecodedText)) (order : List (ℕ × ℚ))
    (range : ℕ × ℕ) (decoded : List (Option DecodedText)) : Prop where
  answered : ∃ (quads : List Q) (texts : List DecodedText), (inference range.1 quads).Gives texts ∧
    ∀ p item, range.1 ≤ p → p < range.2 → order[p]? = some item →
      ∃ detection text, detections[item.1]? = some detection ∧
        quads[p - range.1]? = some detection.quad ∧ texts[p - range.1]? = some text ∧
        decoded[item.1]? = some (some text)

theorem slice_batch {batch : List (ℕ × ℚ)} {range : ℕ × ℕ} (h : Raster.slice order range.1 range.2 = some batch) :
    batch.length = range.2 - range.1 ∧ range.1 ≤ range.2 ∧
      batch = (order.drop range.1).take (range.2 - range.1) ∧
      ∀ p, range.1 ≤ p → p < range.2 → batch[p - range.1]? = order[p]? := by
  unfold Raster.slice at h
  split at h
  · rename_i hin
    obtain rfl := Option.some.inj h
    refine ⟨?_, hin.1, rfl, fun p hp hp' => ?_⟩
    · rw [List.length_take, List.length_drop]
      omega
    · rw [List.getElem?_take_of_lt (by omega), List.getElem?_drop]
      congr 1
      omega
  · cases h

theorem recognizeBatch_gives (hnodup : (order.map Prod.fst).Nodup) {range : ℕ × ℕ}
    (h : (recognizeBatch detections inference order range decoded).Gives decoded') :
    decoded'.length = decoded.length ∧ Written detections inference order range decoded' ∧
      ∀ p item, order[p]? = some item → (p < range.1 ∨ range.2 ≤ p) →
        decoded'[item.1]? = decoded[item.1]? := by
  obtain ⟨batch, hbatch, h⟩ := Guarded.gives_bind h
  obtain ⟨quads, hquads, h⟩ := Guarded.gives_bind h
  obtain ⟨texts, htexts, h⟩ := Guarded.gives_bind h
  have hslice : Raster.slice order range.1 range.2 = some batch := by
    have hok := Guarded.gives_lift hbatch
    cases hs : Raster.slice order range.1 range.2 with
    | none =>
      rw [hs] at hok
      cases hok
    | some batch' =>
      rw [hs] at hok
      rw [Except.ok.inj hok]
  obtain ⟨hlength, hordered, hitems, hat⟩ := slice_batch hslice
  obtain ⟨hquadsLength, hquadsAt⟩ := List.forall₂_iff_get.mp (mapM_eq_ok.mp (Guarded.gives_lift hquads))
  split at h
  · exact absurd h Guarded.not_gives_fail
  · rename_i htextsLength
    have htextsLength := not_not.mp htextsLength
    obtain ⟨hlen, hkeep, hput⟩ := write_ok (Guarded.gives_lift h)
    have hfirsts : (batch.zip texts).map (fun pair => pair.1.1) = batch.map Prod.fst := by
      have hzip : (batch.zip texts).map Prod.fst = batch := List.map_fst_zip htextsLength.ge
      conv_rhs => rw [← hzip, List.map_map]
      rfl
    have hsub : batch.Sublist order := by
      rw [hitems]
      exact (List.take_sublist _ _).trans (List.drop_sublist _ _)
    have hpairs := hput (by rw [hfirsts]; exact hnodup.sublist (hsub.map Prod.fst))
    refine ⟨hlen, ⟨quads, texts, htexts, fun p item hp hp' hitem => ?_⟩, fun p item hitem hout => ?_⟩
    · have hk : p - range.1 < batch.length := by omega
      have hbatchAt : batch[p - range.1] = item := by
        have hsame := (hat p hp hp').trans hitem
        rw [List.getElem?_eq_getElem hk] at hsame
        exact Option.some.inj hsame
      have hquad := hquadsAt (p - range.1) hk (by omega)
      rw [List.get_eq_getElem, List.get_eq_getElem, hbatchAt] at hquad
      cases hdetection : detections[item.1]? with
      | none =>
        rw [hdetection] at hquad
        cases hquad
      | some detection =>
        rw [hdetection] at hquad
        have hquad : detection.quad = _ := Except.ok.inj hquad
        refine ⟨detection, texts[p - range.1], rfl, ?_, List.getElem?_eq_getElem (by omega), ?_⟩
        · rw [hquad]
          exact List.getElem?_eq_getElem (by omega)
        · have hmem : (item, texts[p - range.1]) ∈ batch.zip texts := by
            rw [← hbatchAt, ← List.getElem_zip (h := by rw [List.length_zip]; omega)]
            exact List.getElem_mem _
          exact hpairs _ hmem
    · refine hkeep item.1 fun pair hpair heq => ?_
      have hmem : pair.1 ∈ batch := (List.of_mem_zip hpair).1
      obtain ⟨k, hk, hpairAt⟩ := List.getElem_of_mem hmem
      have hother := hat (range.1 + k) (by omega) (by omega)
      rw [Nat.add_sub_cancel_left, List.getElem?_eq_getElem hk, hpairAt] at hother
      have hsame : (order.map Prod.fst)[range.1 + k]? = (order.map Prod.fst)[p]? := by
        rw [List.getElem?_map, List.getElem?_map, ← hother, hitem, Option.map_some, Option.map_some, heq]
      obtain ⟨hlt, -⟩ := List.getElem?_eq_some_iff.mp hitem
      have hlength : range.1 + k < (order.map Prod.fst).length := by
        rw [List.length_map]
        exact (List.getElem?_eq_some_iff.mp hother.symm).1
      have hindex := (List.getElem?_inj hlength hnodup).mp hsame
      omega

theorem Ran.written (hnodup : (order.map Prod.fst).Nodup) {ranges : List (ℕ × ℕ)}
    (h : Ran order budget (recognizeBatch detections inference order) start decoded ranges stop decoded') :
    decoded'.length = decoded.length ∧
      ∀ range ∈ ranges, Written detections inference order range decoded' := by
  induction h with
  | nil => exact ⟨rfl, fun range hr => (by cases hr)⟩
  | snoc hran hrange hbody ih =>
    obtain ⟨hlen, hall⟩ := ih
    obtain ⟨hlen', hwritten, hkeep⟩ := recognizeBatch_gives hnodup hbody
    refine ⟨hlen'.trans hlen, fun range hr => ?_⟩
    rcases List.mem_append.mp hr with hr | hr
    · obtain ⟨quads, texts, htexts, hplaces⟩ := (hall range hr).answered
      refine ⟨quads, texts, htexts, fun p item hp hp' hitem => ?_⟩
      obtain ⟨detection, text, hdetection, hquad, htext, hat⟩ := hplaces p item hp hp' hitem
      have hbefore := (hran.tiles.1.bounds hr).2.2
      refine ⟨detection, text, hdetection, hquad, htext, ?_⟩
      rw [hkeep p item hitem (Or.inl (by dsimp only; omega))]
      exact hat
    · rw [List.mem_singleton.mp hr]
      exact hwritten

theorem candidates_eq_ok {candidates : List (OwnedCandidate Q)}
    (h : ((detections.zip decoded).mapM fun (pair : Detection Q × Option DecodedText) => do
      let decoded ← okOr pair.2 .malformedOutput
      (.ok (OwnedCandidate.new pair.1 decoded) : Except Stop (OwnedCandidate Q))) = .ok candidates)
    {i : ℕ} {detection : Detection Q} {text : DecodedText} (hd : detections[i]? = some detection)
    (ht : decoded[i]? = some (some text)) :
    candidates[i]? = some (OwnedCandidate.new detection text) := by
  obtain ⟨hlength, hall⟩ := List.forall₂_iff_get.mp (mapM_eq_ok.mp h)
  obtain ⟨hi, rfl⟩ := List.getElem?_eq_some_iff.mp hd
  obtain ⟨hi', hget⟩ := List.getElem?_eq_some_iff.mp ht
  rw [List.length_zip] at hlength
  have hone := hall i (by rw [List.length_zip]; omega) (by omega)
  rw [List.get_eq_getElem, List.get_eq_getElem, List.getElem_zip, hget] at hone
  have hcandidate : OwnedCandidate.new detections[i] text = candidates[i] := Except.ok.inj hone
  rw [hcandidate]
  exact List.getElem?_eq_getElem (by omega)

theorem candidates_length {candidates : List (OwnedCandidate Q)} (hlen : decoded.length = detections.length)
    (h : ((detections.zip decoded).mapM fun (pair : Detection Q × Option DecodedText) => do
      let decoded ← okOr pair.2 .malformedOutput
      (.ok (OwnedCandidate.new pair.1 decoded) : Except Stop (OwnedCandidate Q))) = .ok candidates) :
    candidates.length = detections.length := by
  obtain ⟨hlength, -⟩ := List.forall₂_iff_get.mp (mapM_eq_ok.mp h)
  rw [List.length_zip] at hlength
  omega

theorem recognize_gives {candidates : List (OwnedCandidate Q)}
    (horder : recognitionOrder cropDimensions detections = .ok order)
    (h : (recognizeDetections cropDimensions inference budget detections).Gives (some candidates)) :
    candidates.length = detections.length ∧ ∃ ranges, Tiles 0 ranges order.length ∧
      (∀ range ∈ ranges, IsBatch order budget range) ∧
      ∀ range ∈ ranges, ∃ quads texts, (inference range.1 quads).Gives texts ∧
        ∀ p item, range.1 ≤ p → p < range.2 → order[p]? = some item →
          ∃ detection text, detections[item.1]? = some detection ∧
            quads[p - range.1]? = some detection.quad ∧ texts[p - range.1]? = some text ∧
            candidates[item.1]? = some (OwnedCandidate.new detection text) := by
  obtain ⟨hperm, -⟩ := recognitionOrder_eq_ok horder
  have hnodup : (order.map Prod.fst).Nodup := hperm.nodup_iff.mpr List.nodup_range
  have hcount : order.length = detections.length := by
    have hsame := hperm.length_eq
    rwa [List.length_map, List.length_range] at hsame
  unfold recognizeDetections at h
  split at h
  · rename_i hempty
    obtain rfl := Option.some.inj (Guarded.gives_pure h)
    rw [List.isEmpty_iff] at hempty
    subst hempty
    rw [List.length_nil] at hcount
    refine ⟨rfl, [], ?_, fun range hr => (by cases hr), fun range hr => (by cases hr)⟩
    rw [hcount]
    exact .nil 0
  · obtain ⟨order', horder', h⟩ := Guarded.gives_bind h
    obtain rfl := Except.ok.inj (horder.symm.trans (Guarded.gives_lift horder'))
    obtain ⟨result, hloop, h⟩ := Guarded.gives_bind h
    cases result with
    | none => cases Guarded.gives_pure h
    | some decoded =>
      obtain ⟨made, hmade, h⟩ := Guarded.gives_bind h
      obtain rfl := Option.some.inj (Guarded.gives_pure h)
      have hmade := Guarded.gives_lift hmade
      obtain ⟨ranges, stop, hran, hstop⟩ := loop_gives (.nil 0 _) hloop
      obtain ⟨hlen, hwritten⟩ := hran.written hnodup
      obtain ⟨htiles, hbatches, hle⟩ := hran.tiles
      obtain rfl : stop = order.length := le_antisymm (hle (Nat.zero_le _)) hstop
      rw [List.length_replicate] at hlen
      refine ⟨candidates_length hlen hmade, ranges, htiles, hbatches, fun range hr => ?_⟩
      obtain ⟨quads, texts, htexts, hplaces⟩ := (hwritten range hr).answered
      refine ⟨quads, texts, htexts, fun p item hp hp' hitem => ?_⟩
      obtain ⟨detection, text, hdetection, hquad, htext, hat⟩ := hplaces p item hp hp' hitem
      exact ⟨detection, text, hdetection, hquad, htext, candidates_eq_ok hmade hdetection hat⟩

theorem recognize_ends (horder : recognitionOrder cropDimensions detections = .ok order) :
    ¬ (recognizeDetections cropDimensions inference budget detections).Gives none := by
  intro h
  unfold recognizeDetections at h
  split at h
  · cases Guarded.gives_pure h
  · obtain ⟨order', horder', h⟩ := Guarded.gives_bind h
    obtain rfl := Except.ok.inj (horder.symm.trans (Guarded.gives_lift horder'))
    obtain ⟨result, hloop, h⟩ := Guarded.gives_bind h
    cases result with
    | none => exact loop_ends (Nat.sub_le _ _) hloop
    | some decoded =>
      obtain ⟨made, -, h⟩ := Guarded.gives_bind h
      cases Guarded.gives_pure h

theorem batch_of_detection (horder : recognitionOrder cropDimensions detections = .ok order)
    {ranges : List (ℕ × ℕ)} (htiles : Tiles 0 ranges order.length) {i : ℕ} (hi : i < detections.length) :
    ∃! range, range ∈ ranges ∧ ∃ p ratio, range.1 ≤ p ∧ p < range.2 ∧ order[p]? = some (i, ratio) := by
  obtain ⟨hperm, -⟩ := recognitionOrder_eq_ok horder
  have hnodup : (order.map Prod.fst).Nodup := hperm.nodup_iff.mpr List.nodup_range
  obtain ⟨item, hmem, hfst⟩ := List.mem_map.mp (hperm.mem_iff.mpr (List.mem_range.mpr hi))
  obtain ⟨p, hp, hat⟩ := List.getElem_of_mem hmem
  have hitem : order[p]? = some (i, item.2) := by
    rw [List.getElem?_eq_getElem hp, hat, ← hfst]
  obtain ⟨range, ⟨hr, hin⟩, hunique⟩ := htiles.existsUnique (Nat.zero_le p) hp
  refine ⟨range, ⟨hr, p, item.2, hin.1, hin.2, hitem⟩, ?_⟩
  rintro other ⟨ho, q, ratio, hq, hq', hother⟩
  have hsame : (order.map Prod.fst)[p]? = (order.map Prod.fst)[q]? := by
    rw [List.getElem?_map, List.getElem?_map, hitem, hother]
    rfl
  obtain rfl := (List.getElem?_inj (by rwa [List.length_map]) hnodup).mp hsame
  exact hunique other ⟨ho, hq, hq'⟩

/-- **Recognition in batches.**  Whatever interrupts: the batches follow each other through the sorted
order, every detection is in one of them, none is empty or larger than six, and the output expected at
the width of its widest item is within the budget; the loop ends; and the text that a batch has for a
quadrilateral goes to the candidate of the detection it belongs to.  Without an interruption planning
fails exactly if an item's width is refused or an item alone passes the budget. -/
theorem recognition_batches (horder : recognitionOrder cropDimensions detections = .ok order) :
    (∀ ranges, (planBatches order budget).Gives (some ranges) → Tiles 0 ranges order.length ∧
      (∀ i < detections.length, ∃! range, range ∈ ranges ∧
        ∃ p ratio, range.1 ≤ p ∧ p < range.2 ∧ order[p]? = some (i, ratio)) ∧
      ∀ range ∈ ranges, range.1 < range.2 ∧ range.2 - range.1 ≤ 6 ∧
        ∃ width bytes, estimatedRecognizerOutputBytes (range.2 - range.1) width = .ok bytes ∧
          bytes ≤ budget ∧
          (∃ p item, range.1 ≤ p ∧ p < range.2 ∧ order[p]? = some item ∧
            recognizerWidthForRatio item.2 = .ok width) ∧
          ∀ p item, range.1 ≤ p → p < range.2 → order[p]? = some item →
            ∃ width', recognizerWidthForRatio item.2 = .ok width' ∧ width' ≤ width) ∧
    ((∃ e, (planBatches order budget).quiet = .error e) ↔
      ∃ item ∈ order, Refused item ∨ Oversized budget item) ∧
    ¬ (planBatches order budget).Gives none ∧
    ¬ (recognizeDetections cropDimensions inference budget detections).Gives none ∧
    ∀ candidates, (recognizeDetections cropDimensions inference budget detections).Gives (some candidates) →
      candidates.length = detections.length ∧ ∃ ranges, Tiles 0 ranges order.length ∧
        (∀ range ∈ ranges, IsBatch order budget range) ∧
        ∀ range ∈ ranges, ∃ quads texts, (inference range.1 quads).Gives texts ∧
          ∀ p item, range.1 ≤ p → p < range.2 → order[p]? = some item →
            ∃ detection text, detections[item.1]? = some detection ∧
              quads[p - range.1]? = some detection.quad ∧ texts[p - range.1]? = some text ∧
              candidates[item.1]? = some (OwnedCandidate.new detection text) := by
  obtain ⟨-, hsorted⟩ := recognitionOrder_eq_ok horder
  refine ⟨fun ranges hplan => ?_, plan_fails_iff, loop_ends (Nat.sub_le _ _), recognize_ends horder,
    fun candidates hgives => recognize_gives horder hgives⟩
  obtain ⟨htiles, hbatches⟩ := plan_gives hplan
  refine ⟨htiles, fun i hi => batch_of_detection horder htiles hi, fun range hr => ?_⟩
  exact ⟨(hbatches range hr).nonempty, (hbatches range hr).size, (hbatches range hr).within hsorted⟩

def cropOf (width : ℕ) : Except Stop (ℕ × ℕ × Bool) := .ok (width, 48, false)

def threeWidths : List (Detection ℕ) := [⟨960, 0⟩, ⟨96, 1⟩, ⟨480, 2⟩]

def widthOrder : List (ℕ × ℚ) := [(1, 2), (2, 10), (0, 20)]

/-- The session reads `a` in the first batch and `b` in any other. -/
def readBatch (start : ℕ) (quads : List ℕ) : Guarded Interruption Stop (List DecodedText) :=
  pure (quads.map fun _ => ⟨if start = 0 then "a" else "b", 1⟩)

def threeCandidates : List (OwnedCandidate ℕ) := [⟨"b", 960, 1, 0⟩, ⟨"a", 96, 1, 1⟩, ⟨"a", 480, 1, 2⟩]

theorem threeWidths_order : recognitionOrder cropOf threeWidths = .ok widthOrder := by
  have hratio : ∀ {index width : ℕ} {ratio : ℚ}, recognitionRatio (width, 48, false) = .ok ratio →
      (do
        let dimensions ← cropOf width
        let ratio ← recognitionRatio dimensions
        .ok (index, ratio)) = .ok (index, ratio) :=
    fun h => bind_eq_ok.mpr ⟨_, rfl, bind_eq_ok.mpr ⟨_, h, rfl⟩⟩
  have h960 : recognitionRatio (960, 48, false) = .ok 20 := by decide +kernel
  have h96 : recognitionRatio (96, 48, false) = .ok 2 := by decide +kernel
  have h480 : recognitionRatio (480, 48, false) = .ok 10 := by decide +kernel
  refine bind_eq_ok.mpr ⟨[(0, 20), (1, 2), (2, 10)],
    mapM_eq_ok.mpr (.cons (hratio h960) (.cons (hratio h96) (.cons (hratio h480) .nil))), ?_⟩
  norm_num [List.mergeSort, List.MergeSort.Internal.splitInTwo, List.cons_merge_cons, widthOrder]

/-- The widest crop does not fit into the batch of the other two.  The candidates are in the order of
the detections, each with the text of its own batch. -/
theorem recognition_batches_sample : (∃ ranges, (planBatches widthOrder 9000000).Gives (some ranges) ∧
      ranges = [(0, 2), (2, 3)] ∧ Tiles 0 ranges 3) ∧
    ∃ candidates, (recognizeDetections cropOf readBatch 9000000 threeWidths).Gives (some candidates) ∧
      candidates = threeCandidates ∧ ∃ ranges, Tiles 0 ranges 3 ∧
        ∀ range ∈ ranges, IsBatch widthOrder 9000000 range := by
  have hplan : (planBatches widthOrder 9000000).Gives (some [(0, 2), (2, 3)]) :=
    Guarded.gives_quiet (by decide +kernel)
  have hgives : (recognizeDetections cropOf readBatch 9000000 threeWidths).Gives
      (some threeCandidates) := by
    refine Guarded.gives_quiet ?_
    unfold recognizeDetections
    rw [threeWidths_order]
    decide +kernel
  obtain ⟨hranges, -, -, -, hcandidates⟩ := recognition_batches threeWidths_order
  obtain ⟨-, ranges, htiles, hbatches, -⟩ := hcandidates _ hgives
  exact ⟨⟨_, hplan, rfl, (hranges _ hplan).1⟩, _, hgives, rfl, ranges, htiles, hbatches⟩

end MadoPilot.Onnx
