import Mathlib.Algebra.Order.Group.Int
import Mathlib.Data.Fin.VecNotation
import MadoPilot.Lib.Greedy
import MadoPilot.Lib.Lines

/-!
# The reading order

Detected quads are sorted by the top of their first corner; the loop then takes the quads up to a step
of `line_threshold` for a line, sorts them in place by the left of their first corner, and goes on behind
them.  Coordinates are of any ordered group, so that differences are exact.

* `lineEnd_spec` : how far a line goes;
* `sortLines_eq` : the loop in place lays the lines out one after the other;
* `reading_order` is the result.
-/

namespace MadoPilot.Onnx.ReadingOrder

open MadoPilot.Lib

variable {α : Type*}

structure Point2f (α : Type*) where
  x : α
  y : α
  deriving DecidableEq

/-- `[Point2f; 4]`. -/
abbrev Quad (α : Type*) := Fin 4 → Point2f α

section Loop

variable [LinearOrder α] [AddCommGroup α] (lineThreshold : α)

abbrev Below (a b : Quad α) : Prop := (b 0).y - (a 0).y < lineThreshold

/-- The inner loop: `while end < quads.len() && …`. -/
def lineEnd (quads : List (Quad α)) (stop : ℕ) : ℕ :=
  if h : stop < quads.length then
    if Below lineThreshold (quads.get ⟨stop - 1, by omega⟩) (quads.get ⟨stop, h⟩) then
      lineEnd quads (stop + 1)
    else stop
  else stop
termination_by quads.length - stop

/-- `quads[start..stop].sort_by(…)` by the left of the first corner. -/
def sortRange (quads : List (Quad α)) (start stop : ℕ) : List (Quad α) :=
  quads.take start ++ sortBy (compareOn fun quad => (quad 0).x) ((quads.take stop).drop start) ++
    quads.drop stop

variable {lineThreshold} {quads : List (Quad α)}

theorem lineEnd_spec {stop : ℕ} (hle : stop ≤ quads.length) :
    stop ≤ lineEnd lineThreshold quads stop ∧ lineEnd lineThreshold quads stop ≤ quads.length ∧
      (∀ i a b, stop ≤ i → i < lineEnd lineThreshold quads stop → quads[i - 1]? = some a →
        quads[i]? = some b → Below lineThreshold a b) ∧
      ∀ a b, quads[lineEnd lineThreshold quads stop - 1]? = some a →
        quads[lineEnd lineThreshold quads stop]? = some b → ¬ Below lineThreshold a b := by
  fun_induction lineEnd lineThreshold quads stop with
  | case1 stop h hbelow ih =>
    obtain ⟨hge, hend, hinside, hnext⟩ := ih h
    refine ⟨by omega, hend, fun i a b hi hlt ha hb => ?_, hnext⟩
    rcases Nat.eq_or_lt_of_le hi with rfl | hlater
    · rw [List.getElem?_eq_getElem (by omega)] at ha hb
      obtain rfl := Option.some.inj ha
      obtain rfl := Option.some.inj hb
      exact hbelow
    · exact hinside i a b hlater hlt ha hb
  | case2 stop h hfar =>
    refine ⟨le_rfl, hle, fun i a b hi hlt => absurd hlt (not_lt.mpr hi), fun a b ha hb hbelow => ?_⟩
    rw [List.getElem?_eq_getElem (by omega)] at ha hb
    obtain rfl := Option.some.inj ha
    obtain rfl := Option.some.inj hb
    exact hfar hbelow
  | case3 stop h =>
    refine ⟨le_rfl, hle, fun i a b hi hlt => absurd hlt (not_lt.mpr hi), fun a b _ hb => ?_⟩
    rw [List.getElem?_eq_none (by omega)] at hb
    cases hb

omit [AddCommGroup α] in
theorem length_sortRange {start stop : ℕ} (hstart : start ≤ stop) (hstop : stop ≤ quads.length) :
    (sortRange quads start stop).length = quads.length := by
  unfold sortRange
  rw [List.length_append, List.length_append, (sortBy_perm _).length_eq, List.length_take,
    List.length_drop, List.length_take, List.length_drop]
  omega

variable (lineThreshold) (quads)

/-- The outer loop, from `start`. -/
def sortLines (quads : List (Quad α)) (start : ℕ) : List (Quad α) :=
  if h : start < quads.length then
    sortLines (sortRange quads start (lineEnd lineThreshold quads (start + 1)))
      (lineEnd lineThreshold quads (start + 1))
  else quads
termination_by quads.length - start
decreasing_by
  obtain ⟨hge, hend, -⟩ := @lineEnd_spec α _ _ lineThreshold quads (start + 1) h
  rw [length_sortRange (by omega) hend]
  omega

def sortReadingOrder : List (Quad α) :=
  sortLines lineThreshold (sortBy (compareOn fun quad => (quad 0).y) quads) 0

end Loop

section Lines

variable [LinearOrder α]

def top (quad : Quad α) : α := (quad 0).y

def left (quad : Quad α) : α := (quad 0).x

theorem sortBy_eq_sortOn {β : Type*} (key : β → α) (l : List β) :
    sortBy (compareOn key) l = sortOn key l := by
  unfold sortBy sortOn
  congr 1
  funext a b
  rw [Bool.eq_iff_iff, decide_eq_true_iff]
  show (compare (key a) (key b)).isLE = true ↔ _
  rw [Ordering.isLE_iff_ne_gt]
  exact compare_le_iff_le

variable [AddCommGroup α] {lineThreshold : α}

theorem first_line {placed rest : List (Quad α)} {quad : Quad α} :
    ∃ line later, rest = line ++ later ∧
      lineEnd lineThreshold (placed ++ quad :: rest) (placed.length + 1) =
        placed.length + (quad :: line).length ∧
      (quad :: rest).splitBy (near top lineThreshold) =
        (quad :: line) :: later.splitBy (near top lineThreshold) := by
  have hlength : (placed ++ quad :: rest).length = placed.length + 1 + rest.length := by
    rw [List.length_append, List.length_cons]
    omega
  obtain ⟨hge, hend, hinside, hnext⟩ :=
    @lineEnd_spec α _ _ lineThreshold (placed ++ quad :: rest) (placed.length + 1) (by omega)
  generalize lineEnd lineThreshold (placed ++ quad :: rest) (placed.length + 1) = stop
    at hge hend hinside hnext ⊢
  obtain ⟨k, rfl⟩ : ∃ k, stop = placed.length + 1 + k := ⟨stop - (placed.length + 1), by omega⟩
  have hget : ∀ i, (placed ++ quad :: rest)[placed.length + i]? = (quad :: rest)[i]? := by
    intro i
    rw [List.getElem?_append_right (by omega), Nat.add_sub_cancel_left]
  refine ⟨rest.take k, rest.drop k, (List.take_append_drop k rest).symm, ?_, ?_⟩
  · rw [List.length_cons, List.length_take]
    omega
  · have hsplit : quad :: rest = (quad :: rest.take k) ++ rest.drop k := by
      rw [List.cons_append, List.take_append_drop]
    have htake : quad :: rest.take k = (quad :: rest).take (k + 1) := rfl
    have hdrop : rest.drop k = (quad :: rest).drop (k + 1) := rfl
    rw [hsplit, List.splitBy_append, List.splitBy_of_isChain (List.cons_ne_nil _ _)]
    · rfl
    · rw [htake, List.isChain_iff_getElem]
      intro i hi
      rw [List.length_take] at hi
      refine decide_eq_true (hinside (placed.length + (i + 1)) _ _ (by omega) (by omega) ?_ ?_)
      · rw [show placed.length + (i + 1) - 1 = placed.length + i by omega, hget,
          List.getElem?_eq_getElem (by omega), List.getElem_take]
      · rw [hget, List.getElem?_eq_getElem (by omega), List.getElem_take]
    · intro a ha b hb
      rw [htake, List.getLast?_eq_getElem?, List.length_take, List.getElem?_take] at ha
      rw [hdrop, List.head?_drop] at hb
      refine decide_eq_false (hnext a b ?_ ?_)
      · have hlast : min (k + 1) (quad :: rest).length - 1 = k := by
          rw [List.length_cons]
          omega
        rw [hlast, if_pos (by omega)] at ha
        rw [show placed.length + 1 + k - 1 = placed.length + k by omega, hget]
        exact ha
      · rw [show placed.length + 1 + k = placed.length + (k + 1) by omega, hget]
        exact hb

theorem sortLines_eq {n : ℕ} (placed rest : List (Quad α)) (hn : rest.length ≤ n) :
    sortLines lineThreshold (placed ++ rest) placed.length =
      placed ++ (rest.splitBy (near top lineThreshold)).flatMap (sortOn left) := by
  induction n generalizing placed rest with
  | zero =>
    obtain rfl := List.length_eq_zero_iff.mp (Nat.le_zero.mp hn)
    rw [sortLines, dif_neg (by rw [List.append_nil]; exact lt_irrefl _)]
    rfl
  | succ n ih =>
    cases rest with
    | nil =>
      rw [sortLines, dif_neg (by rw [List.append_nil]; exact lt_irrefl _)]
      rfl
    | cons quad rest =>
      obtain ⟨line, later, rfl, hend, hlines⟩ := @first_line α _ _ lineThreshold placed rest quad
      have hinside : placed.length < (placed ++ quad :: (line ++ later)).length := by
        rw [List.length_append, List.length_cons]
        omega
      have hshape : placed ++ quad :: (line ++ later) = (placed ++ quad :: line) ++ later := by
        rw [List.append_assoc, List.cons_append]
      have hrange : sortRange (placed ++ quad :: (line ++ later)) placed.length
          (placed.length + (quad :: line).length) =
            (placed ++ sortOn left (quad :: line)) ++ later := by
        unfold sortRange
        have hsort : sortBy (compareOn fun quad : Quad α => (quad 0).x) = sortOn left :=
          funext (sortBy_eq_sortOn left)
        have htake : ((placed ++ quad :: line) ++ later).take
            (placed.length + (quad :: line).length) = placed ++ quad :: line :=
          List.take_left' List.length_append
        have hdrop : ((placed ++ quad :: line) ++ later).drop
            (placed.length + (quad :: line).length) = later :=
          List.drop_left' List.length_append
        rw [hshape, htake, hdrop, hsort, List.drop_left, List.append_assoc placed, List.take_left]
      have hlength : (placed ++ sortOn left (quad :: line)).length =
          placed.length + (quad :: line).length := by
        rw [List.length_append, (sortOn_perm _ _).length_eq]
      rw [sortLines, dif_pos hinside, hend, hrange, ← hlength, ih _ _ (by
        rw [List.length_cons, List.length_append] at hn
        omega), hlines, List.flatMap_cons, List.append_assoc]

theorem sortReadingOrder_eq (quads : List (Quad α)) :
    sortReadingOrder lineThreshold quads = arrange top left lineThreshold quads := by
  unfold sortReadingOrder
  have hrun := @sortLines_eq α _ _ lineThreshold _ [] (sortOn top quads) le_rfl
  show sortLines lineThreshold (sortBy (compareOn top) quads) 0 = _
  rw [sortBy_eq_sortOn]
  exact hrun

/-- **The reading order is canonical.**  The loop lays out lines that are the maximal runs of the quads
sorted by their tops whose steps are below the threshold, each sorted by its lefts; the tops of different
lines are the threshold apart; reading twice is reading once; and what is read depends on the order of
the quads with one first corner alone, the first corners that are read on no order at all. -/
theorem reading_order [IsOrderedAddMonoid α] (lineThreshold : α) (hpos : 0 < lineThreshold)
    (quads : List (Quad α)) :
    (∃ runs : List (List (Quad α)), runs.flatten = sortBy (compareOn top) quads ∧
      runs.flatten.Pairwise (fun a b => top a ≤ top b) ∧
      (∀ run ∈ runs, run ≠ [] ∧ run.IsChain fun a b => top b - top a < lineThreshold) ∧
      runs.Pairwise (fun run later => ∀ a ∈ run, ∀ b ∈ later, top a + lineThreshold ≤ top b) ∧
      sortReadingOrder lineThreshold quads = (runs.map (sortBy (compareOn left))).flatten ∧
      ∀ run ∈ runs, (sortBy (compareOn left) run).Pairwise fun a b => left a ≤ left b) ∧
    (sortReadingOrder lineThreshold quads).Perm quads ∧
    sortReadingOrder lineThreshold (sortReadingOrder lineThreshold quads) =
      sortReadingOrder lineThreshold quads ∧
    ∀ quads' : List (Quad α), quads.Perm quads' →
      (sortReadingOrder lineThreshold quads).map (fun quad => quad 0) =
        (sortReadingOrder lineThreshold quads').map (fun quad => quad 0) ∧
      ((∀ corner, quads.filter (fun quad => quad 0 = corner) =
          quads'.filter fun quad => quad 0 = corner) →
        sortReadingOrder lineThreshold quads = sortReadingOrder lineThreshold quads') := by
  have hsort : sortBy (compareOn left) = sortOn (left : Quad α → α) := funext (sortBy_eq_sortOn left)
  have hflat : (lines top lineThreshold quads).flatten = sortBy (compareOn top) quads := by
    rw [lines_flatten, sortBy_eq_sortOn]
  refine ⟨⟨lines top lineThreshold quads, hflat, ?_, fun run hrun => near_of_mem_lines hrun, lines_apart,
    ?_, fun run _ => ?_⟩, ?_, ?_, fun quads' hperm => ⟨?_, fun hcorner => ?_⟩⟩
  · rw [lines_flatten]
    exact sortOn_pairwise top quads
  · rw [sortReadingOrder_eq, hsort, ← List.flatMap_def]
    rfl
  · rw [hsort]
    exact sortOn_pairwise left run
  · rw [sortReadingOrder_eq]
    exact arrange_perm top left lineThreshold quads
  · simp only [sortReadingOrder_eq]
    exact arrange_idem hpos
  · have hplaces := @map_arrange_perm (Quad α) α α _ _ _ _ top left lineThreshold _ _ hpos hperm
    have hcorners := congrArg (List.map fun place : α × α => Point2f.mk place.2 place.1) hplaces
    rw [List.map_map, List.map_map] at hcorners
    rw [sortReadingOrder_eq, sortReadingOrder_eq]
    exact hcorners
  · rw [sortReadingOrder_eq, sortReadingOrder_eq]
    refine arrange_eq hpos hperm fun row col => ?_
    have hkey : ∀ l : List (Quad α), l.filter (fun quad => decide (top quad = row ∧ left quad = col)) =
        l.filter fun quad => decide (quad 0 = ⟨col, row⟩) := fun l =>
      List.filter_congr fun quad _ => decide_eq_decide.mpr
        ⟨fun h => (by obtain ⟨rfl, rfl⟩ := h; rfl), fun h => (by unfold top left; rw [h]; exact ⟨rfl, rfl⟩)⟩
    rw [hkey, hkey, hcorner]

end Lines

/-! ### Three quads -/

def square (x y : ℤ) : Quad ℤ := ![⟨x, y⟩, ⟨x + 1, y⟩, ⟨x + 1, y + 1⟩, ⟨x, y + 1⟩]

/-- Two quads of one line are read from the left, a lower one after them. -/
theorem reading_order_squares :
    sortReadingOrder 10 [square 0 20, square 5 0, square 0 3] =
        [square 0 3, square 5 0, square 0 20] ∧
      sortReadingOrder 10 [square 0 3, square 5 0, square 0 20] =
        [square 0 3, square 5 0, square 0 20] := by
  have htop : sortOn top [square 0 20, square 5 0, square 0 3] =
      [square 5 0, square 0 3, square 0 20] := by
    have hperm : ([square 5 0, square 0 3] ++ [square 0 20]).Perm
        ([square 0 20] ++ [square 5 0, square 0 3]) := List.perm_append_comm
    rw [← sortBy_eq_sortOn]
    exact sortBy_eq hperm (by decide)
  have hleft : sortOn left [square 5 0, square 0 3] = [square 0 3, square 5 0] := by
    rw [← sortBy_eq_sortOn]
    exact sortBy_eq (.swap _ _ _) (by decide)
  have hlast : sortOn left [square 0 20] = [square 0 20] := List.mergeSort_singleton _
  have hrun : sortReadingOrder 10 [square 0 20, square 5 0, square 0 3] =
      [square 0 3, square 5 0, square 0 20] := by
    have hcut : [square 5 0, square 0 3, square 0 20].splitBy (near top 10) =
        [[square 5 0, square 0 3], [square 0 20]] := rfl
    rw [sortReadingOrder_eq]
    unfold arrange lines
    rw [htop, hcut, List.flatMap_cons, List.flatMap_singleton, hleft, hlast]
    rfl
  have hidem := (reading_order 10 (by decide) [square 0 20, square 5 0, square 0 3]).2.2.1
  rw [hrun] at hidem
  exact ⟨hrun, hidem⟩

end MadoPilot.Onnx.ReadingOrder
