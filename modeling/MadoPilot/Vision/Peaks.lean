import MadoPilot.Core.Attempt
import MadoPilot.Vision.Match

/-!
# Peaks of a correlation map

The OpenCV adapter reports the highest places of a score map, each of which removes the places under
it.  It scans the map once where one result is asked for.  Otherwise it keeps the best place of every
row in a heap; a suppressed place makes the winner of its row an upper bound only, and the row is
scanned again when that winner comes to the top.

A raw score is held as the binary64 number it widens to, and the heap as the list of its winners,
the first to come out at its head.

* `greatest` : the best place of a stretch of the map, in chunks between which the operation is
  checked;
* `select` : the loop over the heap;
* `peaks` : the search;
* `reference` : what it stands for, all places sorted and greedily taken.
-/

namespace MadoPilot.Vision

open MadoPilot.Core MadoPilot.Lib

/-- How many places are scanned or suppressed between two checkpoints. -/
def checkpointOffsets : ℕ := 4096

abbrev SinceCheckpoint := Fin checkpointOffsets

structure Peak where
  left : ℕ
  top : ℕ
  score : Binary64
  deriving DecidableEq

def publicScore (raw : Binary64) : Binary64 := Binary64.clamp .zero .one raw

structure PeakSearch where
  width : ℕ
  height : ℕ
  templateWidth : ℕ
  templateHeight : ℕ
  minScore : Binary64
  candidateBudget : ℕ
  suppression : Suppression

theorem publicScore_isFinite {raw : Binary64} (h : raw.isFinite = true) :
    (publicScore raw).isFinite = true := by
  unfold publicScore Binary64.clamp
  simp only
  split
  · rfl
  · split
    · rfl
    · exact h

structure RowWinner where
  index : ℕ
  score : Binary64
  finite : score.isFinite = true
  deriving DecidableEq

namespace RowWinner

def peak (winner : RowWinner) (width : ℕ) : Peak :=
  ⟨winner.index % width, winner.index / width, winner.score⟩

/-- The higher score is greater, and the earlier place among equal ones. -/
def cmp (a b : RowWinner) : Ordering :=
  if b.score.lt a.score then .gt
  else if a.score.lt b.score then .lt
  else compare b.index a.index

end RowWinner

/-! ### The heap -/

/-- Puts a winner into a heap that gives the greatest first. -/
def push (winner : RowWinner) : List RowWinner → List RowWinner
  | [] => [winner]
  | top :: rows =>
    if winner.cmp top = .lt then top :: push winner rows else winner :: top :: rows

def pushWeakest (winner : RowWinner) : List RowWinner → List RowWinner
  | [] => [winner]
  | weakest :: rows =>
    if winner.cmp weakest = .gt then weakest :: pushWeakest winner rows
    else winner :: weakest :: rows

/-- Keeps the `budget` greatest winners. -/
def pushBounded (budget : ℕ) (winner : RowWinner) (best : List RowWinner) : List RowWinner :=
  if best.length < budget then pushWeakest winner best
  else
    match best with
    | [] => []
    | weakest :: others =>
      if winner.cmp weakest = .gt then pushWeakest winner others else weakest :: others

/-! ### Scanning and suppressing -/

section Work

variable (op : Operation)

/-- Counts places, and checks the operation at the end of an interval; no caller passes that end. -/
def advance (since : SinceCheckpoint) (offsets : ℕ) : Attempted Interruption SinceCheckpoint :=
  if h : since + offsets < checkpointOffsets then pure ⟨since + offsets, h⟩
  else do
    op.check id
    pure ⟨0, by decide⟩

def isLive (since : SinceCheckpoint) (value : Binary64) :
    Attempted Interruption (Bool × SinceCheckpoint) := do
  let since ← advance op since 1
  pure (value.isFinite, since)

def bestScore (best : Option RowWinner) : Binary64 :=
  match best with
  | none => .negInfinity
  | some winner => winner.score

/-- Scans one chunk whose first place is `index`; where a score is perfect, the second component is
how many places of the chunk were visited. -/
def scan (index : ℕ) (best : Option RowWinner) : List Binary64 → Option RowWinner × Option ℕ
  | [] => (best, none)
  | value :: values =>
    if h : value.isFinite = true then
      if value.le (bestScore best) || !(bestScore best).lt (publicScore value) then
        let rest := scan (index + 1) best values
        (rest.1, rest.2.map (· + 1))
      else if Binary64.one.le (publicScore value) then
        (some ⟨index, publicScore value, publicScore_isFinite h⟩, some 1)
      else
        let rest := scan (index + 1) (some ⟨index, publicScore value, publicScore_isFinite h⟩) values
        (rest.1, rest.2.map (· + 1))
    else
      let rest := scan (index + 1) best values
      (rest.1, rest.2.map (· + 1))

/-- The loop of `greatest` over the chunks. -/
def scanChunks (index : ℕ) (best : Option RowWinner) (since : SinceCheckpoint)
    (values : List Binary64) : Attempted Interruption (Option RowWinner × SinceCheckpoint) :=
  if _h : values = [] then pure (best, since)
  else
    let count := min (checkpointOffsets - since) values.length
    match scan index best (values.take count) with
    | (best, some visited) => do
      let since ← advance op since visited
      pure (best, since)
    | (best, none) => do
      let since ← advance op since count
      scanChunks (index + count) best since (values.drop count)
termination_by values.length
decreasing_by
  have hpos := List.length_pos_of_ne_nil _h
  have := since.isLt
  simp only [List.length_drop]
  omega

/-- The first of the highest places of a stretch, where it reaches the minimum score. -/
def greatest (since : SinceCheckpoint) (values : List Binary64) (firstIndex : ℕ)
    (minScore : Binary64) : Attempted Interruption (Option RowWinner × SinceCheckpoint) := do
  let (best, since) ← scanChunks op firstIndex none since values
  pure (best.filter fun winner => minScore.le winner.score, since)

/-- `fill(NAN)` of a stretch. -/
def fillNan (remaining : List Binary64) (start count : ℕ) : List Binary64 :=
  remaining.mapIdx fun i value => if start ≤ i ∧ i < start + count then .nan else value

/-- The loop of `suppress` over the chunks of one row. -/
def suppressRow (since : SinceCheckpoint) (remaining : List Binary64) (start stop : ℕ) :
    Attempted Interruption (List Binary64 × SinceCheckpoint) :=
  if _h : start < stop then do
    let count := min (checkpointOffsets - since) (stop - start)
    let since' ← advance op since count
    suppressRow since' (fillNan remaining start count) (start + count) stop
  else pure (remaining, since)
termination_by stop - start
decreasing_by
  have := since.isLt
  omega

/-- The loop of `suppress` over the rows. -/
def suppressRows (width firstColumn lastColumn : ℕ) :
    List ℕ → SinceCheckpoint → List Binary64 →
      Attempted Interruption (List Binary64 × SinceCheckpoint)
  | [], since, remaining => pure (remaining, since)
  | row :: rows, since, remaining => do
    let (remaining, since) ← suppressRow op since remaining (row * width + firstColumn)
      (row * width + lastColumn + 1)
    suppressRows width firstColumn lastColumn rows since remaining

def removePlaces (search : PeakSearch) (since : SinceCheckpoint) (remaining : List Binary64)
    (peak : Peak) : Attempted Interruption (List Binary64 × SinceCheckpoint) :=
  if search.suppression ≠ .dropOverlapping then do
    let since ← advance op since 1
    pure (remaining.set (peak.top * search.width + peak.left) .nan, since)
  else
    let firstRow := peak.top - (search.templateHeight - 1)
    let lastRow := min (saturatingAdd u64Max peak.top (search.templateHeight - 1)) (search.height - 1)
    let firstColumn := peak.left - (search.templateWidth - 1)
    let lastColumn := min (saturatingAdd u64Max peak.left (search.templateWidth - 1))
      (search.width - 1)
    suppressRows op search.width firstColumn lastColumn
      (List.range' firstRow (lastRow + 1 - firstRow)) since remaining

/-! ### The search -/

def rowValues (remaining : List Binary64) (width row : ℕ) : List Binary64 :=
  (remaining.drop (row * width)).take width

def collectRows (search : PeakSearch) (insert : RowWinner → List RowWinner → List RowWinner)
    (remaining : List Binary64) : List ℕ → List RowWinner → SinceCheckpoint →
      Attempted Interruption (List RowWinner × SinceCheckpoint)
  | [], heap, since => pure (heap, since)
  | row :: rows, heap, since => do
    let (winner, since) ← greatest op since (rowValues remaining search.width row)
      (row * search.width) search.minScore
    collectRows search insert remaining rows
      (match winner with
        | some winner => insert winner heap
        | none => heap) since

/-- The loop over the heap; `none` where `fuel` rounds are not enough. -/
def select (search : PeakSearch) : ℕ → List Binary64 → List RowWinner → List Peak →
    SinceCheckpoint → Attempted Interruption (Option (List Peak))
  | 0, _, _, _, _ => pure none
  | fuel + 1, remaining, rows, found, since =>
    if found.length < search.candidateBudget then
      match rows with
      | [] => pure (some found)
      | winner :: others => do
        let (live, since) ← isLive op since ((remaining[winner.index]?).getD .nan)
        if live then
          let found := found ++ [winner.peak search.width]
          if found.length = search.candidateBudget then pure (some found)
          else
            let (remaining, since) ← removePlaces op search since remaining (winner.peak search.width)
            select search fuel remaining (winner :: others) found since
        else
          let (repaired, since) ← greatest op since
            (rowValues remaining search.width (winner.index / search.width))
            (winner.index / search.width * search.width) search.minScore
          match repaired with
          | some repaired => select search fuel remaining (push repaired others) found since
          | none => select search fuel remaining others found since
    else pure (some found)

def heapOfRows (search : PeakSearch) (remaining : List Binary64) (since : SinceCheckpoint) :
    Attempted Interruption (List RowWinner × SinceCheckpoint) :=
  if search.suppression = .keepAll ∧ search.candidateBudget < search.height then do
    let (best, since) ← collectRows op search (pushBounded search.candidateBudget) remaining
      (List.range search.height) [] since
    op.check id
    let rows := best.foldl (fun rows winner => push winner rows) []
    op.check id
    pure (rows, since)
  else collectRows op search push remaining (List.range search.height) [] since

/-- Rounds enough for every search of so many places and rows. -/
def rounds (offsets height : ℕ) : ℕ := (offsets + 1) * (height + 1)

def extract (search : PeakSearch) (remaining : List Binary64) :
    Attempted Interruption (Option (List Peak)) := do
  let since : SinceCheckpoint := ⟨0, by decide⟩
  if search.candidateBudget = 1 then do
    let (winner, _) ← greatest op since remaining 0 search.minScore
    pure (some (winner.toList.map fun winner => winner.peak search.width))
  else do
    let (rows, since) ← heapOfRows op search remaining since
    select op search (rounds remaining.length search.height) remaining rows [] since

end Work

def degenerate (scores : List Binary64) (search : PeakSearch) (offsets : ℕ) : Bool :=
  offsets = 0 || decide (scores.length < offsets) || search.candidateBudget = 0 ||
    search.templateWidth = 0 || search.templateHeight = 0

def peaksOf (op : Operation) (scores : List Binary64) (search : PeakSearch) :
    Attempted Interruption (Option (List Peak)) :=
  match checkedMul u64Max search.width search.height with
  | none => op.committed id (some [])
  | some offsets =>
    if degenerate scores search offsets then op.committed id (some [])
    else do
      let found ← extract op search (scores.take offsets)
      op.committed id found

/-- Selects the canonical front of a score map. -/
def peaks (scores : List Binary64) (search : PeakSearch) :
    Attempted Interruption (Option (List Peak)) := do
  let op ← Operation.admitted id
  peaksOf op scores search

/-! ### What is searched for -/

/-- The finite places of a stretch that begins at `index`. -/
def entries (index : ℕ) (values : List Binary64) : List RowWinner :=
  (values.zipIdx index).filterMap fun (value, i) =>
    if h : value.isFinite = true then some ⟨i, publicScore value, publicScore_isFinite h⟩ else none

def offers (scores : List Binary64) (search : PeakSearch) : List RowWinner :=
  (entries 0 (scores.take (search.width * search.height))).filter fun winner =>
    search.minScore.le winner.score

def candidateOrder (a b : RowWinner) : Ordering := b.cmp a

/-- The rectangles of the template at two places share a pixel. -/
def PeakSearch.overlap (search : PeakSearch) (a b : RowWinner) : Bool :=
  let p := a.peak search.width
  let q := b.peak search.width
  decide (p.left < q.left + search.templateWidth ∧ q.left < p.left + search.templateWidth ∧
    p.top < q.top + search.templateHeight ∧ q.top < p.top + search.templateHeight)

/-- All places, sorted and greedily taken. -/
def reference (scores : List Binary64) (search : PeakSearch) : List Peak :=
  ((greedy (fun a b => search.suppression = .dropOverlapping && search.overlap a b)
    (sortBy candidateOrder (offers scores search))).take search.candidateBudget).map
      fun winner => winner.peak search.width

end MadoPilot.Vision
