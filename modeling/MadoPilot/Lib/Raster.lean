import Mathlib.Algebra.Ring.Nat
import Mathlib.Data.List.Basic
import Mathlib.Logic.ExistsUnique
import Mathlib.Tactic.Common

/-!
# Rows in a buffer

A picture is rows of one width in a buffer; copying it writes one row after another.

* `foldl_splice` : what the buffer holds when the rows have been written;
* `take_drop_eq_rows` : a stretch of a buffer as groups of entries.
-/

namespace MadoPilot.Lib.Raster

variable {α : Type*}

/-- The entries from `start` up to `stop`, if the buffer has them. -/
def slice (l : List α) (start stop : ℕ) : Option (List α) :=
  if start ≤ stop ∧ stop ≤ l.length then some ((l.drop start).take (stop - start)) else none

/-- The buffer with `xs` written over what stands at `start`. -/
def splice (l : List α) (start : ℕ) (xs : List α) : List α :=
  l.take start ++ xs ++ l.drop (start + xs.length)

def rows (f : ℕ → List α) (height : ℕ) : List α := (List.range height).flatMap f

variable {f g : ℕ → List α} {width height : ℕ}

theorem rows_succ (f : ℕ → List α) (height : ℕ) : rows f (height + 1) = rows f height ++ f height := by
  unfold rows
  rw [List.range_succ, List.flatMap_append, List.flatMap_singleton]

theorem rows_congr (h : ∀ r < height, f r = g r) : rows f height = rows g height := by
  induction height with
  | zero => rfl
  | succ height ih =>
    rw [rows_succ, rows_succ, ih fun r hr => h r (by omega), h height (by omega)]

theorem length_rows (hf : ∀ r < height, (f r).length = width) :
    (rows f height).length = height * width := by
  induction height with
  | zero => rw [Nat.zero_mul]; rfl
  | succ height ih =>
    rw [rows_succ, List.length_append, ih fun r hr => hf r (by omega), hf height (by omega),
      Nat.succ_mul]

theorem dvd_length_rows {k : ℕ} (hf : ∀ r < height, k ∣ (f r).length) : k ∣ (rows f height).length := by
  induction height with
  | zero => exact Nat.dvd_zero k
  | succ height ih =>
    rw [rows_succ, List.length_append]
    exact Nat.dvd_add (ih fun r hr => hf r (by omega)) (hf height (by omega))

/-! ### Writing rows -/

theorem length_splice {l xs : List α} {start : ℕ} (h : start + xs.length ≤ l.length) :
    (splice l start xs).length = l.length := by
  unfold splice
  rw [List.length_append, List.length_append, List.length_take, List.length_drop]
  omega

theorem foldl_splice (hf : ∀ r < height, (f r).length = width) {out : List α}
    (hroom : height * width ≤ out.length) :
    (List.range height).foldl (fun out r => splice out (r * width) (f r)) out =
      rows f height ++ out.drop (height * width) := by
  induction height with
  | zero => simp [rows]
  | succ height ih =>
    have hmul : (height + 1) * width = height * width + width := Nat.succ_mul _ _
    have hrows : (rows f height).length = height * width := length_rows fun r hr => hf r (by omega)
    have hlast := hf height (by omega)
    rw [List.range_succ, List.foldl_append, List.foldl_cons, List.foldl_nil,
      ih (fun r hr => hf r (by omega)) (by omega), rows_succ]
    have htake : (rows f height ++ out.drop (height * width)).take (height * width) = rows f height := by
      rw [← hrows, List.take_left]
    have hdrop : (rows f height ++ out.drop (height * width)).drop (height * width + (f height).length) =
        out.drop ((height + 1) * width) := by
      rw [hlast, ← List.drop_drop, ← hrows, List.drop_left, List.drop_drop, hrows, hmul]
    unfold splice
    rw [htake, hdrop]

theorem foldl_splice_full (hf : ∀ r < height, (f r).length = width) {out : List α}
    (hlen : out.length = height * width) :
    (List.range height).foldl (fun out r => splice out (r * width) (f r)) out = rows f height := by
  rw [foldl_splice hf (by omega), List.drop_eq_nil_of_le (by omega), List.append_nil]

/-! ### Groups -/

theorem map_range_mul {β : Type*} (g : ℕ → β) (n size : ℕ) :
    (List.range (n * size)).map g =
      rows (fun i => (List.range size).map fun c => g (i * size + c)) n := by
  induction n with
  | zero => simp [rows]
  | succ n ih =>
    rw [rows_succ, ← ih, Nat.succ_mul, List.range_add, List.map_append, List.map_map]
    rfl

theorem take_drop_eq_rows {l : List α} {start n size : ℕ} (d : α)
    (h : start + n * size ≤ l.length) :
    (l.drop start).take (n * size) =
      rows (fun i => (List.range size).map fun c => l.getD (start + (i * size + c)) d) n := by
  rw [← map_range_mul fun c => l.getD (start + c) d]
  refine List.ext_getElem ?_ fun i h₁ h₂ => ?_
  · rw [List.length_take, List.length_drop, List.length_map, List.length_range]
    omega
  · have hi : i < n * size := by simpa using h₂
    rw [List.getElem_take, List.getElem_drop, List.getElem_map, List.getElem_range]
    exact List.getElem_eq_getD d

end MadoPilot.Lib.Raster

/-! ### Ranges that tile

A stretch of positions is cut into ranges that follow each other, none of them empty.

* `Tiles.existsUnique` : every position lies in exactly one range;
* `Tiles.bounds` : every range lies in the stretch.
-/

namespace MadoPilot.Lib

inductive Tiles : ℕ → List (ℕ × ℕ) → ℕ → Prop
  | nil (start : ℕ) : Tiles start [] start
  | snoc {start middle stop : ℕ} {ranges : List (ℕ × ℕ)} :
      Tiles start ranges middle → middle < stop → Tiles start (ranges ++ [(middle, stop)]) stop

namespace Tiles

variable {start middle stop p : ℕ} {ranges : List (ℕ × ℕ)} {range : ℕ × ℕ}

theorem le (h : Tiles start ranges stop) : start ≤ stop := by
  induction h with
  | nil => exact Nat.le_refl _
  | snoc _ hlt ih => omega

theorem bounds (h : Tiles start ranges stop) (hr : range ∈ ranges) :
    start ≤ range.1 ∧ range.1 < range.2 ∧ range.2 ≤ stop := by
  induction h with
  | nil => cases hr
  | snoc hfront hlt ih =>
    have hle := hfront.le
    rcases List.mem_append.mp hr with hr | hr
    · have hbounds := ih hr
      omega
    · obtain rfl := List.mem_singleton.mp hr
      exact ⟨hle, hlt, Nat.le_refl _⟩

theorem covers (h : Tiles start ranges stop) (hp : start ≤ p) (hp' : p < stop) :
    ∃ range ∈ ranges, range.1 ≤ p ∧ p < range.2 := by
  induction h with
  | nil => omega
  | @snoc middle stop ranges hfront hlt ih =>
    rcases Nat.lt_or_ge p middle with hbelow | hge
    · obtain ⟨range, hr, hin⟩ := ih hbelow
      exact ⟨range, List.mem_append_left _ hr, hin⟩
    · exact ⟨(middle, stop), List.mem_append_right _ (List.mem_singleton_self _), hge, hp'⟩

theorem existsUnique (h : Tiles start ranges stop) (hp : start ≤ p) (hp' : p < stop) :
    ∃! range, range ∈ ranges ∧ range.1 ≤ p ∧ p < range.2 := by
  obtain ⟨range, hr, hin⟩ := h.covers hp hp'
  refine ⟨range, ⟨hr, hin⟩, ?_⟩
  rintro other ⟨ho, hoin⟩
  clear hp hp'
  induction h with
  | nil => cases hr
  | @snoc middle stop ranges hfront hlt ih =>
    rcases List.mem_append.mp hr with hr | hr <;> rcases List.mem_append.mp ho with ho | ho
    · exact ih hr ho
    · obtain rfl := List.mem_singleton.mp ho
      have hbounds := hfront.bounds hr
      dsimp only at hoin
      omega
    · obtain rfl := List.mem_singleton.mp hr
      have hbounds := hfront.bounds ho
      dsimp only at hin
      omega
    · rw [List.mem_singleton.mp hr, List.mem_singleton.mp ho]

end Tiles

end MadoPilot.Lib
