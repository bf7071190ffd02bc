import MadoPilot.Vision.PeaksScan

/-!
# A peak search finds what the greedy reference finds

The loop over the heap keeps three things: the map differs from the scores in the removed places
only; every place that is left has a winner of its row in the heap, as great as it; and what the
greedy selection has still to take is what it takes of the places that are left.  So a winner that
is still there and comes to the top is the greatest place left, and is taken.

* `Selecting` : the invariant;
* `select_quiet` : the loop takes the greedy selection, in as many rounds as it is given;
* `Kept`, `take_of_ahead` : a heap of the greatest rows is enough where nothing clashes;
* `peaks_greedy` : the search, under whatever the operation context answers.
-/

namespace MadoPilot.Vision

open MadoPilot.Core MadoPilot.Lib

/-! ### The heap -/

section Heap

variable {w x : RowWinner} {rows best : List RowWinner}

theorem push_perm (w : RowWinner) (rows : List RowWinner) : (push w rows).Perm (w :: rows) := by
  induction rows with
  | nil => exact .refl _
  | cons top rows ih =>
    unfold push
    split
    · exact (ih.cons top).trans (.swap w top rows)
    · exact .refl _

theorem pushWeakest_perm (w : RowWinner) (rows : List RowWinner) :
    (pushWeakest w rows).Perm (w :: rows) := by
  induction rows with
  | nil => exact .refl _
  | cons weakest rows ih =>
    unfold pushWeakest
    split
    · exact (ih.cons weakest).trans (.swap w weakest rows)
    · exact .refl _

theorem push_sorted (h : rows.Pairwise fun a b => (a.cmp b).isGE) :
    (push w rows).Pairwise fun a b => (a.cmp b).isGE := by
  induction h with
  | nil => exact List.pairwise_singleton _ _
  | @cons top rows htop hrows ih =>
    unfold push
    split
    · rename_i hlt
      refine .cons (fun x hx => ?_) ih
      rcases List.mem_cons.mp ((push_perm w rows).subset hx) with rfl | hx
      · exact RowWinner.isGE_of_lt hlt
      · exact htop x hx
    · rename_i hge
      have hfirst := RowWinner.isGE_of_ne_lt hge
      refine .cons (fun x hx => ?_) (.cons htop hrows)
      rcases List.mem_cons.mp hx with rfl | hx
      · exact hfirst
      · exact RowWinner.isGE_trans hfirst (htop x hx)

theorem pushWeakest_sorted (h : best.Pairwise fun a b => (b.cmp a).isGE) :
    (pushWeakest w best).Pairwise fun a b => (b.cmp a).isGE := by
  induction h with
  | nil => exact List.pairwise_singleton _ _
  | @cons weakest best hweakest hbest ih =>
    unfold pushWeakest
    split
    · rename_i hgt
      refine .cons (fun x hx => ?_) ih
      rcases List.mem_cons.mp ((pushWeakest_perm w best).subset hx) with rfl | hx
      · rw [hgt]
        rfl
      · exact hweakest x hx
    · rename_i hle
      have hfirst := RowWinner.isGE_of_not_gt hle
      refine .cons (fun x hx => ?_) (.cons hweakest hbest)
      rcases List.mem_cons.mp hx with rfl | hx
      · exact hfirst
      · exact RowWinner.isGE_trans (hweakest x hx) hfirst

/-- `best` holds the `budget` greatest of some winners, or all of them where there are fewer. -/
structure Kept (budget : ℕ) (winners best : List RowWinner) : Prop where
  sorted : best.Pairwise fun a b => (b.cmp a).isGE
  subset : best ⊆ winners
  nodup : best.Nodup
  fits : best.length ≤ budget
  ahead : ∀ w ∈ winners, w ∈ best ∨ best.length = budget ∧ ∀ b ∈ best, (b.cmp w).isGE

theorem Kept.step {budget : ℕ} {winners : List RowWinner} (h : Kept budget winners best)
    (hw : w ∉ winners) : Kept budget (winners ++ [w]) (pushBounded budget w best) := by
  have hpush := pushWeakest_perm w
  unfold pushBounded
  split
  · rename_i hroom
    have hlen : (pushWeakest w best).length = best.length + 1 := (hpush best).length_eq
    refine ⟨pushWeakest_sorted h.sorted, fun x hx => ?_,
      (hpush best).symm.nodup (List.nodup_cons.mpr ⟨fun hmem => hw (h.subset hmem), h.nodup⟩),
      by omega, List.forall_mem_append.mpr ⟨fun x hx => ?_, List.forall_mem_singleton.mpr ?_⟩⟩
    · rcases List.mem_cons.mp ((hpush best).subset hx) with rfl | hx
      · exact List.mem_append_right _ List.mem_cons_self
      · exact List.mem_append_left _ (h.subset hx)
    · rcases h.ahead x hx with hmem | ⟨hfull, -⟩
      · exact Or.inl ((hpush best).symm.subset (List.mem_cons_of_mem _ hmem))
      · omega
    · exact Or.inl ((hpush best).symm.subset List.mem_cons_self)
  · rename_i hfull
    cases best with
    | nil =>
      refine ⟨.nil, List.nil_subset _, .nil, Nat.zero_le _, fun x _ => Or.inr ⟨?_, fun b hb => by cases hb⟩⟩
      rw [List.length_nil] at hfull ⊢
      omega
    | cons weakest others =>
      have hlen : (weakest :: others).length = budget := by
        have := h.fits
        omega
      have hweakest := (List.pairwise_cons.mp h.sorted).1
      by_cases hgt : w.cmp weakest = .gt
      · -- the weakest goes: every other one is as great, and so is the new one
        have hnew : ∀ b ∈ pushWeakest w others, (b.cmp weakest).isGE := by
          intro b hb
          rcases List.mem_cons.mp ((hpush others).subset hb) with rfl | hb
          · rw [hgt]
            rfl
          · exact hweakest b hb
        have hlen' : (pushWeakest w others).length = budget := (hpush others).length_eq.trans hlen
        simp only [if_pos hgt]
        have hothers := List.nodup_cons.mp h.nodup
        refine ⟨pushWeakest_sorted (List.pairwise_cons.mp h.sorted).2, fun x hx => ?_,
          (hpush others).symm.nodup (List.nodup_cons.mpr
            ⟨fun hmem => hw (h.subset (List.mem_cons_of_mem _ hmem)), hothers.2⟩), hlen'.le,
          List.forall_mem_append.mpr ⟨fun x hx => ?_, List.forall_mem_singleton.mpr ?_⟩⟩
        · rcases List.mem_cons.mp ((hpush others).subset hx) with rfl | hx
          · exact List.mem_append_right _ List.mem_cons_self
          · exact List.mem_append_left _ (h.subset (List.mem_cons_of_mem _ hx))
        · rcases h.ahead x hx with hmem | ⟨-, hahead⟩
          · rcases List.mem_cons.mp hmem with rfl | hmem
            · exact Or.inr ⟨hlen', hnew⟩
            · exact Or.inl ((hpush others).symm.subset (List.mem_cons_of_mem _ hmem))
          · exact Or.inr ⟨hlen', fun b hb =>
              RowWinner.isGE_trans (hnew b hb) (hahead weakest List.mem_cons_self)⟩
        · exact Or.inl ((hpush others).symm.subset List.mem_cons_self)
      · have hle := RowWinner.isGE_of_not_gt hgt
        simp only [if_neg hgt]
        refine ⟨h.sorted, fun x hx => List.mem_append_left _ (h.subset hx), h.nodup, h.fits,
          List.forall_mem_append.mpr ⟨h.ahead, List.forall_mem_singleton.mpr
            (Or.inr ⟨hlen, fun b hb => ?_⟩)⟩⟩
        rcases List.mem_cons.mp hb with rfl | hb
        · exact hle
        · exact RowWinner.isGE_trans (hweakest b hb) hle

end Heap

/-! ### The places that are left -/

def live (remaining : List Binary64) (x : RowWinner) : Bool :=
  ((remaining[x.index]?).getD .nan).isFinite

/-- Of the first `n` places nothing but removals has changed. -/
def Masks (n : ℕ) (scores remaining : List Binary64) : Prop :=
  ∀ i < n, remaining[i]? = scores[i]? ∨ remaining[i]? = scores[i]?.map fun _ => .nan

section Live

variable {n width row : ℕ} {scores remaining : List Binary64} {x : RowWinner} {minScore : Binary64}

theorem nan_not_finite : Binary64.nan.isFinite = false := by decide

theorem live_iff : live remaining x = true ↔
    ∃ value, remaining[x.index]? = some value ∧ value.isFinite = true := by
  unfold live
  cases h : remaining[x.index]? with
  | none => simp [nan_not_finite]
  | some value => simp

theorem Masks.score (h : Masks n scores remaining) {i : ℕ} (hi : i < n) {value : Binary64}
    (hvalue : remaining[i]? = some value) (hfinite : value.isFinite = true) :
    scores[i]? = some value := by
  rcases h i hi with hsame | hgone
  · rw [← hsame, hvalue]
  · rw [hvalue] at hgone
    obtain ⟨_, -, rfl⟩ := Option.map_eq_some_iff.mp hgone.symm
    rw [nan_not_finite] at hfinite
    cases hfinite

theorem Masks.left (h : Masks n scores remaining) (hx : x.index < n) (hlive : live remaining x = true) :
    remaining[x.index]? = scores[x.index]? := by
  obtain ⟨value, hvalue, hfinite⟩ := live_iff.mp hlive
  rw [hvalue, h.score hx hvalue hfinite]

theorem mem_row (h : Masks n scores remaining) (hwidth : 0 < width) (hrow : (row + 1) * width ≤ n) :
    x ∈ reaching minScore (entries (row * width) (rowValues remaining width row)) ↔
      x ∈ reaching minScore (entries 0 scores) ∧ live remaining x = true ∧ x.index / width = row := by
  have hplace : ∀ value, row * width ≤ x.index ∧
      (rowValues remaining width row)[x.index - row * width]? = some value ↔
        x.index / width = row ∧ remaining[x.index]? = some value := by
    intro value
    have hdiv := Nat.div_add_mod' x.index width
    have hmod := Nat.mod_lt x.index hwidth
    unfold rowValues
    rw [List.getElem?_take, List.getElem?_drop]
    constructor
    · rintro ⟨hle, hvalue⟩
      split_ifs at hvalue with hlt
      rw [Nat.add_sub_cancel' hle] at hvalue
      refine ⟨Nat.div_eq_of_lt_le hle ?_, hvalue⟩
      rw [Nat.succ_mul]
      omega
    · rintro ⟨rfl, hvalue⟩
      have hle : x.index / width * width ≤ x.index := Nat.div_mul_le_self ..
      rw [if_pos (by omega), Nat.add_sub_cancel' hle]
      exact ⟨hle, hvalue⟩
  unfold reaching
  rw [List.mem_filter, List.mem_filter, mem_entries, mem_entries, Nat.sub_zero]
  constructor
  · rintro ⟨⟨hle, value, hvalue, hfinite, hscore⟩, hmin⟩
    obtain ⟨hdiv, hleft⟩ := (hplace value).mp ⟨hle, hvalue⟩
    have hlt : x.index < n := by
      have := Nat.lt_mul_of_div_lt (Nat.lt_succ_of_le hdiv.le) hwidth
      exact this.trans_le hrow
    exact ⟨⟨⟨Nat.zero_le _, value, h.score hlt hleft hfinite, hfinite, hscore⟩, hmin⟩,
      live_iff.mpr ⟨value, hleft, hfinite⟩, hdiv⟩
  · rintro ⟨⟨⟨-, value, hvalue, hfinite, hscore⟩, hmin⟩, hlive, hdiv⟩
    have hlt : x.index < n := by
      have := Nat.lt_mul_of_div_lt (Nat.lt_succ_of_le hdiv.le) hwidth
      exact this.trans_le hrow
    obtain ⟨hle, hrowvalue⟩ := (hplace value).mpr ⟨hdiv, (h.left hlt hlive).trans hvalue⟩
    exact ⟨⟨hle, value, hrowvalue, hfinite, hscore⟩, hmin⟩

end Live

/-! ### The loop over the heap -/

/-- What the search selects from: winners in their order, with all offers of their rows. -/
structure Field (search : PeakSearch) (scores : List Binary64) (field : List RowWinner) : Prop where
  sorted : field.Pairwise fun a b => (a.cmp b).isGE
  places : field.Pairwise fun a b => a.index ≠ b.index
  offered : ∀ x ∈ field, x ∈ reaching search.minScore (entries 0 scores)
  rows : ∀ x ∈ field, ∀ y ∈ reaching search.minScore (entries 0 scores),
    y.index / search.width = x.index / search.width → y ∈ field

/-- **The loop over the heap.** -/
structure Selecting (search : PeakSearch) (scores : List Binary64) (field : List RowWinner)
    (remaining : List Binary64) (rows found : List RowWinner) : Prop where
  masks : Masks (search.width * search.height) scores remaining
  sorted : rows.Pairwise fun a b => (a.cmp b).isGE
  subset : rows ⊆ field
  cover : ∀ x ∈ field, live remaining x = true →
    ∃ w ∈ rows, w.index / search.width = x.index / search.width ∧ (w.cmp x).isGE
  taken : greedy (removes search) field = found ++ greedy (removes search) (field.filter (live remaining))

section Select

variable {search : PeakSearch} {scores remaining : List Binary64}
  {field rows found others : List RowWinner} {winner : RowWinner}

theorem eq_cons_of_greatest {l : List RowWinner} {w : RowWinner}
    (hsorted : l.Pairwise fun a b => (a.cmp b).isGE) (hplaces : l.Pairwise fun a b => a.index ≠ b.index)
    (hmem : w ∈ l) (hgreatest : ∀ x ∈ l, (w.cmp x).isGE) : ∃ rest, l = w :: rest := by
  cases l with
  | nil => cases hmem
  | cons top rest =>
    rcases List.mem_cons.mp hmem with rfl | hrest
    · exact ⟨rest, rfl⟩
    · have hsame := RowWinner.index_eq_of_isGE (hgreatest top List.mem_cons_self)
        ((List.pairwise_cons.mp hsorted).1 w hrest)
      exact absurd hsame.symm ((List.pairwise_cons.mp hplaces).1 w hrest)

theorem removes_self (search : PeakSearch) (w : RowWinner) : removes search w w = true := by
  unfold removes
  simp

theorem Field.lt (h : Field search (scores.take (search.width * search.height)) field)
    {x : RowWinner} (hx : x ∈ field) : x.index < search.width * search.height := by
  have hmem := index_lt_of_mem (List.mem_filter.mp (h.offered x hx)).1
  have hlen := List.length_take_le (search.width * search.height) scores
  omega

theorem Selecting.top (hfield : Field search scores field)
    (h : Selecting search scores field remaining (winner :: others) found)
    (hlive : live remaining winner = true) :
    ∃ rest, field.filter (live remaining) = winner :: rest := by
  refine eq_cons_of_greatest (hfield.sorted.sublist List.filter_sublist)
    (hfield.places.sublist List.filter_sublist)
    (List.mem_filter.mpr ⟨h.subset List.mem_cons_self, hlive⟩) fun x hx => ?_
  obtain ⟨hmem, hleft⟩ := List.mem_filter.mp hx
  obtain ⟨w, hw, -, hge⟩ := h.cover x hmem hleft
  rcases List.mem_cons.mp hw with rfl | hw
  · exact hge
  · exact RowWinner.isGE_trans ((List.pairwise_cons.mp h.sorted).1 w hw) hge

theorem Selecting.done (h : Selecting search scores field remaining [] found) :
    greedy (removes search) field = found := by
  have hnone : field.filter (live remaining) = [] := by
    refine List.filter_eq_nil_iff.mpr fun x hx hlive => ?_
    obtain ⟨w, hw, -⟩ := h.cover x hx hlive
    cases hw
  rw [h.taken, hnone, greedy_nil, List.append_nil]

/-- A map in which the places that clash with a winner are gone. -/
def Without (search : PeakSearch) (winner : RowWinner) (remaining remaining' : List Binary64) : Prop :=
  ∀ x : RowWinner, x.index < search.width * search.height →
    remaining'[x.index]? = if removes search winner x then remaining[x.index]?.map fun _ => .nan
      else remaining[x.index]?

theorem Without.live {remaining' : List Binary64} (h : Without search winner remaining remaining')
    {x : RowWinner} (hx : x.index < search.width * search.height) :
    live remaining' x = (live remaining x && !removes search winner x) := by
  unfold Vision.live
  rw [h x hx]
  cases removes search winner x with
  | false => simp
  | true => cases remaining[x.index]? <;> simp [nan_not_finite]

theorem Without.masks {remaining' : List Binary64} (h : Without search winner remaining remaining')
    (hmasks : Masks (search.width * search.height) scores remaining) :
    Masks (search.width * search.height) scores remaining' := by
  intro i hi
  have hplace := h ⟨i, .zero, rfl⟩ hi
  simp only at hplace
  rw [hplace]
  split
  · rcases hmasks i hi with hsame | hgone
    · exact Or.inr (by rw [hsame])
    · exact Or.inr (by rw [hgone, Option.map_map]; rfl)
  · exact hmasks i hi

theorem Selecting.take {remaining' : List Binary64}
    (hfield : Field search (scores.take (search.width * search.height)) field)
    (h : Selecting search (scores.take (search.width * search.height)) field remaining
      (winner :: others) found)
    (hlive : live remaining winner = true)
    (hwithout : Without search winner remaining remaining') :
    Selecting search (scores.take (search.width * search.height)) field remaining'
        (winner :: others) (found ++ [winner]) ∧
      (field.filter (live remaining')).length < (field.filter (live remaining)).length := by
  obtain ⟨rest, hrest⟩ := h.top hfield hlive
  have hlater : field.filter (live remaining') = rest.filter fun x => !removes search winner x := by
    have hboth : field.filter (live remaining') =
        (field.filter (live remaining)).filter fun x => !removes search winner x := by
      rw [List.filter_filter]
      refine List.filter_congr fun x hx => ?_
      rw [hwithout.live (hfield.lt hx), Bool.and_comm]
    rw [hboth, hrest, List.filter_cons_of_neg]
    rw [removes_self]
    exact Bool.false_ne_true
  refine ⟨⟨hwithout.masks h.masks, h.sorted, h.subset, fun x hx hleft => ?_, ?_⟩, ?_⟩
  · rw [hwithout.live (hfield.lt hx)] at hleft
    exact h.cover x hx (Bool.and_eq_true_iff.mp hleft).1
  · rw [h.taken, hrest, greedy_cons, hlater, List.append_assoc, List.singleton_append]
  · rw [hlater, hrest, List.length_cons]
    exact Nat.lt_succ_of_le (List.length_filter_le ..)

theorem Selecting.repair
    (hfield : Field search (scores.take (search.width * search.height)) field)
    (h : Selecting search (scores.take (search.width * search.height)) field remaining
      (winner :: others) found)
    (hwidth : 0 < search.width) (hgone : live remaining winner = false) {best : Option RowWinner}
    (hbest : Best (reaching search.minScore (entries (winner.index / search.width * search.width)
      (rowValues remaining search.width (winner.index / search.width)))) best) :
    Selecting search (scores.take (search.width * search.height)) field remaining
        (match best with
          | some repaired => push repaired others
          | none => others) found ∧
      ∀ repaired, best = some repaired → live remaining repaired = true := by
  have hwinner := h.subset List.mem_cons_self
  have hlt := hfield.lt hwinner
  have hrow : (winner.index / search.width + 1) * search.width ≤ search.width * search.height := by
    have hdiv := Nat.div_lt_of_lt_mul hlt
    rw [Nat.mul_comm]
    exact Nat.mul_le_mul_left _ hdiv
  have hmem := fun x => @mem_row _ _ _ _ _ x search.minScore h.masks hwidth hrow
  have hsorted := (List.pairwise_cons.mp h.sorted).2
  have hsubset : others ⊆ field := fun x hx => h.subset (List.mem_cons_of_mem _ hx)
  cases best with
  | none =>
    refine ⟨⟨h.masks, hsorted, hsubset, fun x hx hlive => ?_, h.taken⟩, fun _ hnone => by cases hnone⟩
    obtain ⟨w, hw, hdiv, hge⟩ := h.cover x hx hlive
    rcases List.mem_cons.mp hw with rfl | hw
    · have hin := (hmem x).mpr ⟨hfield.offered x hx, hlive, hdiv.symm⟩
      rw [show reaching search.minScore _ = [] from hbest] at hin
      cases hin
    · exact ⟨w, hw, hdiv, hge⟩
  | some repaired =>
    obtain ⟨hoffer, hleft, hdiv⟩ := (hmem repaired).mp hbest.1
    have hin : repaired ∈ field := hfield.rows winner hwinner repaired hoffer hdiv
    refine ⟨⟨h.masks, push_sorted hsorted, fun x hx => ?_, fun x hx hlive => ?_, h.taken⟩, ?_⟩
    · rcases List.mem_cons.mp ((push_perm repaired others).subset hx) with rfl | hx
      · exact hin
      · exact hsubset hx
    · obtain ⟨w, hw, hdiv', hge⟩ := h.cover x hx hlive
      rcases List.mem_cons.mp hw with rfl | hw
      · exact ⟨repaired, (push_perm repaired others).symm.subset List.mem_cons_self,
          hdiv.trans hdiv', hbest.2 x ((hmem x).mpr ⟨hfield.offered x hx, hlive, hdiv'.symm⟩)⟩
      · exact ⟨w, (push_perm repaired others).symm.subset (List.mem_cons_of_mem _ hw), hdiv', hge⟩
    · rintro r hr
      obtain rfl := Option.some.inj hr
      exact hleft

def goneIn (remaining : List Binary64) (rows : List RowWinner) : ℕ :=
  (rows.filter fun w => !live remaining w).length

theorem goneIn_push {repaired : RowWinner} (hlive : live remaining repaired = true) :
    goneIn remaining (push repaired others) = goneIn remaining others := by
  unfold goneIn
  rw [((push_perm repaired others).filter _).length_eq, List.filter_cons_of_neg]
  rw [hlive]
  exact Bool.false_ne_true

theorem select_quiet (op : Operation) (hop : op.terminal = none)
    (hfield : Field search (scores.take (search.width * search.height)) field)
    (hwidth : 0 < search.width) (htw : 0 < search.templateWidth) (hth : 0 < search.templateHeight)
    (hmax : search.width * search.height ≤ u64Max) {height fuel : ℕ} (since : SinceCheckpoint)
    (h : Selecting search (scores.take (search.width * search.height)) field remaining rows found)
    (hrows : rows.length ≤ height) (hbudget : found.length < search.candidateBudget)
    (hfuel : (field.filter (live remaining)).length * (height + 1) + goneIn remaining rows < fuel) :
    (select op search fuel remaining rows (found.map fun w => w.peak search.width) since).quiet =
      .ok (some (((greedy (removes search) field).take search.candidateBudget).map
        fun w => w.peak search.width)) := by
  induction fuel generalizing remaining rows found since with
  | zero => exact absurd hfuel (Nat.not_lt_zero _)
  | succ fuel ih =>
    unfold select
    rw [List.length_map, if_pos hbudget]
    cases rows with
    | nil =>
      simp only [Guarded.quiet_pure]
      rw [h.done, List.take_of_length_le hbudget.le]
    | cons winner others =>
      obtain ⟨since₁, hadvance⟩ := advance_quiet op hop since 1
      have hislive : (isLive op since ((remaining[winner.index]?).getD .nan)).quiet =
          .ok (live remaining winner, since₁) := by
        unfold isLive
        simp only [Guarded.quiet_bind, hadvance]
        rfl
      simp only [Guarded.quiet_bind, hislive]
      cases hlive : live remaining winner with
      | true =>
        have hwinner := hfield.lt (h.subset List.mem_cons_self)
        obtain ⟨remaining', since₂, hremove, hwithout⟩ := removePlaces_quiet op hop hwidth htw hth
          hmax since₁ remaining hwinner
        obtain ⟨hnext, hless⟩ := h.take hfield hlive hwithout
        have hgrown : (found ++ [winner]).map (fun w => w.peak search.width) =
            (found.map fun w => w.peak search.width) ++ [winner.peak search.width] := by
          rw [List.map_append, List.map_singleton]
        show Guarded.quiet (if true = true then _ else _) = _
        rw [if_pos rfl]
        by_cases hfull : (found ++ [winner]).length = search.candidateBudget
        · have htaken : (greedy (removes search) field).take search.candidateBudget =
              found ++ [winner] := by
            rw [hnext.taken, List.take_append_of_le_length hfull.ge, List.take_of_length_le hfull.le]
          rw [← hgrown, List.length_map, if_pos hfull, htaken]
          rfl
        · rw [← hgrown, List.length_map, if_neg hfull]
          simp only [Guarded.quiet_bind, hremove]
          refine ih since₂ hnext hrows ?_ ?_
          · rw [List.length_append, List.length_singleton] at hfull ⊢
            omega
          · have hgone : goneIn remaining' (winner :: others) ≤ height :=
              (List.length_filter_le ..).trans hrows
            have hmul := Nat.mul_le_mul_right (height + 1) (Nat.succ_le_of_lt hless)
            rw [Nat.succ_mul] at hmul
            show (field.filter (live remaining')).length * (height + 1) +
              goneIn remaining' (winner :: others) < fuel
            omega
      | false =>
        obtain ⟨best, since₂, hgreatest, hbest⟩ := greatest_quiet op hop since₁
          (rowValues remaining search.width (winner.index / search.width))
          (winner.index / search.width * search.width) search.minScore
        obtain ⟨hnext, hleft⟩ := h.repair hfield hwidth hlive hbest
        have hcount : goneIn remaining (winner :: others) = goneIn remaining others + 1 := by
          unfold goneIn
          rw [List.filter_cons_of_pos (by rw [hlive]; rfl), List.length_cons]
        show Guarded.quiet (if false = true then _ else _) = _
        rw [if_neg Bool.false_ne_true]
        simp only [Guarded.quiet_bind, hgreatest]
        rw [List.length_cons] at hrows
        cases best with
        | none => exact ih since₂ hnext (by omega) hbudget (by omega)
        | some repaired =>
          refine ih since₂ hnext ?_ hbudget ?_
          · rw [(push_perm repaired others).length_eq, List.length_cons]
            exact hrows
          · rw [goneIn_push (hleft repaired rfl)]
            omega

end Select

/-! ### The rows -/

section Rows

variable {search : PeakSearch} {scores : List Binary64} {done : List ℕ} {row : ℕ}
  {winners : List RowWinner} {best : Option RowWinner}

theorem collectRows_quiet (search : PeakSearch) (scores : List Binary64) (op : Operation)
    (hop : op.terminal = none) (insert : RowWinner → List RowWinner → List RowWinner)
    (all : List ℕ) {P : List ℕ → List RowWinner → Prop}
    (hstep : ∀ done row rest heap best, done ++ row :: rest = all → P done heap →
      Best (reaching search.minScore (entries (row * search.width)
        (rowValues scores search.width row))) best →
      P (done ++ [row]) (match best with
        | some winner => insert winner heap
        | none => heap))
    (done rows : List ℕ) (heap : List RowWinner) (since : SinceCheckpoint) (hall : done ++ rows = all)
    (h : P done heap) :
    ∃ heap' since', (collectRows op search insert scores rows heap since).quiet =
      .ok (heap', since') ∧ P all heap' := by
  induction rows generalizing done heap since with
  | nil =>
    rw [List.append_nil] at hall
    exact ⟨heap, since, rfl, hall ▸ h⟩
  | cons row rows ih =>
    obtain ⟨best, since', hgreatest, hbest⟩ := greatest_quiet op hop since
      (rowValues scores search.width row) (row * search.width) search.minScore
    obtain ⟨heap', since'', hrest, hP⟩ := ih _ _ since' (by rw [List.append_assoc]; exact hall)
      (hstep done row rows heap best hall h hbest)
    refine ⟨heap', since'', ?_, hP⟩
    unfold collectRows
    simp only [Guarded.quiet_bind, hgreatest]
    exact hrest

structure RowsOf (search : PeakSearch) (scores : List Binary64) (done : List ℕ)
    (winners : List RowWinner) : Prop where
  offered : ∀ w ∈ winners, w ∈ reaching search.minScore (entries 0 scores)
  complete : ∀ x ∈ reaching search.minScore (entries 0 scores), x.index / search.width ∈ done →
    ∃ w ∈ winners, w.index / search.width = x.index / search.width
  greatest : ∀ w ∈ winners, ∀ x ∈ reaching search.minScore (entries 0 scores),
    w.index / search.width = x.index / search.width → (w.cmp x).isGE
  length : winners.length ≤ done.length
  rows : ∀ w ∈ winners, w.index / search.width ∈ done

theorem RowsOf.nil : RowsOf search scores [] [] :=
  ⟨fun _ h => (by cases h), fun _ _ h => (by cases h), fun _ h => (by cases h), Nat.le_refl 0,
    fun _ h => (by cases h)⟩

theorem RowsOf.perm {winners' : List RowWinner} (h : RowsOf search scores done winners)
    (hperm : winners'.Perm winners) : RowsOf search scores done winners' where
  offered w hw := h.offered w (hperm.subset hw)
  complete x hx hdone := by
    obtain ⟨w, hw, hrow⟩ := h.complete x hx hdone
    exact ⟨w, hperm.symm.subset hw, hrow⟩
  greatest w hw := h.greatest w (hperm.subset hw)
  length := hperm.length_eq.trans_le h.length
  rows w hw := h.rows w (hperm.subset hw)

theorem RowsOf.step (h : RowsOf search scores done winners)
    (hmem : ∀ x, x ∈ reaching search.minScore (entries (row * search.width)
        (rowValues scores search.width row)) ↔
      x ∈ reaching search.minScore (entries 0 scores) ∧ x.index / search.width = row)
    (hbest : Best (reaching search.minScore (entries (row * search.width)
      (rowValues scores search.width row))) best) :
    RowsOf search scores (done ++ [row]) (winners ++ best.toList) := by
  have hlist : ∀ w ∈ best.toList, (w ∈ reaching search.minScore (entries 0 scores) ∧
      w.index / search.width = row) ∧ ∀ x ∈ reaching search.minScore (entries 0 scores),
        x.index / search.width = row → (w.cmp x).isGE := by
    intro w hw
    cases best with
    | none => cases hw
    | some b =>
      obtain rfl := List.mem_singleton.mp hw
      exact ⟨(hmem w).mp hbest.1, fun x hx hrow => hbest.2 x ((hmem x).mpr ⟨hx, hrow⟩)⟩
  refine ⟨List.forall_mem_append.mpr ⟨h.offered, fun w hw => (hlist w hw).1.1⟩,
    fun x hx hdone => ?_, List.forall_mem_append.mpr ⟨h.greatest, fun w hw x hx hsame => ?_⟩, ?_,
    List.forall_mem_append.mpr ⟨fun w hw => List.mem_append_left _ (h.rows w hw),
      fun w hw => List.mem_append_right _ (List.mem_singleton.mpr (hlist w hw).1.2)⟩⟩
  · rcases List.mem_append.mp hdone with hdone | hlast
    · obtain ⟨w, hw, hrow⟩ := h.complete x hx hdone
      exact ⟨w, List.mem_append_left _ hw, hrow⟩
    · have hrow := (hmem x).mpr ⟨hx, List.mem_singleton.mp hlast⟩
      cases best with
      | none =>
        rw [show reaching search.minScore _ = [] from hbest] at hrow
        cases hrow
      | some w =>
        refine ⟨w, List.mem_append_right _ List.mem_cons_self, ?_⟩
        rw [List.mem_singleton.mp hlast]
        exact ((hmem w).mp hbest.1).2
  · exact (hlist w hw).2 x hx (hsame.symm.trans (hlist w hw).1.2)
  · have hlen : best.toList.length ≤ 1 := by cases best <;> simp
    rw [List.length_append, List.length_append, List.length_singleton]
    exact Nat.add_le_add h.length hlen

end Rows

/-! ### What is searched for -/

section Reference

variable {scores : List Binary64} {search : PeakSearch}

instance : Std.TransCmp candidateOrder := @Std.TransCmp.opposite _ RowWinner.cmp _

def ordered (scores : List Binary64) (search : PeakSearch) : List RowWinner :=
  sortBy candidateOrder (offers scores search)

theorem ordered_sorted : (ordered scores search).Pairwise fun a b => (a.cmp b).isGE := by
  refine (sortBy_pairwise candidateOrder _).imp fun {a b} h => ?_
  have hle : (b.cmp a).isLE = true := h
  rw [@Std.OrientedCmp.eq_swap _ RowWinner.cmp, Ordering.isLE_swap] at hle
  exact hle

theorem entries_places (index : ℕ) (values : List Binary64) :
    (entries index values).Pairwise fun a b => a.index < b.index := by
  induction values generalizing index with
  | nil => exact .nil
  | cons value values ih =>
    by_cases h : value.isFinite = true
    · rw [entries_of_finite h]
      exact .cons (fun x hx => index_le_of_mem hx) (ih _)
    · rw [entries_of_not_finite h]
      exact ih _

theorem ordered_places : (ordered scores search).Pairwise fun a b => a.index ≠ b.index := by
  have hoffers : (offers scores search).Pairwise fun a b => a.index ≠ b.index :=
    ((entries_places ..).sublist List.filter_sublist).imp Nat.ne_of_lt
  exact (sortBy_perm _).symm.pairwise hoffers fun h => h.symm

theorem mem_ordered {x : RowWinner} : x ∈ ordered scores search ↔
    x ∈ reaching search.minScore (entries 0 (scores.take (search.width * search.height))) :=
  (sortBy_perm _).mem_iff

theorem reference_eq : reference scores search =
    ((greedy (removes search) (ordered scores search)).take search.candidateBudget).map
      fun w => w.peak search.width := by
  unfold reference
  congr 2
  refine greedy_congr (ordered_places.imp fun {a b} h => ?_)
  unfold removes
  rw [decide_eq_false h, Bool.false_or]

theorem ordered_field :
    Field search (scores.take (search.width * search.height)) (ordered scores search) :=
  ⟨ordered_sorted, ordered_places, fun _ hx => mem_ordered.mp hx, fun _ _ _ hy _ => mem_ordered.mpr hy⟩

theorem rows_field (rows : List RowWinner) :
    Field search (scores.take (search.width * search.height)) ((ordered scores search).filter fun x =>
      rows.any fun w => w.index / search.width = x.index / search.width) := by
  refine ⟨ordered_sorted.sublist List.filter_sublist, ordered_places.sublist List.filter_sublist,
    fun x hx => mem_ordered.mp (List.mem_filter.mp hx).1, fun x hx y hy hrow => ?_⟩
  refine List.mem_filter.mpr ⟨mem_ordered.mpr hy, ?_⟩
  simp only [hrow]
  exact (List.mem_filter.mp hx).2

/-- **The greatest rows are enough.**  Where each offer that `p` leaves out has `budget` others of `p`
ahead of it, the first `budget` offers are those of `p`. -/
theorem take_of_ahead {p : RowWinner → Bool} {budget : ℕ} {ws : List RowWinner} (hnodup : ws.Nodup)
    (hws : ∀ w ∈ ws, w ∈ ordered scores search ∧ p w = true)
    (h : ∀ x ∈ ordered scores search, p x = false →
      ws.length = budget ∧ ∀ w ∈ ws, (w.cmp x).isGE = true) :
    ((ordered scores search).filter p).take budget = (ordered scores search).take budget := by
  have hfirst : ∀ x ∈ (ordered scores search).take budget, p x = true := by
    intro x hx
    by_contra hnot
    rw [Bool.not_eq_true] at hnot
    obtain ⟨i, hi, hget⟩ := List.mem_iff_getElem.mp hx
    rw [List.length_take] at hi
    rw [List.getElem_take] at hget
    have hlen : i < (ordered scores search).length := by omega
    obtain ⟨hfull, hge⟩ := h x (List.mem_of_mem_take hx) hnot
    have hsub : ws ⊆ (ordered scores search).take i := by
      intro w hw
      obtain ⟨hmem, hp⟩ := hws w hw
      obtain ⟨j, hj, rfl⟩ := List.mem_iff_getElem.mp hmem
      rcases Nat.lt_trichotomy j i with hlt | rfl | hgt
      · exact List.mem_take_iff_getElem.mpr ⟨j, by omega, rfl⟩
      · rw [hget, hnot] at hp
        cases hp
      · have hback := List.pairwise_iff_getElem.mp ordered_sorted i j hlen hj hgt
        have hne := List.pairwise_iff_getElem.mp ordered_places i j hlen hj hgt
        rw [hget] at hback hne
        exact absurd (RowWinner.index_eq_of_isGE hback (hge _ hw)) hne
    have hle := (List.subperm_of_subset hnodup hsub).length_le
    rw [List.length_take] at hle
    omega
  have hsplit := List.take_append_drop budget (ordered scores search)
  have hkeep : ((ordered scores search).take budget).filter p = (ordered scores search).take budget :=
    List.filter_eq_self.mpr hfirst
  rw [← congrArg (List.filter p) hsplit, List.filter_append, hkeep, List.take_append, List.take_take,
    min_self, List.length_take]
  by_cases hshort : (ordered scores search).length ≤ budget
  · rw [List.drop_of_length_le hshort, List.filter_nil, List.take_nil, List.append_nil]
  · rw [min_eq_left (by omega), Nat.sub_self, List.take_zero, List.append_nil]

end Reference

/-! ### The search -/

section Search

variable {scores : List Binary64} {search : PeakSearch} {op : Operation}

theorem foldl_push (best acc : List RowWinner) (hacc : acc.Pairwise fun a b => (a.cmp b).isGE) :
    (best.foldl (fun rows w => push w rows) acc).Perm (best ++ acc) ∧
      (best.foldl (fun rows w => push w rows) acc).Pairwise fun a b => (a.cmp b).isGE := by
  induction best generalizing acc with
  | nil => exact ⟨.refl _, hacc⟩
  | cons w best ih =>
    obtain ⟨hperm, hsorted⟩ := ih (push w acc) (push_sorted hacc)
    refine ⟨hperm.trans ?_, hsorted⟩
    exact ((push_perm w acc).append_left best).trans List.perm_middle

theorem live_of_offered {x : RowWinner} (h : x ∈ reaching search.minScore (entries 0 scores)) :
    live scores x = true := by
  obtain ⟨-, value, hvalue, hfinite, -⟩ := mem_entries.mp (List.mem_filter.mp h).1
  rw [Nat.sub_zero] at hvalue
  exact live_iff.mpr ⟨value, hvalue, hfinite⟩

theorem Selecting.start {field rows : List RowWinner}
    (hfield : Field search (scores.take (search.width * search.height)) field)
    (hsorted : rows.Pairwise fun a b => (a.cmp b).isGE) (hsubset : rows ⊆ field)
    (hcover : ∀ x ∈ field, ∃ w ∈ rows, w.index / search.width = x.index / search.width ∧
      (w.cmp x).isGE) :
    Selecting search (scores.take (search.width * search.height)) field
      (scores.take (search.width * search.height)) rows [] := by
  refine ⟨fun i _ => Or.inl rfl, hsorted, hsubset, fun x hx _ => hcover x hx, ?_⟩
  rw [List.nil_append, List.filter_eq_self.mpr fun x hx => live_of_offered (hfield.offered x hx)]

theorem mem_whole_row (hwidth : 0 < search.width) {row : ℕ} (hrow : row < search.height)
    (x : RowWinner) : x ∈ reaching search.minScore (entries (row * search.width)
        (rowValues (scores.take (search.width * search.height)) search.width row)) ↔
      x ∈ reaching search.minScore (entries 0 (scores.take (search.width * search.height))) ∧
        x.index / search.width = row := by
  have hle : (row + 1) * search.width ≤ search.width * search.height := by
    rw [Nat.mul_comm]
    exact Nat.mul_le_mul_left _ hrow
  rw [mem_row (n := search.width * search.height) (fun i _ => Or.inl rfl) hwidth hle]
  exact ⟨fun ⟨h, _, hdiv⟩ => ⟨h, hdiv⟩, fun ⟨h, hdiv⟩ => ⟨h, live_of_offered h, hdiv⟩⟩

theorem row_lt {x : RowWinner}
    (h : x ∈ reaching search.minScore (entries 0 (scores.take (search.width * search.height)))) :
    x.index / search.width ∈ List.range search.height := by
  have hmem := index_lt_of_mem (List.mem_filter.mp h).1
  have hlen := List.length_take_le (search.width * search.height) scores
  exact List.mem_range.mpr (Nat.div_lt_of_lt_mul (by omega))

theorem heapOfRows_quiet (hop : op.terminal = none) (hwidth : 0 < search.width)
    (since : SinceCheckpoint) : ∃ rows since' field,
      (heapOfRows op search (scores.take (search.width * search.height)) since).quiet =
        .ok (rows, since') ∧
      Field search (scores.take (search.width * search.height)) field ∧
      Selecting search (scores.take (search.width * search.height)) field
        (scores.take (search.width * search.height)) rows [] ∧
      rows.length ≤ search.height ∧ field.Sublist (ordered scores search) ∧
      (greedy (removes search) field).take search.candidateBudget =
        (greedy (removes search) (ordered scores search)).take search.candidateBudget := by
  unfold heapOfRows
  split
  · rename_i hbounded
    obtain ⟨best, since', hquiet, winners, hrows, hkept⟩ := collectRows_quiet
      search (scores.take (search.width * search.height)) op hop (pushBounded search.candidateBudget)
      (List.range search.height) (P := fun done heap => ∃ winners,
        RowsOf search (scores.take (search.width * search.height)) done winners ∧
          Kept search.candidateBudget winners heap)
      (fun done row rest heap best hall ⟨winners, hrows, hkept⟩ hbest => by
        have hlt : row < search.height := List.mem_range.mp <| by
          rw [← hall]
          exact List.mem_append_right _ List.mem_cons_self
        have hnew : row ∉ done := by
          have hnodup := List.nodup_range (n := search.height)
          rw [← hall] at hnodup
          exact fun hmem => (List.nodup_append.mp hnodup).2.2 row hmem row List.mem_cons_self rfl
        have hmem := @mem_whole_row scores search hwidth row hlt
        refine ⟨winners ++ best.toList, hrows.step hmem hbest, ?_⟩
        cases best with
        | none =>
          rw [Option.toList_none, List.append_nil]
          exact hkept
        | some w =>
          refine hkept.step fun hw => hnew ?_
          rw [← ((hmem w).mp hbest.1).2]
          exact hrows.rows w hw)
      [] (List.range search.height) [] since rfl
      ⟨[], .nil, .nil, List.nil_subset _, .nil, Nat.zero_le _, fun _ h => (by cases h)⟩
    obtain ⟨hperm, hsorted⟩ := foldl_push best [] .nil
    rw [List.append_nil] at hperm
    have hoffered : ∀ w ∈ best, w ∈ ordered scores search := fun w hw =>
      mem_ordered.mpr (hrows.offered w (hkept.subset hw))
    refine ⟨_, since', _, ?_, rows_field best, Selecting.start (rows_field best) hsorted
      (fun w hw => ?_) (fun x hx => ?_), ?_, List.filter_sublist, ?_⟩
    · simp only [Guarded.quiet_bind, hquiet]
      rw [Operation.check_eq hop]
      rfl
    · have hw' := hperm.subset hw
      exact List.mem_filter.mpr ⟨hoffered w hw',
        List.any_eq_true.mpr ⟨w, hw', decide_eq_true rfl⟩⟩
    · obtain ⟨hx, hany⟩ := List.mem_filter.mp hx
      obtain ⟨b, hb, hbrow⟩ := List.any_eq_true.mp hany
      have hsame := of_decide_eq_true hbrow
      exact ⟨b, hperm.symm.subset hb, hsame,
        hrows.greatest b (hkept.subset hb) x (mem_ordered.mp hx) hsame⟩
    · have hle := (List.subperm_of_subset hkept.nodup hkept.subset).length_le
      have hlen := hrows.length
      rw [List.length_range] at hlen
      rw [hperm.length_eq]
      exact hle.trans hlen
    · -- nothing clashes, and a row that was left out has the budget ahead of it
      have hquiet : ∀ {l : List RowWinner}, (l.Pairwise fun a b => a.index ≠ b.index) →
          greedy (removes search) l = l := fun {l} hl => by
        refine greedy_of_quiet (hl.imp fun {a b} hne => ?_)
        unfold removes
        rw [hbounded.1, decide_eq_false hne]
        rfl
      rw [hquiet ordered_places, hquiet (ordered_places.sublist List.filter_sublist)]
      refine take_of_ahead hkept.nodup (fun w hw => ⟨hoffered w hw,
        List.any_eq_true.mpr ⟨w, hw, decide_eq_true rfl⟩⟩) fun x hx hnone => ?_
      have hxo := mem_ordered.mp hx
      obtain ⟨w, hw, hrow⟩ := hrows.complete x hxo (row_lt hxo)
      have hge := hrows.greatest w hw x hxo hrow
      rcases hkept.ahead w hw with hbest | ⟨hfull, hahead⟩
      · have hany := List.any_eq_false.mp hnone w hbest
        exact absurd (decide_eq_true hrow) hany
      · exact ⟨hfull, fun b hb => RowWinner.isGE_trans (hahead b hb) hge⟩
  · obtain ⟨rows, since', hquiet, hsorted, hrows⟩ := collectRows_quiet search
      (scores.take (search.width * search.height)) op hop push (List.range search.height)
      (P := fun done heap => (heap.Pairwise fun a b => (a.cmp b).isGE) ∧
        RowsOf search (scores.take (search.width * search.height)) done heap)
      (fun done row rest heap best hall ⟨hsorted, hrows⟩ hbest => by
        have hlt : row < search.height := List.mem_range.mp <| by
          rw [← hall]
          exact List.mem_append_right _ List.mem_cons_self
        have hstep := hrows.step (@mem_whole_row scores search hwidth row hlt) hbest
        cases best with
        | none =>
          rw [Option.toList_none, List.append_nil] at hstep
          exact ⟨hsorted, hstep⟩
        | some w => exact ⟨push_sorted hsorted, hstep.perm <|
            (push_perm w heap).trans (List.perm_append_singleton w heap).symm⟩)
      [] (List.range search.height) [] since rfl ⟨.nil, .nil⟩
    refine ⟨rows, since', _, hquiet, ordered_field, Selecting.start ordered_field hsorted
      (fun w hw => mem_ordered.mpr (hrows.offered w hw)) (fun x hx => ?_),
      hrows.length.trans_eq List.length_range, .refl _, rfl⟩
    have hx' := mem_ordered.mp hx
    obtain ⟨w, hw, hrow⟩ := hrows.complete x hx' (row_lt hx')
    exact ⟨w, hw, hrow, hrows.greatest w hw x hx' hrow⟩

/-- There is something to search, and a rectangle to search it for. -/
def PeakSearch.Covered (search : PeakSearch) (scores : List Binary64) : Prop :=
  0 < search.templateWidth ∧ 0 < search.templateHeight ∧
    search.width * search.height ≤ scores.length ∧ search.width * search.height ≤ u64Max

instance : Decidable (search.Covered scores) := by
  unfold PeakSearch.Covered
  infer_instance

theorem extract_quiet (hop : op.terminal = none) (hcovered : search.Covered scores)
    (hpos : 0 < search.width * search.height) (hbudget : 0 < search.candidateBudget) :
    (extract op search (scores.take (search.width * search.height))).quiet =
      .ok (some (reference scores search)) := by
  obtain ⟨htw, hth, hlength, hmax⟩ := hcovered
  have hwidth : 0 < search.width := Nat.pos_of_mul_pos_right hpos
  rw [reference_eq]
  unfold extract
  by_cases hone : search.candidateBudget = 1
  · obtain ⟨best, since', hquiet, hbest⟩ := greatest_quiet op hop ⟨0, by decide⟩
      (scores.take (search.width * search.height)) 0 search.minScore
    simp only [if_pos hone]
    simp only [Guarded.quiet_bind, hquiet]
    show Except.ok (some (best.toList.map fun winner => winner.peak search.width)) = _
    rw [hone]
    cases best with
    | none =>
      have hnone : ordered scores search = [] :=
        List.eq_nil_iff_forall_not_mem.mpr fun x hx => by
          have hx' := mem_ordered.mp hx
          rw [show reaching search.minScore _ = [] from hbest] at hx'
          cases hx'
      rw [hnone]
      rfl
    | some w =>
      obtain ⟨rest, hrest⟩ := eq_cons_of_greatest (w := w) (@ordered_sorted scores search)
        ordered_places (mem_ordered.mpr hbest.1)
        fun x hx => hbest.2 x (mem_ordered.mp hx)
      rw [hrest, greedy_cons]
      rfl
  · obtain ⟨rows, since', field, hquiet, hfield, hstart, hrows, hsub, htake⟩ :=
      @heapOfRows_quiet scores search op hop hwidth ⟨0, by decide⟩
    simp only [if_neg hone]
    simp only [Guarded.quiet_bind, hquiet]
    rw [← htake]
    refine select_quiet op hop hfield hwidth htw hth hmax since' hstart hrows hbudget ?_
    have hleft : (field.filter (live (scores.take (search.width * search.height)))).length ≤
        (scores.take (search.width * search.height)).length := by
      refine (List.length_filter_le ..).trans (hsub.length_le.trans ?_)
      unfold ordered
      rw [(sortBy_perm _).length_eq]
      refine (List.length_filter_le ..).trans ((List.length_filterMap_le ..).trans ?_)
      rw [List.length_zipIdx]
    have hgone : goneIn (scores.take (search.width * search.height)) rows ≤ search.height :=
      (List.length_filter_le ..).trans hrows
    have hmul := Nat.mul_le_mul_right (search.height + 1) hleft
    unfold rounds
    rw [Nat.succ_mul]
    omega

theorem reference_degenerate (h : search.width * search.height = 0 ∨ search.candidateBudget = 0) :
    reference scores search = [] := by
  rw [reference_eq]
  rcases h with h | h
  · have hnone : ordered scores search = [] := by
      refine List.eq_nil_iff_forall_not_mem.mpr fun x hx => ?_
      have hlt := index_lt_of_mem (List.mem_filter.mp (mem_ordered.mp hx)).1
      rw [h, List.take_zero, List.length_nil] at hlt
      exact absurd hlt (Nat.not_lt_zero _)
    rw [hnone, greedy_nil, List.take_nil, List.map_nil]
  · rw [h, List.take_zero, List.map_nil]

theorem degenerate_iff : degenerate scores search (search.width * search.height) = true ↔
    (search.width * search.height = 0 ∨ search.candidateBudget = 0) ∨
      ¬(0 < search.templateWidth ∧ 0 < search.templateHeight ∧
        search.width * search.height ≤ scores.length) := by
  unfold degenerate
  simp only [Bool.or_eq_true, decide_eq_true_eq]
  omega

theorem peaksOf_quiet (hop : op.terminal = none) (scores : List Binary64) (search : PeakSearch) :
    (peaksOf op scores search).quiet =
      .ok (some (if search.Covered scores then reference scores search else [])) := by
  unfold peaksOf
  by_cases hmax : search.width * search.height ≤ u64Max
  · rw [checkedMul_of_le hmax]
    simp only
    by_cases hnothing : degenerate scores search (search.width * search.height) = true
    · rw [if_pos hnothing, Operation.committed_quiet hop]
      split
      · rename_i hcovered
        have hnone := (degenerate_iff.mp hnothing).resolve_right
          (not_not.mpr ⟨hcovered.1, hcovered.2.1, hcovered.2.2.1⟩)
        rw [reference_degenerate hnone]
      · rfl
    · have hproper := mt degenerate_iff.mpr hnothing
      rw [not_or, not_or, not_not] at hproper
      obtain ⟨⟨hpos, hbudget⟩, htw, hth, hlength⟩ := hproper
      have hcovered : search.Covered scores := ⟨htw, hth, hlength, hmax⟩
      rw [if_neg hnothing, if_pos hcovered, Guarded.quiet_bind,
        extract_quiet hop hcovered (Nat.pos_of_ne_zero hpos) (Nat.pos_of_ne_zero hbudget)]
      exact Operation.committed_quiet hop
  · have hover : checkedMul u64Max search.width search.height = none := if_neg hmax
    rw [hover]
    simp only
    rw [Operation.committed_quiet hop, if_neg fun hcovered => hmax hcovered.2.2.2]

/-! ### Interruptions -/

abbrev Reports : Interruption → Prop := fun _ => True

theorem check_reports : (op.check id : Attempted Interruption PUnit).Obeys Reports :=
  Operation.check_obeys fun _ => trivial

theorem advance_obeys (since : SinceCheckpoint) (offsets : ℕ) :
    (advance op since offsets).Obeys Reports := by
  unfold advance
  split
  · exact .pure _
  · exact check_reports.bind fun _ => .pure _

theorem scanChunks_obeys (index : ℕ) (best : Option RowWinner) (since : SinceCheckpoint)
    (values : List Binary64) : (scanChunks op index best since values).Obeys Reports := by
  induction hlen : values.length using Nat.strong_induction_on
    generalizing index best since values with
  | _ n ih =>
    subst hlen
    rw [scanChunks]
    split
    · exact .pure _
    · rename_i hnil
      have hpos := List.length_pos_of_ne_nil hnil
      have hsince := since.isLt
      simp only
      split
      · exact (advance_obeys ..).bind fun _ => .pure _
      · refine (advance_obeys ..).bind fun since' => ih _ ?_ _ _ since' _ rfl
        rw [List.length_drop]
        omega

theorem greatest_obeys (since : SinceCheckpoint) (values : List Binary64) (index : ℕ)
    (minScore : Binary64) : (greatest op since values index minScore).Obeys Reports :=
  (scanChunks_obeys ..).bind fun _ => .pure _

theorem suppressRow_obeys (since : SinceCheckpoint) (remaining : List Binary64) (start stop : ℕ) :
    (suppressRow op since remaining start stop).Obeys Reports := by
  induction hleft : stop - start using Nat.strong_induction_on
    generalizing since remaining start with
  | _ left ih =>
    subst hleft
    rw [suppressRow]
    split
    · have hsince := since.isLt
      exact (advance_obeys ..).bind fun since' => ih _ (by omega) since' _ _ rfl
    · exact .pure _

theorem suppressRows_obeys (width first last : ℕ) (rows : List ℕ) (since : SinceCheckpoint)
    (remaining : List Binary64) :
    (suppressRows op width first last rows since remaining).Obeys Reports := by
  induction rows generalizing since remaining with
  | nil => exact .pure _
  | cons row rows ih => exact (suppressRow_obeys ..).bind fun _ => ih _ _

theorem removePlaces_obeys (since : SinceCheckpoint) (remaining : List Binary64) (peak : Peak) :
    (removePlaces op search since remaining peak).Obeys Reports := by
  unfold removePlaces
  split
  · exact (advance_obeys ..).bind fun _ => .pure _
  · exact suppressRows_obeys ..

theorem collectRows_obeys (insert : RowWinner → List RowWinner → List RowWinner)
    (remaining : List Binary64) (rows : List ℕ) (heap : List RowWinner) (since : SinceCheckpoint) :
    (collectRows op search insert remaining rows heap since).Obeys Reports := by
  induction rows generalizing heap since with
  | nil => exact .pure _
  | cons row rows ih => exact (greatest_obeys ..).bind fun _ => ih _ _

theorem heapOfRows_obeys (remaining : List Binary64) (since : SinceCheckpoint) :
    (heapOfRows op search remaining since).Obeys Reports := by
  unfold heapOfRows
  split
  · exact (collectRows_obeys ..).bind fun _ => check_reports.bind fun _ => check_reports.bind
      fun _ => .pure _
  · exact collectRows_obeys ..

theorem select_obeys (fuel : ℕ) (remaining : List Binary64) (rows : List RowWinner)
    (found : List Peak) (since : SinceCheckpoint) :
    (select op search fuel remaining rows found since).Obeys Reports := by
  induction fuel generalizing remaining rows found since with
  | zero => exact .pure _
  | succ fuel ih =>
    unfold select
    split
    · split
      · exact .pure _
      · refine ((advance_obeys ..).bind fun _ => .pure _).bind fun (alive, _) => ?_
        refine .ite (.ite (.pure _) ((removePlaces_obeys ..).bind fun _ => ih _ _ _ _))
          ((greatest_obeys ..).bind fun (best, _) => ?_)
        cases best with
        | none => exact ih _ _ _ _
        | some repaired => exact ih _ _ _ _
    · exact .pure _

theorem peaks_obeys (scores : List Binary64) (search : PeakSearch) :
    (peaks scores search).Obeys Reports := by
  have hcommitted : ∀ {α : Type} (op : Operation) (value : α),
      (op.committed id value : Attempted Interruption α).Obeys Reports := fun op value =>
    Operation.committed_obeys fun _ => trivial
  refine (Operation.admitted_obeys fun _ => trivial).bind fun op => ?_
  unfold peaksOf
  split
  · exact hcommitted op _
  · refine .ite (hcommitted op _) (.bind ?_ fun _ => hcommitted op _)
    unfold extract
    exact .ite ((greatest_obeys ..).bind fun _ => .pure _)
      ((heapOfRows_obeys ..).bind fun _ => select_obeys ..)

theorem quiet_peaks (scores : List Binary64) (search : PeakSearch) : (peaks scores search).quiet =
    .ok (some (if search.Covered scores then reference scores search else [])) := by
  unfold peaks
  rw [Guarded.quiet_bind, Operation.admitted_quiet]
  exact peaksOf_quiet rfl scores search

/-- **The peak search.**  Without an interruption it finds, for a rectangle with an extent in a map
that has all its places, the offers at or above the minimum score, sorted and greedily taken up to
the budget, and nothing for any other search; with an interruption it finds no list at all. -/
theorem peaks_greedy (scores : List Binary64) (search : PeakSearch)
    (answers : ℕ → Option Interruption) :
    ((∀ n < (peaks scores search).asks, answers n = none) ∧
      (peaks scores search).run answers =
        .ok (some (if search.Covered scores then reference scores search else []))) ∨
    ((∃ n < (peaks scores search).asks, answers n ≠ none) ∧
      ∃ i, (peaks scores search).run answers = .error i) := by
  rcases (peaks_obeys scores search).run_cases answers with ⟨hnone, hrun⟩ | ⟨hsome, i, hrun, -⟩
  · exact Or.inl ⟨hnone, hrun.trans (quiet_peaks scores search)⟩
  · exact Or.inr ⟨hsome, i, hrun⟩

end Search

/-- A rectangle without columns finds nothing at a perfect place. -/
theorem peaks_without_columns :
    (peaks [.one] ⟨1, 1, 0, 1, .zero, 1, .keepAll⟩).run (fun _ => none) = .ok (some []) ∧
      reference [.one] ⟨1, 1, 0, 1, .zero, 1, .keepAll⟩ = [⟨0, 0, .one⟩] := by
  refine ⟨rfl, ?_⟩
  have hsorted : sortBy candidateOrder (offers [.one] ⟨1, 1, 0, 1, .zero, 1, .keepAll⟩) =
      [⟨0, .one, by decide⟩] := List.mergeSort_singleton _
  unfold reference
  rw [hsorted]
  rfl

end MadoPilot.Vision
