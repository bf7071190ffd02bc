import Mathlib.Algebra.Order.Group.Defs
import Mathlib.Algebra.Order.Monoid.Defs
import Mathlib.Data.List.SplitBy
import Mathlib.Data.List.Perm.Basic

/-!
# Elements laid out in lines

Elements with a row and a column are read line by line: sorted by their rows, cut where the step to the
next row reaches a gap, and each line sorted by its columns.  Both sorts are stable.

* `sortOn`, `sortOn_filter` : a stable sort, which keeps the order of elements of one key;
* `lines` : the maximal runs, and `lines_apart`: different lines are a gap apart;
* `arrange_eq` : what is read depends on the order of the elements of one place alone;
* `arrange_idem` : reading what was read changes nothing.
-/

namespace MadoPilot.Lib

variable {α β κ ρ : Type*}

/-! ### Stable sorting -/

section Stable

variable [LinearOrder κ] (key : α → κ) (l : List α)

def sortOn : List α := l.mergeSort fun a b => decide (key a ≤ key b)

theorem sortOn_perm : (sortOn key l).Perm l := List.mergeSort_perm ..

theorem sortOn_pairwise : (sortOn key l).Pairwise fun a b => key a ≤ key b := by
  have h := @List.pairwise_mergeSort _ (fun a b => decide (key a ≤ key b))
    (fun a b c hab hbc => decide_eq_true ((of_decide_eq_true hab).trans (of_decide_eq_true hbc)))
    (fun a b => by rw [Bool.or_eq_true, decide_eq_true_iff, decide_eq_true_iff]; exact le_total _ _) l
  exact h.imp of_decide_eq_true

variable {key l}

theorem sortOn_filter {p : α → Bool} (hp : ∀ a b, p a = true → p b = true → key a = key b) :
    (sortOn key l).filter p = l.filter p := by
  have hsub : (l.filter p).Sublist (sortOn key l) := by
    refine List.sublist_mergeSort
      (fun a b c hab hbc => decide_eq_true ((of_decide_eq_true hab).trans (of_decide_eq_true hbc)))
      (fun a b => by rw [Bool.or_eq_true, decide_eq_true_iff, decide_eq_true_iff]; exact le_total _ _)
      ?_ List.filter_sublist
    refine List.pairwise_of_forall_mem_list fun a ha b hb => decide_eq_true ?_
    exact (hp a b (List.mem_filter.mp ha).2 (List.mem_filter.mp hb).2).le
  have hfilter : (l.filter p).Sublist ((sortOn key l).filter p) := by
    have h := hsub.filter p
    rwa [List.filter_filter, List.filter_congr (q := p) fun a _ => Bool.and_self _] at h
  refine (hfilter.eq_of_length ?_).symm
  exact ((sortOn_perm key l).filter p).length_eq.symm

theorem map_sortOn (f : β → α) (l : List β) :
    (sortOn (fun b => key (f b)) l).map f = sortOn key (l.map f) :=
  List.map_mergeSort fun _ _ _ _ => rfl

end Stable

theorem eq_of_map_of_filter [DecidableEq κ] {key : α → κ} {l l' : List α}
    (hmap : l.map key = l'.map key)
    (hfilter : ∀ k, l.filter (fun a => key a = k) = l'.filter fun a => key a = k) : l = l' := by
  induction l generalizing l' with
  | nil => exact (List.map_eq_nil_iff.mp hmap.symm).symm
  | cons a l ih =>
    cases l' with
    | nil => cases hmap
    | cons b l' =>
      obtain ⟨hkey, hrest⟩ := List.cons.inj hmap
      have hfirst := hfilter (key a)
      simp only [List.filter_cons, hkey, decide_true, if_true] at hfirst
      obtain rfl := (List.cons.inj hfirst).1
      refine congrArg (a :: ·) (ih hrest fun k => ?_)
      have hlater := hfilter k
      simp only [List.filter_cons] at hlater
      split at hlater
      · exact (List.cons.inj hlater).2
      · exact hlater

theorem pairwise_refine [DecidableEq κ] {key : α → κ} {R S : α → α → Prop} {l : List α}
    (hR : l.Pairwise R) (hS : ∀ k, (l.filter fun a => key a = k).Pairwise S) :
    l.Pairwise fun a b => R a b ∧ (key a = key b → S a b) := by
  rw [List.pairwise_iff_forall_sublist] at hR ⊢
  intro a b hab
  refine ⟨hR hab, fun hkey => ?_⟩
  have hpair : [a, b].Sublist (l.filter fun c => key c = key b) := by
    have h := hab.filter fun c => decide (key c = key b)
    simp only [List.filter_cons, hkey, decide_true, if_true, List.filter_nil] at h
    exact h
  exact List.pairwise_iff_forall_sublist.mp (hS (key b)) hpair

theorem map_splitBy (f : β → α) (r : α → α → Bool) (l : List β) :
    (l.splitBy fun a b => r (f a) (f b)).map (List.map f) = (l.map f).splitBy r := by
  refine (List.splitBy_eq_iff.mpr ⟨?_, ?_, ?_, ?_⟩).symm
  · rw [← List.map_flatten, List.flatten_splitBy]
  · intro hnil
    obtain ⟨run, hrun, hmap⟩ := List.mem_map.mp hnil
    exact List.ne_nil_of_mem_splitBy hrun (List.map_eq_nil_iff.mp hmap)
  · intro run hrun
    obtain ⟨run, hmem, rfl⟩ := List.mem_map.mp hrun
    rw [List.isChain_map]
    exact List.isChain_of_mem_splitBy hmem
  · rw [List.isChain_map]
    refine (List.isChain_getLast_head_splitBy _ l).imp ?_
    rintro run next ⟨ha, hb, h⟩
    refine ⟨by simpa using ha, by simpa using hb, ?_⟩
    rw [List.getLast_map, List.head_map]
    exact h

/-! ### Lines -/

section Lines

variable [LinearOrder ρ] [AddCommGroup ρ] [LinearOrder κ] (row : α → ρ) (col : α → κ) (gap : ρ)
  (l : List α)

def near (a b : α) : Bool := decide (row b - row a < gap)

def lines : List (List α) := (sortOn row l).splitBy (near row gap)

def arrange : List α := (lines row gap l).flatMap (sortOn col)

theorem lines_flatten : (lines row gap l).flatten = sortOn row l := List.flatten_splitBy ..

theorem arrange_perm : (arrange row col gap l).Perm l := by
  have hlines : (arrange row col gap l).Perm (lines row gap l).flatten := by
    unfold arrange
    rw [List.flatMap_def]
    generalize lines row gap l = runs
    induction runs with
    | nil => exact .refl _
    | cons run runs ih => exact (sortOn_perm col run).append ih
  rw [lines_flatten] at hlines
  exact hlines.trans (sortOn_perm row l)

variable {row col gap l}

theorem lines_apart [IsOrderedAddMonoid ρ] :
    (lines row gap l).Pairwise fun run later => ∀ a ∈ run, ∀ b ∈ later, row a + gap ≤ row b := by
  have hsorted : (lines row gap l).flatten.Pairwise fun a b => row a ≤ row b := by
    rw [lines_flatten]
    exact sortOn_pairwise row l
  have hnil : ∀ run ∈ lines row gap l, run ≠ [] := fun run hrun => List.ne_nil_of_mem_splitBy hrun
  have hchain : (lines row gap l).IsChain fun a b => ∃ ha hb,
      near row gap (a.getLast ha) (b.head hb) = false := List.isChain_getLast_head_splitBy _ _
  generalize lines row gap l = runs at hsorted hnil hchain
  induction runs with
  | nil => exact .nil
  | cons run runs ih =>
    rw [List.flatten_cons, List.pairwise_append] at hsorted
    obtain ⟨hrun, hruns, hcross⟩ := hsorted
    refine List.pairwise_cons.mpr ⟨fun later hlater a ha b hb => ?_,
      ih hruns (fun r hr => hnil r (List.mem_cons_of_mem _ hr)) hchain.tail⟩
    cases runs with
    | nil => cases hlater
    | cons next runs =>
      obtain ⟨⟨hlast, hfirst, hfar⟩, -⟩ := List.isChain_cons_cons.mp hchain
      have hstep : row (run.getLast hlast) + gap ≤ row (next.head hfirst) := by
        unfold near at hfar
        rw [decide_eq_false_iff_not, not_lt] at hfar
        rw [add_comm]
        exact le_sub_iff_add_le.mp hfar
      have hbefore : row a ≤ row (run.getLast hlast) := by
        rcases List.eq_nil_or_concat' run with rfl | ⟨front, last, rfl⟩
        · cases ha
        · rw [List.getLast_append_singleton]
          rcases List.mem_append.mp ha with ha | ha
          · exact (List.pairwise_append.mp hrun).2.2 a ha last (List.mem_singleton_self _)
          · rw [List.mem_singleton.mp ha]
      have hafter : row (next.head hfirst) ≤ row b := by
        cases next with
        | nil => exact absurd rfl hfirst
        | cons first next =>
          rw [List.head_cons]
          rw [List.flatten_cons, List.cons_append, List.pairwise_cons] at hruns
          rcases List.mem_cons.mp hlater with rfl | hlater
          · rcases List.mem_cons.mp hb with rfl | hb
            · exact le_rfl
            · exact hruns.1 b (List.mem_append_left _ hb)
          · exact hruns.1 b (List.mem_append_right _ (List.mem_flatten_of_mem hlater hb))
      calc row a + gap ≤ row (run.getLast hlast) + gap := by gcongr
        _ ≤ row (next.head hfirst) := hstep
        _ ≤ row b := hafter

theorem near_of_mem_lines {run : List α} (h : run ∈ lines row gap l) :
    run ≠ [] ∧ run.IsChain fun a b => row b - row a < gap :=
  ⟨List.ne_nil_of_mem_splitBy h, (List.isChain_of_mem_splitBy h).imp fun _ _ => of_decide_eq_true⟩

theorem sorted_of_mem_lines {run : List α} (h : run ∈ lines row gap l) :
    run.Pairwise fun a b => row a ≤ row b := by
  have hsorted : (lines row gap l).flatten.Pairwise fun a b => row a ≤ row b := by
    rw [lines_flatten]
    exact sortOn_pairwise row l
  exact hsorted.sublist (List.sublist_flatten_of_mem h)

/-! ### Reading forgets the order -/

theorem arrange_filter {p : α → Bool}
    (hp : ∀ a b, p a = true → p b = true → row a = row b ∧ col a = col b) :
    (arrange row col gap l).filter p = l.filter p := by
  have hlines : (arrange row col gap l).filter p = (lines row gap l).flatten.filter p := by
    unfold arrange
    generalize lines row gap l = runs
    induction runs with
    | nil => rfl
    | cons run runs ih =>
      rw [List.flatMap_cons, List.flatten_cons, List.filter_append, List.filter_append, ih,
        sortOn_filter fun a b ha hb => (hp a b ha hb).2]
  rw [hlines, lines_flatten, sortOn_filter fun a b ha hb => (hp a b ha hb).1]

theorem map_arrange (f : β → α) (l : List β) :
    (arrange (fun b => row (f b)) (fun b => col (f b)) gap l).map f =
      arrange row col gap (l.map f) := by
  have hlines : (lines (fun b => row (f b)) gap l).map (List.map f) = lines row gap (l.map f) := by
    unfold lines
    have hsplit := map_splitBy f (near row gap) (sortOn (fun b => row (f b)) l)
    rw [map_sortOn] at hsplit
    exact hsplit
  unfold arrange
  rw [← hlines, List.map_flatMap, List.flatMap_map]
  exact List.flatMap_congr fun run _ => map_sortOn f run

omit [AddCommGroup ρ] in
theorem sortOn_line (hinj : ∀ a b, row a = row b → col a = col b → a = b) {run run' : List α}
    (hperm : run.Perm run') (hrun : run.Pairwise fun a b => row a ≤ row b)
    (hrun' : run'.Pairwise fun a b => row a ≤ row b) : sortOn col run = sortOn col run' := by
  have hsorted : ∀ {run : List α}, (run.Pairwise fun a b => row a ≤ row b) →
      (sortOn col run).Pairwise fun a b => col a ≤ col b ∧ (col a = col b → row a ≤ row b) := by
    intro run hrun
    refine pairwise_refine (sortOn_pairwise col run) fun k => ?_
    rw [sortOn_filter fun a b ha hb => (of_decide_eq_true ha).trans (of_decide_eq_true hb).symm]
    exact hrun.sublist List.filter_sublist
  refine List.Perm.eq_of_pairwise (fun a b _ _ hab hba => ?_) (hsorted hrun) (hsorted hrun')
    (((sortOn_perm col run).trans hperm).trans (sortOn_perm col run').symm)
  have hcol := le_antisymm hab.1 hba.1
  exact hinj a b (le_antisymm (hab.2 hcol) (hba.2 hcol.symm)) hcol

theorem flatMap_lines [IsOrderedAddMonoid ρ] (hgap : 0 < gap)
    (hinj : ∀ a b, row a = row b → col a = col b → a = b) {runs runs' : List (List α)}
    (hrows : runs.map (List.map row) = runs'.map (List.map row))
    (hperm : runs.flatten.Perm runs'.flatten)
    (hsorted : ∀ run ∈ runs, run.Pairwise fun a b => row a ≤ row b)
    (hsorted' : ∀ run ∈ runs', run.Pairwise fun a b => row a ≤ row b)
    (hapart : runs.Pairwise fun run later => ∀ a ∈ run, ∀ b ∈ later, row a + gap ≤ row b)
    (hapart' : runs'.Pairwise fun run later => ∀ a ∈ run, ∀ b ∈ later, row a + gap ≤ row b) :
    runs.flatMap (sortOn col) = runs'.flatMap (sortOn col) := by
  induction runs generalizing runs' with
  | nil => rw [List.map_eq_nil_iff.mp hrows.symm]
  | cons run runs ih =>
    cases runs' with
    | nil => cases hrows
    | cons run' runs' =>
      obtain ⟨hrow, hrest⟩ := List.cons.inj hrows
      obtain ⟨hfar, hapart⟩ := List.pairwise_cons.mp hapart
      obtain ⟨hfar', hapart'⟩ := List.pairwise_cons.mp hapart'
      -- the first line is picked by its rows
      have hpick : ∀ {run : List α} {runs : List (List α)},
          (∀ later ∈ runs, ∀ a ∈ run, ∀ b ∈ later, row a + gap ≤ row b) →
          (run :: runs).flatten.filter (fun a => decide (row a ∈ run.map row)) = run ∧
            (run :: runs).flatten.filter (fun a => !decide (row a ∈ run.map row)) = runs.flatten := by
        intro run runs hfar
        have hin : ∀ a ∈ run, row a ∈ run.map row := fun a ha => List.mem_map_of_mem ha
        have hout : ∀ b ∈ runs.flatten, row b ∉ run.map row := by
          intro b hb hmem
          obtain ⟨later, hlater, hb⟩ := List.mem_flatten.mp hb
          obtain ⟨a, ha, heq⟩ := List.mem_map.mp hmem
          have hle := hfar later hlater a ha b hb
          rw [heq] at hle
          exact absurd hle (not_le.mpr (lt_add_of_pos_right _ hgap))
        rw [List.flatten_cons, List.filter_append, List.filter_append]
        refine ⟨?_, ?_⟩
        · rw [List.filter_eq_self.mpr fun a ha => decide_eq_true (hin a ha),
            List.filter_eq_nil_iff.mpr fun b hb => by simpa using hout b hb, List.append_nil]
        · rw [List.filter_eq_nil_iff.mpr fun a ha => by simpa using hin a ha,
            List.filter_eq_self.mpr fun b hb => by simpa using hout b hb, List.nil_append]
      have hfirst : run.Perm run' := by
        have h := hperm.filter fun a => decide (row a ∈ run.map row)
        rw [(hpick hfar).1, hrow, (hpick hfar').1] at h
        exact h
      have hlater : runs.flatten.Perm runs'.flatten := by
        have h := hperm.filter fun a => !decide (row a ∈ run.map row)
        rw [(hpick hfar).2, hrow, (hpick hfar').2] at h
        exact h
      rw [List.flatMap_cons, List.flatMap_cons, sortOn_line hinj hfirst
        (hsorted run List.mem_cons_self) (hsorted' run' List.mem_cons_self)]
      rw [ih hrest hlater (fun r hr => hsorted r (List.mem_cons_of_mem _ hr))
        (fun r hr => hsorted' r (List.mem_cons_of_mem _ hr)) hapart hapart']

theorem arrange_perm_of_inj [IsOrderedAddMonoid ρ] (hgap : 0 < gap)
    (hinj : ∀ a b, row a = row b → col a = col b → a = b) {l l' : List α} (h : l.Perm l') :
    arrange row col gap l = arrange row col gap l' := by
  have hsame : (sortOn row l).Perm (sortOn row l') :=
    ((sortOn_perm row l).trans h).trans (sortOn_perm row l').symm
  have hkeys : (sortOn row l).map row = (sortOn row l').map row := by
    refine List.Perm.eq_of_pairwise (fun a b _ _ hab hba => le_antisymm hab hba) ?_ ?_ (hsame.map row)
    · exact List.pairwise_map.mpr (sortOn_pairwise row l)
    · exact List.pairwise_map.mpr (sortOn_pairwise row l')
  have hrows : ∀ l : List α, (lines row gap l).map (List.map row) =
      ((sortOn row l).map row).splitBy (near id gap) := fun l => map_splitBy row (near id gap) _
  refine flatMap_lines hgap hinj ?_ ?_ (fun _ => sorted_of_mem_lines) (fun _ => sorted_of_mem_lines)
    lines_apart lines_apart
  · rw [hrows, hrows, hkeys]
  · rw [lines_flatten, lines_flatten]
    exact hsame

end Lines

/-! ### Places -/

section Places

variable [LinearOrder ρ] [AddCommGroup ρ] [IsOrderedAddMonoid ρ] [LinearOrder κ] {row : α → ρ}
  {col : α → κ} {gap : ρ} {l l' : List α}

theorem map_arrange_perm (hgap : 0 < gap) (h : l.Perm l') :
    (arrange row col gap l).map (fun a => (row a, col a)) =
      (arrange row col gap l').map fun a => (row a, col a) := by
  have hmap := fun l : List α => @map_arrange (ρ × κ) α κ ρ _ _ _ Prod.fst Prod.snd gap
    (fun a => (row a, col a)) l
  rw [hmap l, hmap l']
  exact arrange_perm_of_inj hgap (fun _ _ => Prod.ext) (h.map _)

theorem arrange_eq (hgap : 0 < gap) (h : l.Perm l')
    (hplace : ∀ r c, l.filter (fun a => row a = r ∧ col a = c) =
      l'.filter fun a => row a = r ∧ col a = c) :
    arrange row col gap l = arrange row col gap l' := by
  refine eq_of_map_of_filter (map_arrange_perm hgap h) fun k => ?_
  have hkey : ∀ l : List α, l.filter (fun a => decide ((row a, col a) = k)) =
      l.filter fun a => decide (row a = k.1 ∧ col a = k.2) := fun l =>
    List.filter_congr fun a _ => decide_eq_decide.mpr Prod.ext_iff
  have hsame : ∀ a b, decide (row a = k.1 ∧ col a = k.2) = true →
      decide (row b = k.1 ∧ col b = k.2) = true → row a = row b ∧ col a = col b := by
    intro a b ha hb
    obtain ⟨hra, hca⟩ := of_decide_eq_true ha
    obtain ⟨hrb, hcb⟩ := of_decide_eq_true hb
    exact ⟨hra.trans hrb.symm, hca.trans hcb.symm⟩
  rw [hkey, hkey, arrange_filter hsame, arrange_filter hsame, hplace]

theorem arrange_idem (hgap : 0 < gap) :
    arrange row col gap (arrange row col gap l) = arrange row col gap l := by
  refine arrange_eq hgap (arrange_perm row col gap l) fun r c => arrange_filter fun a b ha hb => ?_
  obtain ⟨hra, hca⟩ := of_decide_eq_true ha
  obtain ⟨hrb, hcb⟩ := of_decide_eq_true hb
  exact ⟨hra.trans hrb.symm, hca.trans hcb.symm⟩

end Places

end MadoPilot.Lib
