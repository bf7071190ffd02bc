import MadoPilot.Vision.Peaks

/-!
# What the scans and the suppression of a peak search do

Public scores lie between the scores zero and one, so what beats the best raw score so far beats the
best public one, and a perfect score is beaten by nothing after it.

* `RowWinner.cmp` is a total order up to the sign of zero, and tells places apart;
* `greatest_quiet` : a scan finds the greatest of the places that reach the minimum score;
* `removePlaces_quiet` : exactly the places that clash with a peak are removed.
-/

namespace MadoPilot.Vision

open MadoPilot.Core MadoPilot.Lib

/-! ### Public scores -/

section Scores

variable {raw : Binary64}

theorem publicScore_key (h : raw.isFinite = true) : (publicScore raw).key =
    if raw.key < 0 then 0 else if Binary64.one.key < raw.key then Binary64.one.key else raw.key := by
  have hnan := Binary64.isNan_eq_false h
  have hzero : Binary64.zero.isNan = false := rfl
  have hone : Binary64.one.isNan = false := rfl
  unfold publicScore Binary64.clamp
  simp only
  cases hlow : raw.lt .zero with
  | true =>
    have hneg : raw.key < 0 := (Binary64.lt_iff hnan hzero).mp hlow
    have hstays : Binary64.one.lt .zero = false := rfl
    rw [if_pos rfl, hstays, if_neg Bool.false_ne_true, if_pos hneg]
    rfl
  | false =>
    have hpos : ¬raw.key < 0 := not_lt.mpr ((Binary64.lt_eq_false_iff hnan hzero).mp hlow)
    rw [if_neg Bool.false_ne_true, if_neg hpos]
    cases hhigh : Binary64.one.lt raw with
    | true => rw [if_pos rfl, if_pos ((Binary64.lt_iff hone hnan).mp hhigh)]
    | false =>
      rw [if_neg Bool.false_ne_true,
        if_neg (not_lt.mpr ((Binary64.lt_eq_false_iff hone hnan).mp hhigh))]

theorem one_key_pos : 0 < Binary64.one.key := by decide

theorem publicScore_range (h : raw.isFinite = true) :
    0 ≤ (publicScore raw).key ∧ (publicScore raw).key ≤ Binary64.one.key := by
  have hone := one_key_pos
  rw [publicScore_key h]
  split_ifs <;> omega

theorem publicScore_le (h : raw.isFinite = true) {k : ℤ} (hk : 0 ≤ k) (hraw : raw.key ≤ k) :
    (publicScore raw).key ≤ k := by
  rw [publicScore_key h]
  split_ifs <;> omega

theorem negInfinity_lt (h : raw.isFinite = true) : Binary64.negInfinity.key < raw.key := by
  unfold Binary64.isFinite at h
  have hlow : Binary64.negInfinity.key = -(Binary64.infinity : ℤ) := by decide
  rw [hlow]
  unfold Binary64.key
  simp only [decide_eq_true_eq] at h
  split_ifs <;> omega

end Scores

/-! ### The order of the winners -/

namespace RowWinner

variable {a b : RowWinner}

theorem cmp_eq : cmp = compareLex (compareOn fun w => w.score.key)
    (fun a b => compareOn (fun w : RowWinner => w.index) b a) := by
  funext a b
  have ha := Binary64.isNan_eq_false a.finite
  have hb := Binary64.isNan_eq_false b.finite
  unfold cmp compareLex compareOn
  by_cases hgt : b.score.key < a.score.key
  · rw [if_pos ((Binary64.lt_iff hb ha).mpr hgt), compare_gt_iff_gt.mpr hgt]
    rfl
  · rw [if_neg (fun h => hgt ((Binary64.lt_iff hb ha).mp h))]
    by_cases hlt : a.score.key < b.score.key
    · rw [if_pos ((Binary64.lt_iff ha hb).mpr hlt), compare_lt_iff_lt.mpr hlt]
      rfl
    · have heq : a.score.key = b.score.key := le_antisymm (not_lt.mp hgt) (not_lt.mp hlt)
      have hscore : compare a.score.key b.score.key = .eq := compare_eq_iff_eq.mpr heq
      rw [if_neg (fun h => hlt ((Binary64.lt_iff ha hb).mp h))]
      show compare b.index a.index = (compare a.score.key b.score.key).then _
      rw [hscore]
      rfl

instance : Std.TransCmp cmp := by
  rw [cmp_eq]
  have : Std.TransCmp fun a b => compareOn (fun w : RowWinner => w.index) b a :=
    Std.TransCmp.opposite
  infer_instance

theorem cmp_eq_gt : a.cmp b = .gt ↔
    b.score.key < a.score.key ∨ a.score.key = b.score.key ∧ a.index < b.index := by
  rw [cmp_eq]
  unfold compareLex compareOn
  simp only [Ordering.then_eq_gt, compare_gt_iff_gt, compare_eq_iff_eq]

theorem cmp_isGE : (a.cmp b).isGE = true ↔
    b.score.key < a.score.key ∨ a.score.key = b.score.key ∧ a.index ≤ b.index := by
  rw [cmp_eq]
  unfold compareLex compareOn
  rcases lt_trichotomy a.score.key b.score.key with h | h | h
  · rw [compare_lt_iff_lt.mpr h]
    simp only [Ordering.lt_then, Ordering.isGE_lt, Bool.false_eq_true, false_iff]
    omega
  · rw [compare_eq_iff_eq.mpr h]
    simp only [Ordering.eq_then]
    rcases lt_trichotomy b.index a.index with hi | hi | hi
    · rw [compare_lt_iff_lt.mpr hi]
      simp only [Ordering.isGE_lt, Bool.false_eq_true, false_iff]
      omega
    · rw [compare_eq_iff_eq.mpr hi]
      simp only [Ordering.isGE_eq, true_iff]
      omega
    · rw [compare_gt_iff_gt.mpr hi]
      simp only [Ordering.isGE_gt, true_iff]
      omega
  · rw [compare_gt_iff_gt.mpr h]
    simp only [Ordering.gt_then, Ordering.isGE_gt, true_iff]
    exact Or.inl h

theorem isGE_trans {c : RowWinner} (h : (a.cmp b).isGE = true) (h' : (b.cmp c).isGE = true) :
    (a.cmp c).isGE = true := by
  rw [cmp_isGE] at h h' ⊢
  omega

theorem isGE_refl (a : RowWinner) : (a.cmp a).isGE = true :=
  cmp_isGE.mpr (Or.inr ⟨rfl, Nat.le_refl _⟩)

theorem isGE_of_ne_lt (h : a.cmp b ≠ .lt) : (a.cmp b).isGE = true := by
  cases hcmp : a.cmp b with
  | lt => exact absurd hcmp h
  | eq => rfl
  | gt => rfl

theorem isGE_of_lt (h : a.cmp b = .lt) : (b.cmp a).isGE = true := by
  rw [@Std.OrientedCmp.eq_swap _ cmp, h]
  rfl

theorem isGE_of_not_gt (h : a.cmp b ≠ .gt) : (b.cmp a).isGE = true := by
  rw [@Std.OrientedCmp.eq_swap _ cmp]
  cases hcmp : a.cmp b with
  | lt => rfl
  | eq => rfl
  | gt => exact absurd hcmp h

theorem index_eq_of_isGE (h : (a.cmp b).isGE = true) (h' : (b.cmp a).isGE = true) :
    a.index = b.index := by
  rw [cmp_isGE] at h h'
  omega

end RowWinner

/-! ### The places of a stretch -/

section Entries

variable {index : ℕ} {value : Binary64} {values : List Binary64} {w x : RowWinner}

theorem entries_of_finite (h : value.isFinite = true) : entries index (value :: values) =
    ⟨index, publicScore value, publicScore_isFinite h⟩ :: entries (index + 1) values := by
  unfold entries
  rw [List.zipIdx_cons, List.filterMap_cons]
  simp only [dif_pos h]

theorem entries_of_not_finite (h : ¬value.isFinite = true) :
    entries index (value :: values) = entries (index + 1) values := by
  unfold entries
  rw [List.zipIdx_cons, List.filterMap_cons]
  simp only [dif_neg h]

theorem entries_append (a b : List Binary64) :
    entries index (a ++ b) = entries index a ++ entries (index + a.length) b := by
  unfold entries
  rw [List.zipIdx_append, List.filterMap_append]

theorem mem_entries : w ∈ entries index values ↔ index ≤ w.index ∧
    ∃ value, values[w.index - index]? = some value ∧ value.isFinite = true ∧
      w.score = publicScore value := by
  unfold entries
  rw [List.mem_filterMap]
  constructor
  · rintro ⟨⟨value, i⟩, hmem, hentry⟩
    obtain ⟨hle, hvalue⟩ := List.mk_mem_zipIdx_iff_le_and_getElem?_sub.mp hmem
    simp only at hentry
    split_ifs at hentry with hfinite
    obtain rfl := Option.some.inj hentry
    exact ⟨hle, value, hvalue, hfinite, rfl⟩
  · rintro ⟨hle, value, hvalue, hfinite, hscore⟩
    refine ⟨(value, w.index), List.mk_mem_zipIdx_iff_le_and_getElem?_sub.mpr ⟨hle, hvalue⟩, ?_⟩
    simp only [dif_pos hfinite]
    obtain ⟨i, score, _⟩ := w
    simp only at hscore
    subst hscore
    rfl

theorem index_le_of_mem (h : w ∈ entries index values) : index ≤ w.index := (mem_entries.mp h).1

theorem range_of_mem (h : w ∈ entries index values) :
    0 ≤ w.score.key ∧ w.score.key ≤ Binary64.one.key := by
  obtain ⟨-, value, -, hfinite, hscore⟩ := mem_entries.mp h
  rw [hscore]
  exact publicScore_range hfinite

end Entries

theorem index_lt_of_mem {index : ℕ} {values : List Binary64} {w : RowWinner}
    (h : w ∈ entries index values) : w.index < index + values.length := by
  obtain ⟨hle, value, hvalue, -⟩ := mem_entries.mp h
  have hlt := (List.getElem?_eq_some_iff.mp hvalue).1
  omega

/-! ### Scanning -/

theorem advance_quiet (op : Operation) (hop : op.terminal = none) (since : SinceCheckpoint)
    (offsets : ℕ) : ∃ since', (advance op since offsets).quiet = .ok since' := by
  unfold advance
  split
  · exact ⟨_, rfl⟩
  · rw [Operation.check_eq hop]
    exact ⟨_, rfl⟩

def Best (l : List RowWinner) : Option RowWinner → Prop
  | none => l = []
  | some w => w ∈ l ∧ ∀ x ∈ l, (w.cmp x).isGE = true

section Scan

variable {front back : List RowWinner} {index : ℕ} {best : Option RowWinner} {w : RowWinner}
  {values : List Binary64}

theorem Best.append (h : Best front (some w)) (hback : ∀ x ∈ back, (w.cmp x).isGE = true) :
    Best (front ++ back) (some w) :=
  ⟨List.mem_append_left _ h.1, List.forall_mem_append.mpr ⟨h.2, hback⟩⟩

theorem Best.replace (h : ∀ x ∈ front, x.score.key < w.score.key) : Best (front ++ [w]) (some w) :=
  ⟨List.mem_append_right _ List.mem_cons_self, List.forall_mem_append.mpr
    ⟨fun x hx => RowWinner.cmp_isGE.mpr (Or.inl (h x hx)),
      List.forall_mem_singleton.mpr w.isGE_refl⟩⟩

theorem Best.perfect (h : Best front (some w)) (hw : w.score.key = Binary64.one.key)
    (hindex : w.index ≤ index) : Best (front ++ entries index values) (some w) := by
  refine h.append fun x hx => RowWinner.cmp_isGE.mpr ?_
  have hhigh := (range_of_mem hx).2
  have hafter := index_le_of_mem hx
  omega

theorem Best.lt_score (h : Best front best) {raw : Binary64} (hraw : raw.isFinite = true)
    (hlt : (bestScore best).lt raw = true) : ∀ x ∈ front, x.score.key < raw.key := by
  intro x hx
  cases best with
  | none =>
    rw [show front = [] from h] at hx
    cases hx
  | some w =>
    have hkey := (Binary64.lt_iff (Binary64.isNan_eq_false w.finite)
      (Binary64.isNan_eq_false hraw)).mp hlt
    have hge := RowWinner.cmp_isGE.mp (h.2 x hx)
    omega

theorem passed_over (hbest : Best front best) (hrange : ∀ x ∈ front, 0 ≤ x.score.key)
    {value : Binary64} (hfinite : value.isFinite = true)
    (h : (value.le (bestScore best) || !(bestScore best).lt (publicScore value)) = true) :
    ∃ w, best = some w ∧ (publicScore value).key ≤ w.score.key := by
  have hvalue := Binary64.isNan_eq_false hfinite
  have hpublic := Binary64.isNan_eq_false (publicScore_isFinite hfinite)
  have hlow : Binary64.negInfinity.isNan = false := by decide
  cases best with
  | none =>
    have hraw := negInfinity_lt hfinite
    have hpub := negInfinity_lt (publicScore_isFinite hfinite)
    have hlt := (Binary64.lt_iff hlow hpublic).mpr hpub
    have hle : value.le .negInfinity = false := by
      rw [Bool.eq_false_iff, Ne, Binary64.le_iff hvalue hlow]
      omega
    unfold bestScore at h
    rw [hle, hlt] at h
    cases h
  | some w =>
    have hw := Binary64.isNan_eq_false w.finite
    refine ⟨w, rfl, ?_⟩
    rw [Bool.or_eq_true, Bool.not_eq_true'] at h
    rcases h with h | h
    · exact publicScore_le hfinite (hrange w hbest.1) ((Binary64.le_iff hvalue hw).mp h)
    · exact (Binary64.lt_eq_false_iff hw hpublic).mp h

/-- **A chunk.**  The scan goes on from the best before the chunk to the best with it, and stops at a
perfect score only. -/
theorem scan_best (hbest : Best front best) (hbefore : ∀ x ∈ front, x.index < index)
    (hrange : ∀ x ∈ front, 0 ≤ x.score.key) :
    Best (front ++ entries index values) (scan index best values).1 ∧
      ∀ visited, (scan index best values).2 = some visited →
        ∃ w, (scan index best values).1 = some w ∧ w.score.key = Binary64.one.key ∧
          w.index < index + values.length := by
  induction values generalizing front index best with
  | nil => exact ⟨by rw [show entries index [] = [] from rfl, List.append_nil]; exact hbest,
      fun visited h => by cases h⟩
  | cons value values ih =>
    have hlater : ∀ {r : Option RowWinner × Option ℕ}, (∀ visited, r.2 = some visited →
          ∃ w, r.1 = some w ∧ w.score.key = Binary64.one.key ∧ w.index < index + 1 + values.length) →
        ∀ visited, r.2.map (· + 1) = some visited → ∃ w, r.1 = some w ∧
          w.score.key = Binary64.one.key ∧ w.index < index + (value :: values).length := by
      intro r hstop visited hvisited
      obtain ⟨n, hn, -⟩ := Option.map_eq_some_iff.mp hvisited
      obtain ⟨w, hw, hone, hlt⟩ := hstop n hn
      exact ⟨w, hw, hone, by rw [List.length_cons]; omega⟩
    unfold scan
    by_cases hfinite : value.isFinite = true
    · set e : RowWinner := ⟨index, publicScore value, publicScore_isFinite hfinite⟩
      have hsplit : front ++ entries index (value :: values) =
          front ++ [e] ++ entries (index + 1) values := by
        rw [entries_of_finite hfinite, List.append_assoc, List.singleton_append]
      have hbefore' : ∀ x ∈ front ++ [e], x.index < index + 1 :=
        List.forall_mem_append.mpr ⟨fun x hx => (hbefore x hx).trans (Nat.lt_succ_self _),
          List.forall_mem_singleton.mpr (Nat.lt_succ_self _)⟩
      have hpublic := publicScore_range hfinite
      have hrange' : ∀ x ∈ front ++ [e], 0 ≤ x.score.key :=
        List.forall_mem_append.mpr ⟨hrange, List.forall_mem_singleton.mpr hpublic.1⟩
      rw [dif_pos hfinite, hsplit]
      by_cases hpass : (value.le (bestScore best) ||
          !(bestScore best).lt (publicScore value)) = true
      · -- the best so far stays
        obtain ⟨w, rfl, hle⟩ := passed_over hbest hrange hfinite hpass
        have hstays : Best (front ++ [e]) (some w) := by
          refine hbest.append (List.forall_mem_singleton.mpr (RowWinner.cmp_isGE.mpr ?_))
          have hearlier : w.index < e.index := hbefore w hbest.1
          have hkey : e.score.key ≤ w.score.key := hle
          omega
        obtain ⟨hrest, hstop⟩ := ih hstays hbefore' hrange'
        rw [if_pos hpass]
        exact ⟨hrest, hlater hstop⟩
      · rw [if_neg hpass]
        rw [Bool.not_eq_true, Bool.or_eq_false_iff, Bool.not_eq_false'] at hpass
        have hnew : Best (front ++ [e]) (some e) :=
          Best.replace (hbest.lt_score (publicScore_isFinite hfinite) hpass.2)
        by_cases hperfect : Binary64.one.le (publicScore value) = true
        · have hone : e.score.key = Binary64.one.key := le_antisymm hpublic.2 <|
            (Binary64.le_iff rfl (Binary64.isNan_eq_false e.finite)).mp hperfect
          rw [if_pos hperfect]
          refine ⟨hnew.perfect hone (Nat.le_succ _), fun visited _ => ⟨e, rfl, hone, ?_⟩⟩
          rw [List.length_cons]
          show index < _
          omega
        · obtain ⟨hrest, hstop⟩ := ih hnew hbefore' hrange'
          rw [if_neg hperfect]
          exact ⟨hrest, hlater hstop⟩
    · obtain ⟨hrest, hstop⟩ := ih hbest (fun x hx => (hbefore x hx).trans (Nat.lt_succ_self _)) hrange
      rw [dif_neg hfinite, entries_of_not_finite hfinite]
      exact ⟨hrest, hlater hstop⟩

theorem scanChunks_quiet (op : Operation) (hop : op.terminal = none) (hbest : Best front best)
    (hbefore : ∀ x ∈ front, x.index < index) (hrange : ∀ x ∈ front, 0 ≤ x.score.key)
    (since : SinceCheckpoint) : ∃ best' since',
      (scanChunks op index best since values).quiet = .ok (best', since') ∧
        Best (front ++ entries index values) best' := by
  induction hlen : values.length using Nat.strong_induction_on
    generalizing front index best since values with
  | _ n ih =>
    subst hlen
    rw [scanChunks]
    by_cases hnil : values = []
    · subst hnil
      rw [dif_pos rfl]
      exact ⟨best, since, rfl, by rw [show entries index [] = [] from rfl, List.append_nil]; exact hbest⟩
    rw [dif_neg hnil]
    have hpos := List.length_pos_of_ne_nil hnil
    have hsince := since.isLt
    set count := min (checkpointOffsets - since) values.length with hcount
    obtain ⟨hchunk, hstop⟩ := @scan_best _ _ _ (values.take count) hbest hbefore hrange
    have hlength : (values.take count).length = count := List.length_take_of_le (by omega)
    have hsplit : entries index values =
        entries index (values.take count) ++ entries (index + count) (values.drop count) := by
      have h := @entries_append index (values.take count) (values.drop count)
      rw [List.take_append_drop, hlength] at h
      exact h
    rw [hsplit, ← List.append_assoc]
    rcases hscan : scan index best (values.take count) with ⟨best', _ | visited⟩
    · rw [hscan] at hchunk
      obtain ⟨since', hadvance⟩ := advance_quiet op hop since count
      have hbefore' : ∀ x ∈ front ++ entries index (values.take count), x.index < index + count := by
        refine List.forall_mem_append.mpr
          ⟨fun x hx => (hbefore x hx).trans_le (Nat.le_add_right _ _), fun x hx => ?_⟩
        have := index_lt_of_mem hx
        omega
      have hrange' : ∀ x ∈ front ++ entries index (values.take count), 0 ≤ x.score.key :=
        List.forall_mem_append.mpr ⟨hrange, fun x hx => (range_of_mem hx).1⟩
      have hshorter : (values.drop count).length < values.length := by
        rw [List.length_drop]
        omega
      obtain ⟨best'', since'', hrest, hfinal⟩ := ih _ hshorter hchunk hbefore' hrange' since' rfl
      refine ⟨best'', since'', ?_, hfinal⟩
      simp only [hscan, Guarded.quiet_bind, hadvance]
      exact hrest
    · rw [hscan] at hchunk hstop
      obtain ⟨w, rfl, hone, hlt⟩ := hstop visited rfl
      obtain ⟨since', hadvance⟩ := advance_quiet op hop since visited
      refine ⟨some w, since', ?_, hchunk.perfect hone (by omega)⟩
      simp only [hscan, Guarded.quiet_bind, hadvance]
      rfl

def reaching (minScore : Binary64) (l : List RowWinner) : List RowWinner :=
  l.filter fun winner => minScore.le winner.score

theorem Best.reaching {minScore : Binary64} {l : List RowWinner} (h : Best l best) :
    Best (reaching minScore l) (best.filter fun winner => minScore.le winner.score) := by
  cases best with
  | none =>
    rw [show l = [] from h]
    exact rfl
  | some w =>
    cases hmin : minScore.le w.score with
    | true =>
      simp only [Option.filter, hmin, if_true]
      exact ⟨List.mem_filter.mpr ⟨h.1, hmin⟩, fun x hx => h.2 x (List.mem_filter.mp hx).1⟩
    | false =>
      simp only [Option.filter, hmin, Bool.false_eq_true, if_false]
      refine List.filter_eq_nil_iff.mpr fun x hx hreach => ?_
      have hge := RowWinner.cmp_isGE.mp (h.2 x hx)
      have hx' := Binary64.isNan_eq_false x.finite
      have hw := Binary64.isNan_eq_false w.finite
      have hnan : minScore.isNan = false := by
        unfold Binary64.le at hreach
        simp only [Bool.and_eq_true, Bool.not_eq_true'] at hreach
        exact hreach.1.1
      have hreach' := (Binary64.le_iff hnan hx').mp hreach
      rw [Bool.eq_false_iff, Ne, Binary64.le_iff hnan hw] at hmin
      omega

theorem greatest_quiet (op : Operation) (hop : op.terminal = none) (since : SinceCheckpoint)
    (values : List Binary64) (index : ℕ) (minScore : Binary64) : ∃ best since',
      (greatest op since values index minScore).quiet = .ok (best, since') ∧
        Best (Vision.reaching minScore (entries index values)) best := by
  obtain ⟨best, since', hquiet, hbest⟩ := @scanChunks_quiet [] index none values op hop rfl
    (fun x hx => by cases hx) (fun x hx => by cases hx) since
  refine ⟨best.filter fun winner => minScore.le winner.score, since', ?_, hbest.reaching⟩
  unfold greatest
  simp only [Guarded.quiet_bind, hquiet]
  rfl

end Scan

/-! ### Removing places -/

/-- Exactly the places of `p` are no longer numbers. -/
def Cleared (p : ℕ → Prop) (old new : List Binary64) : Prop :=
  ∀ i, (p i → new[i]? = old[i]?.map fun _ => .nan) ∧ (¬p i → new[i]? = old[i]?)

section Cleared

variable {p q : ℕ → Prop} {a b c : List Binary64}

theorem Cleared.congr (h : Cleared p a b) (hpq : ∀ i, p i ↔ q i) : Cleared q a b := fun i =>
  ⟨fun hq => (h i).1 ((hpq i).mpr hq), fun hq => (h i).2 fun hp => hq ((hpq i).mp hp)⟩

theorem Cleared.none (h : ∀ i, ¬p i) (a : List Binary64) : Cleared p a a := fun i =>
  ⟨fun hp => absurd hp (h i), fun _ => rfl⟩

theorem Cleared.trans (h : Cleared p a b) (h' : Cleared q b c) :
    Cleared (fun i => p i ∨ q i) a c := by
  intro i
  by_cases hq : q i
  · refine ⟨fun _ => ?_, fun hnot => absurd (Or.inr hq) hnot⟩
    rw [(h' i).1 hq]
    by_cases hp : p i
    · rw [(h i).1 hp, Option.map_map]
      rfl
    · rw [(h i).2 hp]
  · refine ⟨fun hor => ?_, fun hnot => ?_⟩
    · rw [(h' i).2 hq, (h i).1 (hor.resolve_right hq)]
    · rw [(h' i).2 hq, (h i).2 fun hp => hnot (Or.inl hp)]

theorem fillNan_cleared (a : List Binary64) (start count : ℕ) :
    Cleared (fun i => start ≤ i ∧ i < start + count) a (fillNan a start count) := by
  intro i
  unfold fillNan
  rw [List.getElem?_mapIdx]
  refine ⟨fun h => ?_, fun h => ?_⟩
  · simp only [if_pos h]
  · simp only [if_neg h, Option.map_id']

theorem set_cleared (a : List Binary64) (k : ℕ) : Cleared (fun i => i = k) a (a.set k .nan) := by
  intro i
  rw [List.getElem?_set]
  refine ⟨?_, fun h => if_neg fun hk => h hk.symm⟩
  rintro rfl
  rw [if_pos rfl]
  by_cases hlt : i < a.length
  · rw [if_pos hlt, List.getElem?_eq_getElem hlt]
    rfl
  · rw [if_neg hlt, List.getElem?_eq_none (Nat.le_of_not_lt hlt)]
    rfl

theorem suppressRow_quiet (op : Operation) (hop : op.terminal = none) (since : SinceCheckpoint)
    (a : List Binary64) (start stop : ℕ) : ∃ b since',
      (suppressRow op since a start stop).quiet = .ok (b, since') ∧
        Cleared (fun i => start ≤ i ∧ i < stop) a b := by
  induction hleft : stop - start using Nat.strong_induction_on generalizing since a start with
  | _ left ih =>
    subst hleft
    rw [suppressRow]
    by_cases hlt : start < stop
    · have hsince := since.isLt
      rw [dif_pos hlt]
      obtain ⟨since', hadvance⟩ := advance_quiet op hop since
        (min (checkpointOffsets - since) (stop - start))
      obtain ⟨b, since'', hrest, hcleared⟩ := ih
        (stop - (start + min (checkpointOffsets - since) (stop - start))) (by omega) since'
        (fillNan a start (min (checkpointOffsets - since) (stop - start))) _ rfl
      refine ⟨b, since'', ?_, ((fillNan_cleared a start _).trans hcleared).congr fun i => by omega⟩
      simp only [Guarded.quiet_bind, hadvance]
      exact hrest
    · rw [dif_neg hlt]
      exact ⟨a, since, rfl, .none (fun i h => hlt (by omega)) a⟩

theorem suppressRows_quiet (op : Operation) (hop : op.terminal = none) (width first last : ℕ)
    (rows : List ℕ) (since : SinceCheckpoint) (a : List Binary64) : ∃ b since',
      (suppressRows op width first last rows since a).quiet = .ok (b, since') ∧
        Cleared (fun i => ∃ row ∈ rows, row * width + first ≤ i ∧ i < row * width + last + 1) a b := by
  induction rows generalizing since a with
  | nil => exact ⟨a, since, rfl, .none (fun i ⟨_, h, _⟩ => by cases h) a⟩
  | cons row rows ih =>
    obtain ⟨b, since', hrow, hcleared⟩ := suppressRow_quiet op hop since a (row * width + first)
      (row * width + last + 1)
    obtain ⟨c, since'', hrest, hcleared'⟩ := ih since' b
    refine ⟨c, since'', ?_, (hcleared.trans hcleared').congr fun i => ?_⟩
    · unfold suppressRows
      simp only [Guarded.quiet_bind, hrow]
      exact hrest
    · simp only [List.mem_cons, exists_eq_or_imp]

end Cleared

def removes (search : PeakSearch) (a b : RowWinner) : Bool :=
  a.index = b.index || (search.suppression = .dropOverlapping && search.overlap a b)

theorem place_iff {width first last row i : ℕ} (hlast : last < width) :
    row * width + first ≤ i ∧ i < row * width + last + 1 ↔
      i / width = row ∧ first ≤ i % width ∧ i % width ≤ last := by
  have hdiv := Nat.div_add_mod i width
  rw [Nat.mul_comm] at hdiv
  constructor
  · rintro ⟨hlow, hhigh⟩
    have hrow : i / width = row := by
      refine Nat.div_eq_of_lt_le (by omega) ?_
      rw [Nat.succ_mul]
      omega
    rw [hrow] at hdiv
    exact ⟨hrow, by omega, by omega⟩
  · rintro ⟨rfl, hlow, hhigh⟩
    omega

theorem removePlaces_quiet (op : Operation) (hop : op.terminal = none) {search : PeakSearch}
    (hwidth : 0 < search.width) (htw : 0 < search.templateWidth) (hth : 0 < search.templateHeight)
    (hmax : search.width * search.height ≤ u64Max) (since : SinceCheckpoint) (a : List Binary64)
    {winner : RowWinner} (hwinner : winner.index < search.width * search.height) : ∃ b since',
      (removePlaces op search since a (winner.peak search.width)).quiet = .ok (b, since') ∧
        ∀ x : RowWinner, x.index < search.width * search.height →
          b[x.index]? = if removes search winner x then a[x.index]?.map fun _ => .nan
            else a[x.index]? := by
  have hof : ∀ {p : ℕ → Prop} {b : List Binary64}, Cleared p a b →
      (∀ x : RowWinner, x.index < search.width * search.height →
        (p x.index ↔ removes search winner x = true)) →
      ∀ x : RowWinner, x.index < search.width * search.height →
        b[x.index]? = if removes search winner x then a[x.index]?.map fun _ => .nan
          else a[x.index]? := by
    intro p b hcleared hp x hx
    split
    · rename_i h
      exact (hcleared x.index).1 ((hp x hx).mpr h)
    · rename_i h
      exact (hcleared x.index).2 fun hpx => h ((hp x hx).mp hpx)
  unfold removePlaces
  by_cases hdrop : search.suppression = .dropOverlapping
  · rw [if_neg (not_not.mpr hdrop)]
    obtain ⟨b, since', hquiet, hcleared⟩ := suppressRows_quiet op hop search.width
      ((winner.peak search.width).left - (search.templateWidth - 1))
      (min (saturatingAdd u64Max (winner.peak search.width).left (search.templateWidth - 1))
        (search.width - 1))
      (List.range' ((winner.peak search.width).top - (search.templateHeight - 1))
        (min (saturatingAdd u64Max (winner.peak search.width).top (search.templateHeight - 1))
          (search.height - 1) + 1 - ((winner.peak search.width).top - (search.templateHeight - 1))))
      since a
    refine ⟨b, since', hquiet, hof hcleared fun x hx => ?_⟩
    have hheight : search.height ≤ u64Max := (Nat.le_mul_of_pos_left _ hwidth).trans hmax
    have hwidth' : search.width ≤ u64Max := by
      have hpos : 0 < search.height := Nat.pos_of_ne_zero fun h => by rw [h] at hx; omega
      exact (Nat.le_mul_of_pos_right _ hpos).trans hmax
    have hcolumn := Nat.mod_lt x.index hwidth
    have hcolumn' := Nat.mod_lt winner.index hwidth
    have hrow : x.index / search.width < search.height := Nat.div_lt_of_lt_mul hx
    have hrow' : winner.index / search.width < search.height := Nat.div_lt_of_lt_mul hwinner
    have hself : winner.index = x.index →
        winner.index / search.width = x.index / search.width ∧
          winner.index % search.width = x.index % search.width := fun h => by rw [h]; exact ⟨rfl, rfl⟩
    have hlast : ∀ n, min n (search.width - 1) < search.width := fun n => by omega
    unfold removes PeakSearch.overlap RowWinner.peak saturatingAdd
    simp only [hdrop, decide_true, Bool.true_and, Bool.or_eq_true, decide_eq_true_eq,
      List.mem_range'_1, place_iff (hlast _)]
    generalize x.index / search.width = row at *
    generalize x.index % search.width = column at *
    generalize winner.index / search.width = row' at *
    generalize winner.index % search.width = column' at *
    constructor
    · rintro ⟨_, hmem, rfl, hplace⟩
      omega
    · intro h
      exact ⟨row, by omega, rfl, by omega⟩
  · obtain ⟨since', hadvance⟩ := advance_quiet op hop since 1
    rw [if_pos hdrop]
    refine ⟨_, since', by simp only [Guarded.quiet_bind, hadvance]; rfl,
      hof (set_cleared a _) fun x hx => ?_⟩
    have hindex : (winner.peak search.width).top * search.width + (winner.peak search.width).left =
        winner.index := Nat.div_add_mod' ..
    unfold removes
    rw [hindex]
    simp only [hdrop, decide_false, Bool.false_and, Bool.or_false, decide_eq_true_eq]
    exact eq_comm

end MadoPilot.Vision
