import MadoPilot.Vision.Match

/-!
# The public collection of matches

The loop over the candidates gives, where no candidate is refused, the matches of those that reach
the minimum score; sorting, suppression and the limit are what remains to be said.  The canonical
order tells all matches apart, so the collection depends on what was found alone.

* `candidateBounds_isSome` : exactly the candidates whose rectangle lies in the region have bounds;
* `canonicalOrder` is a total order, by its instances;
* `normalize_canonical` : what the matcher reports.
-/

namespace MadoPilot.Vision

open MadoPilot.Core MadoPilot.Lib

/-! ### The place of a candidate -/

/-- The rectangle of the candidate lies in the region; its extents are `i32`s. -/
structure Candidate.Inside (region : PixelRect) (extent : PixelExtent) (c : Candidate) : Prop where
  left : 0 ≤ c.left.toInt
  top : 0 ≤ c.top.toInt
  right : region.left.toInt + c.left.toInt + extent.width ≤ region.right.toInt
  bottom : region.top.toInt + c.top.toInt + extent.height ≤ region.bottom.toInt
  width : extent.width ≤ i32Max
  height : extent.height ≤ i32Max

section Bounds

variable {region : PixelRect} {extent : PixelExtent} {c : Candidate} {a b x : Int32}

theorem checkedAddInt32_eq_some (h : checkedAddInt32 a b = some x) :
    x.toInt = a.toInt + b.toInt := by
  unfold checkedAddInt32 at h
  split_ifs at h with hrange
  obtain rfl := Option.some.inj h
  have hmin : Int32.minValue.toInt = -2 ^ 31 := by decide
  have hmax : Int32.maxValue.toInt = 2 ^ 31 - 1 := by decide
  rw [hmin, hmax] at hrange
  rw [Int32.toInt_add, Int.bmod_eq_of_le] <;> omega

theorem checkedAddInt32_of_between (a b low high : Int32)
    (hlow : low.toInt ≤ a.toInt + b.toInt)
    (hhigh : a.toInt + b.toInt ≤ high.toInt) : ∃ x, checkedAddInt32 a b = some x := by
  unfold checkedAddInt32
  have hmin := Int32.minValue_le_toInt low
  have hmax := Int32.toInt_le high
  exact ⟨a + b, if_pos (by omega)⟩

theorem i32From_le {n : ℕ} (h : i32From n = .ok x) : n ≤ i32Max := by
  unfold i32From at h
  split_ifs at h with hn
  exact hn

theorem i32From_of_le {n : ℕ} (h : n ≤ i32Max) : ∃ x, i32From n = .ok x := ⟨_, if_pos h⟩

theorem candidateBounds_eq_some {bounds : PixelRect}
    (h : candidateBounds region c extent = some bounds) :
    (bounds.left.toInt = region.left.toInt + c.left.toInt ∧
      bounds.top.toInt = region.top.toInt + c.top.toInt ∧
      bounds.right.toInt = bounds.left.toInt + extent.width ∧
      bounds.bottom.toInt = bounds.top.toInt + extent.height) ∧
    region.containsRect bounds = true ∧ extent.width ≤ i32Max ∧ extent.height ≤ i32Max := by
  unfold candidateBounds at h
  simp only [Option.bind_eq_bind, Option.bind_eq_some_iff, toOption_eq_some] at h
  obtain ⟨left, hleft, top, htop, width, hwidth, right, hright, height, hheight, bottom, hbottom,
    rect, hrect, h⟩ := h
  split_ifs at h with hinside
  obtain rfl := Option.some.inj h
  unfold PixelRect.new at hrect
  split_ifs at hrect
  obtain rfl := Except.ok.inj hrect
  refine ⟨⟨checkedAddInt32_eq_some hleft, checkedAddInt32_eq_some htop, ?_, ?_⟩, hinside,
    i32From_le hwidth, i32From_le hheight⟩
  · rw [checkedAddInt32_eq_some hright, i32From_eq_ok hwidth]
  · rw [checkedAddInt32_eq_some hbottom, i32From_eq_ok hheight]

theorem candidateBounds_isSome :
    (∃ bounds, candidateBounds region c extent = some bounds) ↔ c.Inside region extent := by
  constructor
  · rintro ⟨bounds, h⟩
    obtain ⟨⟨hleft, htop, hright, hbottom⟩, hinside, hwidth, hheight⟩ := candidateBounds_eq_some h
    obtain ⟨⟨hl, ht⟩, hr, hb⟩ := PixelRect.containsRect_iff.mp hinside
    exact ⟨by omega, by omega, by omega, by omega, hwidth, hheight⟩
  · rintro ⟨hl, ht, hr, hb, hwidth, hheight⟩
    obtain ⟨width, hw⟩ := i32From_of_le hwidth
    obtain ⟨height, hh⟩ := i32From_of_le hheight
    have hwi := i32From_eq_ok hw
    have hhi := i32From_eq_ok hh
    obtain ⟨left, hleft⟩ := checkedAddInt32_of_between region.left c.left region.left
      region.right (by omega) (by omega)
    have hli := checkedAddInt32_eq_some hleft
    obtain ⟨top, htop⟩ := checkedAddInt32_of_between region.top c.top region.top
      region.bottom (by omega) (by omega)
    have hti := checkedAddInt32_eq_some htop
    obtain ⟨right, hright⟩ := checkedAddInt32_of_between left width left
      region.right (by omega) (by omega)
    have hri := checkedAddInt32_eq_some hright
    obtain ⟨bottom, hbottom⟩ := checkedAddInt32_of_between top height top
      region.bottom (by omega) (by omega)
    have hbi := checkedAddInt32_eq_some hbottom
    have hsides : left ≤ right ∧ top ≤ bottom := by
      rw [Int32.le_iff_toInt_le, Int32.le_iff_toInt_le]
      omega
    have hrect : PixelRect.new left top right bottom =
        .ok ⟨left, top, right, bottom, hsides.1, hsides.2⟩ := dif_pos hsides
    have hinside : region.containsRect ⟨left, top, right, bottom, hsides.1, hsides.2⟩ = true := by
      have hlow : region.left.toInt ≤ left.toInt ∧ region.top.toInt ≤ top.toInt := by omega
      have hhigh : right.toInt ≤ region.right.toInt ∧ bottom.toInt ≤ region.bottom.toInt := by omega
      exact PixelRect.containsRect_iff.mpr ⟨hlow, hhigh⟩
    refine ⟨⟨left, top, right, bottom, hsides.1, hsides.2⟩, ?_⟩
    unfold candidateBounds
    simp only [Option.bind_eq_bind, Option.bind_eq_some_iff, toOption_eq_some]
    exact ⟨left, hleft, top, htop, width, hw, right, hright, height, hh, bottom, hbottom, _, hrect,
      if_pos hinside⟩

theorem inside_iff (hleft : 0 ≤ region.left.toInt) (htop : 0 ≤ region.top.toInt) :
    c.Inside region extent ↔ (0 ≤ c.left.toInt ∧ 0 ≤ c.top.toInt) ∧
      region.left.toInt + c.left.toInt + extent.width ≤ region.right.toInt ∧
      region.top.toInt + c.top.toInt + extent.height ≤ region.bottom.toInt := by
  constructor
  · rintro ⟨hl, ht, hr, hb, -, -⟩
    exact ⟨⟨hl, ht⟩, hr, hb⟩
  · rintro ⟨⟨hl, ht⟩, hr, hb⟩
    have hright := region.right.toInt_lt
    have hbottom := region.bottom.toInt_lt
    exact ⟨hl, ht, hr, hb, by unfold i32Max; omega, by unfold i32Max; omega⟩

end Bounds

/-! ### The canonical order -/

namespace Match

variable {a b : Match}

theorem canonicalOrder_eq : canonicalOrder =
    compareLex (fun a b => compareOn (fun m : Match => m.score.totalKey) b a)
      (compareLex (compareOn fun m => m.bounds.top) (compareLex (compareOn fun m => m.bounds.left)
        (compareLex (compareOn fun m => m.bounds.bottom)
          (compareLex (compareOn fun m => m.bounds.right) (compareOn fun m => m.template))))) := rfl

instance : Std.TransCmp canonicalOrder := by
  rw [canonicalOrder_eq]
  have : Std.TransCmp fun a b => compareOn (fun m : Match => m.score.totalKey) b a :=
    Std.TransCmp.opposite
  infer_instance

theorem eq_of_canonicalOrder (h : a.canonicalOrder b = .eq) : a = b := by
  obtain ⟨ta, ⟨la, pa, ra, ba, hca, hla⟩, sa⟩ := a
  obtain ⟨tb, ⟨lb, pb, rb, bb, hcb, hlb⟩, sb⟩ := b
  unfold canonicalOrder Binary64.totalCmp at h
  simp only [Ordering.then_eq_eq, Std.LawfulEqOrd.compare_eq_iff_eq] at h
  obtain ⟨hscore, rfl, rfl, rfl, rfl, rfl⟩ := h
  rw [Binary64.totalKey_injective hscore]

instance : Std.LawfulEqCmp canonicalOrder where
  eq_of_compare := eq_of_canonicalOrder

theorem lt_or_eq (h : (a.canonicalOrder b).isLE = true) : a.canonicalOrder b = .lt ∨ a = b := by
  cases horder : a.canonicalOrder b with
  | lt => exact Or.inl rfl
  | eq => exact Or.inr (eq_of_canonicalOrder horder)
  | gt =>
    rw [horder] at h
    cases h

end Match

/-! ### The loop over the candidates -/

section Normalize

variable {template : PreparedTemplate} {region : PixelRect} {options : MatchOptions}
  {candidates : List Candidate} {c : Candidate} {kept found : List Match}

def qualifies (template : PreparedTemplate) (region : PixelRect) (options : MatchOptions)
    (c : Candidate) : Option Match :=
  if c.score.lt options.minScore then none
  else (candidateBounds region c template.extent).map fun bounds => ⟨template.id, bounds, c.score⟩

def qualifying (template : PreparedTemplate) (region : PixelRect) (options : MatchOptions)
    (candidates : List Candidate) : List Match :=
  candidates.filterMap (qualifies template region options)

def Candidate.Accepted (region : PixelRect) (extent : PixelExtent) (c : Candidate) : Prop :=
  validScore c.score = true ∧ c.Inside region extent

theorem keep_accepted (h : c.Accepted region template.extent) :
    keep template region options kept c =
      .ok (kept ++ (qualifies template region options c).toList) := by
  obtain ⟨hscore, hinside⟩ := h
  obtain ⟨bounds, hbounds⟩ := candidateBounds_isSome.mpr hinside
  unfold validScore at hscore
  rw [Bool.and_eq_true] at hscore
  unfold keep qualifies
  rw [hscore.1, hscore.2, hbounds]
  cases c.score.lt options.minScore <;> simp

theorem keep_refused (h : ¬c.Accepted region template.extent) :
    ∃ fault, keep template region options kept c = .error fault := by
  unfold keep
  split
  · exact ⟨_, rfl⟩
  · rename_i hscore
    cases hbounds : candidateBounds region c template.extent with
    | none => exact ⟨_, rfl⟩
    | some bounds =>
      refine absurd ⟨?_, candidateBounds_isSome.mp ⟨bounds, hbounds⟩⟩ h
      unfold validScore
      simpa using hscore

/-- **The loop fails exactly where a candidate is refused**, and keeps the others that qualify. -/
theorem keep_loop (options : MatchOptions) (candidates : List Candidate) (kept : List Match) :
    (∀ c ∈ candidates, c.Accepted region template.extent) ∧
        candidates.foldlM (keep template region options) kept =
          .ok (kept ++ qualifying template region options candidates) ∨
      (∃ c ∈ candidates, ¬c.Accepted region template.extent) ∧
        ∃ fault, candidates.foldlM (keep template region options) kept = .error fault := by
  induction candidates generalizing kept with
  | nil => exact Or.inl ⟨fun c hc => (by cases hc), by rw [qualifying]; simp [pure, Except.pure]⟩
  | cons c rest ih =>
    rw [List.foldlM_cons]
    by_cases hc : c.Accepted region template.extent
    · rw [keep_accepted hc]
      rcases ih (kept ++ (qualifies template region options c).toList) with
        ⟨hall, hloop⟩ | ⟨⟨d, hd, hrefused⟩, hloop⟩
      · refine Or.inl ⟨List.forall_mem_cons.mpr ⟨hc, hall⟩, hloop.trans ?_⟩
        unfold qualifying
        rw [List.append_assoc, List.filterMap_cons]
        cases qualifies template region options c <;> rfl
      · exact Or.inr ⟨⟨d, List.mem_cons_of_mem _ hd, hrefused⟩, hloop⟩
    · obtain ⟨fault, hfault⟩ := @keep_refused _ _ options _ kept hc
      rw [hfault]
      exact Or.inr ⟨⟨c, List.mem_cons_self, hc⟩, fault, rfl⟩

/-! ### What is reported -/

def clashes (options : MatchOptions) (a b : Match) : Bool :=
  options.suppression = .dropOverlapping && a.overlaps b

theorem suppress_eq (kept : List Match) : suppress options kept = greedy (clashes options) kept := by
  unfold suppress
  split
  · rename_i hdrop
    have hsame : clashes options = fun a b => a.overlaps b := by
      unfold clashes
      simp [hdrop]
    rw [hsame]
    exact (foldl_greedy kept []).trans (List.nil_append _)
  · rename_i hkeep
    refine (greedy_of_quiet (List.pairwise_of_forall fun a b => ?_)).symm
    unfold clashes
    simp [hkeep]

def sorted (template : PreparedTemplate) (region : PixelRect) (options : MatchOptions)
    (candidates : List Candidate) : List Match :=
  sortBy Match.canonicalOrder (qualifying template region options candidates)

theorem unlimited_cases (options : MatchOptions) (candidates : List Candidate) :
    (∀ c ∈ candidates, c.Accepted region template.extent) ∧
        unlimited template region options candidates =
          .ok (greedy (clashes options) (sorted template region options candidates)) ∨
      (∃ c ∈ candidates, ¬c.Accepted region template.extent) ∧
        ∃ fault, unlimited template region options candidates = .error fault := by
  unfold unlimited
  rcases keep_loop options candidates [] with ⟨hall, hloop⟩ | ⟨hrefused, f, hloop⟩
  · refine Or.inl ⟨hall, ?_⟩
    rw [hloop, List.nil_append, ← suppress_eq]
    rfl
  · refine Or.inr ⟨hrefused, f, ?_⟩
    rw [hloop]
    rfl

theorem minScore_le (haccepted : ∀ c ∈ candidates, c.Accepted region template.extent) {m : Match}
    (h : m ∈ qualifying template region options candidates) :
    options.minScore.le m.score = true := by
  obtain ⟨c, hc, hm⟩ := List.mem_filterMap.mp h
  have hfinite : ∀ {x : Binary64}, validScore x = true → x.isNan = false := fun {x} hx =>
    Binary64.isNan_eq_false (Bool.and_eq_true_iff.mp hx).1
  unfold qualifies at hm
  split_ifs at hm with hlow
  obtain ⟨bounds, -, rfl⟩ := Option.map_eq_some_iff.mp hm
  rw [Bool.not_eq_true, Binary64.lt_eq_false_iff (hfinite (haccepted c hc).1)
    (hfinite options.minScore_valid)] at hlow
  exact (Binary64.le_iff (hfinite options.minScore_valid) (hfinite (haccepted c hc).1)).mpr hlow

/-- **The public collection.**  The matcher fails exactly where a candidate has an invalid score or
lies outside the region.  Otherwise what it reports is strictly sorted up to equal matches, within
the limit and the minimum score, without overlaps where they were to be dropped, the front of what
it reports without a limit, and the same for every order of the candidates; and every qualifying
match is reported, or overlaps a reported one before it, or has as many reported ones before it as
the limit allows. -/
theorem normalize_canonical (template : PreparedTemplate) (region : PixelRect)
    (options : MatchOptions) (candidates : List Candidate) :
    ((∃ fault, normalize template region options candidates = .error fault) ↔
      ∃ c ∈ candidates, validScore c.score = false ∨ ¬c.Inside region template.extent) ∧
    ∀ found, normalize template region options candidates = .ok found →
      found.Pairwise (fun a b => a.canonicalOrder b = .lt ∨ a = b) ∧
      found.length ≤ options.maxResults.toNat ∧
      (∀ m ∈ found, options.minScore.le m.score = true) ∧
      (options.suppression = .dropOverlapping → found.Pairwise fun a b => a.overlaps b = false) ∧
      (∀ front m back, sorted template region options candidates = front ++ m :: back →
        (∃ before after, found = before ++ m :: after ∧ before.Sublist front ∧ after.Sublist back) ∨
        (options.suppression = .dropOverlapping ∧ ∃ s ∈ found, s ∈ front ∧ s.overlaps m = true) ∨
        (found.length = options.maxResults.toNat ∧ found.Sublist front)) ∧
      (∃ all, unlimited template region options candidates = .ok all ∧ found <+: all) ∧
      ∀ other, other.Perm candidates → normalize template region options other = .ok found := by
  unfold normalize
  rcases unlimited_cases options candidates with
    ⟨hall, hok⟩ | ⟨⟨c, hc, hrefused⟩, fault, herror⟩
  · rw [hok]
    refine ⟨⟨?_, ?_⟩, ?_⟩
    · rintro ⟨fault, h⟩
      cases h
    · rintro ⟨c, hc, hscore | hinside⟩
      · rw [(hall c hc).1] at hscore
        cases hscore
      · exact absurd (hall c hc).2 hinside
    rintro found h
    obtain rfl := Except.ok.inj h
    set limit := options.maxResults.toNat
    have hsub : ((greedy (clashes options) (sorted template region options candidates)).take
        limit).Sublist (sorted template region options candidates) :=
      (List.take_sublist ..).trans (greedy_sublist _)
    refine ⟨?_, List.length_take_le .., fun m hm => ?_, fun hdrop => ?_, fun front m back hsplit => ?_,
      ⟨_, rfl, List.take_prefix ..⟩, fun other hperm => ?_⟩
    · exact ((sortBy_pairwise Match.canonicalOrder _).sublist hsub).imp Match.lt_or_eq
    · exact minScore_le hall ((sortBy_perm _).subset (hsub.subset hm))
    · refine ((greedy_pairwise _).sublist (List.take_sublist ..)).imp fun {a b} hclash => ?_
      unfold clashes at hclash
      simpa [hdrop] using hclash
    · rw [hsplit]
      have hfront : (greedy (clashes options) front).Sublist front := greedy_sublist front
      have happend := greedy_append (clashes options) front (m :: back)
      by_cases hfull : limit ≤ (greedy (clashes options) front).length
      · -- the limit is reached before the match
        have htake : (greedy (clashes options) (front ++ m :: back)).take limit =
            (greedy (clashes options) front).take limit := by
          rw [happend, List.take_append_of_le_length hfull]
        rw [htake]
        exact Or.inr (Or.inr ⟨List.length_take_of_le hfull, (List.take_sublist ..).trans hfront⟩)
      · rcases greedy_split (clashes options) front m back with
          ⟨s, hs, hclash⟩ | ⟨rest, hrest, hkept⟩
        · unfold clashes at hclash
          obtain ⟨hdrop, hover⟩ := Bool.and_eq_true_iff.mp hclash
          refine Or.inr (Or.inl ⟨of_decide_eq_true hdrop, s, ?_, hfront.subset hs, hover⟩)
          rw [happend, List.take_append, List.take_of_length_le (by omega)]
          exact List.mem_append_left _ hs
        · refine Or.inl ⟨greedy (clashes options) front,
            rest.take (limit - (greedy (clashes options) front).length - 1), ?_, hfront,
            (List.take_sublist ..).trans hrest⟩
          rw [hkept, List.take_append, List.take_of_length_le (by omega)]
          congr 1
          obtain ⟨n, hn⟩ := Nat.exists_eq_add_of_lt (Nat.lt_of_not_le hfull)
          rw [show limit - (greedy (clashes options) front).length = n + 1 by omega,
            List.take_succ_cons, Nat.add_sub_cancel]
    · have hsame : sorted template region options other =
          sorted template region options candidates := sortBy_congr (hperm.filterMap _)
      rcases unlimited_cases options other with ⟨-, hother⟩ | ⟨⟨c, hc, hrefused⟩, -⟩
      · rw [hother, hsame]
        rfl
      · exact absurd (hall c (hperm.subset hc)) hrefused
  · rw [herror]
    refine ⟨⟨fun _ => ⟨c, hc, ?_⟩, fun _ => ⟨fault, rfl⟩⟩, fun found h => by cases h⟩
    by_contra hnot
    rw [not_or, Bool.not_eq_false, not_not] at hnot
    exact hrefused hnot

end Normalize

end MadoPilot.Vision
