import Mathlib.Data.List.Induction
import Mathlib.Data.List.Pairwise
import Mathlib.Data.List.Sort
import Mathlib.Tactic.Common

/-!
# Greedy selection

Of a list the first element is taken, what clashes with it is dropped, and so on.

* `greedy_append` : what is selected from the front decides what is left of the rest;
* `greedy_sublist`, `greedy_pairwise` : what is selected stands in the order of the list, and no two
  of it clash;
* `greedy_split` : every element is selected, or clashes with a selected one before it;
* `foldl_greedy` : one pass that keeps what clashes with nothing kept so far selects the same;
* `Selected.unique` : what a selection up to a limit takes is characterised by what it leaves;
* `take_greedy_putLast` : when putting some elements last leaves the same selection;
* `sorted_unique` : a comparison under which only equal elements are equal sorts in one way, and what
  ascends strictly is its own sorting (`sortBy_eq`).
-/

namespace MadoPilot.Lib

variable {α : Type*}

def greedyFrom (clash : α → α → Bool) : List α → List α → List α
  | _, [] => []
  | kept, a :: l =>
    if kept.any fun s => clash s a then greedyFrom clash kept l
    else a :: greedyFrom clash (kept ++ [a]) l

def greedy (clash : α → α → Bool) (l : List α) : List α := greedyFrom clash [] l

section

variable {clash : α → α → Bool}

theorem greedyFrom_drop {kept l : List α} {a : α} (h : kept.any (fun s => clash s a) = true) :
    greedyFrom clash kept (a :: l) = greedyFrom clash kept l := by
  rw [greedyFrom, if_pos h]

theorem greedyFrom_keep {kept l : List α} {a : α} (h : kept.any (fun s => clash s a) = false) :
    greedyFrom clash kept (a :: l) = a :: greedyFrom clash (kept ++ [a]) l := by
  rw [greedyFrom, h, if_neg Bool.false_ne_true]

theorem greedyFrom_append (clash : α → α → Bool) (front kept l : List α) : greedyFrom clash (front ++ kept) l =
    greedyFrom clash kept (l.filter fun b => !front.any fun s => clash s b) := by
  induction l generalizing kept with
  | nil => rfl
  | cons a l ih =>
    cases hfront : front.any fun s => clash s a with
    | true =>
      have hboth : (front ++ kept).any (fun s => clash s a) = true := by
        rw [List.any_append, hfront, Bool.true_or]
      rw [List.filter_cons_of_neg (by simp [hfront]), greedyFrom_drop hboth, ih]
    | false =>
      have hboth : (front ++ kept).any (fun s => clash s a) = kept.any fun s => clash s a := by
        rw [List.any_append, hfront, Bool.false_or]
      rw [List.filter_cons_of_pos (by simp [hfront])]
      cases hkept : kept.any fun s => clash s a with
      | true => rw [greedyFrom_drop (hboth.trans hkept), greedyFrom_drop hkept, ih]
      | false =>
        rw [greedyFrom_keep (hboth.trans hkept), greedyFrom_keep hkept, List.append_assoc, ih]

@[simp] theorem greedy_nil : greedy clash [] = [] := rfl

theorem greedy_cons (a : α) (l : List α) :
    greedy clash (a :: l) = a :: greedy clash (l.filter fun b => !clash a b) := by
  have hrest := greedyFrom_append clash [a] [] l
  simp only [List.any_cons, List.any_nil, Bool.or_false] at hrest
  exact congrArg (a :: ·) hrest

theorem greedy_induction (clash : α → α → Bool) {P : List α → Prop} (nil : P [])
    (cons : ∀ a l, P (l.filter fun b => !clash a b) → P (a :: l)) (l : List α) : P l := by
  induction hlen : l.length using Nat.strong_induction_on generalizing l with
  | _ n ih =>
    subst hlen
    cases l with
    | nil => exact nil
    | cons a l =>
      exact cons a l (ih _ (Nat.lt_succ_of_le (List.length_filter_le ..)) _ rfl)

theorem greedy_sublist (l : List α) : (greedy clash l).Sublist l := by
  induction l using greedy_induction clash with
  | nil => rw [greedy_nil]
  | cons a l ih =>
    rw [greedy_cons]
    exact (ih.trans List.filter_sublist).cons_cons a

theorem mem_of_mem_greedy {l : List α} {a : α} (h : a ∈ greedy clash l) : a ∈ l :=
  (greedy_sublist l).subset h

theorem greedy_pairwise (l : List α) : (greedy clash l).Pairwise fun a b => clash a b = false := by
  induction l using greedy_induction clash with
  | nil => rw [greedy_nil]; exact .nil
  | cons a l ih =>
    rw [greedy_cons]
    refine .cons (fun b hb => ?_) ih
    have hmem := (List.mem_filter.mp (mem_of_mem_greedy hb)).2
    simpa using hmem

theorem greedy_append (clash : α → α → Bool) (l r : List α) : greedy clash (l ++ r) =
    greedy clash l ++ greedy clash (r.filter fun b => !(greedy clash l).any fun a => clash a b) := by
  induction l using greedy_induction clash generalizing r with
  | nil => simp
  | cons a l ih =>
    rw [List.cons_append, greedy_cons, List.filter_append, ih, greedy_cons, List.filter_filter,
      List.cons_append]
    congr 3
    refine List.filter_congr fun b _ => ?_
    rw [List.any_cons, Bool.not_or, Bool.and_comm]

theorem greedy_of_quiet {l : List α} (h : l.Pairwise fun a b => clash a b = false) :
    greedy clash l = l := by
  induction h with
  | nil => rw [greedy_nil]
  | @cons a l ha _ ih =>
    have hall : l.filter (fun b => !clash a b) = l :=
      List.filter_eq_self.mpr fun b hb => by rw [ha b hb]; rfl
    rw [greedy_cons, hall, ih]

theorem greedy_congr {clash' : α → α → Bool} {l : List α}
    (h : l.Pairwise fun a b => clash a b = clash' a b) : greedy clash l = greedy clash' l := by
  induction l using greedy_induction clash with
  | nil => rfl
  | cons a l ih =>
    have hfirst := (List.pairwise_cons.mp h).1
    have hrest := (List.pairwise_cons.mp h).2
    have hsame : (l.filter fun b => !clash a b) = l.filter fun b => !clash' a b :=
      List.filter_congr fun b hb => by rw [hfirst b hb]
    rw [greedy_cons, greedy_cons, ih (hrest.sublist List.filter_sublist), hsame]

theorem greedy_split (clash : α → α → Bool) (front : List α) (a : α) (back : List α) :
    (∃ s ∈ greedy clash front, clash s a = true) ∨
      ∃ rest, rest.Sublist back ∧
        greedy clash (front ++ a :: back) = greedy clash front ++ a :: rest := by
  rw [greedy_append]
  cases hclash : (greedy clash front).any fun s => clash s a with
  | true => exact Or.inl (List.any_eq_true.mp hclash)
  | false =>
    refine Or.inr ⟨_, ?_, by rw [List.filter_cons_of_pos (by rw [hclash]; rfl), greedy_cons]⟩
    exact ((greedy_sublist _).trans List.filter_sublist).trans List.filter_sublist

theorem foldl_greedy (l kept : List α) :
    l.foldl (fun kept a => if kept.any (fun s => clash s a) then kept else kept ++ [a]) kept =
      kept ++ greedyFrom clash kept l := by
  induction l generalizing kept with
  | nil => exact (List.append_nil _).symm
  | cons a l ih =>
    rw [List.foldl_cons, ih]
    cases hclash : kept.any fun s => clash s a with
    | true => rw [greedyFrom_drop hclash, if_pos rfl]
    | false =>
      rw [greedyFrom_keep hclash, if_neg Bool.false_ne_true, List.append_assoc,
        List.singleton_append]

theorem greedy_map {β : Type*} (f : β → α) (l : List β) :
    greedy clash (l.map f) = (greedy (fun a b => clash (f a) (f b)) l).map f := by
  induction l using greedy_induction fun a b => clash (f a) (f b) with
  | nil => rfl
  | cons a l ih =>
    rw [List.map_cons, greedy_cons, greedy_cons, List.map_cons, ← ih, List.filter_map]
    rfl

/-! ### Selections up to a limit -/

/-- What a selection takes from a list whose elements stand in the order `before`, up to a limit:
what it leaves clashes with a taken element before it, or comes after all it takes. -/
structure Selected (clash : α → α → Bool) (before : α → α → Prop) (limit : ℕ) (l taken : List α) :
    Prop where
  sublist : taken.Sublist l
  quiet : taken.Pairwise fun a b => clash a b = false
  length_le : taken.length ≤ limit
  left : ∀ x ∈ l, x ∉ taken → (∃ s ∈ taken, before s x ∧ clash s x = true) ∨
    (taken.length = limit ∧ ∀ s ∈ taken, before s x)

section Limit

variable {before : α → α → Prop} {limit : ℕ} {l taken taken' front back : List α} {x : α}

theorem selected_take (clash : α → α → Bool) (limit : ℕ) (hl : l.Pairwise before) :
    Selected clash before limit l ((greedy clash l).take limit) := by
  refine ⟨(List.take_sublist ..).trans (greedy_sublist l),
    (greedy_pairwise l).sublist (List.take_sublist ..), List.length_take_le .., fun x hx hleft => ?_⟩
  obtain ⟨front, back, rfl⟩ := List.append_of_mem hx
  have hbefore : ∀ s ∈ front, before s x := fun s hs =>
    (List.pairwise_append.mp hl).2.2 s hs x List.mem_cons_self
  have hfull : limit ≤ (greedy clash front).length →
      ((greedy clash (front ++ x :: back)).take limit).length = limit ∧
        ∀ s ∈ (greedy clash (front ++ x :: back)).take limit, before s x := by
    intro hle
    rw [greedy_append, List.take_append_of_le_length hle]
    exact ⟨List.length_take_of_le hle, fun s hs =>
      hbefore s (mem_of_mem_greedy (List.mem_of_mem_take hs))⟩
  by_cases hle : limit ≤ (greedy clash front).length
  · exact Or.inr (hfull hle)
  rcases greedy_split clash front x back with ⟨s, hs, hclash⟩ | ⟨rest, -, hkept⟩
  · refine Or.inl ⟨s, ?_, hbefore s (mem_of_mem_greedy hs), hclash⟩
    rw [greedy_append, List.take_append, List.take_of_length_le (by omega)]
    exact List.mem_append_left _ hs
  · refine absurd ?_ hleft
    obtain ⟨n, hn⟩ := Nat.exists_eq_add_of_lt (Nat.lt_of_not_le hle)
    rw [hkept, List.take_append, List.take_of_length_le (by omega),
      show limit - (greedy clash front).length = n + 1 by omega, List.take_succ_cons]
    exact List.mem_append_right _ List.mem_cons_self

theorem mem_front (hasymm : ∀ a b, before a b → ¬ before b a)
    (hl : (front ++ x :: back).Pairwise before) {s : α} (hs : s ∈ front ++ x :: back)
    (hbefore : before s x) : s ∈ front := by
  rcases List.mem_append.mp hs with hs | hs
  · exact hs
  rcases List.mem_cons.mp hs with rfl | hs
  · exact absurd hbefore (hasymm _ _ hbefore)
  · have hafter := List.rel_of_pairwise_cons (List.pairwise_append.mp hl).2.1 hs
    exact absurd hbefore (hasymm _ _ hafter)

theorem nodup_of_asymm (hasymm : ∀ a b, before a b → ¬ before b a) (hl : l.Pairwise before) :
    l.Nodup := by
  refine hl.imp fun {a b} hab heq => ?_
  subst heq
  exact hasymm _ _ hab hab

theorem Selected.mem_of_mem (hasymm : ∀ a b, before a b → ¬ before b a)
    (hl : (front ++ x :: back).Pairwise before)
    (h : Selected clash before limit (front ++ x :: back) taken)
    (h' : Selected clash before limit (front ++ x :: back) taken')
    (hfront : ∀ y ∈ front, y ∈ taken ↔ y ∈ taken') (hx : x ∈ taken) : x ∈ taken' := by
  by_contra hx'
  have hmem : ∀ s ∈ taken', before s x → s ∈ taken := fun s hs hbefore =>
    (hfront s (mem_front hasymm hl (h'.sublist.subset hs) hbefore)).mpr hs
  rcases h'.left x (by simp) hx' with ⟨s, hs, hbefore, hclash⟩ | ⟨hfull, hall⟩
  · have hquiet : taken.Pairwise fun a b =>
        (before a b → clash a b = false) ∧ (before b a → clash b a = false) :=
      (h.quiet.and (hl.sublist h.sublist)).imp fun {a b} hab =>
        ⟨fun _ => hab.1, fun hba => absurd hba (hasymm _ _ hab.2)⟩
    have hsymm : Std.Symm fun a b =>
        (before a b → clash a b = false) ∧ (before b a → clash b a = false) := ⟨fun _ _ h => h.symm⟩
    have hne : s ≠ x := by
      rintro rfl
      exact hasymm _ _ hbefore hbefore
    have hfalse := (hquiet.forall (hmem s hs hbefore) hx hne).1 hbefore
    rw [hclash] at hfalse
    cases hfalse
  · have hnodup : (x :: taken').Nodup :=
      List.nodup_cons.mpr ⟨hx', (nodup_of_asymm hasymm hl).sublist h'.sublist⟩
    have hsub : (x :: taken') ⊆ taken := by
      intro s hs
      rcases List.mem_cons.mp hs with rfl | hs
      · exact hx
      · exact hmem s hs (hall s hs)
    have hlen := (List.subperm_of_subset hnodup hsub).length_le
    have hle := h.length_le
    rw [List.length_cons] at hlen
    omega

theorem Selected.unique (hasymm : ∀ a b, before a b → ¬ before b a) (hl : l.Pairwise before)
    (h : Selected clash before limit l taken) (h' : Selected clash before limit l taken') :
    taken = taken' := by
  have hagree : ∀ front, front <+: l → ∀ y ∈ front, y ∈ taken ↔ y ∈ taken' := by
    intro front
    induction front using List.reverseRecOn with
    | nil => exact fun _ y hy => absurd hy List.not_mem_nil
    | append_singleton front x ih =>
      rintro ⟨back, rfl⟩ y hy
      have hprefix : front <+: front ++ [x] ++ back := ⟨[x] ++ back, by simp⟩
      rw [List.append_assoc] at hl h h'
      rcases List.mem_append.mp hy with hy | hy
      · exact ih hprefix y hy
      · rw [List.mem_singleton.mp hy]
        exact ⟨h.mem_of_mem hasymm hl h' (ih hprefix),
          h'.mem_of_mem hasymm hl h fun z hz => (ih hprefix z hz).symm⟩
  have hnodup := nodup_of_asymm hasymm hl
  have hperm : taken.Perm taken' := by
    refine (List.perm_ext_iff_of_nodup (hnodup.sublist h.sublist) (hnodup.sublist h'.sublist)).mpr
      fun y => ?_
    constructor
    · exact fun hy => (hagree l (List.prefix_refl l) y (h.sublist.subset hy)).mp hy
    · exact fun hy => (hagree l (List.prefix_refl l) y (h'.sublist.subset hy)).mpr hy
  exact List.Perm.eq_of_pairwise (fun a b _ _ hab hba => absurd hba (hasymm _ _ hab))
    (hl.sublist h.sublist) (hl.sublist h'.sublist) hperm

/-! ### Putting some elements last -/

def putLast (late : α → Bool) (l : List α) : List α := l.filter (!late ·) ++ l.filter late

def beforeLast (late : α → Bool) (before : α → α → Prop) (a b : α) : Prop :=
  (late a = false ∧ late b = true) ∨ (late a = late b ∧ before a b)

theorem putLast_perm (late : α → Bool) (l : List α) : (putLast late l).Perm l := by
  have hperm := List.filter_append_perm late l
  unfold putLast
  exact (List.perm_append_comm).trans hperm

theorem mem_putLast {late : α → Bool} : x ∈ putLast late l ↔ x ∈ l := (putLast_perm late l).mem_iff

theorem putLast_pairwise (late : α → Bool) (hl : l.Pairwise before) :
    (putLast late l).Pairwise (beforeLast late before) := by
  have hpart : ∀ p : α → Bool, (∀ a b, p a = true → p b = true → late a = late b) →
      (l.filter p).Pairwise (beforeLast late before) := by
    intro p hsame
    refine (hl.sublist List.filter_sublist).imp_of_mem fun {a b} ha hb hab => Or.inr ⟨?_, hab⟩
    exact hsame a b (List.mem_filter.mp ha).2 (List.mem_filter.mp hb).2
  refine List.pairwise_append.mpr ⟨hpart _ fun a b ha hb => ?_, hpart _ fun a b ha hb => ?_,
    fun a ha b hb => Or.inl ⟨?_, (List.mem_filter.mp hb).2⟩⟩
  · rw [Bool.not_eq_eq_eq_not, Bool.not_true] at ha hb
    rw [ha, hb]
  · rw [ha, hb]
  · simpa using (List.mem_filter.mp ha).2

theorem beforeLast_asymm {late : α → Bool} (hasymm : ∀ a b, before a b → ¬ before b a) (a b : α) :
    beforeLast late before a b → ¬ beforeLast late before b a := by
  rintro (⟨ha, hb⟩ | ⟨hsame, hab⟩) (⟨hb', ha'⟩ | ⟨hsame', hba⟩)
  · rw [ha] at ha'
    cases ha'
  · rw [ha, hb] at hsame'
    cases hsame'
  · rw [ha', hb'] at hsame
    cases hsame
  · exact hasymm a b hab hba

/-- A late element is taken, and one that is not late is left that no taken one before it clashes with,
but for late ones. -/
def Overtakes (clash : α → α → Bool) (before : α → α → Prop) (late : α → Bool) (l taken : List α) :
    Prop :=
  ∃ n ∈ taken, late n = true ∧ ∃ p ∈ l, late p = false ∧ p ∉ taken ∧
    ∀ s ∈ taken, late s = false → before s p → clash s p = false

theorem take_greedy_putLast {late : α → Bool} (hsymm : ∀ a b, clash a b = clash b a)
    (hasymm : ∀ a b, before a b → ¬ before b a) (hl : l.Pairwise before) (limit : ℕ) :
    (greedy clash (putLast late l)).take limit = putLast late ((greedy clash l).take limit) ↔
      ¬ Overtakes clash before late l ((greedy clash l).take limit) := by
  have h := selected_take clash limit hl
  have hlast := selected_take clash limit (putLast_pairwise late hl)
  generalize (greedy clash l).take limit = taken at h ⊢
  generalize (greedy clash (putLast late l)).take limit = other at hlast ⊢
  constructor
  · rintro rfl ⟨n, hn, hlate, p, hp, hearly, hleft, hquiet⟩
    rcases hlast.left p (mem_putLast.mpr hp) (fun hmem => hleft (mem_putLast.mp hmem)) with
      ⟨s, hs, ⟨-, hlate'⟩ | ⟨hsame, hbefore⟩, hclash⟩ | ⟨-, hall⟩
    · rw [hearly] at hlate'
      cases hlate'
    · rw [hquiet s (mem_putLast.mp hs) (hsame.trans hearly) hbefore] at hclash
      cases hclash
    · rcases hall n (mem_putLast.mpr hn) with ⟨hlate', -⟩ | ⟨hsame, -⟩
      · rw [hlate] at hlate'
        cases hlate'
      · rw [hlate, hearly] at hsame
        cases hsame
  · intro hnot
    refine hlast.unique (beforeLast_asymm hasymm) (putLast_pairwise late hl) ⟨?_, ?_, ?_, ?_⟩
    · exact (h.sublist.filter _).append (h.sublist.filter _)
    · refine (putLast_perm late taken).symm.pairwise h.quiet fun {a b} hab => ?_
      rw [hsymm b a]
      exact hab
    · rw [(putLast_perm late taken).length_eq]
      exact h.length_le
    · intro x hx hxleft
      rw [mem_putLast] at hx hxleft
      have hlater : ∀ s, (late x = true ∨ late s = false) → before s x →
          beforeLast late before s x := by
        intro s hor hbefore
        cases hs : late s with
        | true =>
          rcases hor with hx | hs'
          · exact Or.inr ⟨hs.trans hx.symm, hbefore⟩
          · rw [hs] at hs'
            cases hs'
        | false =>
          cases hx : late x with
          | true => exact Or.inl ⟨hs, hx⟩
          | false => exact Or.inr ⟨hs.trans hx.symm, hbefore⟩
      have hkeep : (∀ s ∈ taken, late x = true ∨ late s = false) →
          (∃ s ∈ putLast late taken, beforeLast late before s x ∧ clash s x = true) ∨
            ((putLast late taken).length = limit ∧
              ∀ s ∈ putLast late taken, beforeLast late before s x) := by
        intro hor
        rcases h.left x hx hxleft with ⟨s, hs, hbefore, hclash⟩ | ⟨hfull, hall⟩
        · exact Or.inl ⟨s, mem_putLast.mpr hs, hlater s (hor s hs) hbefore, hclash⟩
        · refine Or.inr ⟨by rw [(putLast_perm late taken).length_eq, hfull], fun s hs => ?_⟩
          have hs' := mem_putLast.mp hs
          exact hlater s (hor s hs') (hall s hs')
      cases hxlate : late x with
      | true => exact hkeep fun _ _ => Or.inl hxlate
      | false =>
        by_cases hn : ∃ n ∈ taken, late n = true
        · obtain ⟨n, hn, hnlate⟩ := hn
          have hclashes : ∃ s ∈ taken, late s = false ∧ before s x ∧ clash s x = true := by
            by_contra hnone
            refine hnot ⟨n, hn, hnlate, x, hx, hxlate, hxleft, fun s hs hearly hbefore => ?_⟩
            by_contra hclash
            exact hnone ⟨s, hs, hearly, hbefore, Bool.eq_true_of_not_eq_false hclash⟩
          obtain ⟨s, hs, hearly, hbefore, hclash⟩ := hclashes
          exact Or.inl ⟨s, mem_putLast.mpr hs, hlater s (Or.inr hearly) hbefore, hclash⟩
        · refine hkeep fun s hs => Or.inr ?_
          by_contra hslate
          exact hn ⟨s, hs, Bool.eq_true_of_not_eq_false hslate⟩

end Limit

end

/-! ### Sorting -/

section

variable {cmp : α → α → Ordering}

def sortBy (cmp : α → α → Ordering) (l : List α) : List α := l.mergeSort fun a b => (cmp a b).isLE

theorem sortBy_perm (l : List α) : (sortBy cmp l).Perm l := List.mergeSort_perm ..

theorem sortBy_pairwise (cmp : α → α → Ordering) [Std.TransCmp cmp] (l : List α) :
    (sortBy cmp l).Pairwise fun a b => (cmp a b).isLE := by
  refine List.pairwise_mergeSort (fun a b c => Std.TransCmp.isLE_trans) (fun a b => ?_) l
  rw [@Std.OrientedCmp.eq_swap _ cmp _ b a]
  cases cmp a b <;> rfl

theorem sorted_unique [Std.TransCmp cmp] [Std.LawfulEqCmp cmp] {l₁ l₂ : List α} (h : l₁.Perm l₂)
    (h₁ : l₁.Pairwise fun a b => (cmp a b).isLE) (h₂ : l₂.Pairwise fun a b => (cmp a b).isLE) :
    l₁ = l₂ :=
  @List.Perm.eq_of_pairwise _ (fun a b => (cmp a b).isLE = true) _ _ (fun _ _ _ _ hab hba =>
    Std.LawfulEqCmp.eq_of_compare (Std.OrientedCmp.isLE_antisymm hab hba)) h₁ h₂ h

theorem sortBy_congr [Std.TransCmp cmp] [Std.LawfulEqCmp cmp] {l₁ l₂ : List α} (h : l₁.Perm l₂) :
    sortBy cmp l₁ = sortBy cmp l₂ :=
  sorted_unique (((sortBy_perm l₁).trans h).trans (sortBy_perm l₂).symm) (sortBy_pairwise cmp _)
    (sortBy_pairwise cmp _)

theorem sortBy_eq [Std.TransCmp cmp] {l l' : List α} (h : l'.Perm l)
    (hl' : l'.Pairwise fun a b => cmp a b = .lt) : sortBy cmp l = l' := by
  have hdistinct : l'.Pairwise fun a b => cmp a b ≠ .eq :=
    hl'.imp fun hlt heq => by simp [hlt] at heq
  have hsymm : Std.Symm fun a b => cmp a b ≠ .eq := by
    refine ⟨fun a b hne heq => ?_⟩
    exact hne (Std.OrientedCmp.eq_symm heq)
  refine List.Perm.eq_of_pairwise (fun a b ha hb hab hba => ?_) (sortBy_pairwise cmp l)
    (hl'.imp fun hlt => by rw [hlt]; rfl) ((sortBy_perm l).trans h.symm)
  by_contra hne
  have ha' : a ∈ l' := h.symm.subset ((sortBy_perm l).subset ha)
  exact hdistinct.forall ha' hb hne (Std.OrientedCmp.isLE_antisymm hab hba)

end

end MadoPilot.Lib
