import Mathlib.Algebra.BigOperators.Group.List.Basic
import Mathlib.Algebra.Order.Field.Rat
import Mathlib.Data.Rat.Floor
import Mathlib.Tactic.Linarith
import Mathlib.Tactic.Positivity
import MadoPilot.Lib.Fallible
import MadoPilot.Lib.Streak
import MadoPilot.Onnx.Decode
import MadoPilot.Onnx.Double

/-!
# What decoding computes

A time step has a *peak*, the first of its best classes with its score.  An item's text is that of its
peaks, adjacent repeats collapsed and blanks dropped; the steps that stay give its confidence.

* `selectClass_eq` : the loop over the classes finds the peak, or a score that is not one;
* `steps_eq` : what the loop over the time steps of an item comes to;
* `decode_law` : the whole of `decode`.
-/

namespace MadoPilot.Onnx

open MadoPilot.Lib
open MadoPilot.Capture (usizeMax)
open MadoPilot.Ocr (roundTiesEven)

/-! ### Peaks -/

def Score.valid (s : Score) : Bool := s.any fun v => decide (0 ≤ v ∧ v ≤ 1)

def Score.value (s : Score) : ℚ := s.getD 0

def stepValid (scores : List Score) : Bool := scores.all Score.valid

def firstArgmax (scores : List Score) : ℕ :=
  scores.findIdx fun s => scores.all fun s' => decide (Score.value s' ≤ Score.value s)

def peak (scores : List Score) : ℕ × ℚ :=
  (firstArgmax scores, Score.value (scores.getD (firstArgmax scores) none))

/-- What the loop has selected of the scores `front`. -/
def Best (front : List Score) (index : ℕ) (best : Option ℚ) : Prop :=
  front = [] ∧ index = 0 ∧ best = none ∨
    ∃ m, best = some m ∧ front[index]? = some (some m) ∧ (∀ s ∈ front, Score.value s ≤ m) ∧
      ∀ j < index, ∀ s, front[j]? = some s → Score.value s < m

variable {front scores : List Score} {index : ℕ} {best : Option ℚ}

theorem Best.start : Best [] 0 none := Or.inl ⟨rfl, rfl, rfl⟩

theorem Best.take {v : ℚ} (h : Best front index best) (hv : ∀ m, best = some m → m < v) :
    Best (front ++ [some v]) front.length (some v) := by
  have hbelow : ∀ s ∈ front, Score.value s < v := by
    rcases h with ⟨rfl, -, -⟩ | ⟨m, hm, -, hmax, -⟩
    · intro s hs
      cases hs
    · intro s hs
      exact lt_of_le_of_lt (hmax s hs) (hv m hm)
  refine Or.inr ⟨v, rfl, List.getElem?_concat_length, ?_, ?_⟩
  · intro s hs
    rcases List.mem_append.mp hs with hs | hs
    · exact (hbelow s hs).le
    · obtain rfl := List.mem_singleton.mp hs
      exact le_refl _
  · intro j hj s hs
    rw [List.getElem?_append_left hj] at hs
    exact hbelow s (List.mem_of_getElem? hs)

theorem Best.keep {v m : ℚ} (h : Best front index (some m)) (hv : v ≤ m) :
    Best (front ++ [some v]) index (some m) := by
  rcases h with ⟨-, -, hm⟩ | ⟨m', hm, hat, hmax, hfirst⟩
  · cases hm
  · obtain rfl := Option.some.inj hm
    have hlt : index < front.length := by
      by_contra hge
      rw [List.getElem?_eq_none (Nat.not_lt.mp hge)] at hat
      cases hat
    refine Or.inr ⟨m, rfl, ?_, ?_, ?_⟩
    · rw [List.getElem?_append_left hlt]
      exact hat
    · intro s hs
      rcases List.mem_append.mp hs with hs | hs
      · exact hmax s hs
      · obtain rfl := List.mem_singleton.mp hs
        exact hv
    · intro j hj s hs
      rw [List.getElem?_append_left (by omega)] at hs
      exact hfirst j hj s hs

theorem selectClass_valid (h : Best front index best) (hv : stepValid scores = true) :
    ∃ index' best', selectClass scores front.length index best = .ok (index', best') ∧
      Best (front ++ scores) index' best' := by
  induction scores generalizing front index best with
  | nil => exact ⟨index, best, rfl, by rwa [List.append_nil]⟩
  | cons s scores ih =>
    have hall : Score.valid s = true ∧ stepValid scores = true := by
      simpa [stepValid] using hv
    cases s with
    | none => exact absurd hall.1 Bool.false_ne_true
    | some v =>
      have hrange : 0 ≤ v ∧ v ≤ 1 := by simpa [Score.valid] using hall.1
      have hsplit : front ++ some v :: scores = (front ++ [some v]) ++ scores := by simp
      have hlen : front.length + 1 = (front ++ [some v]).length := by simp
      rw [selectClass, if_pos hrange, hsplit, hlen]
      by_cases hbest : best.all (fun m => decide (m < v)) = true
      · rw [if_pos hbest]
        refine ih (h.take fun m hm => ?_) hall.2
        rw [hm] at hbest
        exact of_decide_eq_true hbest
      · rw [if_neg hbest]
        cases best with
        | none => exact absurd rfl hbest
        | some m =>
          have hle : v ≤ m := by simpa using hbest
          exact ih (h.keep hle) hall.2

theorem selectClass_invalid {cls : ℕ} (hv : stepValid scores = false) :
    selectClass scores cls index best = .error (.fault .malformedOutput) := by
  induction scores generalizing cls index best with
  | nil => cases hv
  | cons s scores ih =>
    cases s with
    | none => rfl
    | some v =>
      rw [selectClass]
      by_cases hrange : 0 ≤ v ∧ v ≤ 1
      · have hrest : stepValid scores = false := by
          simpa [stepValid, Score.valid, hrange] using hv
        rw [if_pos hrange, ih hrest, ih hrest, ite_self]
      · rw [if_neg hrange]

theorem Best.eq_peak (h : Best scores index best) (hne : scores ≠ []) :
    index < scores.length ∧ index = (peak scores).1 ∧ best = some (peak scores).2 := by
  rcases h with ⟨hnil, -, -⟩ | ⟨m, rfl, hat, hmax, hfirst⟩
  · exact absurd hnil hne
  · obtain ⟨hlt, hget⟩ := List.getElem?_eq_some_iff.mp hat
    have hindex : firstArgmax scores = index := by
      refine (List.findIdx_eq hlt).mpr ⟨?_, ?_⟩
      · rw [hget, List.all_eq_true]
        intro s hs
        exact decide_eq_true (hmax s hs)
      · intro j hj
        rw [List.all_eq_false]
        refine ⟨some m, List.mem_of_getElem? hat, ?_⟩
        have hbelow := hfirst j hj scores[j] (List.getElem?_eq_getElem (by omega))
        exact fun hle => absurd (of_decide_eq_true hle) (not_le.mpr hbelow)
    refine ⟨hlt, hindex.symm, ?_⟩
    unfold peak
    rw [hindex, List.getD_eq_getElem?_getD, hat]
    rfl

theorem selectClass_eq (hne : scores ≠ []) : selectClass scores 0 0 none =
    if stepValid scores then .ok ((peak scores).1, some (peak scores).2)
    else .error (.fault .malformedOutput) := by
  cases hv : stepValid scores with
  | false => exact selectClass_invalid hv
  | true =>
    obtain ⟨index, best, heq, hbest⟩ := selectClass_valid Best.start hv
    obtain ⟨-, rfl, rfl⟩ := hbest.eq_peak hne
    exact heq

theorem firstArgmax_lt (hv : stepValid scores = true) (hne : scores ≠ []) :
    firstArgmax scores < scores.length := by
  obtain ⟨index, best, -, hbest⟩ := selectClass_valid Best.start hv
  obtain ⟨hlt, rfl, -⟩ := hbest.eq_peak hne
  exact hlt

theorem peak_range (hv : stepValid scores = true) (hne : scores ≠ []) :
    0 ≤ (peak scores).2 ∧ (peak scores).2 ≤ 1 := by
  have hlt := firstArgmax_lt hv hne
  have hmem : scores[firstArgmax scores] ∈ scores := List.getElem_mem hlt
  have hvalid := List.all_eq_true.mp hv _ hmem
  unfold peak
  rw [List.getD_eq_getElem?_getD, List.getElem?_eq_getElem hlt]
  generalize scores[firstArgmax scores] = s at hvalid
  cases s with
  | none => cases hvalid
  | some v =>
    have hrange : 0 ≤ v ∧ v ≤ 1 := by simpa [Score.valid] using hvalid
    exact hrange

/-! ### The text and the confidence of an item -/

/-- The steps that stay, as class and score: of adjacent steps with one class the first, and no
blank. -/
def kept (steps : List (List Score)) : List (ℕ × ℚ) :=
  (collapse Prod.fst (steps.map peak)).filter fun p => p.1 ≠ 0

def Vocabulary.text (v : Vocabulary) (steps : List (List Score)) : String :=
  String.join (((collapse id (steps.map firstArgmax)).filter fun cls => cls ≠ 0).filterMap v.token)

/-- The rounded mean of the rounded scores of the steps that stay. -/
def confidence (steps : List (List Score)) : ℚ :=
  if kept steps = [] then 0
  else roundFive (((kept steps).map fun p => roundFive p.2).sum / (kept steps).length)

def leading (steps : List (List Score)) : List (List Score) := steps.takeWhile stepValid

variable {v : Vocabulary} {maxTextBytes : ℕ} {steps : List (List Score)}

theorem kept_classes (steps : List (List Score)) :
    (kept steps).map Prod.fst = (collapse id (steps.map firstArgmax)).filter fun cls => cls ≠ 0 := by
  unfold kept
  have hmap : (steps.map peak).map Prod.fst = steps.map firstArgmax := by
    rw [List.map_map]
    rfl
  rw [← hmap, ← map_collapse, List.filter_map]
  rfl

theorem text_eq_kept : v.text steps = String.join ((kept steps).filterMap fun p => v.token p.1) := by
  unfold Vocabulary.text
  rw [← kept_classes, List.filterMap_map]
  rfl

theorem kept_concat (steps : List (List Score)) (scores : List Score) :
    kept (steps ++ [scores]) = kept steps ++
      if steps.getLast?.map firstArgmax = some (firstArgmax scores) ∨ firstArgmax scores = 0 then []
      else [peak scores] := by
  have hlast : (steps.map peak).getLast?.map Prod.fst = steps.getLast?.map firstArgmax := by
    rw [List.getLast?_map, Option.map_map]
    rfl
  unfold kept
  rw [List.map_append, List.map_singleton, collapse_concat, hlast, List.filter_append]
  by_cases hdup : steps.getLast?.map firstArgmax = some (firstArgmax scores)
  · rw [if_pos (by exact hdup), if_pos (Or.inl hdup), List.filter_nil]
  · rw [if_neg (by exact hdup)]
    by_cases hblank : firstArgmax scores = 0
    · rw [if_pos (Or.inr hblank), List.filter_singleton]
      simp [peak, hblank]
    · rw [if_neg (not_or.mpr ⟨hdup, hblank⟩), List.filter_singleton]
      simp [peak, hblank]

theorem Vocabulary.token_isSome (v : Vocabulary) {cls : ℕ} (h₀ : cls ≠ 0) (h : cls < CLASSES) :
    ∃ token, v.token cls = some token := by
  have hclasses : CLASSES = ENTRIES + 2 := rfl
  unfold Vocabulary.token
  rw [if_neg h₀]
  by_cases hentry : cls ≤ ENTRIES
  · have hlt : cls - 1 < v.entries.length := by
      rw [v.length_eq]
      omega
    exact ⟨v.entries[cls - 1], by rw [if_pos hentry, List.getElem?_eq_getElem hlt]⟩
  · exact ⟨" ", by rw [if_neg hentry, if_pos (by omega)]⟩

/-! ### The loop over the time steps -/

def after (v : Vocabulary) (steps : List (List Score)) : Decoding :=
  ⟨v.text steps, (steps.getLast?.map firstArgmax).getD usizeMax,
    ((kept steps).map fun p => roundFive p.2).sum, (kept steps).length⟩

/-- What the loop comes to: the text passes the limit before a score is found that is not valid, such a
score is found, or neither. -/
def outcome (v : Vocabulary) (maxTextBytes : ℕ) (steps : List (List Score)) : Except Stop Decoding :=
  if maxTextBytes < (v.text (leading steps)).utf8ByteSize then .error (.fault .resourceLimit)
  else if steps.all stepValid then .ok (after v steps)
  else .error (.fault .malformedOutput)

theorem step_valid {d : Decoding} (hlen : scores.length = CLASSES) (hv : stepValid scores = true) :
    d.step v maxTextBytes scores =
      d.select v maxTextBytes (peak scores |>.map id some) := by
  have hne : scores ≠ [] := by
    rintro rfl
    cases hlen
  unfold Decoding.step
  rw [selectClass_eq hne, if_pos hv]
  rfl

theorem step_invalid {d : Decoding} (hv : stepValid scores = false) :
    d.step v maxTextBytes scores = .error (.fault .malformedOutput) := by
  unfold Decoding.step
  rw [selectClass_invalid hv]
  rfl

theorem previous_iff (hlt : firstArgmax scores < CLASSES) :
    firstArgmax scores = (steps.getLast?.map firstArgmax).getD usizeMax ↔
      steps.getLast?.map firstArgmax = some (firstArgmax scores) := by
  have hmax : CLASSES ≤ usizeMax := by decide
  cases steps.getLast?.map firstArgmax with
  | none =>
    refine iff_of_false (fun h => ?_) nofun
    have heq : firstArgmax scores = usizeMax := h
    omega
  | some cls =>
    refine ⟨fun h => congrArg some h.symm, fun h => ?_⟩
    exact (Option.some.inj h).symm

theorem text_concat (steps : List (List Score)) (scores : List Score) :
    v.text (steps ++ [scores]) = v.text steps ++
      if steps.getLast?.map firstArgmax = some (firstArgmax scores) ∨ firstArgmax scores = 0 then ""
      else (v.token (firstArgmax scores)).getD "" := by
  rw [text_eq_kept, text_eq_kept, kept_concat]
  by_cases hstays : steps.getLast?.map firstArgmax = some (firstArgmax scores) ∨ firstArgmax scores = 0
  · rw [if_pos hstays, if_pos hstays, List.append_nil, String.append_empty]
  · rw [if_neg hstays, if_neg hstays, List.filterMap_append, String.join_append]
    congr 1
    have hpeak : (peak scores).1 = firstArgmax scores := rfl
    cases htoken : v.token (firstArgmax scores) with
    | none => simp [hpeak, htoken]
    | some token => simp [hpeak, htoken]

theorem text_size_mono (steps more : List (List Score)) :
    (v.text steps).utf8ByteSize ≤ (v.text (steps ++ more)).utf8ByteSize := by
  induction more using List.reverseRecOn with
  | nil => rw [List.append_nil]
  | append_singleton more scores ih =>
    rw [← List.append_assoc, text_concat, String.utf8ByteSize_append]
    omega

theorem select_skip {d : Decoding} {selected : ℕ × Option ℚ}
    (h : selected.1 = d.previous ∨ selected.1 = 0) :
    d.select v maxTextBytes selected = .ok { d with previous := selected.1 } := if_pos h

theorem select_take {d : Decoding} {selected : ℕ × Option ℚ} {token : String}
    (hmax : maxTextBytes ≤ usizeMax) (h : ¬ (selected.1 = d.previous ∨ selected.1 = 0))
    (htoken : v.token selected.1 = some token) :
    d.select v maxTextBytes selected =
      if maxTextBytes < d.text.utf8ByteSize + token.utf8ByteSize then .error (.fault .resourceLimit)
      else .ok ⟨d.text ++ token, selected.1, d.confidenceSum + roundFive (selected.2.getD 0),
        d.confidenceCount + 1⟩ := by
  unfold Decoding.select
  rw [if_neg h, htoken]
  show (if _ then _ else _) = _
  by_cases hover : maxTextBytes < d.text.utf8ByteSize + token.utf8ByteSize
  · rw [if_pos hover]
    refine if_pos ?_
    unfold checkedAdd
    split
    · exact decide_eq_true hover
    · rfl
  · rw [if_neg hover]
    refine if_neg ?_
    unfold checkedAdd
    rw [if_pos (by omega)]
    simpa using hover

theorem select_after (hmax : maxTextBytes ≤ usizeMax) (hlt : firstArgmax scores < CLASSES)
    (hfits : ¬ maxTextBytes < (v.text steps).utf8ByteSize) :
    (after v steps).select v maxTextBytes (peak scores |>.map id some) =
      if maxTextBytes < (v.text (steps ++ [scores])).utf8ByteSize then .error (.fault .resourceLimit)
      else .ok (after v (steps ++ [scores])) := by
  have hprevious : firstArgmax scores = (after v steps).previous ↔
      steps.getLast?.map firstArgmax = some (firstArgmax scores) := previous_iff hlt
  have htext := text_concat (v := v) steps scores
  have hkept := kept_concat steps scores
  have hlast : (after v (steps ++ [scores])).previous = firstArgmax scores := by
    unfold after
    rw [List.getLast?_concat]
    rfl
  by_cases hstays : steps.getLast?.map firstArgmax = some (firstArgmax scores) ∨ firstArgmax scores = 0
  · rw [if_pos hstays, String.append_empty] at htext
    rw [if_pos hstays, List.append_nil] at hkept
    have hafter : after v (steps ++ [scores]) =
        { after v steps with previous := firstArgmax scores } := by
      rw [← hlast]
      unfold after
      rw [htext, hkept]
    rw [if_neg (by rwa [htext]), hafter]
    exact select_skip (hstays.imp hprevious.mpr id)
  · rw [if_neg hstays] at htext hkept
    obtain ⟨token, htoken⟩ := v.token_isSome (fun h => hstays (Or.inr h)) hlt
    rw [htoken, Option.getD_some] at htext
    have hafter : after v (steps ++ [scores]) = ⟨(after v steps).text ++ token, firstArgmax scores,
        (after v steps).confidenceSum + roundFive (peak scores).2,
        (after v steps).confidenceCount + 1⟩ := by
      rw [← hlast]
      unfold after
      rw [htext, hkept, List.map_append, List.sum_append, List.length_append]
      simp
    have hsize : (v.text (steps ++ [scores])).utf8ByteSize =
        (after v steps).text.utf8ByteSize + token.utf8ByteSize := by
      rw [htext, String.utf8ByteSize_append]
      rfl
    rw [hafter, hsize]
    exact select_take hmax (fun h => hstays (h.imp hprevious.mp id)) htoken

theorem leading_concat_of_invalid (h : steps.all stepValid = false) :
    leading (steps ++ [scores]) = leading steps := by
  unfold leading
  rw [List.takeWhile_append, if_neg]
  intro hlength
  have hall : ∀ s ∈ steps, stepValid s = true := by
    refine List.takeWhile_eq_self_iff.mp ?_
    exact (List.takeWhile_sublist _).eq_of_length hlength
  exact Bool.false_ne_true (h.symm.trans (List.all_eq_true.mpr hall))

theorem steps_eq (hmax : maxTextBytes ≤ usizeMax) (hlen : ∀ scores ∈ steps, scores.length = CLASSES) :
    steps.foldlM (Decoding.step v maxTextBytes) Decoding.start = outcome v maxTextBytes steps := by
  induction steps using List.reverseRecOn with
  | nil =>
    have htext : (v.text []).utf8ByteSize = 0 := rfl
    have hnot : ¬ maxTextBytes < (v.text (leading [])).utf8ByteSize := by
      rw [show leading [] = [] from rfl, htext]
      omega
    unfold outcome
    rw [if_neg hnot]
    rfl
  | append_singleton steps scores ih =>
    have hrest : ∀ scores ∈ steps, scores.length = CLASSES := fun s hs =>
      hlen s (List.mem_append_left _ hs)
    have hscores : scores.length = CLASSES := hlen scores (by simp)
    rw [List.foldlM_append, ih hrest]
    unfold outcome
    cases hall : steps.all stepValid with
    | false =>
      have hlead : leading (steps ++ [scores]) = leading steps := leading_concat_of_invalid hall
      have hall' : (steps ++ [scores]).all stepValid = false := by
        rw [List.all_append, hall]
        rfl
      rw [hlead, hall']
      by_cases hfits : maxTextBytes < (v.text (leading steps)).utf8ByteSize
      · rw [if_pos hfits, if_pos hfits]
        rfl
      · rw [if_neg hfits, if_neg hfits]
        rfl
    | true =>
      have hvalid := List.all_eq_true.mp hall
      have hlead : leading steps = steps := List.takeWhile_eq_self_iff.mpr hvalid
      have hlead' : leading (steps ++ [scores]) = steps ++ leading [scores] :=
        List.takeWhile_append_of_pos hvalid
      rw [hlead, hlead', List.all_append, hall, Bool.true_and]
      by_cases hfits : maxTextBytes < (v.text steps).utf8ByteSize
      · have hmono := text_size_mono (v := v) steps (leading [scores])
        rw [if_pos hfits, if_pos (by omega)]
        rfl
      · rw [if_neg hfits]
        show [scores].foldlM (Decoding.step v maxTextBytes) (after v steps) = _
        rw [List.foldlM_cons]
        cases hv : stepValid scores with
        | false =>
          have hnone : leading [scores] = [] := List.takeWhile_cons_of_neg (by rw [hv]; exact nofun)
          have hsingle : [scores].all stepValid = false := by rw [List.all_cons, hv]; rfl
          rw [step_invalid hv, hnone, List.append_nil, if_neg hfits, hsingle]
          rfl
        | true =>
          have hone : leading [scores] = [scores] := List.takeWhile_cons_of_pos hv
          have hsingle : [scores].all stepValid = true := by rw [List.all_cons, hv]; rfl
          have hlt : firstArgmax scores < CLASSES := by
            rw [← hscores]
            exact firstArgmax_lt hv (List.ne_nil_of_length_pos (by rw [hscores]; decide))
          rw [step_valid hscores hv, select_after hmax hlt hfits, hone, hsingle]
          split
          · rfl
          · rfl

/-! ### Confidence -/

theorem roundFive_range {x : ℚ} (h₀ : 0 ≤ x) (h₁ : x ≤ 1) : 0 ≤ roundFive x ∧ roundFive x ≤ 1 := by
  have hscaled : x * 100000 ≤ ((100000 : ℤ) : ℚ) := by
    push_cast
    linarith
  obtain ⟨hlow, hhigh⟩ := roundTiesEven_range (by positivity) hscaled
  have hlow' : (0 : ℚ) ≤ roundTiesEven (x * 100000) := by exact_mod_cast hlow
  have hhigh' : (roundTiesEven (x * 100000) : ℚ) ≤ 100000 := by exact_mod_cast hhigh
  unfold roundFive
  exact ⟨by positivity, by linarith⟩

theorem mean_range {l : List ℚ} (hne : l ≠ []) (h : ∀ x ∈ l, 0 ≤ x ∧ x ≤ 1) :
    0 ≤ l.sum / l.length ∧ l.sum / l.length ≤ 1 := by
  have hsum : 0 ≤ l.sum ∧ l.sum ≤ l.length := by
    clear hne
    induction l with
    | nil => simp
    | cons x l ih =>
      obtain ⟨hx₀, hx₁⟩ := h x List.mem_cons_self
      obtain ⟨hl₀, hl₁⟩ := ih fun y hy => h y (List.mem_cons_of_mem _ hy)
      rw [List.sum_cons, List.length_cons]
      push_cast
      exact ⟨by linarith, by linarith⟩
  have hpos : (0 : ℚ) < l.length := by
    have hlen := List.length_pos_iff.mpr hne
    exact_mod_cast hlen
  exact ⟨div_nonneg hsum.1 hpos.le, (div_le_one hpos).mpr hsum.2⟩

theorem confidence_range (hlen : ∀ scores ∈ steps, scores.length = CLASSES)
    (hv : steps.all stepValid = true) : 0 ≤ confidence steps ∧ confidence steps ≤ 1 := by
  unfold confidence
  split
  · exact ⟨le_refl 0, zero_le_one⟩
  · rename_i hne
    have hscores : ∀ x ∈ (kept steps).map fun p => roundFive p.2, 0 ≤ x ∧ x ≤ 1 := by
      intro x hx
      obtain ⟨p, hp, rfl⟩ := List.mem_map.mp hx
      have hmem : p ∈ steps.map peak := (collapse_sublist _ _).subset (List.mem_of_mem_filter hp)
      obtain ⟨scores, hs, rfl⟩ := List.mem_map.mp hmem
      have hscores : scores ≠ [] := List.ne_nil_of_length_pos (by rw [hlen scores hs]; decide)
      obtain ⟨h₀, h₁⟩ := peak_range (List.all_eq_true.mp hv scores hs) hscores
      exact roundFive_range h₀ h₁
    have hmean := mean_range (by simpa using hne) hscores
    rw [List.length_map] at hmean
    exact roundFive_range hmean.1 hmean.2

/-! ### The tensor -/

def stepsOf (probabilities : List Score) (timeSteps batchIndex : ℕ) : List (List Score) :=
  (List.range timeSteps).map fun timeIndex =>
    (probabilities.drop ((batchIndex * timeSteps + timeIndex) * CLASSES)).take CLASSES

variable {shape : List ℤ} {probabilities : List Score}
  {expectedBatch maxOutputBytes batch timeSteps : ℕ}

theorem recognizerOutputElements_eq_ok {elements : ℕ}
    (h : recognizerOutputElements batch timeSteps = .ok elements) :
    elements = batch * timeSteps * CLASSES ∧ elements ≤ usizeMax := by
  obtain ⟨value, hvalue, hmul⟩ := Option.bind_eq_some_iff.mp (okOr_eq_ok.mp h)
  obtain ⟨rfl, -⟩ := checkedMul_eq_some.mp hvalue
  obtain ⟨rfl, hle⟩ := checkedMul_eq_some.mp hmul
  exact ⟨rfl, hle⟩

theorem recognizerOutputBytes_eq_ok {bytes : ℕ}
    (h : recognizerOutputBytes batch timeSteps = .ok bytes) :
    bytes = batch * timeSteps * CLASSES * 4 ∧ bytes ≤ usizeMax := by
  obtain ⟨elements, helements, h⟩ := bind_eq_ok.mp h
  obtain ⟨rfl, -⟩ := recognizerOutputElements_eq_ok helements
  obtain ⟨rfl, hle⟩ := checkedMul_eq_some.mp (okOr_eq_ok.mp h)
  exact ⟨rfl, hle⟩

theorem checkOutput_eq_ok {length : ℕ}
    (h : checkOutput shape length expectedBatch maxOutputBytes = .ok (batch, timeSteps)) :
    shape = [(batch : ℤ), (timeSteps : ℤ), (CLASSES : ℤ)] ∧ batch = expectedBatch ∧ 0 < batch ∧
      0 < timeSteps ∧ length = batch * timeSteps * CLASSES ∧ length ≤ usizeMax ∧
      length * 4 ≤ maxOutputBytes := by
  unfold checkOutput at h
  split at h
  · rename_i b t c
    by_cases hpos : b ≤ 0 ∨ t ≤ 0 ∨ c ≤ 0
    · rw [if_pos hpos] at h
      cases h
    · rw [if_neg hpos] at h
      by_cases hshape : b.toNat ≠ expectedBatch ∨ c.toNat ≠ CLASSES
      · rw [if_pos hshape] at h
        cases h
      · rw [if_neg hshape] at h
        obtain ⟨elements, helements, h⟩ := bind_eq_ok.mp h
        obtain ⟨bytes, hbytes, h⟩ := bind_eq_ok.mp h
        obtain ⟨rfl, hfits⟩ := recognizerOutputElements_eq_ok helements
        obtain ⟨rfl, -⟩ := recognizerOutputBytes_eq_ok hbytes
        by_cases hlength : b.toNat * t.toNat * CLASSES ≠ length ∨
            maxOutputBytes < b.toNat * t.toNat * CLASSES * 4
        · rw [if_pos hlength] at h
          cases h
        · rw [if_neg hlength] at h
          obtain ⟨rfl, rfl⟩ := Prod.mk.inj (Except.ok.inj h)
          obtain ⟨hlength, hbudget⟩ := not_or.mp hlength
          obtain ⟨hbatch, hclasses⟩ := not_or.mp hshape
          obtain rfl := not_not.mp hlength
          obtain rfl := not_not.mp hbatch
          have hthree : b = b.toNat ∧ t = t.toNat ∧ c = CLASSES := by
            have hc := not_not.mp hclasses
            omega
          refine ⟨?_, rfl, by omega, by omega, rfl, hfits, by omega⟩
          rw [← hthree.1, ← hthree.2.1, hthree.2.2]
  · cases h

theorem offset_le {b t : ℕ} (hb : b < batch) (ht : t < timeSteps) :
    (b * timeSteps + t) * CLASSES + CLASSES ≤ batch * timeSteps * CLASSES := by
  have hitem : (b + 1) * timeSteps ≤ batch * timeSteps := Nat.mul_le_mul_right _ hb
  have hstep : b * timeSteps + t + 1 ≤ batch * timeSteps := by
    rw [Nat.succ_mul] at hitem
    omega
  calc (b * timeSteps + t) * CLASSES + CLASSES = (b * timeSteps + t + 1) * CLASSES :=
        (Nat.succ_mul _ _).symm
    _ ≤ batch * timeSteps * CLASSES := Nat.mul_le_mul_right _ hstep

theorem stepScores_eq {b t : ℕ} (hlen : probabilities.length = batch * timeSteps * CLASSES)
    (hb : b < batch) (ht : t < timeSteps) : stepScores probabilities timeSteps b t =
      .ok ((probabilities.drop ((b * timeSteps + t) * CLASSES)).take CLASSES) := by
  have hle := offset_le hb ht
  have hslice : Raster.slice probabilities ((b * timeSteps + t) * CLASSES)
      ((b * timeSteps + t) * CLASSES + CLASSES) = some _ :=
    if_pos ⟨Nat.le_add_right _ _, hlen.symm ▸ hle⟩
  show orPanic (Raster.slice probabilities ((b * timeSteps + t) * CLASSES)
    ((b * timeSteps + t) * CLASSES + CLASSES)) = _
  rw [hslice, Nat.add_sub_cancel_left]
  rfl

theorem length_stepsOf {b : ℕ} (hlen : probabilities.length = batch * timeSteps * CLASSES)
    (hb : b < batch) : ∀ scores ∈ stepsOf probabilities timeSteps b, scores.length = CLASSES := by
  intro scores hscores
  obtain ⟨t, ht, rfl⟩ := List.mem_map.mp hscores
  have hle := offset_le hb (List.mem_range.mp ht)
  rw [List.length_take, List.length_drop, hlen]
  omega

theorem decodeItem_eq {b : ℕ} (hmax : maxTextBytes ≤ usizeMax)
    (hlen : probabilities.length = batch * timeSteps * CLASSES) (hb : b < batch) :
    decodeItem v maxTextBytes probabilities timeSteps b =
      (outcome v maxTextBytes (stepsOf probabilities timeSteps b)).map Decoding.decoded := by
  have hloop : (List.range timeSteps).foldlM (fun d timeIndex => do
      let scores ← stepScores probabilities timeSteps b timeIndex
      d.step v maxTextBytes scores) Decoding.start =
        outcome v maxTextBytes (stepsOf probabilities timeSteps b) := by
    rw [← steps_eq hmax (length_stepsOf hlen hb), stepsOf, List.foldlM_map]
    refine foldlM_congr (fun d t ht => ?_) _
    rw [stepScores_eq hlen hb (List.mem_range.mp ht)]
    rfl
  unfold decodeItem
  rw [hloop]
  cases outcome v maxTextBytes (stepsOf probabilities timeSteps b) <;> rfl

theorem decoded_after (steps : List (List Score)) :
    (after v steps).decoded = ⟨v.text steps, confidence steps⟩ := by
  have hcount : (kept steps).length = 0 ↔ kept steps = [] := List.length_eq_zero_iff
  unfold Decoding.decoded confidence after
  by_cases hnone : kept steps = []
  · rw [if_pos hnone, if_pos (hcount.mpr hnone)]
  · rw [if_neg hnone, if_neg (fun h => hnone (hcount.mp h))]

theorem decode_eq (hmax : maxTextBytes ≤ usizeMax)
    (h : checkOutput shape probabilities.length expectedBatch maxOutputBytes = .ok (batch, timeSteps)) :
    decode shape probabilities v expectedBatch maxTextBytes maxOutputBytes =
      (List.range batch).mapM fun b =>
        (outcome v maxTextBytes (stepsOf probabilities timeSteps b)).map Decoding.decoded := by
  obtain ⟨-, -, -, -, hlen, -⟩ := checkOutput_eq_ok h
  unfold decode
  rw [h]
  exact mapM_congr fun b hb => decodeItem_eq hmax hlen (List.mem_range.mp hb)

theorem valid_iff (hlen : probabilities.length = batch * timeSteps * CLASSES) :
    (∀ s ∈ probabilities, Score.valid s = true) ↔
      ∀ b < batch, (stepsOf probabilities timeSteps b).all stepValid = true := by
  constructor
  · intro h b _
    rw [List.all_eq_true]
    intro scores hscores
    obtain ⟨t, -, rfl⟩ := List.mem_map.mp hscores
    exact List.all_eq_true.mpr fun s hs => h s (List.mem_of_mem_drop (List.mem_of_mem_take hs))
  · intro h s hs
    obtain ⟨i, hi, rfl⟩ := List.getElem_of_mem hs
    have hclasses : 0 < CLASSES := by decide
    have hquot : i / CLASSES < batch * timeSteps := by
      rw [Nat.div_lt_iff_lt_mul hclasses, ← hlen]
      exact hi
    have hsteps : 0 < timeSteps := by
      by_contra hzero
      rw [Nat.eq_zero_of_not_pos hzero, Nat.mul_zero] at hquot
      exact absurd hquot (Nat.not_lt_zero _)
    have hb : i / CLASSES / timeSteps < batch := (Nat.div_lt_iff_lt_mul hsteps).mpr hquot
    have ht : i / CLASSES % timeSteps < timeSteps := Nat.mod_lt _ hsteps
    have hstep : i / CLASSES / timeSteps * timeSteps + i / CLASSES % timeSteps = i / CLASSES := by
      rw [Nat.mul_comm]
      exact Nat.div_add_mod _ _
    have hscores := List.all_eq_true.mp (h _ hb) _
      (List.mem_map.mpr ⟨i / CLASSES % timeSteps, List.mem_range.mpr ht, rfl⟩)
    refine List.all_eq_true.mp hscores _ ?_
    rw [hstep]
    have hindex : i / CLASSES * CLASSES + i % CLASSES = i := by
      rw [Nat.mul_comm]
      exact Nat.div_add_mod _ _
    refine List.mem_of_getElem? (i := i % CLASSES) ?_
    rw [List.getElem?_take_of_lt (Nat.mod_lt _ hclasses), List.getElem?_drop, hindex,
      List.getElem?_eq_getElem hi]

/-! ### The law -/

/-- Every score of the item is valid and its text is within the limit. -/
def Readable (v : Vocabulary) (maxTextBytes : ℕ) (steps : List (List Score)) : Prop :=
  steps.all stepValid = true ∧ (v.text steps).utf8ByteSize ≤ maxTextBytes

theorem outcome_cases (v : Vocabulary) (maxTextBytes : ℕ) (steps : List (List Score)) :
    maxTextBytes < (v.text (leading steps)).utf8ByteSize ∧ ¬ Readable v maxTextBytes steps ∧
        outcome v maxTextBytes steps = .error (.fault .resourceLimit) ∨
      (v.text (leading steps)).utf8ByteSize ≤ maxTextBytes ∧ steps.all stepValid = false ∧
        outcome v maxTextBytes steps = .error (.fault .malformedOutput) ∨
      (v.text (leading steps)).utf8ByteSize ≤ maxTextBytes ∧ Readable v maxTextBytes steps ∧
        outcome v maxTextBytes steps = .ok (after v steps) := by
  have hlead : steps.all stepValid = true → leading steps = steps := fun hall =>
    List.takeWhile_eq_self_iff.mpr (List.all_eq_true.mp hall)
  unfold outcome
  by_cases hover : maxTextBytes < (v.text (leading steps)).utf8ByteSize
  · refine Or.inl ⟨hover, fun h => ?_, if_pos hover⟩
    rw [hlead h.1] at hover
    exact absurd h.2 (by omega)
  · rw [if_neg hover]
    refine Or.inr ?_
    have hle := Nat.not_lt.mp hover
    cases hall : steps.all stepValid with
    | false => exact Or.inl ⟨hle, rfl, rfl⟩
    | true =>
      refine Or.inr ⟨hle, ⟨hall, ?_⟩, rfl⟩
      rwa [hlead hall] at hle

/-- What `decode` makes of an item. -/
abbrev itemResult (v : Vocabulary) (maxTextBytes : ℕ) (probabilities : List Score) (timeSteps b : ℕ) :
    Except Stop DecodedText :=
  (outcome v maxTextBytes (stepsOf probabilities timeSteps b)).map Decoding.decoded

theorem item_ok {b : ℕ} (h : Readable v maxTextBytes (stepsOf probabilities timeSteps b)) :
    itemResult v maxTextBytes probabilities timeSteps b =
      .ok ⟨v.text (stepsOf probabilities timeSteps b), confidence (stepsOf probabilities timeSteps b)⟩ := by
  rcases outcome_cases v maxTextBytes (stepsOf probabilities timeSteps b) with
    ⟨-, hnot, -⟩ | ⟨-, hinvalid, -⟩ | ⟨-, -, heq⟩
  · exact absurd h hnot
  · exact absurd (hinvalid.symm.trans h.1) Bool.false_ne_true
  · unfold itemResult
    rw [heq, ← decoded_after]
    rfl

theorem item_ok_iff {b : ℕ} : (∃ d, itemResult v maxTextBytes probabilities timeSteps b = .ok d) ↔
    Readable v maxTextBytes (stepsOf probabilities timeSteps b) := by
  refine ⟨?_, fun h => ⟨_, item_ok h⟩⟩
  rintro ⟨d, hd⟩
  unfold itemResult at hd
  rcases outcome_cases v maxTextBytes (stepsOf probabilities timeSteps b) with
    ⟨-, -, heq⟩ | ⟨-, -, heq⟩ | ⟨-, h, -⟩
  · rw [heq] at hd
    cases hd
  · rw [heq] at hd
    cases hd
  · exact h

theorem item_error {b : ℕ} {e : Stop} (h : itemResult v maxTextBytes probabilities timeSteps b = .error e) :
    e = .fault .resourceLimit ∨ e = .fault .malformedOutput := by
  unfold itemResult at h
  rcases outcome_cases v maxTextBytes (stepsOf probabilities timeSteps b) with
    ⟨-, -, heq⟩ | ⟨-, -, heq⟩ | ⟨-, -, heq⟩
  · rw [heq] at h
    exact Or.inl (Except.error.inj h).symm
  · rw [heq] at h
    exact Or.inr (Except.error.inj h).symm
  · rw [heq] at h
    cases h

theorem item_limit_iff {b : ℕ} :
    itemResult v maxTextBytes probabilities timeSteps b = .error (.fault .resourceLimit) ↔
      maxTextBytes < (v.text (leading (stepsOf probabilities timeSteps b))).utf8ByteSize := by
  unfold itemResult
  rcases outcome_cases v maxTextBytes (stepsOf probabilities timeSteps b) with
    ⟨hover, -, heq⟩ | ⟨hfits, -, heq⟩ | ⟨hfits, -, heq⟩
  · rw [heq]
    exact iff_of_true rfl hover
  · rw [heq]
    exact iff_of_false nofun (by omega)
  · rw [heq]
    exact iff_of_false nofun (by omega)

theorem item_malformed_iff {b : ℕ} :
    itemResult v maxTextBytes probabilities timeSteps b = .error (.fault .malformedOutput) ↔
      (v.text (leading (stepsOf probabilities timeSteps b))).utf8ByteSize ≤ maxTextBytes ∧
        (stepsOf probabilities timeSteps b).all stepValid = false := by
  unfold itemResult
  rcases outcome_cases v maxTextBytes (stepsOf probabilities timeSteps b) with
    ⟨hover, -, heq⟩ | ⟨hfits, hinvalid, heq⟩ | ⟨-, h, heq⟩
  · rw [heq]
    exact iff_of_false nofun fun hfits => absurd hfits.1 (by omega)
  · rw [heq]
    exact iff_of_true rfl ⟨hfits, hinvalid⟩
  · rw [heq]
    refine iff_of_false nofun fun hinvalid => ?_
    exact Bool.false_ne_true (hinvalid.2.symm.trans h.1)

theorem decode_error {e : Stop} (hmax : maxTextBytes ≤ usizeMax)
    (h : checkOutput shape probabilities.length expectedBatch maxOutputBytes = .ok (batch, timeSteps))
    (he : decode shape probabilities v expectedBatch maxTextBytes maxOutputBytes = .error e) :
    e = .fault .resourceLimit ∨ e = .fault .malformedOutput := by
  rw [decode_eq hmax h] at he
  obtain ⟨b, -, hb, -⟩ := mapM_range_eq_error.mp he
  exact item_error hb

theorem decode_error_iff {e : Stop} (hmax : maxTextBytes ≤ usizeMax)
    (h : checkOutput shape probabilities.length expectedBatch maxOutputBytes = .ok (batch, timeSteps)) :
    decode shape probabilities v expectedBatch maxTextBytes maxOutputBytes = .error e ↔
      ∃ b < batch, itemResult v maxTextBytes probabilities timeSteps b = .error e ∧
        ∀ b' < b, Readable v maxTextBytes (stepsOf probabilities timeSteps b') := by
  rw [decode_eq hmax h, mapM_range_eq_error]
  constructor
  · rintro ⟨b, hb, he, hfirst⟩
    exact ⟨b, hb, he, fun b' hb' => item_ok_iff.mp (hfirst b' hb')⟩
  · rintro ⟨b, hb, he, hfirst⟩
    exact ⟨b, hb, he, fun b' hb' => item_ok_iff.mpr (hfirst b' hb')⟩

theorem decode_readable (hmax : maxTextBytes ≤ usizeMax)
    (h : checkOutput shape probabilities.length expectedBatch maxOutputBytes = .ok (batch, timeSteps))
    (hread : ∀ b < batch, Readable v maxTextBytes (stepsOf probabilities timeSteps b)) :
    decode shape probabilities v expectedBatch maxTextBytes maxOutputBytes =
      .ok ((List.range batch).map fun b => ⟨v.text (stepsOf probabilities timeSteps b),
        confidence (stepsOf probabilities timeSteps b)⟩) := by
  rw [decode_eq hmax h]
  exact mapM_range_eq_ok fun b hb => item_ok (hread b hb)

theorem readable_of_decode {decoded : List DecodedText} (hmax : maxTextBytes ≤ usizeMax)
    (h : checkOutput shape probabilities.length expectedBatch maxOutputBytes = .ok (batch, timeSteps))
    (hd : decode shape probabilities v expectedBatch maxTextBytes maxOutputBytes = .ok decoded) :
    ∀ b < batch, Readable v maxTextBytes (stepsOf probabilities timeSteps b) := by
  intro b hb
  rw [decode_eq hmax h] at hd
  obtain ⟨hlength, hitems⟩ := List.forall₂_iff_get.mp (mapM_eq_ok.mp hd)
  rw [List.length_range] at hlength
  have hitem := hitems b (by rwa [List.length_range]) (by omega)
  rw [List.get_eq_getElem, List.getElem_range] at hitem
  exact item_ok_iff.mp ⟨_, hitem⟩

theorem decode_valid (hmax : maxTextBytes ≤ usizeMax)
    (h : checkOutput shape probabilities.length expectedBatch maxOutputBytes = .ok (batch, timeSteps))
    (hvalid : ∀ b < batch, (stepsOf probabilities timeSteps b).all stepValid = true) :
    decode shape probabilities v expectedBatch maxTextBytes maxOutputBytes =
        .error (.fault .resourceLimit) ↔
      ∃ b < batch, maxTextBytes < (v.text (stepsOf probabilities timeSteps b)).utf8ByteSize := by
  constructor
  · intro he
    obtain ⟨b, hb, hitem, -⟩ := (decode_error_iff hmax h).mp he
    have hlead : leading (stepsOf probabilities timeSteps b) = stepsOf probabilities timeSteps b :=
      List.takeWhile_eq_self_iff.mpr (List.all_eq_true.mp (hvalid b hb))
    have hover := item_limit_iff.mp hitem
    rw [hlead] at hover
    exact ⟨b, hb, hover⟩
  · rintro ⟨b, hb, hover⟩
    cases hd : decode shape probabilities v expectedBatch maxTextBytes maxOutputBytes with
    | ok decoded =>
      have hread := readable_of_decode hmax h hd b hb
      exact absurd hread.2 (by omega)
    | error e =>
      rcases decode_error hmax h hd with rfl | rfl
      · rfl
      · obtain ⟨b', hb', hitem, -⟩ := (decode_error_iff hmax h).mp hd
        have hinvalid := (item_malformed_iff.mp hitem).2
        exact absurd (hinvalid.symm.trans (hvalid b' hb')) Bool.false_ne_true

/-- **Decoding.**  Behind the checks every index is in bounds.  Items that can all be read are decoded,
each on its own; with valid scores exactly a text that passes the limit fails; and otherwise the first
item that cannot be read decides: it fails for its text where the steps before its first invalid score
make the text too long, and as malformed where they do not. -/
theorem decode_law (hmax : maxTextBytes ≤ usizeMax)
    (h : checkOutput shape probabilities.length expectedBatch maxOutputBytes = .ok (batch, timeSteps))
    {result : Except Stop (List DecodedText)}
    (hresult : decode shape probabilities v expectedBatch maxTextBytes maxOutputBytes = result) :
    (∀ b < batch, ∀ t < timeSteps, (b * timeSteps + t) * CLASSES + CLASSES ≤ probabilities.length) ∧
    ((∀ b < batch, Readable v maxTextBytes (stepsOf probabilities timeSteps b)) →
      result = .ok ((List.range batch).map fun b => ⟨v.text (stepsOf probabilities timeSteps b),
        confidence (stepsOf probabilities timeSteps b)⟩)) ∧
    (∀ b < batch, (stepsOf probabilities timeSteps b).all stepValid = true →
      0 ≤ confidence (stepsOf probabilities timeSteps b) ∧
        confidence (stepsOf probabilities timeSteps b) ≤ 1) ∧
    ((∀ s ∈ probabilities, Score.valid s = true) → (result = .error (.fault .resourceLimit) ↔
      ∃ b < batch, maxTextBytes < (v.text (stepsOf probabilities timeSteps b)).utf8ByteSize)) ∧
    ((∃ s ∈ probabilities, Score.valid s = false) → ∃ e, result = .error e) ∧
    (result = .error (.fault .resourceLimit) ↔
      ∃ b < batch, maxTextBytes < (v.text (leading (stepsOf probabilities timeSteps b))).utf8ByteSize ∧
        ∀ b' < b, Readable v maxTextBytes (stepsOf probabilities timeSteps b')) ∧
    (result = .error (.fault .malformedOutput) ↔
      ∃ b < batch, ((v.text (leading (stepsOf probabilities timeSteps b))).utf8ByteSize ≤ maxTextBytes ∧
        (stepsOf probabilities timeSteps b).all stepValid = false) ∧
        ∀ b' < b, Readable v maxTextBytes (stepsOf probabilities timeSteps b')) ∧
    ∀ e, result = .error e → e = .fault .resourceLimit ∨ e = .fault .malformedOutput := by
  subst hresult
  obtain ⟨-, -, -, -, hlen, -, -⟩ := checkOutput_eq_ok h
  refine ⟨?_, decode_readable hmax h, ?_, ?_, ?_, ?_, ?_, ?_⟩
  · intro b hb t ht
    rw [hlen]
    exact offset_le hb ht
  · intro b hb hv
    exact confidence_range (length_stepsOf hlen hb) hv
  · intro hvalid
    exact decode_valid hmax h ((valid_iff hlen).mp hvalid)
  · rintro ⟨s, hs, hinvalid⟩
    cases hd : decode shape probabilities v expectedBatch maxTextBytes maxOutputBytes with
    | error e => exact ⟨e, rfl⟩
    | ok decoded =>
      have hvalid := (valid_iff hlen).mpr fun b hb => (readable_of_decode hmax h hd b hb).1
      exact absurd (hinvalid.symm.trans (hvalid s hs)) Bool.false_ne_true
  · rw [decode_error_iff hmax h]
    simp only [item_limit_iff]
  · rw [decode_error_iff hmax h]
    simp only [item_malformed_iff]
  · intro e he
    exact decode_error hmax h he

/-! ### Inputs -/

def lettersX : Vocabulary := ⟨List.replicate ENTRIES "x", List.length_replicate⟩

def firstEntry : List Score := some 0 :: List.replicate (CLASSES - 1) (some 1)

def unscored : List Score := List.replicate CLASSES none

theorem firstEntry_length : firstEntry.length = CLASSES := by
  rw [firstEntry, List.length_cons, List.length_replicate]
  rfl

theorem firstEntry_peak : firstArgmax firstEntry = 1 := by
  have hat : firstEntry[1]? = some (some 1) := by
    unfold firstEntry
    rw [List.getElem?_cons_succ, List.getElem?_replicate, if_pos (by decide)]
  obtain ⟨hlt, hget⟩ := List.getElem?_eq_some_iff.mp hat
  refine (List.findIdx_eq hlt).mpr ⟨?_, ?_⟩
  · rw [hget, List.all_eq_true]
    intro s hs
    rcases List.mem_cons.mp hs with rfl | hs
    · rfl
    · rw [List.eq_of_mem_replicate hs]
      rfl
  · intro j hj
    obtain rfl : j = 0 := by omega
    rw [List.all_eq_false]
    refine ⟨some 1, List.mem_of_getElem? hat, ?_⟩
    show ¬ decide (Score.value (some 1) ≤ Score.value (some 0)) = true
    decide

theorem firstEntry_valid : stepValid firstEntry = true := by
  rw [stepValid, List.all_eq_true]
  intro s hs
  rcases List.mem_cons.mp hs with rfl | hs
  · rfl
  · rw [List.eq_of_mem_replicate hs]
    rfl

theorem unscored_invalid : stepValid unscored = false := by
  rw [stepValid, List.all_eq_false]
  exact ⟨none, List.mem_replicate.mpr ⟨by decide, rfl⟩, by decide⟩

theorem lettersX_text : lettersX.text [firstEntry] = "x" := by
  have htoken : lettersX.token 1 = some "x" := by
    unfold Vocabulary.token lettersX
    rw [if_neg (by decide), if_pos (by decide), List.getElem?_replicate, if_pos (by decide)]
  unfold Vocabulary.text
  rw [List.map_singleton, firstEntry_peak]
  simp [collapse, htoken]

/-- An over-long text before an invalid score is reported as a limit. -/
theorem limit_before_malformed :
    checkOutput [1, 2, 18710] (firstEntry ++ unscored).length 1 149680 = .ok (1, 2) ∧
      (∃ s ∈ firstEntry ++ unscored, Score.valid s = false) ∧
      decode [1, 2, 18710] (firstEntry ++ unscored) lettersX 1 0 149680 ≠
        .error (.fault .malformedOutput) := by
  have hlen : (firstEntry ++ unscored).length = 37420 := by
    rw [List.length_append, firstEntry_length, unscored, List.length_replicate]
    rfl
  have hcheck : checkOutput [1, 2, 18710] (firstEntry ++ unscored).length 1 149680 = .ok (1, 2) := by
    rw [hlen]
    rfl
  refine ⟨hcheck, ⟨none, ?_, rfl⟩, ?_⟩
  · exact List.mem_append_right _ (List.mem_replicate.mpr ⟨by decide, rfl⟩)
  · have hsteps : stepsOf (firstEntry ++ unscored) 2 0 = [firstEntry, unscored] := by
      have hfirst : ((firstEntry ++ unscored).drop 0).take CLASSES = firstEntry := by
        rw [List.drop_zero, ← firstEntry_length, List.take_left]
      have hsecond : ((firstEntry ++ unscored).drop CLASSES).take CLASSES = unscored := by
        rw [← firstEntry_length, List.drop_left, firstEntry_length, unscored]
        exact List.take_of_length_le (List.length_replicate ▸ le_refl _)
      show [((firstEntry ++ unscored).drop (0 * CLASSES)).take CLASSES,
        ((firstEntry ++ unscored).drop (1 * CLASSES)).take CLASSES] = _
      rw [Nat.zero_mul, Nat.one_mul, hfirst, hsecond]
    have hlead : leading [firstEntry, unscored] = [firstEntry] := by
      unfold leading
      rw [List.takeWhile_cons_of_pos firstEntry_valid, List.takeWhile_cons_of_neg]
      rw [unscored_invalid]
      exact nofun
    have hover : 0 < (lettersX.text (leading (stepsOf (firstEntry ++ unscored) 2 0))).utf8ByteSize := by
      rw [hsteps, hlead, lettersX_text]
      decide
    rw [(decode_error_iff (by decide) hcheck).mpr
      ⟨0, by decide, item_limit_iff.mpr hover, fun b hb => absurd hb (Nat.not_lt_zero b)⟩]
    exact nofun

def blankStep : List Score := List.replicate CLASSES (some 1)

theorem blankStep_peak : firstArgmax blankStep = 0 := by
  have hlt : 0 < blankStep.length := by
    rw [blankStep, List.length_replicate]
    decide
  refine (List.findIdx_eq hlt).mpr ⟨?_, fun j hj => absurd hj (Nat.not_lt_zero j)⟩
  rw [List.all_eq_true]
  intro s hs
  have hfirst : blankStep[0] = some 1 := List.getElem_replicate ..
  rw [hfirst, List.eq_of_mem_replicate hs]
  rfl

theorem window_flatten {α : Type*} {l : List (List α)} {n : ℕ} (h : ∀ x ∈ l, x.length = n) {i : ℕ}
    {x : List α} (hi : l[i]? = some x) : (l.flatten.drop (i * n)).take n = x := by
  induction l generalizing i with
  | nil => cases hi
  | cons first l ih =>
    have hfirst := h first List.mem_cons_self
    cases i with
    | zero =>
      obtain rfl := Option.some.inj hi
      rw [Nat.zero_mul, List.drop_zero, List.flatten_cons, ← hfirst, List.take_left]
    | succ i =>
      rw [List.flatten_cons, Nat.succ_mul, Nat.add_comm, ← List.drop_drop, ← hfirst, List.drop_left, hfirst]
      exact ih (fun y hy => h y (List.mem_cons_of_mem _ hy)) hi

def stepFor (letter : Bool) : List Score := if letter then firstEntry else blankStep

theorem stepFor_spec (letter : Bool) : (stepFor letter).length = CLASSES ∧
    stepValid (stepFor letter) = true ∧ firstArgmax (stepFor letter) = letter.toNat := by
  cases letter with
  | true => exact ⟨firstEntry_length, firstEntry_valid, firstEntry_peak⟩
  | false =>
    refine ⟨List.length_replicate, ?_, blankStep_peak⟩
    rw [stepValid, List.all_eq_true]
    intro s hs
    rw [stepFor, if_neg Bool.false_ne_true, blankStep] at hs
    rw [List.eq_of_mem_replicate hs]
    rfl

theorem lettersX_text_map (letters : List Bool) : lettersX.text (letters.map stepFor) =
    String.join (((collapse id (letters.map Bool.toNat)).filter fun cls => cls ≠ 0).filterMap
      lettersX.token) := by
  unfold Vocabulary.text
  rw [List.map_map, show firstArgmax ∘ stepFor = Bool.toNat from funext fun b => (stepFor_spec b).2.2]

def sampleLetters : List Bool := [true, true, false, true, false, true, false, false]

def sampleScores : List Score := (sampleLetters.map stepFor).flatten

theorem sampleScores_length : sampleScores.length = 149680 := by
  have hlengths : (sampleLetters.map stepFor).map List.length = List.replicate 8 CLASSES := by
    rw [List.map_map, show List.length ∘ stepFor = fun _ => CLASSES from
      funext fun b => (stepFor_spec b).1]
    rfl
  rw [sampleScores, List.length_flatten, hlengths]
  rfl

theorem sampleScores_steps {b : ℕ} (hb : b < 2) :
    stepsOf sampleScores 4 b = ((sampleLetters.drop (b * 4)).take 4).map stepFor := by
  have hwindow : ∀ i letter, sampleLetters[i]? = some letter →
      (sampleScores.drop (i * CLASSES)).take CLASSES = stepFor letter := by
    intro i letter hi
    refine window_flatten (fun x hx => ?_) (by rw [List.getElem?_map, hi]; rfl)
    obtain ⟨letter, -, rfl⟩ := List.mem_map.mp hx
    exact (stepFor_spec letter).1
  have hcases : b = 0 ∨ b = 1 := by omega
  rcases hcases with rfl | rfl
  · show [_, _, _, _] = [stepFor true, stepFor true, stepFor false, stepFor true]
    simp only [List.cons.injEq, and_true]
    exact ⟨hwindow 0 _ rfl, hwindow 1 _ rfl, hwindow 2 _ rfl, hwindow 3 _ rfl⟩
  · show [_, _, _, _] = [stepFor false, stepFor true, stepFor false, stepFor false]
    simp only [List.cons.injEq, and_true]
    exact ⟨hwindow 4 _ rfl, hwindow 5 _ rfl, hwindow 6 _ rfl, hwindow 7 _ rfl⟩

/-- A repeated letter counts once, and a blank parts it from the next; every item has a confidence. -/
theorem decode_law_sample : ∃ first second : ℚ,
    decode [2, 4, 18710] sampleScores lettersX 2 2 598720 = .ok [⟨"xx", first⟩, ⟨"x", second⟩] ∧
      (0 ≤ first ∧ first ≤ 1) ∧ 0 ≤ second ∧ second ≤ 1 := by
  have hcheck : checkOutput [2, 4, 18710] sampleScores.length 2 598720 = .ok (2, 4) := by
    rw [sampleScores_length]
    rfl
  have htoken : lettersX.token 1 = some "x" := by
    unfold Vocabulary.token lettersX
    rw [if_neg (by decide), if_pos (by decide), List.getElem?_replicate, if_pos (by decide)]
  have hfirst : lettersX.text (stepsOf sampleScores 4 0) = "xx" := by
    rw [sampleScores_steps (by decide), lettersX_text_map]
    show String.join ([1, 1].filterMap lettersX.token) = _
    simp [htoken]
  have hsecond : lettersX.text (stepsOf sampleScores 4 1) = "x" := by
    rw [sampleScores_steps (by decide), lettersX_text_map]
    show String.join ([1].filterMap lettersX.token) = _
    simp [htoken]
  have hvalid : ∀ b < 2, (stepsOf sampleScores 4 b).all stepValid = true := by
    intro b hb
    rw [sampleScores_steps hb, List.all_map]
    exact List.all_eq_true.mpr fun letter _ => (stepFor_spec letter).2.1
  have hread : ∀ b < 2, Readable lettersX 2 (stepsOf sampleScores 4 b) := by
    intro b hb
    refine ⟨hvalid b hb, ?_⟩
    have hcases : b = 0 ∨ b = 1 := by omega
    rcases hcases with rfl | rfl
    · rw [hfirst]
      decide
    · rw [hsecond]
      decide
  have hrun : decode [2, 4, 18710] sampleScores lettersX 2 2 598720 = _ := rfl
  obtain ⟨-, hok, hrange, -⟩ := decode_law (by decide) hcheck hrun
  refine ⟨_, _, (hok hread).trans ?_, hrange 0 (by decide) (hvalid 0 (by decide)),
    hrange 1 (by decide) (hvalid 1 (by decide))⟩
  show Except.ok [DecodedText.mk (lettersX.text (stepsOf sampleScores 4 0)) _,
    DecodedText.mk (lettersX.text (stepsOf sampleScores 4 1)) _] = _
  rw [hfirst, hsecond]

end MadoPilot.Onnx
