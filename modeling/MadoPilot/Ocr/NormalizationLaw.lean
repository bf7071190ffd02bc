import MadoPilot.Ocr.Normalization

/-!
# What normalization gives

The collector follows the text without the blanks at its front: while it fits, the scratch is that
text, and once it does not fit, only blanks may follow.  Everything before the collector either
decides the same question earlier or hands the collector a text on which trimming and composing may
be exchanged.

* `Collecting` : the invariant of the collector;
* `collectBounded_quiet` : it gives the trimmed text, where that fits;
* `normalizeTrimmed_quiet` : the preflight and the quick check agree with composing everything;
* `normalizeLiteral_spec` : the caller's literal.
-/

namespace MadoPilot.Ocr

open MadoPilot.Core MadoPilot.Lib

/-! ### Bytes -/

section Bytes

variable {a b : List Char} {ch : Char}

@[simp] theorem byteLength_nil : byteLength [] = 0 := rfl

@[simp] theorem byteLength_append : byteLength (a ++ b) = byteLength a + byteLength b := by
  unfold byteLength
  rw [List.map_append, List.sum_append]

@[simp] theorem byteLength_singleton : byteLength [ch] = ch.utf8Size := by
  unfold byteLength
  simp

theorem byteLength_mono (h : a <+: b) : byteLength a ≤ byteLength b := by
  obtain ⟨c, rfl⟩ := h
  rw [byteLength_append]
  exact Nat.le_add_right _ _

theorem length_le_byteLength (a : List Char) : a.length ≤ byteLength a := by
  induction a with
  | nil => exact Nat.le_refl 0
  | cons ch a ih =>
    have hpos := ch.utf8Size_pos
    have hsplit : byteLength (ch :: a) = ch.utf8Size + byteLength a := rfl
    rw [hsplit, List.length_cons]
    omega

theorem byteLength_eq_zero : byteLength a = 0 ↔ a = [] := by
  constructor
  · intro h
    have := length_le_byteLength a
    exact List.eq_nil_of_length_eq_zero (by omega)
  · rintro rfl
    rfl

end Bytes

/-! ### The collector -/

/-- What the collector holds after it has read `text`. -/
structure Collecting (text : List Char) (st : Collected) : Prop where
  used : st.used = byteLength st.scratch
  fits : st.used ≤ maxTextBytes
  kept : st.kept = trim isWhitespace text
  stored : byteLength st.kept ≤ st.used
  whole : st.overflow = false → st.scratch = lead isWhitespace text
  beyond : st.overflow = true → 0 < st.used ∧ maxTextBytes < byteLength (lead isWhitespace text)

section Collect

variable {text rest : List Char} {st : Collected} {ch : Char}

theorem Collecting.start : Collecting [] .start :=
  ⟨rfl, Nat.zero_le _, rfl, Nat.le_refl 0, fun _ => rfl, fun h => by cases h⟩

theorem Collecting.lead_concat (h : Collecting text st)
    (hskip : ¬(st.used = 0 ∧ isWhitespace ch = true)) :
    lead isWhitespace (text ++ [ch]) = lead isWhitespace text ++ [ch] := by
  rw [Lib.lead_concat, if_neg]
  rintro ⟨hnil, hblank⟩
  cases hover : st.overflow with
  | false =>
    refine hskip ⟨?_, hblank⟩
    rw [h.used, h.whole hover, hnil, byteLength_nil]
  | true =>
    have hbig := (h.beyond hover).2
    rw [hnil, byteLength_nil] at hbig
    omega

/-- **One character.**  The collector refuses it where the text up to it is above the ceiling and is
not trimmed away. -/
theorem Collecting.step (h : Collecting text st) (ch : Char) :
    (∃ st', collectStep st ch = some st' ∧ Collecting (text ++ [ch]) st') ∨
      collectStep st ch = none ∧ isWhitespace ch = false ∧
        maxTextBytes < byteLength (lead isWhitespace (text ++ [ch])) := by
  have hfour := ch.utf8Size_le_four
  have hceiling : 4 < maxTextBytes := by decide
  by_cases hskip : st.used = 0 ∧ isWhitespace ch = true
  · -- nothing but blanks so far
    have hover : st.overflow = false := by
      by_contra hover
      have hpos := (h.beyond (Bool.not_eq_false _ ▸ hover)).1
      omega
    have hnil : st.scratch = [] := byteLength_eq_zero.mp (h.used ▸ hskip.1)
    have hlead : lead isWhitespace text = [] := (h.whole hover).symm.trans hnil
    have hlead' : lead isWhitespace (text ++ [ch]) = [] := by
      rw [Lib.lead_concat, if_pos ⟨hlead, hskip.2⟩]
    have htrim : trim isWhitespace (text ++ [ch]) = trim isWhitespace text := by
      rw [trim_concat, if_pos hskip.2]
    refine Or.inl ⟨st, ?_, h.used, h.fits, h.kept.trans htrim.symm, h.stored, fun _ => ?_,
      fun hover' => ?_⟩
    · unfold collectStep
      simp [hskip.1, hskip.2]
    · rw [hnil, hlead']
    · rw [hover] at hover'
      cases hover'
  · have hlead := h.lead_concat hskip
    have hgo : (decide (st.used = 0) && isWhitespace ch) = false := by
      rw [Bool.and_eq_false_iff, decide_eq_false_iff_not]
      by_cases hzero : st.used = 0
      · exact Or.inr (Bool.not_eq_true _ ▸ fun hb => hskip ⟨hzero, hb⟩)
      · exact Or.inl hzero
    unfold collectStep
    simp only [hgo, Bool.false_eq_true, if_false]
    by_cases hroom : (!st.overflow && decide (st.used + ch.utf8Size ≤ maxTextBytes)) = true
    · -- the character is stored
      rw [Bool.and_eq_true, Bool.not_eq_true', decide_eq_true_eq] at hroom
      obtain ⟨hover, hfit⟩ := hroom
      have hwhole : st.scratch ++ [ch] = lead isWhitespace (text ++ [ch]) := by
        rw [hlead, h.whole hover]
      have hbytes : st.used + ch.utf8Size = byteLength (st.scratch ++ [ch]) := by
        rw [byteLength_append, byteLength_singleton, h.used]
      rw [hover]
      simp only [Bool.not_false, Bool.true_and, decide_eq_true_eq, if_pos hfit]
      cases hblank : isWhitespace ch with
      | true =>
        refine Or.inl ⟨_, rfl, hbytes, hfit, ?_, ?_, fun _ => hwhole, fun h' => ?_⟩
        · rw [h.kept, trim_concat, if_pos hblank]
        · exact h.stored.trans (Nat.le_add_right _ _)
        · cases h'
      | false =>
        refine Or.inl ⟨_, rfl, hbytes, hfit, ?_, hbytes.ge, fun _ => hwhole, fun h' => ?_⟩
        · rw [trim_concat, hblank, if_neg Bool.false_ne_true, ← hlead, ← hwhole]
        · cases h'
    · -- the character does not fit
      have hbig : maxTextBytes < byteLength (lead isWhitespace (text ++ [ch])) := by
        rw [hlead, byteLength_append, byteLength_singleton]
        cases hover : st.overflow with
        | true =>
          have := (h.beyond hover).2
          omega
        | false =>
          rw [hover, Bool.not_false, Bool.true_and, decide_eq_true_eq, h.used, h.whole hover] at hroom
          omega
      have hpos : 0 < st.used := by
        cases hover : st.overflow with
        | true => exact (h.beyond hover).1
        | false =>
          rw [hover, Bool.not_false, Bool.true_and, decide_eq_true_eq] at hroom
          omega
      rw [if_neg hroom]
      cases hblank : isWhitespace ch with
      | true =>
        refine Or.inl ⟨_, rfl, h.used, h.fits, ?_, h.stored, fun h' => ?_, fun _ => ⟨hpos, hbig⟩⟩
        · rw [h.kept, trim_concat, if_pos hblank]
        · cases h'
      | false => exact Or.inr ⟨rfl, rfl, hbig⟩

/-- **Every text.**  The collector refuses exactly the texts that are above the ceiling. -/
theorem Collecting.run (h : Collecting text st) (rest : List Char) :
    (∃ st', rest.foldlM collectStep st = some st' ∧ Collecting (text ++ rest) st') ∨
      rest.foldlM collectStep st = none ∧
        maxTextBytes < byteLength (trim isWhitespace (text ++ rest)) := by
  induction rest generalizing text st with
  | nil => exact Or.inl ⟨st, rfl, by rwa [List.append_nil]⟩
  | cons ch rest ih =>
    rw [List.foldlM_cons, List.append_cons]
    rcases h.step ch with ⟨st', hstep, hst'⟩ | ⟨hstep, hblank, hbig⟩
    · rw [hstep]
      exact ih hst'
    · rw [hstep]
      refine Or.inr ⟨rfl, Nat.lt_of_lt_of_le hbig (byteLength_mono ?_)⟩
      have hall : trim isWhitespace (text ++ [ch]) = lead isWhitespace (text ++ [ch]) := by
        rw [trim_concat, Lib.lead_concat, hblank]
        simp
      rw [← hall]
      exact trim_prefix_append _ _

theorem stored_le (h : rest.foldlM collectStep .start = some st) :
    byteLength st.scratch ≤ maxTextBytes := by
  rcases Collecting.start.run rest with ⟨st', hst', hgood⟩ | ⟨hnone, -⟩
  · obtain rfl := Option.some.inj (h.symm.trans hst')
    exact hgood.used ▸ hgood.fits
  · rw [hnone] at h
    cases h

end Collect

section Attempt

variable {U : Unicode} {op : Operation} {aboveCeiling : Error}

theorem collectLoop_quiet (hop : op.terminal = none) (stream : CharStream) (st : Collected) :
    (collectLoop op aboveCeiling stream st none).quiet =
      .ok ((stream.quiet.foldlM collectStep st).elim (.error aboveCeiling) fun st => .ok st.kept,
        none) := by
  induction stream generalizing st with
  | nil => rfl
  | pull next ih => exact ih none st
  | cons ch rest ih =>
    unfold collectLoop
    rw [Operation.check_eq hop, Guarded.bind_check_quiet, CharStream.quiet, List.foldlM_cons]
    cases hstep : collectStep st ch with
    | none => rfl
    | some st' =>
      simp only [Guarded.bind_check_quiet]
      exact ih st'

def collected (aboveCeiling : Error) (text : List Char) : Except Error (List Char) :=
  if byteLength text ≤ maxTextBytes then .ok text else .error aboveCeiling

theorem collectBounded_quiet (hop : op.terminal = none) (stream : CharStream) :
    (collectBounded op aboveCeiling stream).quiet =
      .ok (collected aboveCeiling (trim isWhitespace stream.quiet), none) := by
  unfold collectBounded collected
  rw [Operation.check_eq hop, Guarded.bind_check_quiet, collectLoop_quiet hop]
  rcases Collecting.start.run stream.quiet with ⟨st, hst, hgood⟩ | ⟨hnone, hbig⟩
  · have hfits : byteLength st.kept ≤ maxTextBytes := Nat.le_trans hgood.stored hgood.fits
    have hkept : st.kept = trim isWhitespace stream.quiet := hgood.kept
    rw [hst, Option.elim_some, ← hkept, if_pos hfits]
  · rw [List.nil_append] at hbig
    rw [hnone, if_neg (Nat.not_le_of_lt hbig)]
    rfl

/-! ### Trimming and admission -/

theorem trimStart_quiet (hop : op.terminal = none) (text : List Char) :
    (trimStart op text).quiet = .ok (lead isWhitespace text) := by
  induction text with
  | nil => rfl
  | cons ch rest ih =>
    unfold trimStart lead
    rw [Operation.check_eq hop, Guarded.bind_check_quiet]
    cases hblank : isWhitespace ch with
    | true =>
      rw [List.dropWhile_cons_of_pos hblank]
      exact ih
    | false =>
      rw [List.dropWhile_cons_of_neg (by rw [hblank]; exact Bool.false_ne_true)]
      rfl

theorem trimEdges_quiet (hop : op.terminal = none) (text : List Char) :
    (trimEdges op text).quiet = .ok (trim isWhitespace text) := by
  unfold trimEdges
  rw [Guarded.quiet_bind, trimStart_quiet hop]
  show (trimStart op _ >>= _).quiet = _
  rw [Guarded.quiet_bind, trimStart_quiet hop]
  rfl

theorem preflight_quiet (hop : op.terminal = none) (text : List Char) {n : ℕ}
    (hn : n ≤ maxCanonicalScalars) : (preflight U op aboveCeiling text n).quiet =
      .ok (if n + (text.flatMap U.decompose).length ≤ maxCanonicalScalars then .ok ()
        else .error aboveCeiling) := by
  induction text generalizing n with
  | nil => rw [List.flatMap_nil, List.length_nil, Nat.add_zero, if_pos hn]; rfl
  | cons ch rest ih =>
    unfold preflight
    rw [Operation.check_eq hop, Guarded.bind_check_quiet, List.flatMap_cons, List.length_append,
      ← Nat.add_assoc]
    by_cases hfit : n + (U.decompose ch).length ≤ maxCanonicalScalars
    · rw [if_pos hfit, ih hfit]
    · rw [if_neg hfit, if_neg (by omega)]
      rfl

end Attempt

/-! ### Composition -/

section Compose

variable {U : Unicode} {text : List Char}

theorem Unicode.length_le (U : Unicode) (text : List Char) :
    text.length ≤ (text.flatMap U.decompose).length ∧
      (text.flatMap U.decompose).length ≤ text.length * canonicalDecompositionBound := by
  induction text with
  | nil => exact ⟨Nat.le_refl 0, Nat.zero_le _⟩
  | cons ch rest ih =>
    obtain ⟨hone, hfour⟩ := U.decompose_length ch
    rw [List.flatMap_cons, List.length_append, List.length_cons, Nat.succ_mul]
    omega

theorem Unicode.nfc_eq_nil : U.nfc text = [] ↔ text = [] := by
  have hsame := (U.nfc_decompose text).length_eq
  have hnfc := (U.length_le (U.nfc text)).1
  have htext := (U.length_le text).1
  constructor
  · intro h
    rw [h, List.flatMap_nil, List.length_nil] at hsame
    exact List.eq_nil_of_length_eq_zero (by omega)
  · rintro rfl
    rw [List.flatMap_nil, List.length_nil] at hsame
    exact List.eq_nil_of_length_eq_zero (by omega)

theorem Unicode.admitted_of_fits (h : byteLength (U.nfc text) ≤ maxTextBytes) :
    (text.flatMap U.decompose).length ≤ maxCanonicalScalars := by
  have hsame := (U.nfc_decompose text).length_eq
  have hfour := (U.length_le (U.nfc text)).2
  have hbytes := length_le_byteLength (U.nfc text)
  unfold maxCanonicalScalars
  have hmul := Nat.mul_le_mul_right canonicalDecompositionBound (Nat.le_trans hbytes h)
  omega

theorem normalizeTrimmed_quiet {op : Operation} (hop : op.terminal = none) {aboveCeiling : Error}
    (htrim : trim isWhitespace text = text) :
    (normalizeTrimmed U op aboveCeiling text).quiet = .ok (collected aboveCeiling (U.nfc text)) := by
  unfold normalizeTrimmed
  rw [Guarded.quiet_bind, preflight_quiet hop text (Nat.zero_le _), Nat.zero_add]
  show (op.check _ >>= _).quiet = _
  rw [Operation.check_eq hop, Guarded.bind_check_quiet]
  by_cases hadmitted : (text.flatMap U.decompose).length ≤ maxCanonicalScalars
  · rw [if_pos hadmitted]
    by_cases hquick : U.quick text = .yes
    · have hself := U.quick_yes text hquick
      simp only [if_pos hquick]
      unfold collected
      rw [hself]
      by_cases hfit : byteLength text ≤ maxTextBytes
      · rw [if_neg (Nat.not_lt.mpr hfit), if_pos hfit]
        rfl
      · rw [if_pos (Nat.lt_of_not_le hfit), if_neg hfit]
        rfl
    · simp only [if_neg hquick, Guarded.quiet_bind, collectBounded_quiet hop, U.nfcStream_quiet,
        U.trim_nfc, htrim]
      rfl
  · have hbig : ¬byteLength (U.nfc text) ≤ maxTextBytes := fun h => hadmitted (U.admitted_of_fits h)
    unfold collected
    rw [if_neg hadmitted, if_neg hbig]
    rfl

def literalValue (U : Unicode) (text : List Char) : Except Error (List Char) :=
  if trim isWhitespace (U.nfc text) = [] then .error literalEmpty
  else collected literalAboveCeiling (trim isWhitespace (U.nfc text))

theorem normalizeLiteral_quiet (U : Unicode) (text : List Char) :
    (normalizeLiteral U text).quiet = literalValue U text := by
  have hop : (⟨none⟩ : Operation).terminal = none := rfl
  have houtcome : (literalOutcome U ⟨none⟩ text).quiet = .ok (literalValue U text) := by
    unfold literalOutcome literalValue
    rw [Guarded.quiet_bind, trimEdges_quiet hop, U.trim_nfc]
    show (if _ then _ else _ : Attempted Error _).quiet = _
    by_cases hnil : trim isWhitespace text = []
    · rw [if_pos hnil, if_pos (Unicode.nfc_eq_nil.mpr hnil)]
      rfl
    · rw [if_neg hnil, if_neg (fun h => hnil (Unicode.nfc_eq_nil.mp h)),
        normalizeTrimmed_quiet hop (trim_trim text)]
  unfold normalizeLiteral
  rw [Guarded.quiet_bind, Operation.admitted_quiet]
  show (literalOutcome U ⟨none⟩ text >>= _).quiet = _
  rw [Guarded.quiet_bind, houtcome]
  show (Operation.check _ _ >>= _).quiet = _
  rw [Operation.check_eq hop, Guarded.bind_check_quiet, Guarded.quiet_bind, Guarded.quiet_lift]
  cases literalValue U text with
  | error e => rfl
  | ok value => exact Operation.committed_quiet hop

end Compose

/-! ### Interruptions -/

section Interruptions

variable {U : Unicode} {op : Operation} {aboveCeiling : Error}

theorem check_obeys : (op.check Interruption.toError).Obeys Interrupts :=
  Operation.check_obeys toError_interrupts

theorem check_ends : (op.check Interruption.toError).Ends Interrupts fun _ => True :=
  Operation.check_ends toError_interrupts

theorem collectLoop_ends (stream : CharStream) (st : Collected) (i : Interruption) :
    (collectLoop op aboveCeiling stream st (some i)).Ends Interrupts fun r => r.2 ≠ none := by
  induction stream generalizing st i with
  | nil => exact .ok (Option.some_ne_none i)
  | pull next ih =>
    refine .ask fun answer => ?_
    cases answer with
    | none => exact ih none st i
    | some j => exact ih (some j) st j
  | cons ch rest ih =>
    refine check_ends.bind fun _ _ => ?_
    cases collectStep st ch with
    | none => exact .ok (Option.some_ne_none i)
    | some st' => exact check_ends.bind fun _ _ => ih st' i

theorem collectLoop_obeys (stream : CharStream) (st : Collected) :
    (collectLoop op aboveCeiling stream st none).ObeysInto Interrupts fun r => r.2 ≠ none := by
  induction stream generalizing st with
  | nil => exact .done _
  | pull next ih => exact .ask (fun i => collectLoop_ends (next (some i)) st i) (ih none st)
  | cons ch rest ih =>
    refine check_obeys.bind_into fun _ => ?_
    cases collectStep st ch with
    | none => exact .done _
    | some st' => exact check_obeys.bind_into fun _ => ih st'

theorem trimStart_obeys (text : List Char) : (trimStart op text).Obeys Interrupts := by
  induction text with
  | nil => exact .pure _
  | cons ch rest ih => exact check_obeys.bind fun _ => .ite (.pure _) ih

theorem trimEdges_obeys (text : List Char) : (trimEdges op text).Obeys Interrupts :=
  (trimStart_obeys text).bind fun _ => (trimStart_obeys _).bind fun _ => .pure _

theorem preflight_obeys (text : List Char) (n : ℕ) :
    (preflight U op aboveCeiling text n).Obeys Interrupts := by
  induction text generalizing n with
  | nil => exact .pure _
  | cons ch rest ih => exact check_obeys.bind fun _ => .ite (ih _) (.pure _)

def Reports (outcome : Except Error (List Char)) : Prop := ∃ e, outcome = .error e ∧ Interrupts e

theorem normalizeTrimmed_obeys (text : List Char) :
    (normalizeTrimmed U op aboveCeiling text).ObeysInto Interrupts Reports := by
  refine (preflight_obeys text 0).bind_into fun admitted => check_obeys.bind_into fun _ => ?_
  cases admitted with
  | error e => exact .done _
  | ok admitted =>
    show (if _ then _ else _ : Attempted Error _).ObeysInto _ _
    by_cases hquick : U.quick text = .yes
    · rw [if_pos hquick]
      split
      · exact .done _
      · exact .done _
    · rw [if_neg hquick]
      refine (check_obeys.bind_into fun _ => collectLoop_obeys _ _).bind (fun _ => .done _) ?_
      rintro ⟨outcome, seen⟩ hseen
      obtain ⟨i, rfl⟩ := Option.ne_none_iff_exists'.mp hseen
      exact .ok ⟨_, rfl, toError_interrupts i⟩

theorem normalizeLiteral_obeys (U : Unicode) (text : List Char) :
    (normalizeLiteral U text).Obeys Interrupts := by
  refine (Operation.admitted_obeys toError_interrupts).bind fun op => ?_
  have houtcome : (literalOutcome U op text).ObeysInto Interrupts Reports := by
    refine (trimEdges_obeys text).bind_into fun trimmed => ?_
    split
    · exact .done _
    · exact normalizeTrimmed_obeys trimmed
  refine houtcome.obeys (fun outcome => ?_) ?_
  · exact check_obeys.bind fun _ => (Guarded.Obeys.lift _).bind fun _ =>
      Operation.committed_obeys toError_interrupts
  · rintro outcome ⟨e, rfl, he⟩
    refine check_ends.refused fun _ _ => ?_
    exact .done he

end Interruptions

/-! ### The caller's literal -/

section Literal

variable {U : Unicode} {text v : List Char} {answers : ℕ → Option Interruption} {e : Error}

theorem collected_eq_ok : collected e text = .ok v ↔ v = text ∧ byteLength text ≤ maxTextBytes := by
  unfold collected
  by_cases h : byteLength text ≤ maxTextBytes
  · rw [if_pos h]
    exact ⟨fun hv => ⟨(Except.ok.inj hv).symm, h⟩, fun hv => congrArg _ hv.1.symm⟩
  · rw [if_neg h]
    exact ⟨fun hv => (by cases hv), fun hv => absurd hv.2 h⟩

theorem literalValue_eq_ok : literalValue U text = .ok v ↔
    v = trim isWhitespace (U.nfc text) ∧ v ≠ [] ∧ byteLength v ≤ maxTextBytes := by
  unfold literalValue
  by_cases hnil : trim isWhitespace (U.nfc text) = []
  · rw [if_pos hnil]
    exact ⟨fun h => (by cases h), fun h => absurd (h.1.trans hnil) h.2.1⟩
  · rw [if_neg hnil, collected_eq_ok]
    constructor
    · rintro ⟨rfl, hfit⟩
      exact ⟨rfl, hnil, hfit⟩
    · rintro ⟨rfl, -, hfit⟩
      exact ⟨rfl, hfit⟩

theorem literalValue_status (U : Unicode) (text : List Char) :
    ((∃ e, literalValue U text = .error e ∧ e.status = .invalidArgument) ↔
      trim isWhitespace (U.nfc text) = []) ∧
    ((∃ e, literalValue U text = .error e ∧ e.status = .limitExceeded) ↔
      maxTextBytes < byteLength (trim isWhitespace (U.nfc text))) := by
  unfold literalValue collected
  by_cases hnil : trim isWhitespace (U.nfc text) = []
  · rw [if_pos hnil]
    refine ⟨iff_of_true ⟨_, rfl, rfl⟩ hnil, iff_of_false ?_ ?_⟩
    · rintro ⟨e, he, hstatus⟩
      obtain rfl := Except.error.inj he
      cases hstatus
    · rw [hnil]
      exact Nat.not_lt_zero _
  · rw [if_neg hnil]
    by_cases hfit : byteLength (trim isWhitespace (U.nfc text)) ≤ maxTextBytes
    · rw [if_pos hfit]
      refine ⟨iff_of_false ?_ hnil, iff_of_false ?_ (Nat.not_lt.mpr hfit)⟩
      · rintro ⟨e, he, -⟩
        cases he
      · rintro ⟨e, he, -⟩
        cases he
    · rw [if_neg hfit]
      refine ⟨iff_of_false ?_ hnil, iff_of_true ⟨_, rfl, rfl⟩ (Nat.lt_of_not_le hfit)⟩
      rintro ⟨e, he, hstatus⟩
      obtain rfl := Except.error.inj he
      cases hstatus

theorem run_refused_iff {status : Status} (hcancelled : status ≠ .cancelled)
    (hdeadline : status ≠ .deadlineExceeded) :
    (∃ e, (normalizeLiteral U text).run answers = .error e ∧ e.status = status) ↔
      (normalizeLiteral U text).Uninterrupted answers ∧
        ∃ e, literalValue U text = .error e ∧ e.status = status := by
  rw [← normalizeLiteral_quiet]
  constructor
  · rintro ⟨e, he, hstatus⟩
    rcases (normalizeLiteral_obeys U text).run_cases answers with
      ⟨hquiet, heq⟩ | ⟨-, e', he', hinterrupts⟩
    · exact ⟨hquiet, e, heq ▸ he, hstatus⟩
    · obtain rfl := Except.error.inj (he.symm.trans he')
      rcases hinterrupts with h | h
      · exact absurd (hstatus.symm.trans h) hcancelled
      · exact absurd (hstatus.symm.trans h) hdeadline
  · rintro ⟨hquiet, e, he, hstatus⟩
    exact ⟨e, (Guarded.run_eq_quiet hquiet).trans he, hstatus⟩

/-- **Normalization is trimming and composing, within the ceiling.**  Under answers that do not
interrupt it, a literal becomes its trimmed composition exactly where that is not empty and fits,
an empty one is an invalid argument and one that does not fit exceeds the limit; an interruption is
all that another result reports.  What is normalized stays as it is.  The collector gives the
trimmed text of every stream exactly where it fits, and never stores more than fits. -/
theorem normalizeLiteral_spec (U : Unicode) (text : List Char) (answers : ℕ → Option Interruption) :
    (∀ v, (normalizeLiteral U text).run answers = .ok v ↔
      (normalizeLiteral U text).Uninterrupted answers ∧
        v = trim isWhitespace (U.nfc text) ∧ v ≠ [] ∧ byteLength v ≤ maxTextBytes) ∧
    ((∃ e, (normalizeLiteral U text).run answers = .error e ∧ e.status = .invalidArgument) ↔
      (normalizeLiteral U text).Uninterrupted answers ∧ trim isWhitespace (U.nfc text) = []) ∧
    ((∃ e, (normalizeLiteral U text).run answers = .error e ∧ e.status = .limitExceeded) ↔
      (normalizeLiteral U text).Uninterrupted answers ∧
        maxTextBytes < byteLength (trim isWhitespace (U.nfc text))) ∧
    (¬(normalizeLiteral U text).Uninterrupted answers →
      ∃ e, (normalizeLiteral U text).run answers = .error e ∧ Interrupts e) ∧
    (∀ v, (normalizeLiteral U text).run answers = .ok v → ∀ again,
      (normalizeLiteral U v).Uninterrupted again → (normalizeLiteral U v).run again = .ok v) ∧
    (∀ op aboveCeiling stream, op.terminal = none →
      (collectBounded op aboveCeiling stream).Uninterrupted answers →
        ∀ v seen, (collectBounded op aboveCeiling stream).run answers = .ok (.ok v, seen) ↔
          v = trim isWhitespace stream.quiet ∧ byteLength v ≤ maxTextBytes ∧ seen = none) ∧
    ∀ (read : List Char) (st : Collected), read.foldlM collectStep .start = some st → byteLength st.scratch ≤ maxTextBytes := by
  have hok : ∀ v, (normalizeLiteral U text).run answers = .ok v ↔
      (normalizeLiteral U text).Uninterrupted answers ∧
        v = trim isWhitespace (U.nfc text) ∧ v ≠ [] ∧ byteLength v ≤ maxTextBytes := by
    intro v
    rw [(normalizeLiteral_obeys U text).run_eq_ok, normalizeLiteral_quiet, literalValue_eq_ok]
    exact Iff.rfl
  refine ⟨hok, ?_, ?_, fun hinterrupted => ?_, fun v hv again hagain => ?_,
    fun op aboveCeiling stream hop hquiet v seen => ?_, fun read st => stored_le⟩
  · rw [run_refused_iff (by decide) (by decide), (literalValue_status U text).1]
  · rw [run_refused_iff (by decide) (by decide), (literalValue_status U text).2]
  · rcases (normalizeLiteral_obeys U text).run_cases answers with ⟨hquiet, -⟩ | ⟨-, h⟩
    · exact absurd hquiet hinterrupted
    · exact h
  · obtain ⟨-, hvalue, hne, hfit⟩ := (hok v).mp hv
    rw [(normalizeLiteral_obeys U v).run_eq_ok, normalizeLiteral_quiet, literalValue_eq_ok]
    refine ⟨hagain, ?_, hne, hfit⟩
    have hnfc : U.nfc v = v := by rw [hvalue, U.trim_nfc, U.nfc_nfc]
    rw [hnfc, hvalue, trim_trim]
  · rw [Guarded.run_eq_quiet hquiet, collectBounded_quiet hop, Except.ok.injEq, Prod.mk.injEq,
      collected_eq_ok]
    constructor
    · rintro ⟨⟨rfl, hfit⟩, rfl⟩
      exact ⟨rfl, hfit, rfl⟩
    · rintro ⟨rfl, hfit, rfl⟩
      exact ⟨⟨rfl, hfit⟩, rfl⟩

end Literal

/-! ### Texts in which one pair composes -/

def CharStream.ofList : List Char → CharStream
  | [] => .nil
  | ch :: rest => .cons ch (ofList rest)

theorem CharStream.quiet_ofList (text : List Char) : (ofList text).quiet = text := by
  induction text with
  | nil => rfl
  | cons ch rest ih => exact congrArg (ch :: ·) ih

def acute : Char := '\u0301'

/-- The letter `e` and an acute accent become one character. -/
def glue (ch : Char) (rest : List Char) : List Char :=
  match rest with
  | [] => [ch]
  | mark :: rest => if ch = 'e' ∧ mark = acute then 'é' :: rest else ch :: mark :: rest

def compose (text : List Char) : List Char := text.foldr glue []

def decomposeAccent (ch : Char) : List Char := if ch = 'é' then ['e', acute] else [ch]

theorem glue_cases (ch : Char) (rest : List Char) : glue ch rest = ch :: rest ∨
    ch = 'e' ∧ ∃ tail, rest = acute :: tail ∧ glue ch rest = 'é' :: tail := by
  unfold glue
  split
  · exact Or.inl rfl
  · rename_i mark tail
    split_ifs with h
    · exact Or.inr ⟨h.1, tail, by rw [h.2], rfl⟩
    · exact Or.inl rfl

theorem compose_glue {ch : Char} {rest : List Char} (h : compose rest = rest) :
    compose (glue ch rest) = glue ch rest := by
  rcases glue_cases ch rest with heq | ⟨-, tail, rfl, heq⟩
  · rw [heq]
    show glue ch (compose rest) = _
    rw [h, heq]
  · rw [heq]
    have htail : compose tail = tail := by
      have hmark : glue acute (compose tail) = acute :: tail := h
      rcases glue_cases acute (compose tail) with hglue | ⟨hne, -⟩
      · exact (List.cons.inj (hglue.symm.trans hmark)).2
      · exact absurd hne (by decide)
    show glue 'é' (compose tail) = _
    rw [htail]
    rcases glue_cases 'é' tail with hglue | ⟨hne, -⟩
    · exact hglue
    · exact absurd hne (by decide)

theorem compose_compose (text : List Char) : compose (compose text) = compose text := by
  induction text with
  | nil => rfl
  | cons ch text ih => exact compose_glue ih

theorem decompose_compose (text : List Char) :
    (compose text).flatMap decomposeAccent = text.flatMap decomposeAccent := by
  induction text with
  | nil => rfl
  | cons ch text ih =>
    show (glue ch (compose text)).flatMap decomposeAccent = _
    rw [List.flatMap_cons, ← ih]
    rcases glue_cases ch (compose text) with heq | ⟨rfl, tail, htail, heq⟩
    · rw [heq, List.flatMap_cons]
    · rw [heq, htail]
      rfl

theorem compose_blank {ch : Char} (h : isWhitespace ch = true) (text : List Char) :
    compose (ch :: text) = ch :: compose text := by
  rcases glue_cases ch (compose text) with heq | ⟨rfl, -⟩
  · exact heq
  · cases h

theorem compose_concat_blank {ch : Char} (h : isWhitespace ch = true) (text : List Char) :
    compose (text ++ [ch]) = compose text ++ [ch] := by
  induction text with
  | nil => rfl
  | cons first text ih =>
    show glue first (compose (text ++ [ch])) = glue first (compose text) ++ [ch]
    rw [ih]
    cases htext : compose text with
    | nil =>
      have hne : ch ≠ acute := by
        rintro rfl
        cases h
      simp [glue, hne]
    | cons mark tail =>
      simp only [glue, List.cons_append]
      split_ifs <;> rfl

theorem compose_concat {ch : Char} (h : isWhitespace ch = false) (text : List Char) :
    ∃ before last, compose (text ++ [ch]) = before ++ [last] ∧ isWhitespace last = false := by
  induction text with
  | nil => exact ⟨[], ch, rfl, h⟩
  | cons first text ih =>
    obtain ⟨before, last, heq, hlast⟩ := ih
    have hfirst : compose (first :: text ++ [ch]) = glue first (before ++ [last]) :=
      congrArg (glue first) heq
    rcases glue_cases first (before ++ [last]) with hglue | ⟨-, tail, htail, hglue⟩
    · exact ⟨first :: before, last, hfirst.trans hglue, hlast⟩
    · rw [hglue] at hfirst
      cases before with
      | nil =>
        obtain ⟨-, rfl⟩ := List.cons.inj htail
        exact ⟨[], 'é', hfirst, by decide⟩
      | cons mark before =>
        obtain ⟨-, rfl⟩ := List.cons.inj htail
        exact ⟨'é' :: before, last, hfirst, hlast⟩

theorem lead_compose (text : List Char) :
    lead isWhitespace (compose text) = compose (lead isWhitespace text) := by
  unfold lead
  induction text with
  | nil => rfl
  | cons ch text ih =>
    by_cases hblank : isWhitespace ch = true
    · rw [compose_blank hblank, List.dropWhile_cons_of_pos hblank, List.dropWhile_cons_of_pos hblank, ih]
    · rw [List.dropWhile_cons_of_neg hblank]
      show List.dropWhile isWhitespace (glue ch (compose text)) = glue ch (compose text)
      rcases glue_cases ch (compose text) with heq | ⟨-, tail, -, heq⟩
      · rw [heq, List.dropWhile_cons_of_neg hblank]
      · rw [heq, List.dropWhile_cons_of_neg (by decide)]

theorem trail_compose (text : List Char) :
    (compose text).rdropWhile isWhitespace = compose (text.rdropWhile isWhitespace) := by
  induction text using List.reverseRecOn with
  | nil => rfl
  | append_singleton text ch ih =>
    by_cases hblank : isWhitespace ch = true
    · rw [compose_concat_blank hblank, List.rdropWhile_concat_pos _ _ _ hblank,
        List.rdropWhile_concat_pos _ _ _ hblank, ih]
    · rw [List.rdropWhile_concat_neg _ _ _ hblank]
      obtain ⟨before, last, heq, hlast⟩ := compose_concat (Bool.not_eq_true _ ▸ hblank) text
      rw [heq, List.rdropWhile_concat_neg _ _ _ (by rw [hlast]; exact Bool.false_ne_true)]

theorem compose_plain {text : List Char} (h : acute ∉ text) : compose text = text := by
  induction text with
  | nil => rfl
  | cons ch text ih =>
    have htext := ih fun hmem => h (List.mem_cons_of_mem _ hmem)
    show glue ch (compose text) = _
    rw [htext]
    rcases glue_cases ch text with heq | ⟨-, tail, rfl, -⟩
    · exact heq
    · exact absurd (List.mem_cons_of_mem _ List.mem_cons_self) h

/-- Unicode as far as this pair goes.  The quick check is sure where there is no accent. -/
def accentUnicode : Unicode where
  decompose := decomposeAccent
  nfc := compose
  nfcStream text := .pull fun _ => .ofList (compose text)
  quick text := if acute ∈ text then .maybe else .yes
  decompose_length ch := by
    unfold decomposeAccent canonicalDecompositionBound
    split_ifs <;> simp
  nfc_decompose text := by rw [decompose_compose]
  trim_nfc text := by
    unfold trim
    rw [lead_compose, trail_compose]
  nfc_nfc := compose_compose
  quick_yes text h := by
    split_ifs at h with hmem
    exact compose_plain hmem
  nfcStream_quiet text := CharStream.quiet_ofList (compose text)

/-- The blanks go and the pair is composed. -/
theorem normalizeLiteral_accent :
    (normalizeLiteral accentUnicode [' ', 'h', 'e', acute, '\t']).run (fun _ => none) =
      .ok ['h', 'é'] :=
  ((normalizeLiteral_spec accentUnicode _ fun _ => none).1 _).mpr
    ⟨fun _ _ => rfl, by decide, by decide, by decide⟩

/-- A cancelled operation normalizes no literal, not even one letter. -/
theorem normalizeLiteral_cancelled :
    trim isWhitespace (accentUnicode.nfc ['a']) = ['a'] ∧ byteLength ['a'] ≤ maxTextBytes ∧
      (normalizeLiteral accentUnicode ['a']).run (fun _ => some .cancelled) ≠ .ok ['a'] := by
  refine ⟨by decide, by decide, fun h => ?_⟩
  cases h

end MadoPilot.Ocr
