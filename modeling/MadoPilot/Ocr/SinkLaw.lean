import Mathlib.Data.List.Perm.Basic
import MadoPilot.Ocr.NormalizationLaw
import MadoPilot.Ocr.Recognizer

/-!
# What a sink keeps

A sink that ends without a fault has taken every candidate that was pushed, in the order of the pushes,
and what it kept of a candidate depends on that candidate alone.  So what is left is known from the
pushes that a backend makes while none is refused.

* `Backend.pushed` : these pushes;
* `recognizeInto_gives` : what a sink without a fault holds;
* `sink_entries` : the same in the detector's order.
-/

namespace MadoPilot.Ocr

open MadoPilot.Core MadoPilot.Lib

/-! ### Texts -/

theorem normalizeBackend_obeys (U : Unicode) (raw : ByteArray) :
    (normalizeBackend U raw).Obeys Interrupts := by
  unfold normalizeBackend
  refine .ite (.fail _) ?_
  split
  · exact .fail _
  · refine (Operation.admitted_obeys toError_interrupts).bind fun op => ?_
    refine (trimEdges_obeys _).bind fun trimmed => ?_
    refine (normalizeTrimmed_obeys _).obeys (fun outcome => ?_) ?_
    · exact check_obeys.bind fun _ =>
        (Guarded.Obeys.lift _).bind fun _ => Operation.committed_obeys toError_interrupts
    · rintro outcome ⟨e, rfl, he⟩
      refine check_ends.refused fun _ _ => ?_
      exact .done he

/-! ### Entries -/

namespace Recognition

variable (r : Recognition)

/-- What a region reports of a candidate, where nothing interrupts. -/
def read (c : BackendCandidate) : Except Error RecognizedRegion := do
  let confidence ← (normalizeConfidence c.confidence).mapError OcrFault.toError
  let geometry ← normalizeGeometry c.quadrilateral r.region r.transform r.outputSpace
  let text ← (normalizeBackend r.unicode c.text).quiet
  .ok ⟨text, geometry, confidence⟩

def entry (c : BackendCandidate) : Except Error NormalizedCandidate := do
  let region ← r.read c
  .ok ⟨c.detectorOrder, 0#16, if region.text = [] then none else some region⟩

def groupedEntry (interests : BackendInterests) (c : BackendCandidate) :
    Except Error NormalizedCandidate := do
  let membership ← (candidateInterestMembership c.quadrilateral r.region.extent interests).mapError
    OcrFault.toError
  let region ← r.read c
  .ok ⟨c.detectorOrder, membership,
    if membership = 0#16 ∨ region.text = [] then none else some region⟩

end Recognition

def Keeps (process : Sink → BackendCandidate → Attempted Error Sink)
    (entry : BackendCandidate → Except Error NormalizedCandidate) : Prop :=
  ∀ s c s', (process s c).Gives s' → s.submitted < maxCandidates ∧ ∃ e, entry c = .ok e ∧
    s' = { s with submitted := s.submitted + 1, candidates := s.candidates ++ [e] }

def Orders (entry : BackendCandidate → Except Error NormalizedCandidate) : Prop :=
  ∀ c e, entry c = .ok e → e.detectorOrder = c.detectorOrder

section Sinks

variable {r : Recognition} {interests : BackendInterests}

theorem read_eq_ok {c : BackendCandidate} {confidence : ℚ} {geometry : Quad Point} {text : List Char}
    (hconfidence : (normalizeConfidence c.confidence).mapError OcrFault.toError = .ok confidence)
    (hgeometry : normalizeGeometry c.quadrilateral r.region r.transform r.outputSpace = .ok geometry)
    (htext : (normalizeBackend r.unicode c.text).Gives text) :
    r.read c = .ok ⟨text, geometry, confidence⟩ := by
  unfold Recognition.read
  rw [hconfidence, hgeometry, (normalizeBackend_obeys _ _).gives htext]
  rfl

theorem process_keeps : Keeps (process r) r.entry := by
  intro s c s' h
  obtain ⟨_, -, h⟩ := Guarded.gives_bind h
  split at h
  · exact (Guarded.not_gives_fail h).elim
  · rename_i hroom
    obtain ⟨confidence, hconfidence, h⟩ := Guarded.gives_bind h
    obtain ⟨geometry, hgeometry, h⟩ := Guarded.gives_bind h
    obtain ⟨text, htext, h⟩ := Guarded.gives_bind h
    have hread := read_eq_ok (Guarded.gives_lift hconfidence) (Guarded.gives_lift hgeometry) htext
    refine ⟨Nat.lt_of_not_le hroom, _, ?_, Guarded.gives_pure h⟩
    unfold Recognition.entry
    rw [hread]
    rfl

theorem processGrouped_keeps : Keeps (processGrouped r interests) (r.groupedEntry interests) := by
  intro s c s' h
  obtain ⟨_, -, h⟩ := Guarded.gives_bind h
  split at h
  · exact (Guarded.not_gives_fail h).elim
  · rename_i hroom
    obtain ⟨membership, hmembership, h⟩ := Guarded.gives_bind h
    obtain ⟨confidence, hconfidence, h⟩ := Guarded.gives_bind h
    obtain ⟨geometry, hgeometry, h⟩ := Guarded.gives_bind h
    obtain ⟨text, htext, h⟩ := Guarded.gives_bind h
    have hread := read_eq_ok (Guarded.gives_lift hconfidence) (Guarded.gives_lift hgeometry) htext
    refine ⟨Nat.lt_of_not_le hroom, _, ?_, Guarded.gives_pure h⟩
    unfold Recognition.groupedEntry
    rw [Guarded.gives_lift hmembership, hread]
    rfl

theorem entry_orders : Orders r.entry := by
  intro c e h
  obtain ⟨region, -, h⟩ := bind_eq_ok.mp h
  obtain rfl := Except.ok.inj h
  rfl

theorem groupedEntry_orders : Orders (r.groupedEntry interests) := by
  intro c e h
  obtain ⟨membership, -, h⟩ := bind_eq_ok.mp h
  obtain ⟨region, -, h⟩ := bind_eq_ok.mp h
  obtain rfl := Except.ok.inj h
  rfl

end Sinks

/-! ### Backends -/

namespace Backend

def pushed : Backend → List BackendCandidate
  | returns _ => []
  | pushes c next => c :: (next (.ok ⟨⟩)).pushed

def outcome : Backend → Except Error PUnit
  | returns outcome => outcome
  | pushes _ next => (next (.ok ⟨⟩)).outcome

end Backend

section Backends

variable {process : Sink → BackendCandidate → Attempted Error Sink}
  {entry : BackendCandidate → Except Error NormalizedCandidate} {b : Backend} {s s' : Sink}
  {outcome : Except Error PUnit}

theorem recognizeInto_faulted (hfault : s.fault.isSome = true)
    (h : (recognizeInto process b s).Gives (s', outcome)) : s'.fault.isSome = true := by
  induction b generalizing s with
  | returns o =>
    obtain ⟨rfl, -⟩ := Prod.mk.inj (Guarded.gives_pure h)
    exact hfault
  | pushes c next ih =>
    obtain ⟨fault, hsome⟩ := Option.isSome_iff_exists.mp hfault
    obtain ⟨⟨s₁, answer⟩, hpush, hrest⟩ := Guarded.gives_bind h
    unfold push at hpush
    rw [hsome] at hpush
    obtain ⟨rfl, -⟩ := Prod.mk.inj (Guarded.gives_pure hpush)
    exact ih _ hfault hrest

theorem recognizeInto_gives (hkeeps : Keeps process entry)
    (h : (recognizeInto process b s).Gives (s', outcome)) (hfault : s'.fault = none) :
    outcome = b.outcome ∧ (b.pushed ≠ [] → s.submitted + b.pushed.length ≤ maxCandidates) ∧
      ∃ entries, List.Forall₂ (fun c e => entry c = .ok e) b.pushed entries ∧
        s'.candidates = s.candidates ++ entries := by
  induction b generalizing s with
  | returns o =>
    obtain ⟨rfl, rfl⟩ := Prod.mk.inj (Guarded.gives_pure h)
    exact ⟨rfl, fun hne => absurd rfl hne, [], .nil, (List.append_nil _).symm⟩
  | pushes c next ih =>
    obtain ⟨⟨s₁, answer⟩, hpush, h⟩ := Guarded.gives_bind h
    unfold push at hpush
    split at hpush
    · rename_i fault hsome
      obtain ⟨rfl, -⟩ := Prod.mk.inj (Guarded.gives_pure hpush)
      have hfaulted := recognizeInto_faulted (Option.isSome_iff_exists.mpr ⟨fault, hsome⟩) h
      rw [hfault] at hfaulted
      cases hfaulted
    · obtain ⟨processed, hprocess, hpush⟩ := Guarded.gives_bind hpush
      cases processed with
      | error fault =>
        obtain ⟨rfl, rfl⟩ := Prod.mk.inj (Guarded.gives_pure hpush)
        have hfaulted := recognizeInto_faulted rfl h
        rw [hfault] at hfaulted
        cases hfaulted
      | ok s₂ =>
        obtain ⟨rfl, rfl⟩ := Prod.mk.inj (Guarded.gives_pure hpush)
        obtain ⟨hroom, e, he, rfl⟩ := hkeeps s c s₁ (Guarded.gives_caught hprocess rfl)
        obtain ⟨houtcome, hcount, entries, hentries, hkept⟩ := ih _ h
        refine ⟨houtcome, fun _ => ?_, e :: entries, .cons he hentries, ?_⟩
        · have hlength : (Backend.pushes c next).pushed.length = (next (.ok ⟨⟩)).pushed.length + 1 := rfl
          rw [hlength]
          by_cases hempty : (next (.ok ⟨⟩)).pushed = []
          · rw [hempty, List.length_nil]
            omega
          · have := hcount hempty
            dsimp only at this
            omega
        · rw [hkept, List.append_assoc]
          rfl

end Backends

/-! ### The order of the detector -/

section Sorted

variable {entry : BackendCandidate → Except Error NormalizedCandidate} {s : Sink}

theorem sorted_perm (s : Sink) : s.sorted.Perm s.candidates := sortBy_perm _

instance : Std.TransCmp fun a b : NormalizedCandidate => compare a.detectorOrder b.detectorOrder :=
  inferInstanceAs (Std.TransCmp (compareOn NormalizedCandidate.detectorOrder))

theorem ascending_of_no_duplicate {l : List NormalizedCandidate}
    (hsorted : l.Pairwise fun a b => a.detectorOrder ≤ b.detectorOrder)
    (h : hasDuplicate l = false) : l.Pairwise fun a b => a.detectorOrder < b.detectorOrder := by
  induction l with
  | nil => exact .nil
  | cons a l ih =>
    obtain ⟨hle, hrest⟩ := List.pairwise_cons.mp hsorted
    cases l with
    | nil => exact List.pairwise_singleton _ _
    | cons b l =>
      unfold hasDuplicate at h
      rw [Bool.or_eq_false_iff, beq_eq_false_iff_ne] at h
      have hlater := ih hrest h.2
      have hfirst : a.detectorOrder < b.detectorOrder :=
        UInt32.lt_of_le_of_ne (hle b List.mem_cons_self) h.1
      refine List.pairwise_cons.mpr ⟨fun c hc => ?_, hlater⟩
      rcases List.mem_cons.mp hc with rfl | hc
      · exact hfirst
      · exact UInt32.lt_trans hfirst ((List.pairwise_cons.mp hlater).1 c hc)

theorem sorted_ascending (h : hasDuplicate s.sorted = false) :
    s.sorted.Pairwise fun a b => a.detectorOrder < b.detectorOrder := by
  refine ascending_of_no_duplicate ?_ h
  exact (sortBy_pairwise (fun a b : NormalizedCandidate => compare a.detectorOrder b.detectorOrder)
    s.candidates).imp fun hle => Std.isLE_compare.mp hle

theorem pairwise_of_entries (horders : Orders entry) {l : List BackendCandidate}
    {entries : List NormalizedCandidate} (h : List.Forall₂ (fun c e => entry c = .ok e) l entries)
    (hentries : entries.Pairwise fun a b => a.detectorOrder < b.detectorOrder) :
    l.Pairwise fun a b => a.detectorOrder < b.detectorOrder := by
  induction h with
  | nil => exact .nil
  | @cons c e l entries hce hrest ih =>
    obtain ⟨hfirst, hlater⟩ := List.pairwise_cons.mp hentries
    refine List.pairwise_cons.mpr ⟨fun c' hc' => ?_, ih hlater⟩
    obtain ⟨i, hi, rfl⟩ := List.mem_iff_getElem.mp hc'
    have hlength := hrest.length_eq
    have hentry : entry l[i] = .ok entries[i] := (List.forall₂_iff_get.mp hrest).2 i hi (hlength ▸ hi)
    have hless := hfirst _ (List.getElem_mem (hlength ▸ hi))
    rw [horders _ _ hce] at hless
    rw [← horders _ _ hentry]
    exact hless

/-- **The kept candidates in the detector's order** are entries of the pushes in that order. -/
theorem sorted_entries (horders : Orders entry) {pushed : List BackendCandidate}
    (hentries : List.Forall₂ (fun c e => entry c = .ok e) pushed s.candidates)
    (h : hasDuplicate s.sorted = false) :
    ∃ ordered : List BackendCandidate, ordered.Perm pushed ∧
      ordered.Pairwise (fun a b => a.detectorOrder < b.detectorOrder) ∧
      List.Forall₂ (fun c e => entry c = .ok e) ordered s.sorted := by
  obtain ⟨ordered, hsorted, hperm⟩ := List.perm_comp_forall₂ (sorted_perm s) hentries.flip
  exact ⟨ordered, hperm, pairwise_of_entries horders hsorted.flip (sorted_ascending h), hsorted.flip⟩

theorem sink_entries {process : Sink → BackendCandidate → Attempted Error Sink} {b : Backend}
    {outcome : Except Error PUnit} (hkeeps : Keeps process entry) (horders : Orders entry)
    (hsink : (recognizeInto process b .new).Gives (s, outcome)) (hfault : s.fault = none)
    (hduplicate : hasDuplicate s.sorted = false) :
    ∃ ordered : List BackendCandidate, ordered.Perm b.pushed ∧
      ordered.Pairwise (fun a b => a.detectorOrder < b.detectorOrder) ∧
      List.Forall₂ (fun c e => entry c = .ok e) ordered s.sorted := by
  obtain ⟨-, -, entries, hentries, hkept⟩ := recognizeInto_gives hkeeps hsink hfault
  rw [show Sink.new.candidates = [] from rfl, List.nil_append] at hkept
  rw [← hkept] at hentries
  exact sorted_entries horders hentries hduplicate

end Sorted

end MadoPilot.Ocr
