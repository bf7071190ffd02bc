import MadoPilot.Lib.Segments

/-!
# Package paths

A package path is made from the recorded name of an entry: the name is checked as a whole, split at
its slashes, and joined again without its empty and `.` segments.  The check for a drive prefix looks
at the name as recorded, and dropping the segments before one uncovers it.

A string is known here by its characters.

* `collect_eq` : what the loop over the segments joins;
* `normalizeName_eq_some` : which names are accepted, and what they become;
* `normalize_safe_iff` : exactly the names that hide a drive prefix break the path's promise.
-/

namespace MadoPilot.Assets

open MadoPilot.Lib

/-- An ASCII letter followed by `:`. -/
def hasDrivePrefix : List Char → Bool
  | a :: b :: _ => a.isAlpha && b = ':'
  | _ => false

structure PackagePath where
  name : List Char
  deriving DecidableEq

def keeps (segment : List Char) : Bool := !(segment = [] || segment = ['.'])

/-- The loop over the segments: a `..` ends it. -/
def collect : List (List Char) → List Char → Option (List Char)
  | [], normalized => some normalized
  | segment :: rest, normalized =>
    if segment = ['.', '.'] then none
    else if segment = [] || segment = ['.'] then collect rest normalized
    else collect rest (if normalized = [] then segment else normalized ++ '/' :: segment)

/-- What `normalize` refuses before it looks at the segments. -/
def refuses (name : List Char) : Bool :=
  name = [] || '\x00' ∈ name || '\\' ∈ name || name.head? = some '/' || name.getLast? = some '/'
    || hasDrivePrefix name

namespace PackagePath

/-- `normalize`, of a name that is UTF-8. -/
def normalizeName (name : List Char) : Option PackagePath :=
  if refuses name then none
  else
    match collect (name.splitOn '/') [] with
    | none => none
    | some normalized => if normalized = [] then none else some ⟨normalized⟩

/-- Normalizes a recorded entry name, or returns `none` when it is unsafe. -/
def normalize (raw : ByteArray) : Option PackagePath :=
  raw.utf8Decode?.bind fun name => normalizeName name.toList

def bytes (p : PackagePath) : ByteArray := (String.ofList p.name).toByteArray

structure Safe (p : PackagePath) : Prop where
  drive : hasDrivePrefix p.name = false
  nul : '\x00' ∉ p.name
  backslash : '\\' ∉ p.name
  leading : p.name.head? ≠ some '/'
  trailing : p.name.getLast? ≠ some '/'
  segments : ∀ s ∈ p.name.splitOn '/', s ≠ [] ∧ s ≠ ['.'] ∧ s ≠ ['.', '.']

end PackagePath

/-! ### What the loop joins -/

theorem keeps_iff {segment : List Char} : keeps segment = true ↔ segment ≠ [] ∧ segment ≠ ['.'] := by
  simp [keeps]

theorem intercalate_snoc {done : List (List Char)} (segment : List Char) (h : ∀ s ∈ done, s ≠ []) :
    (if ['/'].intercalate done = [] then segment else ['/'].intercalate done ++ '/' :: segment) =
      ['/'].intercalate (done ++ [segment]) := by
  by_cases hdone : done = []
  · subst hdone
    simp
  · rw [if_neg (Segments.intercalate_ne_nil h hdone), Segments.intercalate_concat hdone]

theorem collect_eq {done : List (List Char)} (segments : List (List Char))
    (h : ∀ s ∈ done, s ≠ []) :
    collect segments (['/'].intercalate done) =
      if ['.', '.'] ∈ segments then none
      else some (['/'].intercalate (done ++ segments.filter keeps)) := by
  induction segments generalizing done with
  | nil => simp [collect]
  | cons s rest ih =>
    rw [collect]
    by_cases hdots : s = ['.', '.']
    · rw [if_pos hdots, if_pos (by rw [hdots]; exact List.mem_cons_self ..)]
    · rw [if_neg hdots]
      have hmem : (['.', '.'] ∈ s :: rest) ↔ ['.', '.'] ∈ rest := by
        rw [List.mem_cons, or_iff_right (Ne.symm hdots)]
      by_cases hskip : (s = [] || s = ['.']) = true
      · have hkeeps : keeps s = false := by
          rw [keeps, hskip]
          rfl
        rw [if_pos hskip, ih h, List.filter_cons_of_neg (by rw [hkeeps]; exact Bool.false_ne_true)]
        simp only [hmem]
      · have hkeeps : keeps s = true := by
          rw [keeps, Bool.not_eq_true] at *
          rw [hskip]
          rfl
        have hs := (keeps_iff.mp hkeeps).1
        have hdone : ∀ t ∈ done ++ [s], t ≠ [] := by
          intro t ht
          rcases List.mem_append.mp ht with hold | hnew
          · exact h t hold
          · rw [List.mem_singleton.mp hnew]
            exact hs
        rw [if_neg hskip, intercalate_snoc s h, ih hdone, List.filter_cons_of_pos hkeeps,
          List.append_assoc, List.singleton_append]
        simp only [hmem]

/-! ### What is accepted -/

/-- The segments of a name that its path keeps. -/
def kept (name : List Char) : List (List Char) := (name.splitOn '/').filter keeps

theorem kept_ne_nil {name s : List Char} (hs : s ∈ kept name) : s ≠ [] := by
  have hkeeps := (List.mem_filter.mp hs).2
  exact (keeps_iff.mp hkeeps).1

theorem slash_not_mem_kept {name s : List Char} (hs : s ∈ kept name) : '/' ∉ s :=
  Segments.not_mem_of_mem_splitOn (List.mem_filter.mp hs).1

namespace PackagePath

variable {name : List Char} {p : PackagePath}

theorem normalizeName_eq_some : normalizeName name = some p ↔
    refuses name = false ∧ ['.', '.'] ∉ name.splitOn '/' ∧ kept name ≠ [] ∧
      p.name = ['/'].intercalate (kept name) := by
  have hcollect := @collect_eq [] (name.splitOn '/') fun s hs => by cases hs
  rw [List.intercalate_nil, List.nil_append] at hcollect
  unfold normalizeName
  by_cases hrefuse : refuses name = true
  · rw [if_pos hrefuse, hrefuse]
    simp
  rw [if_neg hrefuse, hcollect]
  by_cases hdots : ['.', '.'] ∈ name.splitOn '/'
  · rw [if_pos hdots]
    simp [hdots]
  rw [if_neg hdots]
  by_cases hkept : kept name = []
  · have hempty : ['/'].intercalate ((name.splitOn '/').filter keeps) = [] := by
      rw [show (name.splitOn '/').filter keeps = [] from hkept, List.intercalate_nil]
    simp [hempty, hkept]
  · have hne : ['/'].intercalate ((name.splitOn '/').filter keeps) ≠ [] :=
      Segments.intercalate_ne_nil (fun s hs => kept_ne_nil hs) hkept
    simp only [if_neg hne, Option.some.injEq, hdots, not_false_eq_true, ne_eq, hkept, true_and,
      Bool.not_eq_true] at hrefuse ⊢
    rw [hrefuse]
    constructor
    · rintro rfl
      exact ⟨rfl, rfl⟩
    · rintro ⟨-, hp⟩
      cases p
      exact congrArg PackagePath.mk hp.symm

theorem splitOn_of_kept (hkept : kept name ≠ []) (hp : p.name = ['/'].intercalate (kept name)) :
    p.name.splitOn '/' = kept name := by
  rw [hp]
  exact List.splitOn_intercalate '/' (fun s hs => slash_not_mem_kept hs) hkept

theorem drive_of_kept {s : List Char} {rest : List (List Char)} (hkept : kept name = s :: rest)
    (hp : p.name = ['/'].intercalate (kept name)) : hasDrivePrefix p.name = hasDrivePrefix s := by
  have hs : s ≠ [] := kept_ne_nil (hkept ▸ List.mem_cons_self ..)
  rw [hp, hkept]
  cases rest with
  | nil => rw [List.intercalate_singleton]
  | cons s' rest =>
    rw [List.intercalate_cons_cons, List.append_assoc]
    match s, hs with
    | [a], _ =>
      show (a.isAlpha && decide ('/' = ':')) = false
      simp
    | a :: b :: s, _ => rfl

theorem mem_name {c : Char} (hp : p.name = ['/'].intercalate (kept name)) (hc : c ∈ p.name) :
    c = '/' ∨ c ∈ name := by
  rw [hp] at hc
  rcases Segments.mem_intercalate hc with hslash | ⟨s, hs, hcs⟩
  · exact Or.inl hslash
  · exact Or.inr (Segments.mem_of_mem_splitOn (List.mem_filter.mp hs).1 hcs)

theorem safe_of_normalizeName (h : normalizeName name = some p)
    (hdrive : hasDrivePrefix p.name = false) : p.Safe := by
  obtain ⟨hrefuse, hdots, hkept, hp⟩ := normalizeName_eq_some.mp h
  have hsplit := splitOn_of_kept hkept hp
  simp only [refuses, Bool.or_eq_false_iff, decide_eq_false_iff_not] at hrefuse
  obtain ⟨⟨⟨⟨⟨-, hnul⟩, hback⟩, -⟩, -⟩, -⟩ := hrefuse
  have hno : ∀ {c : Char}, c ≠ '/' → c ∉ name → c ∉ p.name := by
    intro c hc hname hmem
    rcases mem_name hp hmem with hslash | hin
    · exact hc hslash
    · exact hname hin
  have hends : ∀ {s : List Char}, s ∈ kept name → s.head? ≠ some '/' ∧ s.getLast? ≠ some '/' := by
    intro s hs
    have hslash := slash_not_mem_kept hs
    exact ⟨fun hh => hslash (List.mem_of_mem_head? hh),
      fun hh => hslash (List.mem_of_getLast? hh)⟩
  refine ⟨hdrive, hno (by decide) hnul, hno (by decide) hback, ?_, ?_, fun s hs => ?_⟩
  · obtain ⟨s, rest, hcons⟩ := List.exists_cons_of_ne_nil hkept
    have hs : s ∈ kept name := hcons ▸ List.mem_cons_self ..
    rw [hp, hcons, Segments.head?_intercalate (kept_ne_nil hs)]
    exact (hends hs).1
  · obtain ⟨s, hs, hlast⟩ := @Segments.getLast?_intercalate _ '/' _
      (fun s hs => kept_ne_nil hs) hkept
    rw [hp, hlast]
    exact (hends hs).2
  · rw [hsplit] at hs
    obtain ⟨hmem, hkeeps⟩ := List.mem_filter.mp hs
    obtain ⟨hempty, hdot⟩ := keeps_iff.mp hkeeps
    refine ⟨hempty, hdot, ?_⟩
    rintro rfl
    exact hdots hmem

theorem Safe.normalizeName (h : p.Safe) : normalizeName p.name = some p := by
  have hsegments := h.segments
  have hall : kept p.name = p.name.splitOn '/' := by
    refine List.filter_eq_self.mpr fun s hs => ?_
    obtain ⟨hempty, hdot, -⟩ := hsegments s hs
    exact keeps_iff.mpr ⟨hempty, hdot⟩
  have hne : p.name ≠ [] := by
    intro hnil
    have hs := hsegments [] (by rw [hnil, List.splitOn_nil]; exact List.mem_singleton_self _)
    exact hs.1 rfl
  refine normalizeName_eq_some.mpr ⟨?_, fun hdots => (hsegments _ hdots).2.2 rfl, ?_, ?_⟩
  · simp only [refuses, Bool.or_eq_false_iff, decide_eq_false_iff_not]
    exact ⟨⟨⟨⟨⟨hne, h.nul⟩, h.backslash⟩, h.leading⟩, h.trailing⟩, h.drive⟩
  · rw [hall]
    exact List.splitOn_ne_nil '/' p.name
  · rw [hall, List.intercalate_splitOn]

end PackagePath

/-! ### The result -/

/-- The name passes every check, and the first segment that its path keeps has a drive prefix. -/
def HidesDrive (raw : ByteArray) : Prop :=
  ∃ name s rest, raw.utf8Decode? = some name ∧ refuses name.toList = false ∧
    ['.', '.'] ∉ name.toList.splitOn '/' ∧ kept name.toList = s :: rest ∧ hasDrivePrefix s = true

namespace PackagePath

theorem normalize_bytes (p : PackagePath) : normalize p.bytes = normalizeName p.name := by
  unfold normalize bytes
  rw [String.toByteArray_ofList, List.utf8Decode?_utf8Encode, Option.bind_some]

/-- **Exactly the names that hide a drive prefix break the promise of a package path**: of every
other name the path, if there is one, is safe and its own path. -/
theorem normalize_safe_iff (raw : ByteArray) :
    (∀ p, normalize raw = some p → p.Safe ∧ normalize p.bytes = some p) ↔ ¬ HidesDrive raw := by
  constructor
  · rintro hall ⟨name, s, rest, hdecode, hrefuse, hdots, hkept, hdrive⟩
    have hp : normalize raw = some ⟨['/'].intercalate (kept name.toList)⟩ := by
      unfold normalize
      rw [hdecode, Option.bind_some]
      refine normalizeName_eq_some.mpr ⟨hrefuse, hdots, ?_, rfl⟩
      rw [hkept]
      exact List.cons_ne_nil _ _
    have hsame := drive_of_kept (p := ⟨['/'].intercalate (kept name.toList)⟩) hkept rfl
    have hsafe := hsame.symm.trans (hall _ hp).1.drive
    rw [hdrive] at hsafe
    cases hsafe
  · intro hno p hp
    obtain ⟨name, hdecode, hname⟩ := Option.bind_eq_some_iff.mp hp
    obtain ⟨hrefuse, hdots, hkept, hjoin⟩ := normalizeName_eq_some.mp hname
    obtain ⟨s, rest, hcons⟩ := List.exists_cons_of_ne_nil hkept
    have hdrive : hasDrivePrefix p.name = false := by
      rw [drive_of_kept hcons hjoin, Bool.eq_false_iff]
      exact fun hs => hno ⟨name, s, rest, hdecode, hrefuse, hdots, hcons, hs⟩
    have hsafe := safe_of_normalizeName hname hdrive
    rw [normalize_bytes]
    exact ⟨hsafe, hsafe.normalizeName⟩

/-- The recorded name `./c:x.png`. -/
def hiddenDrive : ByteArray := "./c:x.png".toByteArray

/-- `./c:x.png` becomes `c:x.png`, which has a drive prefix and is refused. -/
theorem normalize_uncovers_drive :
    ¬ ∀ raw p, normalize raw = some p → p.Safe ∧ normalize p.bytes = some p := by
  intro hall
  have hp : normalize hiddenDrive = some ⟨"c:x.png".toList⟩ := by
    unfold normalize hiddenDrive
    rw [← String.utf8Encode_toList, List.utf8Decode?_utf8Encode]
    decide
  have hdrive := (hall _ _ hp).1.drive
  exact absurd hdrive (by decide)

end PackagePath

end MadoPilot.Assets
