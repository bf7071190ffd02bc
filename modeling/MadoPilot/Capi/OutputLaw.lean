import MadoPilot.Capi.Boundary

/-!
# What is written through an output

An output covers the bytes its caller declared, as far as the structure goes.  Only these are ever
written: first the failure state, then every committed value over the one before, each with the listed
padding ranges cleared.

* `write_spec` : what one write leaves;
* `commits_spec` : what a run of commits leaves;
* `output_confined` : all of it.
-/

namespace MadoPilot.Capi

open MadoPilot.Lib

variable {report : List TypeLayout}

/-! ### Clearing the padding -/

def padded (ranges : List (ℕ × ℕ)) (i : ℕ) : Bool :=
  ranges.any fun r => decide (r.1 ≤ i) && decide (i < r.2)

theorem padded_cons (r : ℕ × ℕ) (ranges : List (ℕ × ℕ)) (i : ℕ) :
    padded (r :: ranges) i = true ↔ (r.1 ≤ i ∧ i < r.2) ∨ padded ranges i = true := by
  unfold padded
  rw [List.any_cons, Bool.or_eq_true, Bool.and_eq_true, decide_eq_true_eq, decide_eq_true_eq]

theorem Out.zero_spec {out : Out} {m m' : Memory} {ranges : List (ℕ × ℕ)}
    (h : out.zero m ranges = some m') (x : ℕ) :
    m' x = if out.ptr ≤ x ∧ x < out.ptr + out.size ∧ padded ranges (x - out.ptr) = true then some 0
      else m x := by
  induction ranges generalizing m with
  | nil =>
    obtain rfl := Option.some.inj h
    rw [if_neg fun hx => by cases hx.2.2]
  | cons r ranges ih =>
    obtain ⟨start, stop⟩ := r
    unfold Out.zero at h
    have hcons := padded_cons (start, stop) ranges (x - out.ptr)
    split at h
    next hrange =>
      obtain ⟨m₁, hstore, hrest⟩ := Option.bind_eq_some_iff.mp h
      have hx := Memory.store_eq_some hstore x
      rw [List.length_replicate] at hx
      rw [ih hrest]
      by_cases hlater : out.ptr ≤ x ∧ x < out.ptr + out.size ∧ padded ranges (x - out.ptr) = true
      · rw [if_pos hlater, if_pos ⟨hlater.1, hlater.2.1, hcons.mpr (Or.inr hlater.2.2)⟩]
      · rw [if_neg hlater, hx]
        by_cases hin : out.ptr + start ≤ x ∧ x < out.ptr + start + (min stop out.size - start)
        · have hhere : start ≤ x - out.ptr ∧ x - out.ptr < stop := by omega
          rw [if_pos hin, if_pos ⟨by omega, by omega, hcons.mpr (Or.inl hhere)⟩,
            List.getElem?_replicate, if_pos (by omega)]
        · rw [if_neg hin, if_neg]
          rintro ⟨hge, hlt, hpadded⟩
          rcases hcons.mp hpadded with hhere | hpadded
          · have hhere' : start ≤ x - out.ptr ∧ x - out.ptr < stop := hhere
            omega
          · exact hlater ⟨hge, hlt, hpadded⟩
    next hrange =>
      rw [ih h]
      by_cases hlater : out.ptr ≤ x ∧ x < out.ptr + out.size ∧ padded ranges (x - out.ptr) = true
      · rw [if_pos hlater, if_pos ⟨hlater.1, hlater.2.1, hcons.mpr (Or.inr hlater.2.2)⟩]
      · rw [if_neg hlater, if_neg]
        rintro ⟨hge, hlt, hpadded⟩
        rcases hcons.mp hpadded with hhere | hpadded
        · have hhere' : start ≤ x - out.ptr ∧ x - out.ptr < stop := hhere
          omega
        · exact hlater ⟨hge, hlt, hpadded⟩

theorem Out.zero_mapped {out : Out} {m : Memory} (ranges : List (ℕ × ℕ))
    (h : m.Mapped out.ptr out.size) : ∃ m', out.zero m ranges = some m' := by
  induction ranges generalizing m with
  | nil => exact ⟨m, rfl⟩
  | cons r ranges ih =>
    obtain ⟨start, stop⟩ := r
    unfold Out.zero
    split
    next hrange =>
      have hmapped : m.Mapped (out.ptr + start)
          (List.replicate (min stop out.size - start) (0 : UInt8)).length := by
        intro i hi
        rw [List.length_replicate] at hi
        rw [Nat.add_assoc]
        exact h (start + i) (by omega)
      obtain ⟨m₁, hstore⟩ := Memory.store_mapped hmapped
      rw [hstore]
      refine ih fun i hi => ?_
      rw [Memory.store_isSome hstore]
      exact h i hi
    next hrange => exact ih h

namespace Versioned

variable {s : Versioned report} {out : Out} {m m' : Memory} {ptr declared : ℕ} {value : List UInt8}
  {values : List (List UInt8)}

def cleared (s : Versioned report) (value : List UInt8) : List UInt8 :=
  value.mapIdx fun i b => if padded s.zeroedPadding i then 0 else b

/-! ### Writing -/

/-- The memory holds a value where the output covers it, and is as it was everywhere else. -/
structure Holds (s : Versioned report) (out : Out) (m m' : Memory) (value : List UInt8) : Prop where
  frame : ∀ x, ¬ (out.ptr ≤ x ∧ x < out.ptr + out.size) → m' x = m x
  value : m'.load out.ptr out.size = some ((s.cleared value).take out.size)

theorem write_spec (hvalue : value.length = s.layout.size) (hsize : out.size ≤ s.layout.size)
    (h : s.write out m value = some m') : s.Holds out m m' value := by
  unfold write at h
  obtain ⟨m₁, hstore, hzero⟩ := Option.bind_eq_some_iff.mp h
  have hlength : (value.take out.size).length = out.size := by
    rw [List.length_take]
    omega
  have hx : ∀ x, m' x = _ := Out.zero_spec hzero
  have hy : ∀ x, m₁ x = _ := Memory.store_eq_some hstore
  rw [hlength] at hy
  refine ⟨?_, ?_⟩
  · intro x hout
    rw [hx, if_neg fun hin => hout ⟨hin.1, hin.2.1⟩, hy, if_neg hout]
  · refine Memory.load_eq_some.mpr ⟨?_, ?_⟩
    · unfold cleared
      rw [List.length_take, List.length_mapIdx]
      omega
    · intro i hi
      have hsub : out.ptr + i - out.ptr = i := by omega
      obtain ⟨b, hget⟩ : ∃ b, value[i]? = some b := by
        have hlt : i < value.length := by omega
        exact ⟨value[i], List.getElem?_eq_getElem hlt⟩
      unfold cleared
      rw [List.getElem?_take, if_pos hi, List.getElem?_mapIdx, hx, hy, hsub]
      by_cases hpadded : padded s.zeroedPadding i = true
      · rw [if_pos ⟨by omega, by omega, hpadded⟩, hget, Option.map_some, if_pos hpadded]
      · rw [if_neg fun hin => hpadded hin.2.2, if_pos (by omega), List.getElem?_take, if_pos hi, hget,
          Option.map_some, if_neg hpadded]

theorem write_mapped (hvalue : value.length = s.layout.size) (hsize : out.size ≤ s.layout.size)
    (h : m.Mapped out.ptr out.size) : ∃ m', s.write out m value = some m' := by
  have hlength : (value.take out.size).length = out.size := by
    rw [List.length_take]
    omega
  have hmapped : m.Mapped out.ptr (value.take out.size).length := by rwa [hlength]
  obtain ⟨m₁, hstore⟩ := Memory.store_mapped hmapped
  unfold write
  rw [hstore, Option.bind_some]
  refine Out.zero_mapped s.zeroedPadding fun i hi => ?_
  rw [Memory.store_isSome hstore]
  exact h i hi

theorem Holds.mapped {value' : List UInt8} (h : s.Holds out m m' value') :
    m'.Mapped out.ptr out.size := by
  intro i hi
  obtain ⟨hlength, hbytes⟩ := Memory.load_eq_some.mp h.value
  rw [hbytes i hi, List.getElem?_eq_getElem (by omega)]
  rfl

theorem Holds.trans {m₁ : Memory} {value' : List UInt8} (h : s.Holds out m m₁ value')
    (h' : s.Holds out m₁ m' value) : s.Holds out m m' value :=
  ⟨fun x hx => (h'.frame x hx).trans (h.frame x hx), h'.value⟩

theorem commits_spec {m₀ : Memory} {initial : List UInt8} (hsize : out.size ≤ s.layout.size)
    (h : s.Holds out m₀ m initial) (hvalues : ∀ v ∈ values, v.length = s.layout.size) :
    ∃ m', s.commits out m values = some m' ∧
      s.Holds out m₀ m' (values.getLast?.getD initial) := by
  induction values generalizing m initial with
  | nil => exact ⟨m, rfl, h⟩
  | cons v values ih =>
    have hv := hvalues v (by simp)
    obtain ⟨m₁, hwrite⟩ := write_mapped hv hsize h.mapped
    have hstep := h.trans (write_spec hv hsize hwrite)
    obtain ⟨m', hrest, hlast⟩ := ih hstep fun w hw => hvalues w (by simp [hw])
    refine ⟨m', ?_, ?_⟩
    · unfold commits commit
      rw [hwrite]
      exact hrest
    · cases values with
      | nil => exact hlast
      | cons w values => rwa [List.getLast?_cons_cons]

/-! ### Beginning -/

structure Accepts (s : Versioned report) (ptr declared : ℕ) : Prop where
  nonnull : ptr ≠ 0
  aligned : ptr % s.layout.align = 0
  mandatory : s.mandatory ≤ declared
  boundary : declared ∈ s.layout.boundaries ∨ s.layout.size ≤ declared

theorem prefixes_eq (h : s.checkOutputTables = true) : s.prefixes = s.layout.boundaries := by
  unfold checkOutputTables at h
  rw [Bool.and_eq_true] at h
  obtain ⟨l, hmeasured, hprefixes, -⟩ := checkPrefixTable_prefixes h.1
  rw [hprefixes, s.reported l hmeasured]

/-- **How an output begins**: it is rejected, and nothing is written, or it holds the failure state. -/
theorem start_spec (hcheck : s.checkOutputTables = true) {word : List UInt8}
    (hword : m.load ptr 4 = some word) (hdeclared : LittleEndian.value word = declared)
    (hmapped : m.Mapped ptr declared) :
    (¬ s.Accepts ptr declared ∧ ∃ fault, s.start m ptr = some (.error fault, m)) ∨
    (s.Accepts ptr declared ∧ ∃ m', s.start m ptr = some (.ok ⟨ptr, min declared s.layout.size⟩, m') ∧
      s.Holds ⟨ptr, min declared s.layout.size⟩ m m'
        (s.failure (narrow (min declared s.layout.size)))) := by
  unfold start
  dsimp only
  by_cases hnull : ptr = 0
  · rw [if_pos hnull]
    exact Or.inl ⟨fun ha => ha.nonnull hnull, _, rfl⟩
  rw [if_neg hnull]
  by_cases halign : ptr % s.layout.align = 0
  swap
  · rw [if_pos halign]
    exact Or.inl ⟨fun ha => halign ha.aligned, _, rfl⟩
  rw [if_neg (not_not.mpr halign), hword, Option.bind_some, hdeclared]
  by_cases hmandatory : declared < s.mandatory
  · rw [if_pos hmandatory]
    refine Or.inl ⟨fun ha => ?_, _, rfl⟩
    have := ha.mandatory
    omega
  rw [if_neg hmandatory]
  by_cases hinside : declared < s.layout.size ∧ lists s.prefixes declared = false
  · rw [if_pos hinside]
    exact Or.inl ⟨fun ha => (ends_inside (prefixes_eq hcheck)).mp hinside ha.boundary, _, rfl⟩
  rw [if_neg hinside]
  have hboundary := not_not.mp (mt (ends_inside (prefixes_eq hcheck)).mpr hinside)
  have hsize : (⟨ptr, min declared s.layout.size⟩ : Out).size ≤ s.layout.size := Nat.min_le_right _ _
  have hfailure := s.failure_length (narrow (min declared s.layout.size))
  obtain ⟨m', hwrite⟩ := write_mapped hfailure hsize (hmapped.mono (Nat.min_le_left _ _))
  refine Or.inr ⟨⟨hnull, halign, Nat.not_lt.mp hmandatory, hboundary⟩, m', ?_,
    write_spec hfailure hsize hwrite⟩
  rw [hwrite]
  rfl

theorem start_rejected {fault : Fault} (h : s.start m ptr = some (.error fault, m')) : m' = m := by
  unfold start at h
  dsimp only at h
  split at h
  · cases h
    rfl
  split at h
  · cases h
    rfl
  obtain ⟨word, -, h⟩ := Option.bind_eq_some_iff.mp h
  split at h
  · cases h
    rfl
  split at h
  · cases h
    rfl
  obtain ⟨m₁, -, h⟩ := Option.map_eq_some_iff.mp h
  cases h

/-! ### The size -/

theorem narrow_of_word {word : List UInt8} (hword : m.load ptr 4 = some word) (n : ℕ) :
    narrow (min (LittleEndian.value word) n) = min (LittleEndian.value word) n := by
  have hlt := LittleEndian.value_lt word
  rw [(Memory.load_eq_some.mp hword).1] at hlt
  unfold narrow
  omega

theorem cleared_take {n : ℕ} (h : ∀ i < n, padded s.zeroedPadding i = false) :
    (s.cleared value).take n = value.take n := by
  unfold cleared
  refine List.ext_getElem? fun i => ?_
  rw [List.getElem?_take, List.getElem?_take, List.getElem?_mapIdx]
  split
  next hi =>
    rw [h i hi]
    exact Option.map_id'
  next hi => rfl

/-- **The size that is reported**: it is the number of covered bytes when the last value says so and
its first four bytes are no padding. -/
theorem Holds.reported {word : List UInt8} (hword : m.load out.ptr 4 = some word)
    (hboundary : LittleEndian.value word ∈ s.layout.boundaries ∨
      s.layout.size ≤ LittleEndian.value word)
    (hsize : out.size = min (LittleEndian.value word) s.layout.size) (h : s.Holds out m m' value)
    (hpadding : ∀ i < 4, padded s.zeroedPadding i = false)
    (hvalue : value.take 4 = LittleEndian.bytes 4 out.declaredSize) :
    ∃ word', m'.load out.ptr 4 = some word' ∧ LittleEndian.value word' = out.size := by
  by_cases hzero : LittleEndian.value word = 0
  · -- an empty prefix is not written at all
    have hempty : out.size = 0 := by omega
    have hsame : m' = m := funext fun x => h.frame x (by omega)
    exact ⟨word, hsame ▸ hword, hzero.trans hempty.symm⟩
  · have hfour := CLayout.four_le hboundary hzero
    have hfour' := CLayout.four_le_size (l := s.layout)
    have htake := Memory.load_take h.value (k := 4) (by omega)
    rw [List.take_take, Nat.min_eq_left (by omega), cleared_take hpadding, hvalue] at htake
    refine ⟨_, htake, ?_⟩
    have hnarrow := narrow_of_word hword s.layout.size
    rw [← hsize] at hnarrow
    have hlt : out.declaredSize < 256 ^ 4 := by
      unfold Out.declaredSize narrow
      omega
    rw [LittleEndian.value_bytes hlt]
    exact hnarrow

/-! ### The law of outputs -/

/-- **What holds of every output structure** whose tables pass. -/
structure Confined (s : Versioned report) : Prop where
  /-- A rejected output is not written. -/
  rejected : ∀ {m m' : Memory} {ptr : ℕ} {fault : Fault},
    s.start m ptr = some (.error fault, m') → m' = m
  /-- When an output is accepted. -/
  begins : ∀ {m : Memory} {ptr : ℕ} {word : List UInt8}, m.load ptr 4 = some word →
    m.Mapped ptr (LittleEndian.value word) →
      (¬ s.Accepts ptr (LittleEndian.value word) ∧ ∃ fault, s.start m ptr = some (.error fault, m)) ∨
      (s.Accepts ptr (LittleEndian.value word) ∧ ∃ out m', s.start m ptr = some (.ok out, m'))
  /-- Whatever is committed through it, only the bytes it covers change; they hold the last value, or
  the failure state, with its padding cleared. -/
  writes : ∀ {m m₀ : Memory} {ptr : ℕ} {word : List UInt8} {out : Out}, m.load ptr 4 = some word →
    m.Mapped ptr (LittleEndian.value word) → s.start m ptr = some (.ok out, m₀) →
      ∀ values : List (List UInt8), (∀ v ∈ values, v.length = s.layout.size) →
        out.ptr = ptr ∧ out.size = min (LittleEndian.value word) s.layout.size ∧
        out.declaredSize = out.size ∧
        ∃ m', s.commits out m₀ values = some m' ∧
          (∀ x, ¬ (ptr ≤ x ∧ x < ptr + out.size) → m' x = m x) ∧
          m'.load ptr out.size =
            some ((s.cleared (values.getLast?.getD (s.failure out.declaredSize))).take out.size) ∧
          -- the size it states, where its first four bytes are no padding
          ((∀ i < 4, padded s.zeroedPadding i = false) →
            (∀ v ∈ values.getLast?, v.take 4 = LittleEndian.bytes 4 out.declaredSize) →
              ∃ word', m'.load ptr 4 = some word' ∧ LittleEndian.value word' = out.size)

/-- **Output writes are confined and complete.** -/
theorem output_confined (report : List TypeLayout) :
    ∀ s : Versioned report, s.checkOutputTables = true → s.Confined := by
  intro s hcheck
  refine ⟨start_rejected, ?_, ?_⟩
  · intro m ptr word hword hmapped
    rcases start_spec hcheck hword rfl hmapped with hrejected | ⟨haccepts, m', hstart, -⟩
    · exact Or.inl hrejected
    · exact Or.inr ⟨haccepts, _, m', hstart⟩
  · intro m m₀ ptr word out hword hmapped hstart values hvalues
    rcases start_spec hcheck hword rfl hmapped with
      ⟨-, fault, hrejected⟩ | ⟨haccepts, m₁, hbegin, hholds⟩
    · rw [hrejected] at hstart
      cases hstart
    · rw [hbegin] at hstart
      cases hstart
      have hnarrow := narrow_of_word hword s.layout.size
      obtain ⟨m', hcommits, hlast⟩ := commits_spec (Nat.min_le_right _ _) hholds hvalues
      refine ⟨rfl, rfl, hnarrow, m', hcommits, hlast.frame, hlast.value, ?_⟩
      intro hpadding hstates
      refine hlast.reported hword haccepts.boundary rfl hpadding ?_
      cases hvalue : values.getLast? with
      | none => exact s.failure_size _
      | some v => exact hstates v hvalue

def capabilitiesLayout : CLayout where
  name := "madopilot_engine_capabilities_t"
  size := 8
  align := 4
  fields := [⟨"struct_size", 0, 4⟩, ⟨"flags", 4, 4⟩]
  ordered := by decide
  within := by decide
  first := ⟨_, _, rfl, rfl, rfl⟩

def engineCapabilities : Versioned [capabilitiesLayout.toTypeLayout] where
  name := "madopilot_engine_capabilities_t"
  layout := capabilitiesLayout
  mandatory := 8
  prefixes := [0, 4, 8]
  zeroedPadding := []
  failure n := LittleEndian.bytes 4 n ++ [0, 0, 0, 0]
  failure_length n := by
    rw [List.length_append, LittleEndian.length_bytes]
    rfl
  failure_size n := List.take_left' (LittleEndian.length_bytes 4 n)
  reported l hl := List.mem_singleton.mp (List.mem_of_find?_eq_some hl)

def inputCapabilityLayout : CLayout where
  name := "madopilot_input_capability_t"
  size := 56
  align := 8
  fields := [⟨"struct_size", 0, 4⟩, ⟨"flags", 4, 4⟩, ⟨"target", 8, 8⟩, ⟨"operation", 16, 4⟩,
    ⟨"delivery", 20, 4⟩, ⟨"support", 24, 4⟩, ⟨"address_scope", 28, 4⟩, ⟨"permission", 32, 4⟩,
    ⟨"evidence", 36, 4⟩, ⟨"focus_required", 40, 4⟩, ⟨"pointer_spaces", 44, 4⟩, ⟨"reserved", 48, 4⟩]
  ordered := by decide
  within := by decide
  first := ⟨_, _, rfl, rfl, rfl⟩

def inputCapability : Versioned [inputCapabilityLayout.toTypeLayout] where
  name := "madopilot_input_capability_t"
  layout := inputCapabilityLayout
  mandatory := 28
  prefixes := inputCapabilityLayout.boundaries
  zeroedPadding := [(52, 56)]
  failure n := LittleEndian.bytes 4 n ++ List.replicate 52 0
  failure_length n := by
    rw [List.length_append, LittleEndian.length_bytes]
    rfl
  failure_size n := List.take_left' (LittleEndian.length_bytes 4 n)
  reported l hl := List.mem_singleton.mp (List.mem_of_find?_eq_some hl)

def sampleCaller : Memory := .placed 8 ([56, 0, 0, 0] ++ List.replicate 52 255 ++ [171])

def sampleCapability : List UInt8 := [56, 0, 0, 0] ++ List.replicate 48 7 ++ List.replicate 4 170

/-- Only the padding of the value is not written as it is, and the byte behind the output stays. -/
theorem inputCapability_confined : inputCapability.Confined ∧ ∃ m₀ m',
    inputCapability.start sampleCaller 8 = some (.ok ⟨8, 56⟩, m₀) ∧
    inputCapability.commits ⟨8, 56⟩ m₀ [sampleCapability] = some m' ∧
    m'.load 8 56 = some ([56, 0, 0, 0] ++ List.replicate 48 7 ++ List.replicate 4 0) ∧
    m' 64 = some 171 := by
  have hconfined := output_confined [inputCapabilityLayout.toTypeLayout] inputCapability (by decide)
  have hword : sampleCaller.load 8 4 = some [56, 0, 0, 0] := rfl
  have hmapped : sampleCaller.Mapped 8 56 := by
    unfold Memory.Mapped
    decide
  have hlength : ∀ v ∈ [sampleCapability], v.length = inputCapability.layout.size := by
    decide
  obtain ⟨-, -, -, m', hcommits, hframe, hvalue, -⟩ :=
    hconfined.writes hword hmapped rfl [sampleCapability] hlength
  exact ⟨hconfined, _, m', rfl, hcommits, hvalue.trans rfl, hframe 64 (by decide)⟩

/-- **A value that states another size** is written as it is: the output covers eight bytes, and reports
ninety-nine. -/
theorem committed_size_is_stated : engineCapabilities.checkOutputTables = true ∧
    ∃ m₀ m',
      engineCapabilities.start (.placed 8 [8, 0, 0, 0, 5, 5, 5, 5]) 8 = some (.ok ⟨8, 8⟩, m₀) ∧
      engineCapabilities.commits ⟨8, 8⟩ m₀ [[99, 0, 0, 0, 1, 0, 0, 0]] = some m' ∧
      m'.load 8 4 = some [99, 0, 0, 0] ∧ LittleEndian.value [99, 0, 0, 0] ≠ (⟨8, 8⟩ : Out).size :=
  ⟨by decide, _, _, rfl, rfl, rfl, by decide⟩

end Versioned

end MadoPilot.Capi
