import MadoPilot.Capi.Boundary

/-!
# What a declared size means for an input

A declared size is believed only where it can be the end of a prefix: at a field boundary, or past the
whole structure.  Then no field is half the caller's and half a default, whichever of two versions of a
structure the caller and the library were built with.

* `read_eq_ok` : when a structure is read, and as what;
* `read_whole` : every field is the caller's or a default;
* `read_older`, `read_newer` : an older caller's structure is extended by defaults, a newer caller's is
  cut down to the fields that are known;
* `input_negotiates` : all of it.
-/

namespace MadoPilot.Capi

open MadoPilot.Lib

variable {report : List TypeLayout}

namespace Input

/-! ### What is supplied, and what is accepted -/

/-- The size that a caller's structure declares and the bytes of it that are read. -/
structure Supplied (s : Input report) (m : Memory) (ptr declared : ℕ) (bytes : List UInt8) : Prop where
  declares : ∃ word, m.load ptr 4 = some word ∧ LittleEndian.value word = declared
  loaded : m.load ptr (min declared s.layout.size) = some bytes

structure Accepts (s : Input report) (ptr : ℕ) (stride : Option ℕ) (declared bits : ℕ) : Prop where
  nonnull : ptr ≠ 0
  aligned : ptr % s.layout.align = 0
  mandatory : s.mandatory ≤ declared
  stride : ∀ n ∈ stride, declared ≤ n
  boundary : declared ∈ s.layout.boundaries ∨ s.layout.size ≤ declared
  reached : ∀ p ∈ s.presence, bits &&& p.1 ≠ 0 → p.2 ≤ declared

variable {s : Input report} {m : Memory} {ptr declared bits : ℕ} {bytes v : List UInt8}
  {stride : Option ℕ}

theorem prefixes_eq (h : s.checkInputTables = true) : s.prefixes = s.layout.boundaries := by
  unfold checkInputTables at h
  rw [Bool.and_eq_true, Bool.and_eq_true] at h
  obtain ⟨l, hmeasured, hprefixes, -⟩ := checkPrefixTable_prefixes h.1.1
  rw [hprefixes, s.reported l hmeasured]

theorem mandatory_mem (h : s.checkInputTables = true) : s.mandatory ∈ s.layout.boundaries := by
  unfold checkInputTables at h
  rw [Bool.and_eq_true, Bool.and_eq_true] at h
  obtain ⟨l, hmeasured, -, hmandatory⟩ := checkPrefixTable_prefixes h.1.1
  rwa [s.reported l hmeasured] at hmandatory

theorem unreached_eq_none : s.unreached bits declared = none ↔
    ∀ p ∈ s.presence, bits &&& p.1 ≠ 0 → p.2 ≤ declared := by
  unfold unreached
  rw [List.find?_eq_none]
  refine forall_congr' fun p => forall_congr' fun hp => ?_
  simp only [Bool.and_eq_true, bne_iff_ne, ne_eq, decide_eq_true_eq, not_and, Nat.not_lt]

theorem stride_any : stride.any (· < declared) = false ↔ ∀ n ∈ stride, declared ≤ n := by
  cases stride with
  | none => simp
  | some n => simp

theorem read_eq_ok (h : s.checkInputTables = true) (hs : s.Supplied m ptr declared bytes) :
    s.read m ptr stride = some (.ok v) ↔
      s.Accepts ptr stride declared (s.presenceBits (s.fill bytes)) ∧ v = s.fill bytes := by
  obtain ⟨word, hword, hdeclared⟩ := hs.declares
  unfold read
  dsimp only
  by_cases hnull : ptr = 0
  · rw [if_pos hnull]
    exact iff_of_false (fun he => by cases he) fun ha => ha.1.nonnull hnull
  rw [if_neg hnull]
  by_cases halign : ptr % s.layout.align = 0
  swap
  · rw [if_pos halign]
    exact iff_of_false (fun he => by cases he) fun ha => halign ha.1.aligned
  rw [if_neg (not_not.mpr halign), hword, Option.bind_some, hdeclared]
  by_cases hmandatory : declared < s.mandatory
  · rw [if_pos hmandatory]
    refine iff_of_false (fun he => by cases he) fun ha => ?_
    have := ha.1.mandatory
    omega
  rw [if_neg hmandatory]
  by_cases hstride : stride.any (· < declared) = true
  · rw [if_pos hstride]
    refine iff_of_false (fun he => by cases he) fun ha => ?_
    have := stride_any.mpr ha.1.stride
    rw [hstride] at this
    cases this
  rw [if_neg hstride]
  by_cases hinside : declared < s.layout.size ∧ lists s.prefixes declared = false
  · rw [if_pos hinside]
    exact iff_of_false (fun he => by cases he) fun ha => (ends_inside (prefixes_eq h)).mp hinside ha.1.boundary
  rw [if_neg hinside, hs.loaded, Option.map_some]
  cases hbits : s.unreached (s.presenceBits (s.fill bytes)) declared with
  | some p =>
    refine iff_of_false (fun he => by cases he) fun ha => ?_
    rw [unreached_eq_none.mpr ha.1.reached] at hbits
    cases hbits
  | none =>
    have haccepts : s.Accepts ptr stride declared (s.presenceBits (s.fill bytes)) :=
      ⟨hnull, halign, Nat.not_lt.mp hmandatory, stride_any.mp (by simpa using hstride),
        not_not.mp (mt (ends_inside (prefixes_eq h)).mpr hinside), unreached_eq_none.mp hbits⟩
    constructor
    · intro he
      cases he
      exact ⟨haccepts, rfl⟩
    · rintro ⟨-, rfl⟩
      rfl

theorem supplied_of_ok (h : s.read m ptr stride = some (.ok v)) :
    ∃ declared bytes, s.Supplied m ptr declared bytes := by
  unfold read at h
  dsimp only at h
  split at h
  · cases h
  split at h
  · cases h
  obtain ⟨word, hword, h⟩ := Option.bind_eq_some_iff.mp h
  split at h
  · cases h
  split at h
  · cases h
  split at h
  · cases h
  obtain ⟨bytes, hbytes, -⟩ := Option.map_eq_some_iff.mp h
  exact ⟨_, bytes, ⟨word, hword, rfl⟩, hbytes⟩

/-- **Nothing else is read** than the declared size and, as far as it and the structure go, the
structure. -/
theorem read_needs (hs : s.Supplied m ptr declared bytes) : ∃ r, s.read m ptr stride = some r := by
  obtain ⟨word, hword, hdeclared⟩ := hs.declares
  unfold read
  dsimp only
  rw [hword, Option.bind_some, hdeclared, hs.loaded, Option.map_some]
  split
  · exact ⟨_, rfl⟩
  split
  · exact ⟨_, rfl⟩
  split
  · exact ⟨_, rfl⟩
  split
  · exact ⟨_, rfl⟩
  split
  · exact ⟨_, rfl⟩
  · exact ⟨_, rfl⟩

/-! ### Whole fields -/

theorem Supplied.length (hs : s.Supplied m ptr declared bytes) :
    bytes.length = min declared s.layout.size :=
  (Memory.load_eq_some.mp hs.loaded).1

theorem fill_length (h : bytes.length ≤ s.layout.size) : (s.fill bytes).length = s.layout.size := by
  unfold fill
  rw [List.length_append, List.length_drop, s.defaults_length]
  omega

/-- **Every field is the caller's or a default**: the caller's bytes of it where it lies within the
declared size, and the default's where it does not. -/
theorem read_whole (hs : s.Supplied m ptr declared bytes)
    (hboundary : declared ∈ s.layout.boundaries ∨ s.layout.size ≤ declared) {f : FieldLayout}
    (hf : f ∈ s.layout.fields) :
    (f.offset + f.size ≤ declared →
      m.load (ptr + f.offset) f.size = some (f.of (s.fill bytes))) ∧
    (¬ f.offset + f.size ≤ declared → f.of (s.fill bytes) = f.of s.defaults) := by
  have hlength := hs.length
  have hwithin := s.layout.within f hf
  unfold FieldLayout.of fill
  constructor
  · intro hdeclared
    rw [List.drop_append_of_le_length (by omega), List.take_append_of_le_length]
    · exact Memory.load_slice hs.loaded (by omega)
    · rw [List.length_drop]
      omega
  · intro hdeclared
    have hwhole := CLayout.whole hboundary hf
    have hbehind : bytes.length ≤ f.offset := by omega
    have hshift : bytes.length + (f.offset - bytes.length) = f.offset := by omega
    rw [List.drop_append, List.drop_of_length_le hbehind, List.nil_append, List.drop_drop, hshift]

/-! ### Two versions of a structure -/

variable {report' : List TypeLayout}

/-- A newer version of a structure has further fields behind the older one's, which begin where the
older one ends, and presence bits for some of them. -/
structure Extends (older : Input report) (newer : Input report') : Prop where
  name : older.name = newer.name
  mandatory : older.mandatory = newer.mandatory
  align : older.layout.align ∣ newer.layout.align
  fields : older.layout.fields <+: newer.layout.fields
  seam : older.layout.size = ((newer.layout.fields.drop older.layout.fields.length).head?.map
    (·.offset)).getD newer.layout.size
  presence : older.presence <+: newer.presence
  added : ∀ p ∈ newer.presence.drop older.presence.length, older.layout.size < p.2
  defaults : newer.defaults.take older.layout.size = older.defaults
  presenceBits : ∀ v, v.length = newer.layout.size →
    newer.presenceBits v = older.presenceBits (v.take older.layout.size)

variable {older : Input report} {newer : Input report'}

theorem Extends.split (h : Extends older newer) : ∃ rest,
    newer.layout.fields = older.layout.fields ++ rest ∧
      older.layout.size = (rest.head?.map (·.offset)).getD newer.layout.size := by
  obtain ⟨rest, hrest⟩ := h.fields
  refine ⟨rest, hrest.symm, ?_⟩
  have hseam := h.seam
  rwa [← hrest, List.drop_left] at hseam

theorem Extends.size_le (h : Extends older newer) : older.layout.size ≤ newer.layout.size := by
  obtain ⟨rest, hrest, hseam⟩ := h.split
  cases rest with
  | nil => exact Nat.le_of_eq hseam
  | cons f rest =>
    have hseam' : older.layout.size = f.offset := hseam
    have hwithin := newer.layout.within f (by rw [hrest]; simp)
    omega

theorem Extends.boundary (h : Extends older newer) {n : ℕ} (hn : n ≤ older.layout.size) :
    (n ∈ newer.layout.boundaries ∨ newer.layout.size ≤ n) ↔
      (n ∈ older.layout.boundaries ∨ older.layout.size ≤ n) := by
  obtain ⟨rest, hrest, hseam⟩ := h.split
  have hle := h.size_le
  unfold TypeLayout.boundaries
  rw [hrest, List.map_append]
  simp only [List.mem_append, List.mem_singleton]
  constructor
  · rintro (((hold | hadded) | rfl) | hsize)
    · exact Or.inl (Or.inl hold)
    · obtain ⟨g, hg, rfl⟩ := List.mem_map.mp hadded
      cases rest with
      | nil => cases hg
      | cons f rest =>
        have hseam' : older.layout.size = f.offset := hseam
        have hordered := newer.layout.ordered
        rw [hrest, List.pairwise_append] at hordered
        rcases List.mem_cons.mp hg with rfl | hg
        · exact Or.inr (by omega)
        · have hfg := (List.pairwise_cons.mp hordered.2.1).1 g hg
          exact Or.inr (by omega)
    · exact Or.inr hle
    · exact Or.inr (by omega)
  · intro hold
    have hcases : n ∈ older.layout.fields.map (·.offset) ∨ n = older.layout.size := by
      rcases hold with (hold | hold) | hold
      · exact Or.inl hold
      · exact Or.inr hold
      · exact Or.inr (by omega)
    rcases hcases with hfield | rfl
    · exact Or.inl (Or.inl (Or.inl hfield))
    · cases rest with
      | nil => exact Or.inr (Nat.le_of_eq hseam.symm)
      | cons f rest =>
        have hseam' : older.layout.size = f.offset := hseam
        rw [hseam']
        exact Or.inl (Or.inl (Or.inr (List.mem_map.mpr ⟨f, List.mem_cons_self, rfl⟩)))

theorem Extends.fill (h : Extends older newer) (bytes : List UInt8) :
    (newer.fill bytes).take older.layout.size = older.fill (bytes.take older.layout.size) := by
  unfold Input.fill
  rw [List.take_append, ← h.defaults, List.drop_take, List.length_take]
  by_cases hle : bytes.length ≤ older.layout.size
  · rw [Nat.min_eq_right hle]
  · have hzero : older.layout.size - bytes.length = 0 := by omega
    have hzero' : older.layout.size - min older.layout.size bytes.length = 0 := by omega
    rw [hzero, hzero', List.take_zero, List.take_zero]

theorem Extends.supplied (h : Extends older newer) (hs : newer.Supplied m ptr declared bytes) :
    older.Supplied m ptr declared (bytes.take older.layout.size) := by
  have hle := h.size_le
  have hlength := hs.length
  have htake := Memory.load_take hs.loaded (k := min declared older.layout.size) (by omega)
  refine ⟨hs.declares, htake.trans (congrArg some ?_)⟩
  rcases Nat.le_total declared older.layout.size with hd | hd
  · rw [List.take_of_length_le (by omega), List.take_of_length_le (by omega)]
  · rw [Nat.min_eq_right hd]

theorem read_newer (h : Extends older newer) (hcheck : older.checkInputTables = true)
    (hcheck' : newer.checkInputTables = true) (hr : newer.read m ptr stride = some (.ok v)) :
    older.read m ptr stride = some (.ok (v.take older.layout.size)) := by
  obtain ⟨declared, bytes, hs⟩ := supplied_of_ok hr
  obtain ⟨haccepts, rfl⟩ := (read_eq_ok hcheck' hs).mp hr
  have hlength := hs.length
  have hbits := h.presenceBits (newer.fill bytes) (fill_length (by omega))
  rw [h.fill] at hbits ⊢
  have haligned : ptr % older.layout.align = 0 :=
    Nat.mod_eq_zero_of_dvd (Nat.dvd_trans h.align (Nat.dvd_of_mod_eq_zero haccepts.aligned))
  have hmandatory : older.mandatory ≤ declared := h.mandatory ▸ haccepts.mandatory
  have hboundary : declared ∈ older.layout.boundaries ∨ older.layout.size ≤ declared := by
    rcases Nat.le_total declared older.layout.size with hd | hd
    · exact (h.boundary hd).mp haccepts.boundary
    · exact Or.inr hd
  refine (read_eq_ok hcheck (h.supplied hs)).mpr ⟨⟨haccepts.nonnull, haligned, hmandatory,
    haccepts.stride, hboundary, ?_⟩, rfl⟩
  intro p hp hset
  exact haccepts.reached p (h.presence.subset hp) (hbits ▸ hset)

theorem Extends.fill_older (h : Extends older newer) (hbytes : bytes.length ≤ older.layout.size) :
    newer.fill bytes = older.fill bytes ++ newer.defaults.drop older.layout.size := by
  unfold Input.fill
  have hsplit := List.take_append_drop (older.layout.size - bytes.length)
    (newer.defaults.drop bytes.length)
  have hshift : bytes.length + (older.layout.size - bytes.length) = older.layout.size := by omega
  rw [List.drop_drop, hshift, ← List.drop_take, h.defaults] at hsplit
  rw [← hsplit, List.append_assoc]

def Extends.Unset (_ : Extends older newer) (bits : ℕ) : Prop :=
  ∀ p ∈ newer.presence.drop older.presence.length, bits &&& p.1 = 0

theorem Extends.unreached (h : Extends older newer) (hunset : h.Unset bits) :
    newer.unreached bits declared = older.unreached bits declared := by
  obtain ⟨rest, hrest⟩ := h.presence
  unfold Extends.Unset at hunset
  rw [← hrest, List.drop_left] at hunset
  unfold Input.unreached
  rw [← hrest, List.find?_append]
  have hnone : (rest.find? fun p => bits &&& p.1 != 0 && decide (declared < p.2)) = none := by
    refine List.find?_eq_none.mpr fun p hp => ?_
    rw [hunset p hp]
    simp
  rw [hnone, Option.or_none]

/-- **An older caller's structure** is to a newer library what it is to the older one, extended by
defaults: at an address that is aligned for both, and when no bit of a further field is set. -/
theorem read_older (h : Extends older newer) (hcheck : older.checkInputTables = true)
    (hcheck' : newer.checkInputTables = true) (hs : older.Supplied m ptr declared bytes)
    (hdeclared : declared ≤ older.layout.size) (haligned : ptr % newer.layout.align = 0)
    (hunset : h.Unset (older.presenceBits (older.fill bytes))) :
    newer.read m ptr stride = (older.read m ptr stride).map
      (Except.map (· ++ newer.defaults.drop older.layout.size)) := by
  obtain ⟨word, hword, hvalue⟩ := hs.declares
  have hsize := h.size_le
  have hlength := hs.length
  have halign : ptr % older.layout.align = 0 :=
    Nat.mod_eq_zero_of_dvd (Nat.dvd_trans h.align (Nat.dvd_of_mod_eq_zero haligned))
  have hmin : min declared older.layout.size = declared := Nat.min_eq_left hdeclared
  have hmin' : min declared newer.layout.size = declared := by omega
  have hle : bytes.length ≤ older.layout.size := by omega
  have hfill := h.fill_older hle
  have hbits := h.presenceBits (newer.fill bytes) (fill_length (by omega))
  rw [h.fill, List.take_of_length_le (by omega), hfill] at hbits
  have hinside : (declared < newer.layout.size ∧ lists newer.prefixes declared = false) ↔
      (declared < older.layout.size ∧ lists older.prefixes declared = false) := by
    rw [ends_inside (prefixes_eq hcheck'), ends_inside (prefixes_eq hcheck), h.boundary hdeclared]
  have hloaded := hs.loaded
  rw [hmin] at hloaded
  unfold read
  dsimp only
  simp only [hword, Option.bind_some, hvalue, hmin, hmin', hloaded, Option.map_some, ← h.name,
    ← h.mandatory, haligned, halign, ne_eq, not_true_eq_false, if_false, hinside, hbits, hfill,
    h.unreached hunset]
  by_cases hnull : ptr = 0
  · rw [if_pos hnull, if_pos hnull]
    rfl
  rw [if_neg hnull, if_neg hnull]
  by_cases hmandatory : declared < older.mandatory
  · rw [if_pos hmandatory, if_pos hmandatory]
    rfl
  rw [if_neg hmandatory, if_neg hmandatory]
  by_cases hstride : stride.any (· < declared) = true
  · rw [if_pos hstride, if_pos hstride]
    rfl
  rw [if_neg hstride, if_neg hstride]
  by_cases hcut : declared < older.layout.size ∧ lists older.prefixes declared = false
  · rw [if_pos hcut, if_pos hcut]
    rfl
  rw [if_neg hcut, if_neg hcut]
  cases older.unreached (older.presenceBits (older.fill bytes)) declared with
  | some p => rfl
  | none => rfl

/-! ### Arrays -/

/-- **The elements of a span** lie within it, one behind the other, and each has room for the mandatory
prefix. -/
theorem span_element {count step mandatory total : ℕ} {name : String}
    (h : span count step mandatory name = .ok total) {i : ℕ} (hi : i < count) :
    mandatory ≤ step ∧ total ≤ isizeMax ∧ i * step + step ≤ total := by
  unfold span at h
  dsimp only at h
  rw [if_neg (by omega)] at h
  split at h
  · cases h
  next hstep =>
    split at h
    · cases h
    split at h
    · cases h
    next hover =>
      obtain rfl := Except.ok.inj h
      have hle : (i + 1) * step ≤ count * step := Nat.mul_le_mul_right step hi
      rw [Nat.add_mul, Nat.one_mul] at hle
      omega

/-- **Reading an element needs no more than its stride**, whatever size it declares. -/
theorem readElement_needs (hcheck : s.checkInputTables = true) (hmandatory : s.mandatory ≠ 0)
    {step : ℕ} (hstep : s.mandatory ≤ step) (hmapped : m.Mapped ptr step) :
    ∃ r, s.readElement m ptr step = some r := by
  have hfour := CLayout.four_le (Or.inl (mandatory_mem hcheck)) hmandatory
  have hword := hmapped.mono (Nat.le_trans hfour hstep)
  obtain ⟨word, hload, -⟩ := Memory.load_mapped hword
  unfold readElement read
  dsimp only
  rw [hload, Option.bind_some]
  split
  · exact ⟨_, rfl⟩
  split
  · exact ⟨_, rfl⟩
  split
  · exact ⟨_, rfl⟩
  split
  · exact ⟨_, rfl⟩
  next hstride =>
    have hle : LittleEndian.value word ≤ step := by simpa using hstride
    split
    · exact ⟨_, rfl⟩
    have hprefix := hmapped.mono (Nat.le_trans (Nat.min_le_left _ s.layout.size) hle)
    obtain ⟨bytes, hbytes, -⟩ := Memory.load_mapped hprefix
    rw [hbytes]
    exact ⟨_, rfl⟩

/-! ### The negotiation -/

structure Negotiates (s : Input report) : Prop where
  /-- A structure is read if and only if its declarations can be those of one; then as the caller's
  bytes with the defaults behind them. -/
  reads : ∀ {m : Memory} {ptr declared : ℕ} {bytes : List UInt8} {stride : Option ℕ},
    s.Supplied m ptr declared bytes → ∀ {v : List UInt8},
      s.read m ptr stride = some (.ok v) ↔
        s.Accepts ptr stride declared (s.presenceBits (s.fill bytes)) ∧ v = s.fill bytes
  /-- Every field is entirely the caller's, or entirely its default. -/
  whole : ∀ {m : Memory} {ptr declared : ℕ} {bytes v : List UInt8} {stride : Option ℕ},
    s.Supplied m ptr declared bytes → s.read m ptr stride = some (.ok v) →
      ∀ f ∈ s.layout.fields,
        (f.offset + f.size ≤ declared → m.load (ptr + f.offset) f.size = some (f.of v)) ∧
        (¬ f.offset + f.size ≤ declared → f.of v = f.of s.defaults)
  /-- No byte is needed but those of the declared size and of the prefix. -/
  needs : ∀ {m : Memory} {ptr : ℕ} {stride : Option ℕ} {word : List UInt8},
    m.load ptr 4 = some word →
      m.Mapped ptr (min (LittleEndian.value word) s.layout.size) →
        ∃ r, s.read m ptr stride = some r
  /-- The bytes of the declared size are those of the prefix, too, unless no byte is mandatory. -/
  word : ∀ {m : Memory} {ptr declared : ℕ} {bytes v : List UInt8} {stride : Option ℕ},
    s.Supplied m ptr declared bytes → s.read m ptr stride = some (.ok v) → s.mandatory ≠ 0 →
      4 ≤ min declared s.layout.size

/-- **Prefix negotiation**: what holds of every input structure, and of every two versions of one. -/
theorem input_negotiates (report report' : List TypeLayout) :
    (∀ s : Input report, s.checkInputTables = true → s.Negotiates) ∧
    ∀ (older : Input report) (newer : Input report'), older.checkInputTables = true →
      newer.checkInputTables = true → ∀ h : Extends older newer, ∀ (m : Memory) (ptr : ℕ)
        (stride : Option ℕ),
        (∀ declared bytes, older.Supplied m ptr declared bytes → declared ≤ older.layout.size →
          ptr % newer.layout.align = 0 → h.Unset (older.presenceBits (older.fill bytes)) →
            newer.read m ptr stride = (older.read m ptr stride).map
              (Except.map (· ++ newer.defaults.drop older.layout.size))) ∧
        ∀ v, newer.read m ptr stride = some (.ok v) →
          older.read m ptr stride = some (.ok (v.take older.layout.size)) := by
  refine ⟨?_, ?_⟩
  · intro s hcheck
    refine ⟨?_, ?_, ?_, ?_⟩
    · intro m ptr declared bytes stride hs v
      exact read_eq_ok hcheck hs
    · intro m ptr declared bytes v stride hs hr f hf
      obtain ⟨haccepts, rfl⟩ := (read_eq_ok hcheck hs).mp hr
      exact read_whole hs haccepts.boundary hf
    · intro m ptr stride word hword hmapped
      obtain ⟨bytes, hbytes, -⟩ := Memory.load_mapped hmapped
      exact read_needs ⟨⟨word, hword, rfl⟩, hbytes⟩
    · intro m ptr declared bytes v stride hs hr hmandatory
      obtain ⟨haccepts, -⟩ := (read_eq_ok hcheck hs).mp hr
      have hfour := CLayout.four_le (Or.inl (mandatory_mem hcheck)) hmandatory
      have hsize := CLayout.four_le_size (l := s.layout)
      have hle := haccepts.mandatory
      omega
  · intro older newer hcheck hcheck' h m ptr stride
    refine ⟨?_, ?_⟩
    · intro declared bytes hs hdeclared haligned hunset
      exact read_older h hcheck hcheck' hs hdeclared haligned hunset
    · intro v hr
      exact read_newer h hcheck hcheck' hr

/-- The operation structure: two of its fields have a presence bit. -/
def operationLayout : CLayout where
  name := "madopilot_operation_t"
  size := 32
  align := 8
  fields := [⟨"struct_size", 0, 4⟩, ⟨"flags", 4, 4⟩, ⟨"deadline_nanos", 8, 8⟩,
    ⟨"cancellation", 16, 8⟩, ⟨"activity_tag", 24, 8⟩]
  ordered := by decide
  within := by decide
  first := ⟨_, _, rfl, rfl, rfl⟩

def plain (layout : CLayout) (mandatory : ℕ) (presence : List (ℕ × ℕ)) :
    Input [layout.toTypeLayout] where
  name := layout.name
  layout := layout
  mandatory := mandatory
  prefixes := layout.boundaries
  presence := presence
  defaults := List.replicate layout.size 0
  presenceBits value := LittleEndian.value ((value.drop 4).take 4)
  defaults_length := List.length_replicate
  reported l hl := by
    have hmem := List.mem_of_find?_eq_some hl
    exact List.mem_singleton.mp hmem

def madopilotOperation : Input [operationLayout.toTypeLayout] :=
  plain operationLayout 8 [(1, 16), (2, 32)]

/-! ### Where two versions differ -/

def requestLayout : CLayout where
  name := "madopilot_map_request_t"
  size := 12
  align := 4
  fields := [⟨"struct_size", 0, 4⟩, ⟨"flags", 4, 4⟩, ⟨"kind", 8, 4⟩]
  ordered := by decide
  within := by decide
  first := ⟨_, _, rfl, rfl, rfl⟩

def alignedLayout : CLayout where
  name := "madopilot_map_request_t"
  size := 24
  align := 8
  fields := [⟨"struct_size", 0, 4⟩, ⟨"flags", 4, 4⟩, ⟨"kind", 8, 4⟩, ⟨"token", 16, 8⟩]
  ordered := by decide
  within := by decide
  first := ⟨_, _, rfl, rfl, rfl⟩

def packedLayout : CLayout where
  name := "madopilot_map_request_t"
  size := 16
  align := 4
  fields := [⟨"struct_size", 0, 4⟩, ⟨"flags", 4, 4⟩, ⟨"kind", 8, 4⟩, ⟨"token", 12, 4⟩]
  ordered := by decide
  within := by decide
  first := ⟨_, _, rfl, rfl, rfl⟩

def mapRequest : Input [requestLayout.toTypeLayout] :=
  plain requestLayout 8 []

def tokenRequest : Input [packedLayout.toTypeLayout] :=
  plain packedLayout 8 [(1, 16)]

theorem tokenRequest_extends : Extends mapRequest tokenRequest where
  name := rfl
  mandatory := rfl
  align := Nat.dvd_refl 4
  fields := by decide
  seam := rfl
  presence := by decide
  added := by decide
  defaults := rfl
  presenceBits v _ := by
    unfold mapRequest tokenRequest plain
    dsimp only
    rw [List.drop_take, List.take_take]
    rfl

/-- A structure on its own; then an older caller's one, to which the newer library adds the default of
the token, and a newer caller's one, of which the older library reads the part it knows. -/
theorem input_negotiates_sample : madopilotOperation.Negotiates ∧
    tokenRequest.read (.placed 8 [12, 0, 0, 0, 0, 0, 0, 0, 7, 0, 0, 0]) 8 none =
      some (.ok [12, 0, 0, 0, 0, 0, 0, 0, 7, 0, 0, 0, 0, 0, 0, 0]) ∧
    mapRequest.read (.placed 8 [16, 0, 0, 0, 1, 0, 0, 0, 7, 0, 0, 0, 9, 0, 0, 0]) 8 (some 16) =
      some (.ok [16, 0, 0, 0, 1, 0, 0, 0, 7, 0, 0, 0]) := by
  have hversions := fun m ptr stride =>
    (input_negotiates [requestLayout.toTypeLayout] [packedLayout.toTypeLayout]).2 mapRequest
      tokenRequest (by decide) (by decide) tokenRequest_extends m ptr stride
  refine ⟨(input_negotiates [operationLayout.toTypeLayout] []).1 madopilotOperation (by decide),
    ?_, ?_⟩
  · have hs : mapRequest.Supplied (.placed 8 [12, 0, 0, 0, 0, 0, 0, 0, 7, 0, 0, 0]) 8 12
        [12, 0, 0, 0, 0, 0, 0, 0, 7, 0, 0, 0] := ⟨⟨[12, 0, 0, 0], rfl, rfl⟩, rfl⟩
    exact (hversions _ 8 none).1 12 _ hs (Nat.le_refl 12) rfl (by unfold Extends.Unset; decide)
  · exact (hversions _ 8 (some 16)).2 [16, 0, 0, 0, 1, 0, 0, 0, 7, 0, 0, 0, 9, 0, 0, 0] rfl

def okRead : Option (Except Fault (List UInt8)) → Option (List UInt8)
  | some (.ok v) => some v
  | _ => none

/-- Three structures that an older library reads and a newer one, or a shorter memory, refuses: one
before a field that its alignment sets apart, one with the bit of a further field, and one of which no
byte is mandatory. -/
theorem negotiation_limits :
    (requestLayout.fields <+: alignedLayout.fields ∧
      (plain requestLayout 8 []).checkInputTables = true ∧
      (plain alignedLayout 8 []).checkInputTables = true ∧
      okRead ((plain requestLayout 8 []).read (.placed 8 [12, 0, 0, 0, 0, 0, 0, 0, 7, 0, 0, 0]) 8 none) =
        some [12, 0, 0, 0, 0, 0, 0, 0, 7, 0, 0, 0] ∧
      okRead ((plain alignedLayout 8 []).read (.placed 8 [12, 0, 0, 0, 0, 0, 0, 0, 7, 0, 0, 0]) 8 none) =
        none) ∧
    (requestLayout.fields <+: packedLayout.fields ∧
      (plain packedLayout 8 [(1, 16)]).checkInputTables = true ∧
      okRead ((plain requestLayout 8 []).read (.placed 8 [12, 0, 0, 0, 1, 0, 0, 0, 7, 0, 0, 0]) 8 none) =
        some [12, 0, 0, 0, 1, 0, 0, 0, 7, 0, 0, 0] ∧
      okRead ((plain packedLayout 8 [(1, 16)]).read
        (.placed 8 [12, 0, 0, 0, 1, 0, 0, 0, 7, 0, 0, 0]) 8 none) = none) ∧
    (plain requestLayout 0 []).checkInputTables = true ∧
      okRead ((plain requestLayout 0 []).read (.placed 8 [0, 0, 0, 0]) 8 none) =
        some (List.replicate 12 0) ∧
      (plain requestLayout 0 []).read (.placed 8 []) 8 none = none := by
  refine ⟨⟨?_, ?_, ?_, ?_, ?_⟩, ⟨?_, ?_, ?_, ?_⟩, ?_, ?_, ?_⟩
  · decide
  · decide
  · decide
  · decide
  · decide
  · decide
  · decide
  · decide
  · decide
  · decide
  · decide
  · rfl

end Input

end MadoPilot.Capi
