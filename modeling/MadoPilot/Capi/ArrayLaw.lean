import MadoPilot.Capi.Arrays
import MadoPilot.Capi.PrefixLaw

/-!
# What converting an array reads and gives

An array is read element by element, of each the four bytes of its size and then as much as it declares
and the structure and the stride have room for.  What is converted depends on nothing else but, for
text events, the text that is named.

* `readElement_congr` : what an element is read from;
* `convertElements_congr`, `convertElements_ok` : what the loop reads, and what it gives;
* `inputEvent_determined`, `zoneOf_determined` : the fields that a conversion depends on;
* `array_conversion` : the law of both arrays.
-/

namespace MadoPilot.Capi

open MadoPilot.Core MadoPilot.Input MadoPilot.Lib MadoPilot.Ocr

def declaredAt (m : Memory) (ptr : ℕ) : ℕ := ((m.load ptr 4).map LittleEndian.value).getD 0

namespace Input

variable {report : List TypeLayout}

def extent (s : Input report) (m : Memory) (ptr stride : ℕ) : ℕ :=
  min stride (max 4 (min (declaredAt m ptr) s.layout.size))

def Covered (s : Input report) (base count stride : ℕ) (m : Memory) (x : ℕ) : Prop :=
  ∃ i < count, base + i * stride ≤ x ∧ x < base + i * stride + s.extent m (base + i * stride) stride

variable {s : Input report} {m m' : Memory} {ptr base count stride : ℕ}

theorem readElement_congr (hstride : 4 ≤ stride)
    (h : ∀ k < s.extent m ptr stride, m' (ptr + k) = m (ptr + k)) :
    s.readElement m' ptr stride = s.readElement m ptr stride := by
  have hword : m'.load ptr 4 = m.load ptr 4 :=
    Memory.load_congr fun k hk => h k (by unfold extent; omega)
  unfold readElement read
  dsimp only
  rw [hword]
  cases hload : m.load ptr 4 with
  | none => rfl
  | some word =>
    rw [Option.bind_some, Option.bind_some]
    by_cases hfits : LittleEndian.value word ≤ stride
    · have hdeclared : declaredAt m ptr = LittleEndian.value word := by
        unfold declaredAt
        rw [hload]
        rfl
      have hrest : m'.load ptr (min (LittleEndian.value word) s.layout.size) =
          m.load ptr (min (LittleEndian.value word) s.layout.size) :=
        Memory.load_congr fun k hk => h k (by unfold extent; rw [hdeclared]; omega)
      rw [hrest]
    · have hlarge : (some stride).any (· < LittleEndian.value word) = true := by
        simpa using hfits
      simp only [hlarge, if_true]

theorem extent_within {i x : ℕ} (hi : i < count)
    (hx : x < base + i * stride + s.extent m (base + i * stride) stride) :
    x < base + count * stride := by
  have hnext : (i + 1) * stride ≤ count * stride := Nat.mul_le_mul_right _ hi
  have hextent : s.extent m (base + i * stride) stride ≤ stride := Nat.min_le_left _ _
  rw [Nat.add_mul, Nat.one_mul] at hnext
  omega

theorem readElement_of_mapped (hcheck : s.checkInputTables = true) (hmandatory : s.mandatory ≠ 0)
    (hstep : s.mandatory ≤ stride) (hmapped : m.Mapped base (count * stride)) {i : ℕ}
    (hi : i < count) : ∃ r, s.readElement m (base + i * stride) stride = some r := by
  refine readElement_needs hcheck hmandatory hstep fun k hk => ?_
  have hnext : (i + 1) * stride ≤ count * stride := Nat.mul_le_mul_right _ hi
  rw [Nat.add_mul, Nat.one_mul] at hnext
  rw [Nat.add_assoc]
  exact hmapped (i * stride + k) (by omega)

end Input

/-! ### The loop -/

section Loop

variable {α : Type} {s : Input arrayReport} {place : ℕ → Except Fault ℕ} {stride base count : ℕ}
  {convert : Memory → ℕ → List UInt8 → Option (Except Fault α)} {m m' : Memory}

theorem convertElements_congr (hplace : ∀ i < count, place i = .ok (base + i * stride))
    (hstride : 4 ≤ stride) (hcovered : ∀ x, s.Covered base count stride m x → m' x = m x)
    (hconvert : ∀ i < count, ∀ value, s.readElement m (base + i * stride) stride = some (.ok value) →
      convert m' i value = convert m i value) {rest index : ℕ} (htotal : index + rest = count) :
    convertElements s place stride convert m' rest index =
      convertElements s place stride convert m rest index := by
  induction rest generalizing index with
  | zero => rfl
  | succ rest ih =>
    have hindex : index < count := by omega
    have hread : s.readElement m' (base + index * stride) stride =
        s.readElement m (base + index * stride) stride := by
      refine Input.readElement_congr hstride fun k hk => ?_
      exact hcovered _ ⟨index, hindex, by omega, by omega⟩
    unfold convertElements
    rw [hplace index hindex]
    dsimp only
    rw [hread]
    cases helement : s.readElement m (base + index * stride) stride with
    | none => rfl
    | some r =>
      rw [Option.bind_some, Option.bind_some]
      cases r with
      | error fault => rfl
      | ok value =>
        dsimp only
        rw [hconvert index hindex value helement, ih (by omega)]

theorem convertElements_ok (hplace : ∀ i < count, place i = .ok (base + i * stride))
    {rest index : ℕ} {list : List α} (htotal : index + rest = count)
    (h : convertElements s place stride convert m rest index = some (.ok list)) :
    list.length = rest ∧ ∀ j a, list[j]? = some a → ∃ value,
      s.readElement m (base + (index + j) * stride) stride = some (.ok value) ∧
        convert m (index + j) value = some (.ok a) := by
  induction rest generalizing index list with
  | zero =>
    obtain rfl := Except.ok.inj (Option.some.inj h)
    exact ⟨rfl, fun j a ha => by simp at ha⟩
  | succ rest ih =>
    unfold convertElements at h
    rw [hplace index (by omega)] at h
    dsimp only at h
    obtain ⟨r, hread, h⟩ := Option.bind_eq_some_iff.mp h
    cases r with
    | error fault => cases h
    | ok value =>
      obtain ⟨r, hconvert, h⟩ := Option.bind_eq_some_iff.mp h
      cases r with
      | error fault => cases h
      | ok a =>
        obtain ⟨r, hrest, h⟩ := Option.map_eq_some_iff.mp h
        cases r with
        | error fault => cases h
        | ok tail =>
          obtain rfl := Except.ok.inj h
          obtain ⟨hlength, hall⟩ := ih (by omega) hrest
          refine ⟨by rw [List.length_cons, hlength], ?_⟩
          intro j b hb
          cases j with
          | zero =>
            obtain rfl := Option.some.inj hb
            exact ⟨value, hread, hconvert⟩
          | succ j =>
            rw [List.getElem?_cons_succ] at hb
            have hshift : index + (j + 1) = index + 1 + j := by omega
            rw [hshift]
            exact hall j b hb

theorem convertElements_total (hplace : ∀ i < count, place i = .ok (base + i * stride))
    (hread : ∀ i < count, ∃ r, s.readElement m (base + i * stride) stride = some r)
    (hconvert : ∀ i < count, ∀ value, s.readElement m (base + i * stride) stride = some (.ok value) →
      ∃ r, convert m i value = some r) {rest index : ℕ} (htotal : index + rest = count) :
    ∃ r, convertElements s place stride convert m rest index = some r := by
  induction rest generalizing index with
  | zero => exact ⟨_, rfl⟩
  | succ rest ih =>
    have hindex : index < count := by omega
    unfold convertElements
    rw [hplace index hindex]
    dsimp only
    obtain ⟨r, helement⟩ := hread index hindex
    rw [helement, Option.bind_some]
    cases r with
    | error fault => exact ⟨_, rfl⟩
    | ok value =>
      obtain ⟨r, hr⟩ := hconvert index hindex value helement
      dsimp only
      rw [hr, Option.bind_some]
      cases r with
      | error fault => exact ⟨_, rfl⟩
      | ok a =>
        obtain ⟨r, hr⟩ := @ih (index + 1) (by omega)
        dsimp only
        rw [hr]
        exact ⟨_, rfl⟩

end Loop

/-! ### Input events -/

def EventRecord.NamesText (event : EventRecord) (x : ℕ) : Prop :=
  event.kind = 7 ∧ variantPrefix 7 ≤ event.structSize ∧ event.textData ≠ 0 ∧
    event.textLen ≤ inputMaxTextUtf8Bytes ∧ event.textData ≤ x ∧ x < event.textData + event.textLen

section Events

variable {m m' : Memory} {index : ℕ} {value : List UInt8} {event : EventRecord}

theorem byteLen_eq_ok {data len n : ℕ} {field : String} (h : byteLen data len field = .ok n) :
    n = len ∧ (data = 0 → len = 0) := by
  unfold byteLen at h
  split at h
  · cases h
  next hnull =>
    split at h
    · cases h
    · exact ⟨(Except.ok.inj h).symm, fun hdata => by_contra fun hlen => hnull ⟨hdata, hlen⟩⟩

theorem requireEventPrefix_ok {required : ℕ} {u : Unit}
    (h : requireEventPrefix event required index = .ok u) : required ≤ event.structSize := by
  unfold requireEventPrefix at h
  dsimp only at h
  split at h
  next hle => exact hle
  next => cases h

theorem viewString_congr {data len : ℕ} {field : String}
    (h : data ≠ 0 → ∀ i < len, m' (data + i) = m (data + i)) :
    viewString m' data len field = viewString m data len field := by
  unfold viewString
  cases hlen : byteLen data len field with
  | error fault => rfl
  | ok n =>
    obtain ⟨rfl, -⟩ := byteLen_eq_ok hlen
    dsimp only
    split
    · rfl
    next hdata => rw [Memory.load_congr (h hdata)]

theorem inputEvent_congr (h : ∀ x, (EventRecord.ofBytes value).NamesText x → m' x = m x) :
    inputEvent m' index value = inputEvent m index value := by
  unfold inputEvent
  dsimp only
  cases hrequired : requireEventPrefix (.ofBytes value) (variantPrefix (EventRecord.ofBytes value).kind)
      index with
  | error fault => rfl
  | ok _ =>
    dsimp only
    split
    next hkind =>
      have hsize := requireEventPrefix_ok hrequired
      rw [hkind] at hsize
      unfold eventText
      cases hlen : byteLen (EventRecord.ofBytes value).textData (EventRecord.ofBytes value).textLen
          "event.text" with
      | error fault => rfl
      | ok n =>
        obtain ⟨rfl, -⟩ := byteLen_eq_ok hlen
        dsimp only
        split
        · rfl
        next hshort =>
          rw [viewString_congr]
          intro hdata i hi
          exact h _ ⟨hkind, hsize, hdata, Nat.not_lt.mp hshort, by omega, by omega⟩
    next => rfl

theorem inputEvent_total (h : ∀ x, (EventRecord.ofBytes value).NamesText x → (m x).isSome) :
    ∃ r, inputEvent m index value = some r := by
  unfold inputEvent
  dsimp only
  cases hrequired : requireEventPrefix (.ofBytes value) (variantPrefix (EventRecord.ofBytes value).kind)
      index with
  | error fault => exact ⟨_, rfl⟩
  | ok _ =>
    dsimp only
    split
    next hkind =>
      have hsize := requireEventPrefix_ok hrequired
      rw [hkind] at hsize
      unfold eventText
      cases hlen : byteLen (EventRecord.ofBytes value).textData (EventRecord.ofBytes value).textLen
          "event.text" with
      | error fault => exact ⟨_, rfl⟩
      | ok n =>
        obtain ⟨rfl, -⟩ := byteLen_eq_ok hlen
        dsimp only
        split
        · exact ⟨_, rfl⟩
        next hshort =>
          unfold viewString
          rw [hlen]
          dsimp only
          split
          · exact ⟨_, rfl⟩
          next hdata =>
            have hmapped : m.Mapped (EventRecord.ofBytes value).textData
                (EventRecord.ofBytes value).textLen := fun i hi =>
              h _ ⟨hkind, hsize, hdata, Nat.not_lt.mp hshort, by omega, by omega⟩
            obtain ⟨bytes, hload, -⟩ := Memory.load_mapped hmapped
            rw [hload]
            exact ⟨_, rfl⟩
    next => exact ⟨_, rfl⟩

theorem inputEvent_prefix {r : InputEvent} (h : inputEvent m index value = some (.ok r)) :
    variantPrefix (EventRecord.ofBytes value).kind ≤ (EventRecord.ofBytes value).structSize := by
  unfold inputEvent at h
  dsimp only at h
  cases hrequired : requireEventPrefix (.ofBytes value) (variantPrefix (EventRecord.ofBytes value).kind)
      index with
  | error fault =>
    rw [hrequired] at h
    cases h
  | ok _ => exact requireEventPrefix_ok hrequired

end Events

/-- The fields that an event of a kind uses, besides its size and its kind. -/
def usedFields : ℤ → List String
  | 1 => ["space", "x", "y"]
  | 2 | 3 => ["button"]
  | 4 => ["horizontal", "vertical"]
  | 5 | 6 => ["key", "key_value"]
  | 7 => ["text"]
  | 8 => ["delay_nanos"]
  | _ => []

def fieldsOfKind (kind : ℤ) : List String := ["struct_size", "kind"] ++ usedFields kind

theorem variantPrefix_covers {kind : ℤ} {declared : ℕ} (hmandatory : 8 ≤ declared)
    (hrequired : variantPrefix kind ≤ declared) {f : FieldLayout} (hf : f ∈ eventFields)
    (hused : f.name ∈ fieldsOfKind kind) : f.offset + f.size ≤ declared := by
  have hcovers : ∀ f ∈ eventFields, f.name ∈ fieldsOfKind kind →
      f.offset + f.size ≤ max 8 (variantPrefix kind) := by
    have hheader : ∀ f ∈ eventFields, f.name ∈ ["struct_size", "kind"] ++ [] →
        f.offset + f.size ≤ 8 := by decide
    unfold fieldsOfKind usedFields variantPrefix
    split
    case h_9 => exact fun f hf hused => le_trans (hheader f hf hused) (le_max_left _ _)
    all_goals decide
  have hle := hcovers f hf hused
  omega

/-! ### What a conversion depends on -/

def Agree (fields : List FieldLayout) (names : List String) (value value' : List UInt8) : Prop :=
  ∀ f ∈ fields, f.name ∈ names → f.of value = f.of value'

section Determined

variable {value value' : List UInt8}

theorem unsignedAt_congr {f : FieldLayout} {offset width : ℕ} (h : f.of value = f.of value')
    (hle : f.offset ≤ offset) (hwithin : offset + width ≤ f.offset + f.size) :
    unsignedAt value offset width = unsignedAt value' offset width := by
  have hpart : ∀ v : List UInt8, (v.drop offset).take width =
      ((f.of v).drop (offset - f.offset)).take width := by
    intro v
    unfold FieldLayout.of
    rw [List.drop_take, List.take_take, List.drop_drop, Nat.add_sub_cancel' hle,
      Nat.min_eq_left (by omega)]
  unfold unsignedAt
  rw [hpart value, hpart value', h]

theorem i32At_congr {f : FieldLayout} {offset : ℕ} (h : f.of value = f.of value')
    (hle : f.offset ≤ offset) (hwithin : offset + 4 ≤ f.offset + f.size) :
    i32At value offset = i32At value' offset := by
  unfold i32At
  rw [unsignedAt_congr h hle hwithin]

theorem f64At_congr {f : FieldLayout} {offset : ℕ} (h : f.of value = f.of value')
    (hle : f.offset ≤ offset) (hwithin : offset + 8 ≤ f.offset + f.size) :
    f64At value offset = f64At value' offset := by
  unfold f64At
  rw [unsignedAt_congr h hle hwithin]

section Event

variable (h : Agree eventFields (fieldsOfKind (EventRecord.ofBytes value).kind) value value')

include h

theorem kind_congr : (EventRecord.ofBytes value).kind = (EventRecord.ofBytes value').kind :=
  i32At_congr (h ⟨"kind", 4, 4⟩ (by decide) (List.mem_append_left _ (by decide))) (by decide) (by decide)

theorem structSize_congr :
    (EventRecord.ofBytes value).structSize = (EventRecord.ofBytes value').structSize :=
  unsignedAt_congr (h ⟨"struct_size", 0, 4⟩ (by decide) (List.mem_append_left _ (by decide))) (by decide)
    (by decide)

/-- **The conversion of an event without a text** depends on the fields of its kind. -/
theorem eventOf_determined {index : ℕ} :
    eventOf (EventRecord.ofBytes value) index = eventOf (EventRecord.ofBytes value') index := by
  have hkind := kind_congr h
  have hfield : ∀ f ∈ eventFields, f.name ∈ usedFields (EventRecord.ofBytes value).kind →
      f.of value = f.of value' := fun f hf hused => h f hf (List.mem_append_right _ hused)
  unfold eventOf
  rw [← hkind]
  split
  next hone =>
    rw [hone] at hfield
    have hspace : (EventRecord.ofBytes value).space = (EventRecord.ofBytes value').space :=
      i32At_congr (hfield ⟨"space", 8, 4⟩ (by decide) (by decide)) (by decide) (by decide)
    have hx : (EventRecord.ofBytes value).x = (EventRecord.ofBytes value').x :=
      f64At_congr (hfield ⟨"x", 24, 8⟩ (by decide) (by decide)) (by decide) (by decide)
    have hy : (EventRecord.ofBytes value).y = (EventRecord.ofBytes value').y :=
      f64At_congr (hfield ⟨"y", 32, 8⟩ (by decide) (by decide)) (by decide) (by decide)
    rw [hspace, hx, hy]
  next htwo =>
    rw [htwo] at hfield
    have hbutton : (EventRecord.ofBytes value).button = (EventRecord.ofBytes value').button :=
      i32At_congr (hfield ⟨"button", 12, 4⟩ (by decide) (by decide)) (by decide) (by decide)
    rw [hbutton]
  next hthree =>
    rw [hthree] at hfield
    have hbutton : (EventRecord.ofBytes value).button = (EventRecord.ofBytes value').button :=
      i32At_congr (hfield ⟨"button", 12, 4⟩ (by decide) (by decide)) (by decide) (by decide)
    rw [hbutton]
  next hfour =>
    rw [hfour] at hfield
    have hhorizontal : (EventRecord.ofBytes value).horizontal = (EventRecord.ofBytes value').horizontal :=
      i32At_congr (hfield ⟨"horizontal", 40, 4⟩ (by decide) (by decide)) (by decide) (by decide)
    have hvertical : (EventRecord.ofBytes value).vertical = (EventRecord.ofBytes value').vertical :=
      i32At_congr (hfield ⟨"vertical", 44, 4⟩ (by decide) (by decide)) (by decide) (by decide)
    rw [hhorizontal, hvertical]
  next hfive =>
    rw [hfive] at hfield
    have hkey : (EventRecord.ofBytes value).key = (EventRecord.ofBytes value').key :=
      i32At_congr (hfield ⟨"key", 16, 4⟩ (by decide) (by decide)) (by decide) (by decide)
    have hkeyValue : (EventRecord.ofBytes value).keyValue = (EventRecord.ofBytes value').keyValue :=
      unsignedAt_congr (hfield ⟨"key_value", 20, 4⟩ (by decide) (by decide)) (by decide) (by decide)
    rw [hkey, hkeyValue]
  next hsix =>
    rw [hsix] at hfield
    have hkey : (EventRecord.ofBytes value).key = (EventRecord.ofBytes value').key :=
      i32At_congr (hfield ⟨"key", 16, 4⟩ (by decide) (by decide)) (by decide) (by decide)
    have hkeyValue : (EventRecord.ofBytes value).keyValue = (EventRecord.ofBytes value').keyValue :=
      unsignedAt_congr (hfield ⟨"key_value", 20, 4⟩ (by decide) (by decide)) (by decide) (by decide)
    rw [hkey, hkeyValue]
  next height =>
    rw [height] at hfield
    have hdelay : (EventRecord.ofBytes value).delayNanos = (EventRecord.ofBytes value').delayNanos :=
      unsignedAt_congr (hfield ⟨"delay_nanos", 64, 8⟩ (by decide) (by decide)) (by decide) (by decide)
    rw [hdelay]
  next => rfl

theorem inputEvent_determined (m : Memory) (index : ℕ) :
    inputEvent m index value' = inputEvent m index value := by
  have hkind := kind_congr h
  have hsize := structSize_congr h
  have hrequire : ∀ required, requireEventPrefix (.ofBytes value') required index =
      requireEventPrefix (.ofBytes value) required index := by
    intro required
    unfold requireEventPrefix
    rw [hsize]
  unfold inputEvent
  dsimp only
  rw [← hkind, hrequire, eventOf_determined h]
  cases requireEventPrefix (.ofBytes value) (variantPrefix (EventRecord.ofBytes value).kind) index with
  | error fault => rfl
  | ok _ =>
    dsimp only
    split
    next hseven =>
      have htext := h ⟨"text", 48, 16⟩ (by decide) (List.mem_append_right _ (by rw [hseven]; decide))
      have hdata : (EventRecord.ofBytes value).textData = (EventRecord.ofBytes value').textData :=
        unsignedAt_congr htext (by decide) (by decide)
      have hlen : (EventRecord.ofBytes value).textLen = (EventRecord.ofBytes value').textLen :=
        unsignedAt_congr htext (by decide) (by decide)
      unfold eventText
      rw [hdata, hlen]
    next => rfl

end Event

theorem zoneOf_determined (h : Agree zoneFields (zoneFields.map (·.name)) value value') (m : Memory)
    (index : ℕ) : zoneOf m index value' = zoneOf m index value := by
  have hfield : ∀ f ∈ zoneFields, f.of value = f.of value' :=
    fun f hf => h f hf (List.mem_map_of_mem hf)
  have hregion : ∀ offset, 8 ≤ offset → offset + 4 ≤ 28 → i32At value offset = i32At value' offset :=
    fun _ => i32At_congr (hfield ⟨"region", 8, 20⟩ (by decide))
  have hsame : ZoneRecord.ofBytes value = ZoneRecord.ofBytes value' := by
    unfold ZoneRecord.ofBytes
    rw [unsignedAt_congr (hfield ⟨"struct_size", 0, 4⟩ (by decide)) (by decide) (by decide),
      unsignedAt_congr (hfield ⟨"flags", 4, 4⟩ (by decide)) (by decide) (by decide),
      hregion 8 (by decide) (by decide), hregion 12 (by decide) (by decide),
      hregion 16 (by decide) (by decide), hregion 20 (by decide) (by decide),
      hregion 24 (by decide) (by decide),
      i32At_congr (hfield ⟨"clip_policy", 28, 4⟩ (by decide)) (by decide) (by decide)]
  unfold zoneOf
  rw [hsame]

end Determined

/-! ### What is supplied -/

section Supplied

variable {report : List TypeLayout} {s : Input report} {m : Memory} {ptr declared : ℕ}
  {bytes : List UInt8}

theorem structSize_eq (hs : s.Supplied m ptr declared bytes) (hfour : 4 ≤ min declared s.layout.size) :
    unsignedAt (s.fill bytes) 0 4 = declared := by
  obtain ⟨word, hword, hvalue⟩ := hs.declares
  have hload := Memory.load_take hs.loaded hfour
  have hlength := hs.length
  obtain rfl := Option.some.inj (hword.symm.trans hload)
  unfold unsignedAt Input.fill
  rw [List.drop_zero, List.take_append_of_le_length (by omega)]
  exact hvalue

end Supplied

theorem eventInput_checked : eventInput.checkInputTables = true := by decide

theorem zoneInput_checked : zoneInput.checkInputTables = true := by decide

/-! ### The law -/

/-- What converting an array of `count` elements from `base` on reads and gives.  `names` is what the
elements name elsewhere, `uses` the fields that an element uses, and `convert` does use. -/
structure ArrayLaw {α : Type} (s : Input arrayReport) (base count stride limit : ℕ)
    (run : Memory → Option (Except Fault (List α))) (names : Memory → ℕ → Prop)
    (uses : List UInt8 → List String)
    (convert : Memory → ℕ → List UInt8 → Option (Except Fault α)) : Prop where
  /-- More elements than the limit are refused without reading any. -/
  limited : limit < count → ∃ fault, ∀ m, run m = some (.error fault)
  /-- What is covered lies in the array, in the first bytes of an element: its size, and what it
  declares of the structure. -/
  within : ∀ m x, s.Covered base count stride m x →
    (base ≤ x ∧ x < base + count * stride) ∧
      ∃ i < count, base + i * stride ≤ x ∧ x < base + i * stride + stride ∧
        x < base + i * stride + max 4 (min (declaredAt m (base + i * stride)) s.layout.size)
  /-- Nothing but what is covered and what is named is read. -/
  confined : ∀ m m', (∀ x, s.Covered base count stride m x ∨ names m x → m' x = m x) →
    run m' = run m
  /-- A readable array, with what it names, is converted or refused. -/
  readable : ∀ m, m.Mapped base (count * stride) → (∀ x, names m x → (m x).isSome) →
    ∃ r, run m = some r
  /-- The fields that an element uses are all that its conversion depends on. -/
  determined : ∀ m i value value', Agree s.layout.fields (uses value) value value' →
    convert m i value' = convert m i value
  /-- What is converted was declared as it has to be, and every element is the conversion of its own
  bytes: the fields that it uses are the caller's, and the defaults of the others decide nothing. -/
  converted : ∀ m list, run m = some (.ok list) → count ≤ limit ∧ list.length = count ∧
    ∀ i a, list[i]? = some a → ∃ declared bytes,
      s.Supplied m (base + i * stride) declared bytes ∧
      s.Accepts (base + i * stride) (some stride) declared (s.presenceBits (s.fill bytes)) ∧
      (∀ f ∈ s.layout.fields, f.name ∈ uses (s.fill bytes) → f.offset + f.size ≤ declared ∧
        m.load (base + i * stride + f.offset) f.size = some (f.of (s.fill bytes))) ∧
      convert m i (s.fill bytes) = some (.ok a) ∧
      ∀ value, (∀ f ∈ s.layout.fields, f.offset + f.size ≤ declared → f.of (s.fill bytes) = f.of value) →
        convert m i value = some (.ok a)

def NamedText (events count stride : ℕ) (m : Memory) (x : ℕ) : Prop :=
  ∃ i < count, ∃ value, eventInput.readElement m (events + i * stride) stride = some (.ok value) ∧
    (EventRecord.ofBytes value).NamesText x

def eventUses (value : List UInt8) : List String := fieldsOfKind (EventRecord.ofBytes value).kind

def zoneUses (_ : List UInt8) : List String := zoneFields.map (·.name)

theorem covered_within {s : Input arrayReport} {base count stride x : ℕ} {m : Memory}
    (h : s.Covered base count stride m x) : (base ≤ x ∧ x < base + count * stride) ∧
      ∃ i < count, base + i * stride ≤ x ∧ x < base + i * stride + stride ∧
        x < base + i * stride + max 4 (min (declaredAt m (base + i * stride)) s.layout.size) := by
  obtain ⟨i, hi, hle, hlt⟩ := h
  have hwithin := Input.extent_within hi hlt
  unfold Input.extent at hlt
  exact ⟨⟨by omega, hwithin⟩, i, hi, hle, by omega, by omega⟩

theorem checkEvents_ok {events count stride maxEvents : ℕ} {u : Unit}
    (h : checkEvents events count stride maxEvents = .ok u) :
    count ≤ maxEvents ∧ (0 < count → 8 ≤ stride) := by
  unfold checkEvents at h
  split at h
  · cases h
  next hcount =>
    refine ⟨Nat.not_lt.mp hcount, fun hpos => ?_⟩
    cases hspan : span count stride eventInput.mandatory "events" with
    | error fault =>
      rw [hspan] at h
      cases h
    | ok total => exact (Input.span_element hspan hpos).1

theorem checkZones_ok {zones count stride : ℕ} {u : Unit} (h : checkZones zones count stride = .ok u) :
    count ≤ maxOcrZones ∧ 32 ≤ stride ∧ count * stride ≤ isizeMax := by
  unfold checkZones at h
  dsimp only at h
  split at h
  · cases h
  next hcount =>
    have hpos : 1 ≤ count := by omega
    split at h
    · cases h
    split at h
    · cases h
    split at h
    · cases h
    cases hspan : span count stride zoneInput.mandatory "zones" with
    | error fault =>
      rw [hspan] at h
      cases h
    | ok total =>
      have hlast := Input.span_element hspan (i := count - 1) (by omega)
      have hmul : (count - 1) * stride + stride = count * stride := by
        have hstep := Nat.succ_mul (count - 1) stride
        rw [Nat.succ_eq_add_one, Nat.sub_add_cancel hpos] at hstep
        exact hstep.symm
      exact ⟨by omega, hlast.1, by omega⟩

theorem zonePlace_eq {zones count stride i : ℕ} (h : count * stride ≤ isizeMax) (hi : i < count) :
    zonePlace zones stride i = .ok (zones + i * stride) := by
  have hle : i * stride ≤ count * stride := Nat.mul_le_mul_right _ hi.le
  have hsize : isizeMax ≤ usizeMax := by decide
  unfold zonePlace
  rw [checkedMul_of_le (by omega)]

theorem element_accepted {s : Input arrayReport} (hcheck : s.checkInputTables = true) {m : Memory}
    {ptr stride : ℕ} {value : List UInt8} (h : s.readElement m ptr stride = some (.ok value)) :
    ∃ declared bytes, s.Supplied m ptr declared bytes ∧
      s.Accepts ptr (some stride) declared (s.presenceBits (s.fill bytes)) ∧ value = s.fill bytes := by
  obtain ⟨declared, bytes, hs⟩ := Input.supplied_of_ok h
  obtain ⟨haccepts, hvalue⟩ := (Input.read_eq_ok hcheck hs).mp h
  exact ⟨declared, bytes, hs, haccepts, hvalue⟩

theorem converted_fields {α : Type} {s : Input arrayReport} {m : Memory} {ptr declared i : ℕ}
    {bytes : List UInt8} {names : List String} {a : α}
    {convert : Memory → ℕ → List UInt8 → Option (Except Fault α)} (hs : s.Supplied m ptr declared bytes)
    (hboundary : declared ∈ s.layout.boundaries ∨ s.layout.size ≤ declared)
    (hcovers : ∀ f ∈ s.layout.fields, f.name ∈ names → f.offset + f.size ≤ declared)
    (hdetermined : ∀ value, Agree s.layout.fields names (s.fill bytes) value →
      convert m i value = convert m i (s.fill bytes))
    (hconvert : convert m i (s.fill bytes) = some (.ok a)) :
    (∀ f ∈ s.layout.fields, f.name ∈ names → f.offset + f.size ≤ declared ∧
      m.load (ptr + f.offset) f.size = some (f.of (s.fill bytes))) ∧
    convert m i (s.fill bytes) = some (.ok a) ∧
    ∀ value, (∀ f ∈ s.layout.fields, f.offset + f.size ≤ declared → f.of (s.fill bytes) = f.of value) →
      convert m i value = some (.ok a) := by
  refine ⟨fun f hf hused => ?_, hconvert, fun value hagree => ?_⟩
  · have hdeclared := hcovers f hf hused
    exact ⟨hdeclared, (Input.read_whole hs hboundary hf).1 hdeclared⟩
  · rw [hdetermined value fun f hf hused => hagree f hf (hcovers f hf hused)]
    exact hconvert

theorem inputEvents_lawful (events count stride maxEvents : ℕ) :
    ArrayLaw eventInput events count stride maxEvents (inputEvents events count stride maxEvents)
      (NamedText events count stride) eventUses inputEvent where
  limited := by
    intro hcount
    refine ⟨inputFault .sequenceOutOfBounds, fun m => ?_⟩
    unfold inputEvents checkEvents
    rw [if_pos hcount]
  within := fun m x => covered_within
  confined := by
    intro m m' hagree
    unfold inputEvents
    cases hcheck : checkEvents events count stride maxEvents with
    | error fault => rfl
    | ok _ =>
      rcases Nat.eq_zero_or_pos count with rfl | hpos
      · rfl
      have hstride := (checkEvents_ok hcheck).2 hpos
      refine convertElements_congr (fun _ _ => rfl) (by omega) (fun x hx => hagree x (Or.inl hx)) ?_
        (Nat.zero_add count)
      intro i hi value hvalue
      exact inputEvent_congr fun x hx => hagree x (Or.inr ⟨i, hi, value, hvalue, hx⟩)
  readable := by
    intro m hmapped hnamed
    unfold inputEvents
    cases hcheck : checkEvents events count stride maxEvents with
    | error fault => exact ⟨_, rfl⟩
    | ok _ =>
      rcases Nat.eq_zero_or_pos count with rfl | hpos
      · exact ⟨_, rfl⟩
      have hstride := (checkEvents_ok hcheck).2 hpos
      refine convertElements_total (fun _ _ => rfl) ?_ ?_ (Nat.zero_add count)
      · intro i hi
        exact Input.readElement_of_mapped eventInput_checked (by decide) hstride hmapped hi
      · intro i hi value hvalue
        exact inputEvent_total fun x hx => hnamed x ⟨i, hi, value, hvalue, hx⟩
  determined := fun m i _ _ h => inputEvent_determined h m i
  converted := by
    intro m list h
    unfold inputEvents at h
    cases hcheck : checkEvents events count stride maxEvents with
    | error fault =>
      rw [hcheck] at h
      cases h
    | ok _ =>
      rw [hcheck] at h
      obtain ⟨hlength, hall⟩ := convertElements_ok (fun _ _ => rfl) (Nat.zero_add count) h
      refine ⟨(checkEvents_ok hcheck).1, hlength, fun i a ha => ?_⟩
      obtain ⟨value, hread, hconvert⟩ := hall i a ha
      rw [Nat.zero_add] at hread hconvert
      obtain ⟨declared, bytes, hs, haccepts, rfl⟩ := element_accepted eventInput_checked hread
      refine ⟨declared, bytes, hs, haccepts, converted_fields hs haccepts.boundary ?_
        (fun _ h => inputEvent_determined h m i) hconvert⟩
      intro f hf hused
      have hmandatory : 8 ≤ declared := haccepts.mandatory
      have hsize : (EventRecord.ofBytes (eventInput.fill bytes)).structSize = declared :=
        structSize_eq hs (le_min (by omega) (by decide))
      have hrequired := inputEvent_prefix hconvert
      rw [hsize] at hrequired
      exact variantPrefix_covers hmandatory hrequired hf hused

theorem readZones_lawful (zones count stride : ℕ) :
    ArrayLaw zoneInput zones count stride maxOcrZones (readZones zones count stride)
      (fun _ _ => False) zoneUses zoneOf where
  limited := by
    intro hcount
    refine ⟨ocrFault .zoneCountOutOfRange, fun m => ?_⟩
    have hrange : ¬ (1 ≤ count ∧ count ≤ maxOcrZones) := by omega
    unfold readZones checkZones
    dsimp only
    rw [if_pos hrange]
  within := fun m x => covered_within
  confined := by
    intro m m' hagree
    unfold readZones
    cases hcheck : checkZones zones count stride with
    | error fault => rfl
    | ok _ =>
      obtain ⟨-, hstride, htotal⟩ := checkZones_ok hcheck
      exact convertElements_congr (fun i hi => zonePlace_eq htotal hi) (by omega)
        (fun x hx => hagree x (Or.inl hx)) (fun _ _ _ _ => rfl) (Nat.zero_add count)
  readable := by
    intro m hmapped _
    unfold readZones
    cases hcheck : checkZones zones count stride with
    | error fault => exact ⟨_, rfl⟩
    | ok _ =>
      obtain ⟨-, hstride, htotal⟩ := checkZones_ok hcheck
      refine convertElements_total (fun i hi => zonePlace_eq htotal hi) ?_ ?_ (Nat.zero_add count)
      · intro i hi
        exact Input.readElement_of_mapped zoneInput_checked (by decide) hstride hmapped hi
      · exact fun i hi value hvalue => ⟨_, rfl⟩
  determined := fun m i _ _ h => zoneOf_determined h m i
  converted := by
    intro m list h
    unfold readZones at h
    cases hcheck : checkZones zones count stride with
    | error fault =>
      rw [hcheck] at h
      cases h
    | ok _ =>
      rw [hcheck] at h
      obtain ⟨hcount, -, htotal⟩ := checkZones_ok hcheck
      obtain ⟨hlength, hall⟩ :=
        convertElements_ok (fun i hi => zonePlace_eq htotal hi) (Nat.zero_add count) h
      refine ⟨hcount, hlength, fun i a ha => ?_⟩
      obtain ⟨value, hread, hconvert⟩ := hall i a ha
      rw [Nat.zero_add] at hread hconvert
      obtain ⟨declared, bytes, hs, haccepts, rfl⟩ := element_accepted zoneInput_checked hread
      refine ⟨declared, bytes, hs, haccepts, converted_fields hs haccepts.boundary ?_
        (fun _ h => zoneOf_determined h m i) hconvert⟩
      intro f hf _
      have hmandatory : 32 ≤ declared := haccepts.mandatory
      exact le_trans (zoneFields_within f hf) hmandatory

/-- **Arrays are converted within what their callers declare**, for every base, count, stride and
memory. -/
theorem array_conversion :
    (∀ events count stride maxEvents, ArrayLaw eventInput events count stride maxEvents
      (inputEvents events count stride maxEvents) (NamedText events count stride) eventUses
      inputEvent) ∧
    ∀ zones count stride, ArrayLaw zoneInput zones count stride maxOcrZones
      (readZones zones count stride) (fun _ _ => False) zoneUses zoneOf :=
  ⟨inputEvents_lawful, readZones_lawful⟩

/-- The four bytes of the size are read whatever they declare: of an element that declares none, they
are not among the bytes it declares, and decide what becomes of it. -/
theorem size_is_read : ¬ ∀ (zones count stride : ℕ) (m m' : Memory),
    m.Mapped zones (count * stride) → m'.Mapped zones (count * stride) →
    (∀ i < count, ∀ k < min (declaredAt m (zones + i * stride)) zoneInput.layout.size,
      m' (zones + i * stride + k) = m (zones + i * stride + k)) →
    readZones zones count stride m' = readZones zones count stride m := by
  intro h
  have hempty : (Memory.placed 8 (List.replicate 32 0)).Mapped 8 (1 * 32) := by
    unfold Memory.Mapped
    decide
  have hzone : (Memory.placed 8 ([32, 0, 0, 0] ++ List.replicate 28 0)).Mapped 8 (1 * 32) := by
    unfold Memory.Mapped
    decide
  have hsame := h 8 1 32 _ _ hempty hzone (by decide)
  have hok : (readZones 8 1 32 (Memory.placed 8 ([32, 0, 0, 0] ++ List.replicate 28 0))).map
      Except.isOk = some true := by decide
  have herror : (readZones 8 1 32 (Memory.placed 8 (List.replicate 32 0))).map
      Except.isOk = some false := by decide
  rw [hsame, herror] at hok
  cases hok

end MadoPilot.Capi
