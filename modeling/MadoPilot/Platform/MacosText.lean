import Mathlib.Data.List.Basic
import MadoPilot.Lib.Utf16

/-!
# The chunks of a text

The window server takes a few UTF-16 units in one post, so a text is posted in chunks.  A chunk gives
back a high surrogate that it would end with, so a character is never cut in two.

* `cut` : where a unit does not begin a pair, the string is cut between characters;
* `chunk_part` : the next chunk is the encoding of some characters;
* `text_chunks` is the result.
-/

namespace MadoPilot.Platform.MacosText

open MadoPilot.Lib

def inputMaxTextChunk : ℕ := 16

/-- The first half of a pair. -/
def isHigh (unit : UInt16) : Bool := 0xd800 ≤ unit && unit < 0xdc00

/-- The second half of a pair. -/
def isLow (unit : UInt16) : Bool := 0xdc00 ≤ unit && unit < 0xe000

structure Chunk where
  start : ℕ
  stop : ℕ
  deriving DecidableEq

def Chunk.of (c : Chunk) (units : List UInt16) : List UInt16 := (units.take c.stop).drop c.start

def chunkEnd (limit : ℕ) (units : List UInt16) (start : ℕ) : ℕ :=
  let stop := min (start + limit) units.length
  if stop < units.length ∧ (units[stop - 1]?).any isHigh then stop - 1 else stop

/-- The loop of `text_chunks`, with the number of its turns bounded by `fuel`. -/
def textChunksFrom (limit : ℕ) (units : List UInt16) : ℕ → ℕ → Option (List Chunk)
  | fuel, start =>
    if start < units.length then
      match fuel with
      | 0 => none
      | fuel + 1 =>
        let stop := chunkEnd limit units start
        (textChunksFrom limit units fuel stop).map (⟨start, stop⟩ :: ·)
    else some []

def textChunks (limit : ℕ) (units : List UInt16) (fuel : ℕ) : Option (List Chunk) :=
  textChunksFrom limit units fuel 0

inductive Partition : ℕ → List Chunk → ℕ → Prop
  | nil (start : ℕ) : Partition start [] start
  | cons {start stop n : ℕ} {chunks : List Chunk} :
      Partition stop chunks n → Partition start (⟨start, stop⟩ :: chunks) n

/-! ### Where a string can be cut -/

section Cut

theorem units_cases (c : Char) :
    (∃ u, Utf16.units c = [u] ∧ isHigh u = false) ∨
      ∃ high low, Utf16.units c = [high, low] ∧ isHigh high = true ∧ isLow low = true := by
  have hc := Utf16.char_cases c
  unfold Utf16.units
  split
  · rename_i hsmall
    refine Or.inl ⟨_, rfl, ?_⟩
    have hunit : (UInt16.ofNat c.toNat).toNat = c.toNat := by
      rw [UInt16.toNat_ofNat']
      omega
    unfold isHigh
    rw [Bool.and_eq_false_iff, decide_eq_false_iff_not, decide_eq_false_iff_not, UInt16.le_iff_toNat_le,
      UInt16.lt_iff_toNat_lt, hunit]
    show ¬ 0xd800 ≤ _ ∨ ¬ _ < 0xdc00
    omega
  · rename_i hlarge
    refine Or.inr ⟨_, _, rfl, ?_, ?_⟩
    · have hhigh : (UInt16.ofNat (0xd800 + (c.toNat - 0x10000) / 0x400)).toNat =
          0xd800 + (c.toNat - 0x10000) / 0x400 := by
        rw [UInt16.toNat_ofNat']
        omega
      unfold isHigh
      rw [Bool.and_eq_true, decide_eq_true_iff, decide_eq_true_iff, UInt16.le_iff_toNat_le,
        UInt16.lt_iff_toNat_lt, hhigh]
      show 0xd800 ≤ _ ∧ _ < 0xdc00
      omega
    · have hlow : (UInt16.ofNat (0xdc00 + (c.toNat - 0x10000) % 0x400)).toNat =
          0xdc00 + (c.toNat - 0x10000) % 0x400 := by
        rw [UInt16.toNat_ofNat']
        omega
      unfold isLow
      rw [Bool.and_eq_true, decide_eq_true_iff, decide_eq_true_iff, UInt16.le_iff_toNat_le,
        UInt16.lt_iff_toNat_lt, hlow]
      show 0xdc00 ≤ _ ∧ _ < 0xe000
      omega

theorem isHigh_of_isLow {u : UInt16} (h : isLow u = true) : isHigh u = false := by
  unfold isLow at h
  rw [Bool.and_eq_true, decide_eq_true_iff] at h
  unfold isHigh
  rw [Bool.and_eq_false_iff, decide_eq_false_iff_not, decide_eq_false_iff_not]
  exact Or.inr (UInt16.not_lt.mpr h.1)

theorem high_followed {cs : List Char} {i : ℕ} {u : UInt16} (hu : (Utf16.encode cs)[i]? = some u)
    (hhigh : isHigh u = true) : ∃ v, (Utf16.encode cs)[i + 1]? = some v ∧ isLow v = true := by
  induction cs generalizing i with
  | nil => cases hu
  | cons c cs ih =>
    have hcons : Utf16.encode (c :: cs) = Utf16.units c ++ Utf16.encode cs := rfl
    rw [hcons] at hu ⊢
    rcases units_cases c with ⟨w, hunits, hplain⟩ | ⟨high, low, hunits, -, hlow⟩
    · rw [hunits] at hu ⊢
      cases i with
      | zero =>
        obtain rfl := Option.some.inj hu
        rw [hplain] at hhigh
        cases hhigh
      | succ i => exact ih hu
    · rw [hunits] at hu ⊢
      match i with
      | 0 => exact ⟨low, rfl, hlow⟩
      | 1 =>
        obtain rfl := Option.some.inj hu
        rw [isHigh_of_isLow hlow] at hhigh
        cases hhigh
      | i + 2 => exact ih hu

theorem cut {cs : List Char} {k : ℕ} (hk : k ≤ (Utf16.encode cs).length)
    (hplain : ∀ u, 0 < k → (Utf16.encode cs)[k - 1]? = some u → isHigh u = false) :
    ∃ front back, cs = front ++ back ∧ (Utf16.encode front).length = k := by
  induction cs generalizing k with
  | nil => exact ⟨[], [], rfl, (Nat.le_zero.mp hk).symm⟩
  | cons c cs ih =>
    have hcons : Utf16.encode (c :: cs) = Utf16.units c ++ Utf16.encode cs := rfl
    rw [hcons] at hk hplain
    rcases Nat.eq_zero_or_pos k with rfl | hpos
    · exact ⟨[], c :: cs, rfl, rfl⟩
    · have hrest : (Utf16.units c).length ≤ k := by
        rcases units_cases c with ⟨w, hunits, -⟩ | ⟨high, low, hunits, hhigh, -⟩
        · rw [hunits]
          exact hpos
        · by_contra hshort
          rw [hunits] at hshort hplain
          have hone : k = 1 := by
            rw [List.length_cons, List.length_singleton] at hshort
            omega
          subst hone
          rw [hplain high hpos rfl] at hhigh
          cases hhigh
      rw [List.length_append] at hk
      obtain ⟨front, back, hsplit, hlength⟩ := @ih (k - (Utf16.units c).length) (by omega) (by
        intro u hpos' hu
        refine hplain u hpos ?_
        rw [List.getElem?_append_right (by omega), ← hu]
        congr 1
        omega)
      refine ⟨c :: front, back, by rw [hsplit]; rfl, ?_⟩
      have hfront : Utf16.encode (c :: front) = Utf16.units c ++ Utf16.encode front := rfl
      rw [hfront, List.length_append, hlength]
      omega

end Cut

/-! ### One chunk -/

section Chunks

variable {limit : ℕ} {text done rest : List Char}

theorem encode_append (cs ds : List Char) :
    Utf16.encode (cs ++ ds) = Utf16.encode cs ++ Utf16.encode ds := List.flatMap_append

theorem encode_pos {cs : List Char} (h : cs ≠ []) : 0 < (Utf16.encode cs).length := by
  have hlength := (Utf16.length_encode cs).1
  have hpos := List.length_pos_of_ne_nil h
  omega

theorem chunkEnd_append (before : List UInt16) {after : List UInt16} (hlimit : 0 < limit)
    (hafter : 0 < after.length) :
    chunkEnd limit (before ++ after) before.length = before.length + chunkEnd limit after 0 := by
  unfold chunkEnd
  have hstop : min (before.length + limit) (before ++ after).length =
      before.length + min (0 + limit) after.length := by
    rw [List.length_append]
    omega
  rw [hstop]
  generalize hk : min (0 + limit) after.length = k
  have hpos : 0 < k := by omega
  have hget : (before ++ after)[before.length + k - 1]? = after[k - 1]? := by
    rw [List.getElem?_append_right (by omega)]
    congr 1
    omega
  have hless : before.length + k < (before ++ after).length ↔ k < after.length := by
    rw [List.length_append]
    omega
  simp only [hget, hless]
  split
  · omega
  · rfl

theorem chunkEnd_first (hlimit : 2 ≤ limit) (hrest : rest ≠ []) :
    0 < chunkEnd limit (Utf16.encode rest) 0 ∧ chunkEnd limit (Utf16.encode rest) 0 ≤ limit ∧
      chunkEnd limit (Utf16.encode rest) 0 ≤ (Utf16.encode rest).length ∧
      ∀ u, (Utf16.encode rest)[chunkEnd limit (Utf16.encode rest) 0 - 1]? = some u → isHigh u = false := by
  have hpos := encode_pos hrest
  unfold chunkEnd
  generalize hstop : min (0 + limit) (Utf16.encode rest).length = stop
  dsimp only
  split
  · rename_i hback
    obtain ⟨hinside, hlast⟩ := hback
    refine ⟨by omega, by omega, by omega, fun u hu => ?_⟩
    rw [Option.any_eq_true] at hlast
    obtain ⟨last, hlast, hhigh⟩ := hlast
    -- a high surrogate before the last unit would have that one as its second half
    by_contra hne
    rw [Bool.not_eq_false] at hne
    obtain ⟨v, hv, hlow⟩ := high_followed hu hne
    have hindex : stop - 1 - 1 + 1 = stop - 1 := by omega
    rw [hindex, hlast] at hv
    obtain rfl := Option.some.inj hv
    rw [isHigh_of_isLow hlow] at hhigh
    cases hhigh
  · rename_i hkeep
    refine ⟨by omega, by omega, by omega, fun u hu => ?_⟩
    by_contra hne
    rw [Bool.not_eq_false] at hne
    refine hkeep ⟨?_, by rw [hu]; exact hne⟩
    obtain ⟨v, hv, -⟩ := high_followed hu hne
    have hnext := (List.getElem?_eq_some_iff.mp hv).1
    omega

theorem chunk_part (hlimit : 2 ≤ limit) (hrest : rest ≠ []) :
    ∃ part back, rest = part ++ back ∧ 0 < (Utf16.encode part).length ∧
      (Utf16.encode part).length ≤ limit ∧
      chunkEnd limit (Utf16.encode (done ++ rest)) (Utf16.encode done).length =
        (Utf16.encode (done ++ part)).length := by
  obtain ⟨hpos, hmax, hle, hplain⟩ := chunkEnd_first hlimit hrest
  obtain ⟨part, back, hsplit, hpart⟩ := cut hle fun u _ hu => hplain u hu
  refine ⟨part, back, hsplit, hpart ▸ hpos, hpart ▸ hmax, ?_⟩
  rw [encode_append, chunkEnd_append _ (by omega) (encode_pos hrest), encode_append,
    List.length_append, hpart]

theorem chunk_of {part back : List Char} :
    (⟨(Utf16.encode done).length, (Utf16.encode (done ++ part)).length⟩ : Chunk).of
      (Utf16.encode (done ++ (part ++ back))) = Utf16.encode part := by
  unfold Chunk.of
  dsimp only
  rw [← List.append_assoc, encode_append (done ++ part), List.take_left, encode_append, List.drop_left]

/-! ### The loop -/

/-- A chunk ends between two characters. -/
def Between (text : List Char) (stop : ℕ) : Prop :=
  ∃ front back, text = front ++ back ∧ (Utf16.encode front).length = stop

/-- What the loop yields from a character on. -/
structure Chunked (limit : ℕ) (text : List Char) (start : ℕ) (rest : List Char)
    (chunks : List Chunk) : Prop where
  contiguous : Partition start chunks (Utf16.encode text).length
  sizes : ∀ c ∈ chunks, c.start < c.stop ∧ c.stop - c.start ≤ limit
  between : ∀ c ∈ chunks, Between text c.stop
  parts : ∃ parts : List (List Char), parts.flatten = rest ∧
    chunks.map (fun c => c.of (Utf16.encode text)) = parts.map Utf16.encode

theorem textChunksFrom_end (fuel : ℕ) :
    textChunksFrom limit (Utf16.encode text) fuel (Utf16.encode text).length = some [] ∧
      Chunked limit text (Utf16.encode text).length [] [] := by
  refine ⟨?_, .nil _, fun c hc => absurd hc List.not_mem_nil,
    fun c hc => absurd hc List.not_mem_nil, [], rfl, rfl⟩
  unfold textChunksFrom
  rw [if_neg (Nat.lt_irrefl _)]

theorem textChunksFrom_eq (hlimit : 2 ≤ limit) {fuel : ℕ} (htext : text = done ++ rest)
    (hfuel : (Utf16.encode rest).length ≤ fuel) :
    ∃ chunks, textChunksFrom limit (Utf16.encode text) fuel (Utf16.encode done).length = some chunks ∧
      Chunked limit text (Utf16.encode done).length rest chunks := by
  induction fuel generalizing done rest with
  | zero =>
    have hnil : rest = [] := by
      by_contra hne
      have hpos := encode_pos hne
      omega
    subst hnil
    rw [List.append_nil] at htext
    subst htext
    exact ⟨[], textChunksFrom_end 0⟩
  | succ fuel ih =>
    by_cases hnil : rest = []
    · subst hnil
      rw [List.append_nil] at htext
      subst htext
      exact ⟨[], textChunksFrom_end (fuel + 1)⟩
    · obtain ⟨part, back, hsplit, hpos, hmax, hend⟩ := @chunk_part limit done rest hlimit hnil
      have hlater : text = (done ++ part) ++ back := by rw [htext, hsplit, List.append_assoc]
      have hlength : (Utf16.encode rest).length =
          (Utf16.encode part).length + (Utf16.encode back).length := by
        rw [hsplit, encode_append, List.length_append]
      have hstop : (Utf16.encode (done ++ part)).length =
          (Utf16.encode done).length + (Utf16.encode part).length := by
        rw [encode_append, List.length_append]
      have hinside : (Utf16.encode done).length < (Utf16.encode text).length := by
        rw [hlater, encode_append, List.length_append]
        omega
      obtain ⟨chunks, hchunks, hfits⟩ := ih hlater (by omega)
      refine ⟨⟨_, (Utf16.encode (done ++ part)).length⟩ :: chunks, ?_, .cons hfits.contiguous,
        fun c hc => ?_, fun c hc => ?_, ?_⟩
      · unfold textChunksFrom
        rw [if_pos hinside]
        dsimp only
        rw [htext, hend, ← htext, hchunks]
        rfl
      · rcases List.mem_cons.mp hc with rfl | hc
        · dsimp only
          omega
        · exact hfits.sizes c hc
      · rcases List.mem_cons.mp hc with rfl | hc
        · exact ⟨done ++ part, back, hlater, rfl⟩
        · exact hfits.between c hc
      · obtain ⟨parts, hparts, hof⟩ := hfits.parts
        refine ⟨part :: parts, by rw [List.flatten_cons, hparts, hsplit], ?_⟩
        rw [List.map_cons, List.map_cons, hof, htext, hsplit, chunk_of]

theorem Between.whole {stop : ℕ} (h : Between text stop) (hpos : 0 < stop) {unit : UInt16}
    (hunit : (Utf16.encode text)[stop - 1]? = some unit) : isHigh unit = false := by
  obtain ⟨front, back, rfl, rfl⟩ := h
  rw [encode_append, List.getElem?_append_left (by omega)] at hunit
  by_contra hne
  rw [Bool.not_eq_false] at hne
  obtain ⟨v, hv, -⟩ := high_followed hunit hne
  have hnext := (List.getElem?_eq_some_iff.mp hv).1
  omega

/-- **The chunks of a text.**  The loop ends; the chunks follow each other from the first unit to the
last, none is empty or longer than the limit, none ends between the halves of a pair; and what is posted
are the encodings of consecutive parts of the text. -/
theorem text_chunks (limit : ℕ) (hlimit : 2 ≤ limit) (text : List Char) (fuel : ℕ)
    (hfuel : (Utf16.encode text).length ≤ fuel) :
    ∃ chunks, textChunks limit (Utf16.encode text) fuel = some chunks ∧
      Partition 0 chunks (Utf16.encode text).length ∧
      (∀ c ∈ chunks, c.start < c.stop ∧ c.stop - c.start ≤ limit) ∧
      (∀ c ∈ chunks, ∀ high low, (Utf16.encode text)[c.stop - 1]? = some high →
        (Utf16.encode text)[c.stop]? = some low → ¬ (isHigh high = true ∧ isLow low = true)) ∧
      ∃ parts : List (List Char), parts.flatten = text ∧
        chunks.map (fun c => c.of (Utf16.encode text)) = parts.map Utf16.encode := by
  obtain ⟨chunks, hchunks, hfits⟩ := @textChunksFrom_eq limit text [] text hlimit fuel rfl hfuel
  refine ⟨chunks, hchunks, hfits.contiguous, hfits.sizes, ?_, hfits.parts⟩
  rintro c hc high low hhigh - ⟨hfirst, -⟩
  have hsize := hfits.sizes c hc
  rw [(hfits.between c hc).whole (by omega) hhigh] at hfirst
  cases hfirst

end Chunks

/-- Fifteen letters and a pair: the pair goes into the second chunk. -/
theorem text_chunks_pair :
    textChunks inputMaxTextChunk (Utf16.encode (List.replicate 15 'a' ++ ['😀', 'b'])) 18 =
        some [⟨0, 15⟩, ⟨15, 18⟩] ∧
      ∃ parts : List (List Char), parts.flatten = List.replicate 15 'a' ++ ['😀', 'b'] ∧
        [(⟨0, 15⟩ : Chunk), ⟨15, 18⟩].map (fun c =>
          c.of (Utf16.encode (List.replicate 15 'a' ++ ['😀', 'b']))) = parts.map Utf16.encode := by
  obtain ⟨chunks, hchunks, -, -, -, hparts⟩ := text_chunks inputMaxTextChunk (by decide)
    (List.replicate 15 'a' ++ ['😀', 'b']) 18 (by decide)
  have hrun : textChunks inputMaxTextChunk (Utf16.encode (List.replicate 15 'a' ++ ['😀', 'b'])) 18 =
      some [⟨0, 15⟩, ⟨15, 18⟩] := by
    decide
  rw [hrun] at hchunks
  obtain rfl := Option.some.inj hchunks
  exact ⟨hrun, hparts⟩

end MadoPilot.Platform.MacosText
