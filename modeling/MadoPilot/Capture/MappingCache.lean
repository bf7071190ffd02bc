import Mathlib.Data.List.Perm.Basic
import MadoPilot.Capture.Region

/-!
# The live mappings of a frame

A frame remembers four regions that were copied lately, by weak references.  A copy is known by the
number of its allocation; whether somebody still owns it is for the owners to say, so `upgraded` and
`live` are arguments, as is whether `try_lock` gets the mutex.

* `find_eq`, `publish_eq` : what a search answers, and what a publication uses and leaves.
-/

namespace MadoPilot.Capture

open MadoPilot.Core MadoPilot.Lib

/-- One remembered copy. -/
structure CacheEntry where
  region : PixelRect
  descriptor : FrameDescriptor
  pixels : ℕ
  deriving DecidableEq

/-- The slots of a frame's cache, the latest first. -/
abbrev MappingCache := List (Option CacheEntry)

/-- `rotate_right(1)` of the slots up to an index. -/
def toFront {α : Type*} (l : List α) (index : ℕ) : List α :=
  match l[index]? with
  | some a => a :: l.eraseIdx index
  | none => l

namespace MappingCache

def new : MappingCache := List.replicate 4 none

variable (entries : MappingCache) (region : PixelRect) (descriptor : FrameDescriptor)

/-- The slot of a region in a layout, and what it remembers. -/
def position : Option (ℕ × ℕ) :=
  (entries.findIdx? (·.any fun e => e.region = region ∧ e.descriptor = descriptor)).bind fun index =>
    (entries[index]?.join).map fun e => (index, e.pixels)

/-- The slot that a new entry takes where none has its region: one that remembers nothing any more, or
the last. -/
def vacant (live : ℕ → Bool) : ℕ :=
  (entries.findIdx? fun e => e.all fun e => !live e.pixels).getD (entries.length - 1)

def find (locked upgraded : Bool) : Option ℕ × MappingCache :=
  if locked then
    match entries.position region descriptor with
    | none => (none, entries)
    | some (index, pixels) => if upgraded then (some pixels, toFront entries index) else (none, entries)
  else (none, entries)

/-- `MappingCache::publish`: the pixels that are used, the entries, and whether there is a new one. -/
def publish (pixels : ℕ) (locked upgraded : Bool) (live : ℕ → Bool) : ℕ × MappingCache × Bool :=
  if locked then
    match entries.position region descriptor with
    | some (index, winner) =>
      if upgraded then (winner, toFront entries index, false)
      else (pixels, toFront (entries.set index (some ⟨region, descriptor, pixels⟩)) index, true)
    | none =>
      let index := entries.vacant live
      (pixels, toFront (entries.set index (some ⟨region, descriptor, pixels⟩)) index, true)
  else (pixels, entries, false)

variable {entries region descriptor} {entries' : MappingCache} {pixels pixels' : ℕ}
  {locked upgraded : Bool} {live : ℕ → Bool}

theorem toFront_perm {α : Type*} (l : List α) (index : ℕ) : (toFront l index).Perm l := by
  unfold toFront
  split
  · rename_i a ha
    obtain ⟨hi, rfl⟩ := List.getElem?_eq_some_iff.mp ha
    exact List.getElem_cons_eraseIdx_perm hi
  · exact List.Perm.refl _

theorem position_eq_some {index : ℕ} (h : entries.position region descriptor = some (index, pixels)) :
    some ⟨region, descriptor, pixels⟩ ∈ entries := by
  unfold position at h
  obtain ⟨i, hi, h⟩ := Option.bind_eq_some_iff.mp h
  obtain ⟨e, he, h⟩ := Option.map_eq_some_iff.mp h
  obtain ⟨rfl, rfl⟩ := Prod.mk.inj h
  obtain ⟨hlt, hshows, -⟩ := List.findIdx?_eq_some_iff_getElem.mp hi
  rw [List.getElem?_eq_getElem hlt, Option.join_some] at he
  rw [he, Option.any_some, decide_eq_true_eq] at hshows
  obtain ⟨rfl, rfl⟩ := hshows
  exact List.mem_of_getElem? (List.getElem?_eq_some_iff.mpr ⟨hlt, he⟩)

theorem find_eq {found : Option ℕ}
    (h : entries.find region descriptor locked upgraded = (found, entries')) :
    entries'.Perm entries ∧ ∀ pixels, found = some pixels → some ⟨region, descriptor, pixels⟩ ∈ entries := by
  have hnothing : (none, entries) = (found, entries') → entries'.Perm entries ∧
      ∀ pixels, found = some pixels → some ⟨region, descriptor, pixels⟩ ∈ entries := by
    intro h
    obtain ⟨rfl, rfl⟩ := Prod.mk.inj h
    exact ⟨List.Perm.refl _, fun _ h => by cases h⟩
  unfold find at h
  cases locked with
  | false => exact hnothing h
  | true =>
    rw [if_pos rfl] at h
    cases hposition : entries.position region descriptor with
    | none =>
      rw [hposition] at h
      exact hnothing h
    | some place =>
      rw [hposition] at h
      cases upgraded with
      | false => exact hnothing h
      | true =>
        obtain ⟨rfl, rfl⟩ := Prod.mk.inj h
        refine ⟨toFront_perm _ _, fun pixels hpixels => ?_⟩
        obtain rfl := Option.some.inj hpixels
        exact position_eq_some hposition

theorem publish_eq {stored : Bool}
    (h : entries.publish region descriptor pixels locked upgraded live = (pixels', entries', stored)) :
    (stored = true ∧ pixels' = pixels ∧
        ∀ e ∈ entries', e = some ⟨region, descriptor, pixels⟩ ∨ e ∈ entries) ∨
      stored = false ∧ entries'.Perm entries ∧
        (pixels' = pixels ∨ some ⟨region, descriptor, pixels'⟩ ∈ entries) := by
  have hstored : ∀ index, (pixels,
      toFront (entries.set index (some ⟨region, descriptor, pixels⟩)) index, true) =
        (pixels', entries', stored) → stored = true ∧ pixels' = pixels ∧
        ∀ e ∈ entries', e = some ⟨region, descriptor, pixels⟩ ∨ e ∈ entries := by
    intro index h
    simp only [Prod.mk.injEq] at h
    obtain ⟨rfl, rfl, rfl⟩ := h
    refine ⟨rfl, rfl, fun e he => ?_⟩
    exact (List.mem_or_eq_of_mem_set ((toFront_perm _ _).mem_iff.mp he)).symm
  unfold publish at h
  cases locked with
  | false =>
    rw [if_neg Bool.false_ne_true, Prod.mk.injEq, Prod.mk.injEq] at h
    obtain ⟨rfl, rfl, rfl⟩ := h
    exact Or.inr ⟨rfl, List.Perm.refl _, Or.inl rfl⟩
  | true =>
    rw [if_pos rfl] at h
    cases hposition : entries.position region descriptor with
    | none =>
      rw [hposition] at h
      exact Or.inl (hstored _ h)
    | some place =>
      rw [hposition] at h
      cases upgraded with
      | false => exact Or.inl (hstored _ h)
      | true =>
        simp only [if_true, Prod.mk.injEq] at h
        obtain ⟨rfl, rfl, rfl⟩ := h
        exact Or.inr ⟨rfl, toFront_perm _ _, Or.inr (position_eq_some hposition)⟩

end MappingCache

end MadoPilot.Capture
