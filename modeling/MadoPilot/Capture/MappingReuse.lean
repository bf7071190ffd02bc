import MadoPilot.Capture.MappingCache
import MadoPilot.Lib.Recency
import MadoPilot.Lib.System

/-!
# Reuse of live mappings

A frame's cache among the owners of the copies.  Callers make copies, share and drop them at any time,
and search and publish in any order, whether or not they get the lock; a copy is live as long as
somebody owns it.  The owners of a copy take no lock: a search or a publication reads the liveness of
an entry at most once, so a drop that overlaps it comes before or after it.

* `Lawful.step` : what one step keeps;
* `mapping_reuse` : the law of the cache.
-/

namespace MadoPilot.Capture

open MadoPilot.Core MadoPilot.Lib Recency

/-- What a copy is looked for by. -/
abbrev CacheKey := PixelRect × FrameDescriptor

def CacheEntry.key (e : CacheEntry) : CacheKey := (e.region, e.descriptor)

/-- The keys of what the slots remember, in order. -/
def MappingCache.keys (entries : MappingCache) : List CacheKey :=
  entries.filterMap (Option.map CacheEntry.key)

/-- A cache, the copies that were ever made and how many own each. -/
structure Reuse where
  entries : MappingCache
  copies : List (List UInt8)
  owners : ℕ → ℕ

namespace Reuse

def new : Reuse := ⟨.new, [], fun _ => 0⟩

variable (s : Reuse)

/-- `strong_count` is not zero. -/
def live (pixels : ℕ) : Bool := 0 < s.owners pixels

def copy (pixels : ℕ) : List UInt8 := s.copies[pixels]?.getD []

def gain (owners : ℕ → ℕ) (pixels : ℕ) : ℕ → ℕ := Function.update owners pixels (owners pixels + 1)

def lose (owners : ℕ → ℕ) (pixels : ℕ) : ℕ → ℕ := Function.update owners pixels (owners pixels - 1)

/-- What `upgrade` of the entry of a key finds. -/
def upgrades (key : CacheKey) : Bool :=
  match s.entries.position key.1 key.2 with
  | some (_, pixels) => s.live pixels
  | none => false

/-- A search of the cache; what is found has one owner more. -/
def find (key : CacheKey) (locked : Bool) : Option ℕ × Reuse :=
  let (found, entries) := s.entries.find key.1 key.2 locked (s.upgrades key)
  (found, { s with
    entries := entries
    owners := match found with
      | some pixels => gain s.owners pixels
      | none => s.owners })

/-- A publication: the caller hands its own pixels in and owns what is used instead. -/
def publish (key : CacheKey) (pixels : ℕ) (locked : Bool) : ℕ × Reuse :=
  let (used, entries, _) := s.entries.publish key.1 key.2 pixels locked (s.upgrades key) s.live
  (used, { s with entries := entries, owners := lose (gain s.owners used) pixels })

/-- What the owners of copies and the callers of a frame do. -/
inductive Event where
  | made (bytes : List UInt8)
  | shared (pixels : ℕ)
  | dropped (pixels : ℕ)
  | found (key : CacheKey) (locked : Bool) (result : Option ℕ)
  | published (key : CacheKey) (pixels : ℕ) (locked : Bool) (used : ℕ)

inductive Act : Reuse → Event → Reuse → Prop
  | made {s : Reuse} (bytes : List UInt8) :
      Act s (.made bytes) { s with
        copies := s.copies ++ [bytes]
        owners := Function.update s.owners s.copies.length 1 }
  | shared {s : Reuse} (pixels : ℕ) : s.live pixels = true →
      Act s (.shared pixels) { s with owners := gain s.owners pixels }
  | dropped {s : Reuse} (pixels : ℕ) : s.live pixels = true →
      Act s (.dropped pixels) { s with owners := lose s.owners pixels }
  | found {s s' : Reuse} (key : CacheKey) (locked : Bool) {result : Option ℕ} :
      s.find key locked = (result, s') → Act s (.found key locked result) s'
  | published {s s' : Reuse} (key : CacheKey) (pixels : ℕ) (locked : Bool) {used : ℕ} :
      s.live pixels = true → s.publish key pixels locked = (used, s') →
      Act s (.published key pixels locked used) s'

end Reuse

/-- Every run of the owners and the callers. -/
def reuseSystem : System Reuse Reuse.Event := ⟨(· = .new), Reuse.Act⟩

namespace Reuse

def Event.uses : Event → List CacheKey
  | found key _ (some _) => [key]
  | published key _ true _ => [key]
  | _ => []

/-- The keys that a run has used, in order. -/
def usesOf (trail : List (Reuse × Event)) : List CacheKey := trail.flatMap fun x => x.2.uses

/-! ### Slots -/

section Slots

variable {entries : MappingCache} {key : CacheKey} {index pixels : ℕ} {live : ℕ → Bool}
  {e : CacheEntry}

theorem mem_keys : key ∈ entries.keys ↔ ∃ e, some e ∈ entries ∧ e.key = key := by
  unfold MappingCache.keys
  simp [List.mem_filterMap]

theorem keys_cons (e : CacheEntry) (entries : MappingCache) :
    MappingCache.keys (some e :: entries) = e.key :: entries.keys := List.filterMap_cons_some rfl

theorem position_at (h : entries.position key.1 key.2 = some (index, pixels)) :
    entries[index]? = some (some ⟨key.1, key.2, pixels⟩) := by
  unfold MappingCache.position at h
  obtain ⟨i, hi, h⟩ := Option.bind_eq_some_iff.mp h
  obtain ⟨e, he, h⟩ := Option.map_eq_some_iff.mp h
  obtain ⟨rfl, rfl⟩ := Prod.mk.inj h
  obtain ⟨hlt, hshows, -⟩ := List.findIdx?_eq_some_iff_getElem.mp hi
  rw [List.getElem?_eq_getElem hlt, Option.join_some] at he
  rw [he, Option.any_some, decide_eq_true_eq] at hshows
  obtain ⟨hregion, hdescriptor⟩ := hshows
  rw [List.getElem?_eq_getElem hlt, he, ← hregion, ← hdescriptor]

theorem position_none (h : entries.position key.1 key.2 = none) : key ∉ entries.keys := by
  intro hmem
  obtain ⟨e, he, hkey⟩ := mem_keys.mp hmem
  unfold MappingCache.position at h
  cases hfind : entries.findIdx? (·.any fun e => e.region = key.1 ∧ e.descriptor = key.2) with
  | none =>
    have hnot := List.findIdx?_eq_none_iff.mp hfind (some e) he
    subst hkey
    simp [CacheEntry.key] at hnot
  | some i =>
    obtain ⟨hlt, hshows, -⟩ := List.findIdx?_eq_some_iff_getElem.mp hfind
    rw [hfind, Option.bind_some, List.getElem?_eq_getElem hlt, Option.join_some] at h
    cases hslot : entries[i] with
    | none =>
      rw [hslot] at hshows
      cases hshows
    | some found =>
      rw [hslot] at h
      cases h

theorem vacant_lt (h : entries ≠ []) : entries.vacant live < entries.length := by
  unfold MappingCache.vacant
  cases hfind : entries.findIdx? fun e => e.all fun e => !live e.pixels with
  | none => exact Nat.sub_lt (List.length_pos_iff.mpr h) one_pos
  | some i => exact (List.findIdx?_eq_some_iff_getElem.mp hfind).1

theorem vacant_live (hslot : entries[entries.vacant live]? = some (some e))
    (hlive : live e.pixels = true) :
    entries.vacant live = entries.length - 1 ∧
      ∀ slot ∈ entries, ∃ e', slot = some e' ∧ live e'.pixels = true := by
  unfold MappingCache.vacant at hslot ⊢
  cases hfind : entries.findIdx? fun e => e.all fun e => !live e.pixels with
  | some i =>
    rw [hfind, Option.getD_some] at hslot
    obtain ⟨hlt, hdead, -⟩ := List.findIdx?_eq_some_iff_getElem.mp hfind
    rw [List.getElem?_eq_getElem hlt] at hslot
    rw [Option.some.inj hslot] at hdead
    simp [hlive] at hdead
  | none =>
    refine ⟨rfl, fun slot hmem => ?_⟩
    have hnot := List.findIdx?_eq_none_iff.mp hfind slot hmem
    cases slot with
    | none => cases hnot
    | some e' => exact ⟨e', rfl, by simpa using hnot⟩

theorem toFront_set {slot : Option CacheEntry} (h : index < entries.length) :
    toFront (entries.set index slot) index = slot :: entries.eraseIdx index := by
  unfold toFront
  rw [List.getElem?_set_self h]
  show slot :: (entries.set index slot).eraseIdx index = _
  rw [List.eraseIdx_set_eq]

theorem toFront_some {slot : Option CacheEntry} (h : entries[index]? = some slot) :
    toFront entries index = slot :: entries.eraseIdx index := by
  unfold toFront
  rw [h]

theorem keys_eraseIdx (hnodup : entries.keys.Nodup) (h : entries[index]? = some (some e)) :
    (MappingCache.keys (entries.eraseIdx index)).Sublist entries.keys ∧
      e.key ∉ MappingCache.keys (entries.eraseIdx index) := by
  have hsub : (MappingCache.keys (entries.eraseIdx index)).Sublist entries.keys :=
    (List.eraseIdx_sublist entries index).filterMap _
  refine ⟨hsub, fun hmem => ?_⟩
  obtain ⟨hlt, hslot⟩ := List.getElem?_eq_some_iff.mp h
  have hperm : (some e :: entries.eraseIdx index).Perm entries := by
    rw [← hslot]
    exact List.getElem_cons_eraseIdx_perm hlt
  have hkeys : (MappingCache.keys (some e :: entries.eraseIdx index)).Perm entries.keys :=
    hperm.filterMap _
  rw [keys_cons] at hkeys
  exact (List.nodup_cons.mp (hkeys.nodup_iff.mpr hnodup)).1 hmem

end Slots

/-! ### Calls -/

section Calls

variable {s s' : Reuse} {key : CacheKey} {locked : Bool} {pixels used : ℕ}

theorem upgrades_of_position {index q : ℕ}
    (h : s.entries.position key.1 key.2 = some (index, q)) : s.upgrades key = s.live q := by
  unfold upgrades
  rw [h]

/-- **What a search does**: nothing, or it finds what its key has and moves it to the front. -/
theorem find_cases {result : Option ℕ} (h : s.find key locked = (result, s')) :
    (result = none ∧ s' = s) ∨ ∃ index pixels, locked = true ∧ result = some pixels ∧
      s.entries.position key.1 key.2 = some (index, pixels) ∧ s.live pixels = true ∧
      s'.entries = toFront s.entries index ∧ s'.copies = s.copies := by
  unfold find MappingCache.find at h
  cases locked with
  | false =>
    obtain ⟨rfl, rfl⟩ := Prod.mk.inj h
    exact Or.inl ⟨rfl, rfl⟩
  | true =>
    rw [if_pos rfl] at h
    cases hposition : s.entries.position key.1 key.2 with
    | none =>
      rw [hposition] at h
      obtain ⟨rfl, rfl⟩ := Prod.mk.inj h
      exact Or.inl ⟨rfl, rfl⟩
    | some place =>
      obtain ⟨index, pixels⟩ := place
      rw [upgrades_of_position hposition, hposition] at h
      cases hlive : s.live pixels with
      | false =>
        rw [hlive] at h
        obtain ⟨rfl, rfl⟩ := Prod.mk.inj h
        exact Or.inl ⟨rfl, rfl⟩
      | true =>
        rw [hlive] at h
        obtain ⟨rfl, rfl⟩ := Prod.mk.inj h
        exact Or.inr ⟨index, pixels, rfl, rfl, rfl, hlive, rfl, rfl⟩

theorem find_hit {index : ℕ} (hposition : s.entries.position key.1 key.2 = some (index, pixels))
    (hlive : s.live pixels = true) : (s.find key true).1 = some pixels := by
  unfold find MappingCache.find
  rw [if_pos rfl, upgrades_of_position hposition, hposition, hlive]
  rfl

theorem lose_gain (owners : ℕ → ℕ) (pixels : ℕ) : lose (gain owners pixels) pixels = owners := by
  funext q
  unfold lose gain
  by_cases hq : q = pixels
  · subst hq
    simp
  · simp [hq]

/-- **What a publication does**: nothing without the lock; with it, it uses the live pixels of its
key, or stores its own in the slot of the key or in a vacant one.  What is used ends up in front. -/
theorem publish_cases (h : s.publish key pixels locked = (used, s')) : s'.copies = s.copies ∧
    (locked = false ∧ used = pixels ∧ s' = s ∨
      locked = true ∧ (∃ index, s.entries.position key.1 key.2 = some (index, used) ∧
        s.live used = true ∧ s'.entries = toFront s.entries index) ∨
      locked = true ∧ used = pixels ∧ ∃ index,
        s'.entries = toFront (s.entries.set index (some ⟨key.1, key.2, pixels⟩)) index ∧
        ((∃ q, s.entries.position key.1 key.2 = some (index, q) ∧ s.live q = false) ∨
          s.entries.position key.1 key.2 = none ∧ index = s.entries.vacant s.live)) := by
  unfold publish MappingCache.publish at h
  cases locked with
  | false =>
    obtain ⟨rfl, rfl⟩ := Prod.mk.inj h
    exact ⟨rfl, Or.inl ⟨rfl, rfl, by simp only [lose_gain]⟩⟩
  | true =>
    rw [if_pos rfl] at h
    cases hposition : s.entries.position key.1 key.2 with
    | none =>
      rw [hposition] at h
      obtain ⟨rfl, rfl⟩ := Prod.mk.inj h
      exact ⟨rfl, Or.inr (Or.inr ⟨rfl, rfl, _, rfl, Or.inr ⟨rfl, rfl⟩⟩)⟩
    | some place =>
      obtain ⟨index, q⟩ := place
      rw [upgrades_of_position hposition, hposition] at h
      cases hlive : s.live q with
      | false =>
        rw [hlive] at h
        obtain ⟨rfl, rfl⟩ := Prod.mk.inj h
        exact ⟨rfl, Or.inr (Or.inr ⟨rfl, rfl, index, rfl, Or.inl ⟨q, rfl, hlive⟩⟩)⟩
      | true =>
        rw [hlive] at h
        obtain ⟨rfl, rfl⟩ := Prod.mk.inj h
        exact ⟨rfl, Or.inr (Or.inl ⟨rfl, index, rfl, hlive, rfl⟩)⟩

end Calls

/-! ### What a run keeps -/

/-- Four slots, whose keys come in the order of their last use, the latest first, and whose pixels
have been published under their keys. -/
structure Lawful (trail : List (Reuse × Event)) (s : Reuse) : Prop where
  slots : s.entries.length = 4
  ordered : s.entries.keys.Pairwise fun newer older => Later (usesOf trail) older newer
  published : ∀ e, some e ∈ s.entries →
    ∃ before, (before, Event.published e.key e.pixels true e.pixels) ∈ trail

section Runs

variable {trail : List (Reuse × Event)} {s s' : Reuse} {event : Event} {e : CacheEntry} {index : ℕ}

theorem usesOf_concat (trail : List (Reuse × Event)) (s : Reuse) (event : Event) :
    usesOf (trail ++ [(s, event)]) = usesOf trail ++ event.uses := by
  unfold usesOf
  simp

theorem Lawful.nodup (h : Lawful trail s) : s.entries.keys.Nodup :=
  h.ordered.imp fun hlater => hlater.ne.symm

theorem Lawful.ne_nil (h : Lawful trail s) : s.entries ≠ [] := by
  intro hnil
  have hslots := h.slots
  rw [hnil] at hslots
  cases hslots

theorem Lawful.stay (h : Lawful trail s) (hentries : s'.entries = s.entries)
    (huses : event.uses = []) : Lawful (trail ++ [(s, event)]) s' where
  slots := hentries ▸ h.slots
  ordered := by
    rw [usesOf_concat, huses, List.append_nil, hentries]
    exact h.ordered
  published := fun e he => by
    obtain ⟨before, hmem⟩ := h.published e (hentries ▸ he)
    exact ⟨before, List.mem_append_left _ hmem⟩

theorem Lawful.front (h : Lawful trail s) (hindex : index < s.entries.length)
    (hentries : s'.entries = some e :: s.entries.eraseIdx index)
    (hnot : e.key ∉ MappingCache.keys (s.entries.eraseIdx index)) (huses : event.uses = [e.key])
    (hpublished : ∃ before, (before, Event.published e.key e.pixels true e.pixels) ∈
      trail ++ [(s, event)]) : Lawful (trail ++ [(s, event)]) s' where
  slots := by
    have hslots := h.slots
    rw [hentries, List.length_cons, List.length_eraseIdx_of_lt hindex]
    omega
  ordered := by
    have hsub : (MappingCache.keys (s.entries.eraseIdx index)).Sublist s.entries.keys :=
      (List.eraseIdx_sublist s.entries index).filterMap _
    rw [usesOf_concat, huses, hentries, keys_cons]
    exact pairwise_use (h.ordered.sublist hsub) hnot
  published := by
    intro found hfound
    rw [hentries] at hfound
    rcases List.mem_cons.mp hfound with hnew | hold
    · obtain rfl := Option.some.inj hnew
      exact hpublished
    · obtain ⟨before, hmem⟩ := h.published found (List.mem_of_mem_eraseIdx hold)
      exact ⟨before, List.mem_append_left _ hmem⟩

theorem Lawful.touch {key : CacheKey} {pixels : ℕ} (h : Lawful trail s)
    (hposition : s.entries.position key.1 key.2 = some (index, pixels))
    (hentries : s'.entries = toFront s.entries index) (huses : event.uses = [key]) :
    Lawful (trail ++ [(s, event)]) s' := by
  have hslot := position_at hposition
  have hindex := (List.getElem?_eq_some_iff.mp hslot).1
  obtain ⟨before, hmem⟩ := h.published ⟨key.1, key.2, pixels⟩ (List.mem_of_getElem? hslot)
  rw [toFront_some hslot] at hentries
  exact h.front hindex hentries (keys_eraseIdx h.nodup hslot).2 huses
    ⟨before, List.mem_append_left _ hmem⟩

theorem Lawful.new : Lawful [] Reuse.new where
  slots := rfl
  ordered := .nil
  published := fun e he => by
    have heq := List.eq_of_mem_replicate (show some e ∈ List.replicate 4 none from he)
    cases heq

theorem Lawful.step (h : Lawful trail s) (ha : Act s event s') :
    Lawful (trail ++ [(s, event)]) s' := by
  cases ha with
  | made bytes => exact h.stay rfl rfl
  | shared pixels _ => exact h.stay rfl rfl
  | dropped pixels _ => exact h.stay rfl rfl
  | found key locked hfind =>
    rcases find_cases hfind with ⟨rfl, rfl⟩ | ⟨index, pixels, rfl, rfl, hposition, -, hentries, -⟩
    · exact h.stay rfl rfl
    · exact h.touch hposition hentries rfl
  | @published _ key pixels locked used _ hpublish =>
    rcases (publish_cases hpublish).2 with ⟨rfl, rfl, rfl⟩ | ⟨rfl, index, hposition, -, hentries⟩ |
      ⟨rfl, rfl, index, hentries, hplace⟩
    · exact h.stay rfl rfl
    · exact h.touch hposition hentries rfl
    · have hnew : ∃ before,
          (before, Event.published key used true used) ∈ trail ++ [(s, .published key used true used)] :=
        ⟨s, List.mem_append_right _ (List.mem_singleton_self _)⟩
      rcases hplace with ⟨q, hposition, -⟩ | ⟨hnone, rfl⟩
      · have hslot := position_at hposition
        have hindex := (List.getElem?_eq_some_iff.mp hslot).1
        rw [toFront_set hindex] at hentries
        have hnot := (keys_eraseIdx h.nodup hslot).2
        exact h.front (e := ⟨key.1, key.2, used⟩) hindex hentries hnot rfl hnew
      · have hindex : s.entries.vacant s.live < s.entries.length := vacant_lt h.ne_nil
        rw [toFront_set hindex] at hentries
        have hsub : (MappingCache.keys (s.entries.eraseIdx (s.entries.vacant s.live))).Sublist
            s.entries.keys := (List.eraseIdx_sublist _ _).filterMap _
        have hnot := fun hmem => position_none hnone (hsub.subset hmem)
        exact h.front (e := ⟨key.1, key.2, used⟩) hindex hentries hnot rfl hnew

theorem lawful_along (h : reuseSystem.Path .new trail s) : Lawful trail s :=
  h.along Lawful.new fun _ _ _ _ _ hlawful hstep => hlawful.step hstep

end Runs

/-! ### The law -/

/-- What a cache is and what any step does to it, after a run. -/
structure ReuseLaw (trail : List (Reuse × Event)) (s : Reuse) : Prop where
  slots : s.entries.length = 4
  distinct : s.entries.keys.Nodup
  /-- What is found is owned by somebody, and was published under the key. -/
  found : ∀ key locked pixels s', Act s (.found key locked (some pixels)) s' →
    0 < s.owners pixels ∧ ∃ before, (before, Event.published key pixels true pixels) ∈ trail
  /-- A publication uses the live pixels of its key, and its own where there are none. -/
  published : ∀ key pixels locked used s', Act s (.published key pixels locked used) s' →
    (∀ q, locked = true → some ⟨key.1, key.2, q⟩ ∈ s.entries → s.live q = true → used = q) ∧
      ((∀ q, some ⟨key.1, key.2, q⟩ ∈ s.entries → s.live q = false) → used = pixels)
  /-- A search under the lock finds what is live under its key. -/
  finds : ∀ key pixels result s', some ⟨key.1, key.2, pixels⟩ ∈ s.entries → s.live pixels = true →
    Act s (.found key true result) s' → result = some pixels
  /-- What is found, and what a publication under the lock uses, is in front under its key then. -/
  front : ∀ key pixels s', (∀ locked, Act s (.found key locked (some pixels)) s' →
      s'.entries.head? = some (some ⟨key.1, key.2, pixels⟩)) ∧
    ∀ own, Act s (.published key own true pixels) s' →
      s'.entries.head? = some (some ⟨key.1, key.2, pixels⟩)
  /-- A live entry gives way only to a key that the cache does not have, where all slots are live, and
  every other one was used after it. -/
  replaced : ∀ event s' e, Act s event s' → some e ∈ s.entries → s.live e.pixels = true →
    some e ∉ s'.entries →
      (∃ key pixels, event = .published key pixels true pixels ∧ key ∉ s.entries.keys) ∧
      (∀ slot ∈ s.entries, ∃ e', slot = some e' ∧ s.live e'.pixels = true) ∧
      ∀ e', some e' ∈ s.entries → e' ≠ e → Later (usesOf trail) e.key e'.key
  /-- Without the lock nothing is found, and a publication uses its own pixels; nothing changes. -/
  unlocked : ∀ s', (∀ key result, Act s (.found key false result) s' → result = none ∧ s' = s) ∧
    ∀ key pixels used, Act s (.published key pixels false used) s' → used = pixels ∧ s' = s
  /-- The bytes of a copy never change. -/
  immutable : ∀ event s', Act s event s' → ∀ pixels, pixels < s.copies.length →
    s'.copy pixels = s.copy pixels

section Law

variable {trail : List (Reuse × Event)} {s s' : Reuse} {event : Event} {e e' : CacheEntry}

theorem Lawful.unique (h : Lawful trail s) (he : some e ∈ s.entries) (he' : some e' ∈ s.entries)
    (hkey : e.key = e'.key) : e = e' := by
  have hmap : s.entries.keys = (s.entries.filterMap id).map CacheEntry.key := by
    rw [List.map_filterMap]
    rfl
  have hnodup := h.nodup
  rw [hmap] at hnodup
  exact List.inj_on_of_nodup_map hnodup (by simpa using he) (by simpa using he') hkey

theorem Lawful.oldest (h : Lawful trail s)
    (hlast : s.entries[s.entries.length - 1]? = some (some e)) (he' : some e' ∈ s.entries)
    (hne : e' ≠ e) : Later (usesOf trail) e.key e'.key := by
  have hsplit : s.entries.dropLast ++ [some e] = s.entries :=
    List.dropLast_append_getLast? _ (by rw [List.getLast?_eq_getElem?]; exact hlast)
  have hfront : some e' ∈ s.entries.dropLast := by
    rw [← hsplit] at he'
    rcases List.mem_append.mp he' with hfront | hend
    · exact hfront
    · exact absurd (Option.some.inj (List.mem_singleton.mp hend)) hne
  have hordered := h.ordered
  rw [← hsplit] at hordered
  unfold MappingCache.keys at hordered
  rw [List.filterMap_append] at hordered
  exact (List.pairwise_append.mp hordered).2.2 _ (mem_keys.mpr ⟨e', hfront, rfl⟩) _
    (by simp)

theorem replaced_slot {slot : Option CacheEntry} {index : ℕ} (hindex : index < s.entries.length)
    (he : some e ∈ s.entries)
    (hgone : some e ∉ slot :: s.entries.eraseIdx index) : s.entries[index]? = some (some e) := by
  have hperm := List.getElem_cons_eraseIdx_perm hindex
  rcases List.mem_cons.mp (hperm.mem_iff.mpr he) with hslot | hrest
  · rw [List.getElem?_eq_getElem hindex, hslot]
  · exact absurd (List.mem_cons_of_mem _ hrest) hgone

theorem Lawful.published_used (h : Lawful trail s) {key : CacheKey} {pixels used : ℕ} {locked : Bool}
    (ha : Act s (.published key pixels locked used) s') :
    (∀ q, locked = true → some ⟨key.1, key.2, q⟩ ∈ s.entries → s.live q = true → used = q) ∧
      ((∀ q, some ⟨key.1, key.2, q⟩ ∈ s.entries → s.live q = false) → used = pixels) := by
  cases ha with
  | published _ _ _ _ hpublish =>
    rcases (publish_cases hpublish).2 with ⟨hlocked, hused, -⟩ | ⟨-, index, hposition, hlive, -⟩ |
      ⟨-, hused, index, -, hplace⟩
    · refine ⟨fun q hlock => ?_, fun _ => hused⟩
      rw [hlocked] at hlock
      cases hlock
    · have hmem := List.mem_of_getElem? (position_at hposition)
      refine ⟨fun q _ hq _ => ?_, fun hdead => ?_⟩
      · exact congrArg CacheEntry.pixels (h.unique hmem hq rfl)
      · rw [hdead used hmem] at hlive
        cases hlive
    · refine ⟨fun q _ hq hlive => ?_, fun _ => hused⟩
      rcases hplace with ⟨q', hposition, hdead⟩ | ⟨hnone, -⟩
      · have hmem := List.mem_of_getElem? (position_at hposition)
        obtain rfl : q' = q := congrArg CacheEntry.pixels (h.unique hmem hq rfl)
        rw [hlive] at hdead
        cases hdead
      · exact absurd (mem_keys.mpr ⟨_, hq, rfl⟩) (position_none hnone)

theorem Lawful.finds (h : Lawful trail s) {key : CacheKey} {pixels : ℕ} {result : Option ℕ}
    (hmem : some ⟨key.1, key.2, pixels⟩ ∈ s.entries) (hlive : s.live pixels = true)
    (ha : Act s (.found key true result) s') : result = some pixels := by
  cases ha with
  | found _ _ hfind =>
    cases hposition : s.entries.position key.1 key.2 with
    | none => exact absurd (mem_keys.mpr ⟨_, hmem, rfl⟩) (position_none hposition)
    | some place =>
      obtain ⟨index, q⟩ := place
      have hslot := List.mem_of_getElem? (position_at hposition)
      obtain rfl : q = pixels := congrArg CacheEntry.pixels (h.unique hslot hmem rfl)
      rw [← find_hit hposition hlive, hfind]

theorem front_toFront {index : ℕ} {slot : Option CacheEntry} {entries : MappingCache}
    (h : entries[index]? = some slot) : (toFront entries index).head? = some slot := by
  rw [toFront_some h]
  rfl

theorem found_front {key : CacheKey} {pixels : ℕ} {locked : Bool}
    (ha : Act s (.found key locked (some pixels)) s') :
    s'.entries.head? = some (some ⟨key.1, key.2, pixels⟩) := by
  cases ha with
  | found _ _ hfind =>
    rcases find_cases hfind with ⟨hnone, -⟩ | ⟨index, q, -, hq, hposition, -, hentries, -⟩
    · cases hnone
    · obtain rfl := Option.some.inj hq
      rw [hentries]
      exact front_toFront (position_at hposition)

theorem Lawful.published_front (h : Lawful trail s) {key : CacheKey} {own used : ℕ}
    (ha : Act s (.published key own true used) s') :
    s'.entries.head? = some (some ⟨key.1, key.2, used⟩) := by
  cases ha with
  | published _ _ _ _ hpublish =>
    rcases (publish_cases hpublish).2 with ⟨hlocked, -⟩ | ⟨-, index, hposition, -, hentries⟩ |
      ⟨-, rfl, index, hentries, hplace⟩
    · cases hlocked
    · rw [hentries]
      exact front_toFront (position_at hposition)
    · have hindex : index < s.entries.length := by
        rcases hplace with ⟨q, hposition, -⟩ | ⟨-, rfl⟩
        · exact (List.getElem?_eq_some_iff.mp (position_at hposition)).1
        · exact vacant_lt h.ne_nil
      rw [hentries]
      exact front_toFront (List.getElem?_set_self hindex)

theorem Lawful.replaced_oldest (h : Lawful trail s) (ha : Act s event s') (he : some e ∈ s.entries)
    (hlive : s.live e.pixels = true) (hgone : some e ∉ s'.entries) :
    (∃ key pixels, event = .published key pixels true pixels ∧ key ∉ s.entries.keys) ∧
      (∀ slot ∈ s.entries, ∃ e', slot = some e' ∧ s.live e'.pixels = true) ∧
      ∀ e', some e' ∈ s.entries → e' ≠ e → Later (usesOf trail) e.key e'.key := by
  have hstays : ∀ index, s'.entries ≠ toFront s.entries index := by
    intro index hentries
    rw [hentries] at hgone
    exact hgone ((MappingCache.toFront_perm _ _).mem_iff.mpr he)
  cases ha with
  | made bytes => exact absurd he hgone
  | shared pixels _ => exact absurd he hgone
  | dropped pixels _ => exact absurd he hgone
  | found key locked hfind =>
    rcases find_cases hfind with ⟨-, rfl⟩ | ⟨index, _, -, -, -, -, hentries, -⟩
    · exact absurd he hgone
    · exact absurd hentries (hstays index)
  | @published _ key pixels locked used _ hpublish =>
    rcases (publish_cases hpublish).2 with ⟨-, -, rfl⟩ | ⟨-, index, -, -, hentries⟩ |
      ⟨rfl, rfl, index, hentries, hplace⟩
    · exact absurd he hgone
    · exact absurd hentries (hstays index)
    rcases hplace with ⟨q, hposition, hdead⟩ | ⟨hnone, rfl⟩
    · have hslot := position_at hposition
      have hindex := (List.getElem?_eq_some_iff.mp hslot).1
      rw [hentries, toFront_set hindex] at hgone
      have hsame := (replaced_slot hindex he hgone).symm.trans hslot
      obtain rfl := Option.some.inj (Option.some.inj hsame)
      rw [hlive] at hdead
      cases hdead
    · have hindex : s.entries.vacant s.live < s.entries.length := vacant_lt h.ne_nil
      rw [hentries, toFront_set hindex] at hgone
      have hslot := replaced_slot hindex he hgone
      obtain ⟨hlast, hall⟩ := vacant_live hslot hlive
      rw [hlast] at hslot
      exact ⟨⟨key, used, rfl, position_none hnone⟩, hall, fun e' => h.oldest hslot⟩

theorem copy_of_prefix (hcopies : s.copies <+: s'.copies) {pixels : ℕ}
    (hpixels : pixels < s.copies.length) : s'.copy pixels = s.copy pixels := by
  obtain ⟨more, hmore⟩ := hcopies
  unfold copy
  rw [← hmore, List.getElem?_append_left hpixels]

theorem Act.copies (ha : Act s event s') : s.copies <+: s'.copies := by
  cases ha with
  | made bytes => exact List.prefix_append _ _
  | shared pixels _ => exact List.prefix_refl _
  | dropped pixels _ => exact List.prefix_refl _
  | found key locked hfind =>
    rcases find_cases hfind with ⟨-, rfl⟩ | ⟨_, _, -, -, -, -, -, hcopies⟩
    · exact List.prefix_refl _
    · exact hcopies ▸ List.prefix_refl _
  | published key pixels locked _ hpublish =>
    exact (publish_cases hpublish).1 ▸ List.prefix_refl _

/-- **The mappings of a frame are reused as they should be**, whatever callers and owners do. -/
theorem mapping_reuse (h : reuseSystem.Path .new trail s) : ReuseLaw trail s := by
  have hlawful := lawful_along h
  refine ⟨hlawful.slots, hlawful.nodup, ?_, ?_, ?_, ?_, ?_, ?_, ?_⟩
  · intro key locked pixels s' ha
    cases ha with
    | found _ _ hfind =>
      rcases find_cases hfind with ⟨hnone, -⟩ | ⟨index, q, -, hq, hposition, hlive, -⟩
      · cases hnone
      · obtain rfl := Option.some.inj hq
        refine ⟨by simpa [live] using hlive, ?_⟩
        exact hlawful.published ⟨key.1, key.2, pixels⟩ (List.mem_of_getElem? (position_at hposition))
  · intro key pixels locked used s' ha
    exact hlawful.published_used ha
  · intro key pixels result s' hmem hlive ha
    exact hlawful.finds hmem hlive ha
  · exact fun key pixels s' => ⟨fun locked => found_front, fun own => hlawful.published_front⟩
  · intro event s' e ha he hlive hgone
    exact hlawful.replaced_oldest ha he hlive hgone
  · refine fun s' => ⟨fun key result ha => ?_, fun key pixels used ha => ?_⟩
    · cases ha with
      | found _ _ hfind =>
        rcases find_cases hfind with hnone | ⟨_, _, hlocked, -⟩
        · exact hnone
        · cases hlocked
    · cases ha with
      | published _ _ _ _ hpublish =>
        rcases (publish_cases hpublish).2 with ⟨-, hused⟩ | ⟨hlocked, -⟩ | ⟨hlocked, -⟩
        · exact hused
        · cases hlocked
        · cases hlocked
  · intro event s' ha pixels hpixels
    exact copy_of_prefix ha.copies hpixels

end Law

/-! ### Five regions -/

section Sample

/-- Some pixels of the first row, as they are. -/
def sampleKey (right : Int32) (h : (0 : Int32) ≤ right) : CacheKey :=
  (⟨0, 0, right, 1, h, by decide⟩, ⟨⟨1, 1⟩, .rgba8, 4, pixel_nonempty, pixel_row, pixel_len⟩)

/-- Four regions are published, the first one twice, then the second one is found, and a fifth one is
published: the one that was used the longest ago gives way. -/
theorem mapping_reuse_sample : ∃ trail s, reuseSystem.Path .new trail s ∧ ReuseLaw trail s ∧
    s.entries = [some ⟨(sampleKey 5 (by decide)).1, (sampleKey 5 (by decide)).2, 5⟩,
      some ⟨(sampleKey 2 (by decide)).1, (sampleKey 2 (by decide)).2, 1⟩,
      some ⟨(sampleKey 1 (by decide)).1, (sampleKey 1 (by decide)).2, 0⟩,
      some ⟨(sampleKey 4 (by decide)).1, (sampleKey 4 (by decide)).2, 3⟩] ∧ s.owners 0 = 2 := by
  have hmade := ((((((System.Path.nil (S := reuseSystem) .new).snoc (Act.made [1])).snoc
    (Act.made [2])).snoc (Act.made [3])).snoc (Act.made [4])).snoc (Act.made [5])).snoc (Act.made [6])
  have hfull := (((hmade.snoc (Act.published (sampleKey 1 (by decide)) 0 true rfl rfl)).snoc
    (Act.published (sampleKey 2 (by decide)) 1 true rfl rfl)).snoc
    (Act.published (sampleKey 3 (by decide)) 2 true rfl rfl)).snoc
    (Act.published (sampleKey 4 (by decide)) 3 true rfl rfl)
  have hreused := (hfull.snoc (Act.published (sampleKey 1 (by decide)) 4 true rfl rfl)).snoc
    (Act.found (sampleKey 2 (by decide)) true rfl)
  have hpath := hreused.snoc (Act.published (sampleKey 5 (by decide)) 5 true rfl rfl)
  exact ⟨_, _, hpath, mapping_reuse hpath, by decide, by decide⟩

end Sample

end Reuse

end MadoPilot.Capture
