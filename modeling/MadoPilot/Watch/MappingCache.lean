import MadoPilot.Watch.Change

/-!
# The mappings that are remembered

The scheduler keeps recent mappings in a bounded cache, the oldest first, and a query refers to the
mapping it last looked at by a weak reference.  A weak reference is known here by the number of its
allocation; whether it can still be upgraded is up to the cache and, beyond it, to whoever holds the
mapping for the moment.

* `remember_genuine`, `remember_lookup` : what a reference is upgraded to is a mapping of the frame it
  was remembered for.
-/

namespace MadoPilot.Watch

open MadoPilot.Core MadoPilot.Lib MadoPilot.Capture

/-! ### Frames -/

/-- The frames of the process.  A frame never changes: a region of it in a layout always reads the
same bytes. -/
structure Frames where
  stamp : FrameInstance → FrameStamp
  transform : FrameInstance → TransformSnapshot
  read : FrameInstance → PixelRect → FrameDescriptor → List UInt8

def Frames.map (F : Frames) (i : FrameInstance) (region : PixelRect) (descriptor : FrameDescriptor) :
    CpuMapping :=
  ⟨F.stamp i, i, F.transform i, region, descriptor, F.read i region descriptor⟩

/-! ### The cache -/

def mappedCacheBytes : ℕ := 64 * 1024 * 1024

def maxMappedCacheEntries : ℕ := 256

structure MappingCacheEntry where
  number : ℕ
  mapping : CpuMapping
  bytes : ℕ

/-- The entry shows the same layout of the same region of the same frame. -/
def MappingCacheEntry.shows (e : MappingCacheEntry) (m : CpuMapping) : Bool :=
  e.mapping.stamp == m.stamp && e.mapping.sourceInstance == m.sourceInstance &&
    e.mapping.region == m.region && e.mapping.descriptor == m.descriptor

/-- The cached mappings, the oldest first, and every mapping that was ever allocated. -/
structure MappingCache where
  entries : List MappingCacheEntry
  bytes : ℕ
  highWater : ℕ
  allocated : List CpuMapping

namespace MappingCache

def new : MappingCache := ⟨[], 0, 0, []⟩

variable (c : MappingCache)

/-- The loop that evicts the oldest entries until `bytes` more fit. -/
def evict (bytes : ℕ) : List MappingCacheEntry → ℕ → List MappingCacheEntry × ℕ
  | [], total => ([], total)
  | e :: entries, total =>
    if maxMappedCacheEntries ≤ (e :: entries).length ∨
        mappedCacheBytes < saturatingAdd usizeMax total bytes then
      evict bytes entries (total - e.bytes)
    else (e :: entries, total)

/-- `remember_pixels`. -/
def remember (m : CpuMapping) : MappingCache × Option ℕ :=
  let bytes := m.bytes.length
  if mappedCacheBytes < bytes then (c, none)
  else
    match c.entries.find? (·.shows m) with
    | some existing =>
      ({ c with entries := c.entries.eraseP (·.shows m) ++ [existing] }, some existing.number)
    | none =>
      let kept := evict bytes c.entries c.bytes
      let total := saturatingAdd usizeMax kept.2 bytes
      ({ entries := kept.1 ++ [⟨c.allocated.length, m, bytes⟩]
         bytes := total
         highWater := max c.highWater total
         allocated := c.allocated ++ [m] }, some c.allocated.length)

/-- What the end of the last query, and closing the scheduler, leave. -/
def clear : MappingCache := { c with entries := [], bytes := 0 }

/-- A weak reference upgraded: `alive` says that someone else holds the mapping. -/
def upgrade (alive : Bool) (number : ℕ) : Option CpuMapping :=
  if alive || c.entries.any (·.number == number) then c.allocated[number]? else none

/-! ### Genuine entries -/

/-- Every entry is the mapping of a frame, under the number of its allocation. -/
def Genuine (F : Frames) : Prop :=
  ∀ e ∈ c.entries, c.allocated[e.number]? = some e.mapping ∧
    ∃ i region descriptor, e.mapping = F.map i region descriptor

variable {c} {F : Frames} {m : CpuMapping}

theorem new_genuine : Genuine new F := fun _ he => by cases he

theorem clear_genuine : Genuine c.clear F := fun _ he => by cases he

theorem evict_sublist (bytes : ℕ) (entries : List MappingCacheEntry) (total : ℕ) :
    (evict bytes entries total).1.Sublist entries := by
  induction entries generalizing total with
  | nil => exact List.Sublist.refl _
  | cons e entries ih =>
    unfold evict
    split_ifs
    · exact (ih _).cons e
    · exact List.Sublist.refl _

theorem upgrade_eq_some {alive : Bool} {number : ℕ} {m : CpuMapping}
    (h : c.upgrade alive number = some m) : c.allocated[number]? = some m := by
  unfold upgrade at h
  split_ifs at h
  exact h

theorem eq_of_shows {e : MappingCacheEntry} {i : FrameInstance} {region : PixelRect}
    {descriptor : FrameDescriptor} (he : ∃ i region descriptor, e.mapping = F.map i region descriptor)
    (h : e.shows (F.map i region descriptor) = true) : e.mapping = F.map i region descriptor := by
  obtain ⟨i', region', descriptor', hmapping⟩ := he
  unfold MappingCacheEntry.shows at h
  rw [hmapping] at h ⊢
  simp only [Frames.map, Bool.and_eq_true, beq_iff_eq] at h
  obtain ⟨⟨⟨-, rfl⟩, rfl⟩, rfl⟩ := h
  rfl

theorem remember_allocated (m : CpuMapping) : c.allocated <+: (c.remember m).1.allocated := by
  unfold remember
  dsimp only
  split_ifs
  · exact List.prefix_refl _
  · split
    · exact List.prefix_refl _
    · exact List.prefix_append _ _

theorem lookup_of_extension {l l' : List CpuMapping} (h : l <+: l') {number : ℕ} {m : CpuMapping}
    (hm : l[number]? = some m) : l'[number]? = some m := by
  obtain ⟨tail, rfl⟩ := h
  have hlt := (List.getElem?_eq_some_iff.mp hm).1
  rw [List.getElem?_append_left hlt]
  exact hm

theorem remember_genuine (h : c.Genuine F) (i : FrameInstance) (region : PixelRect)
    (descriptor : FrameDescriptor) : (c.remember (F.map i region descriptor)).1.Genuine F := by
  unfold remember
  dsimp only
  split_ifs
  · exact h
  · split
    · rename_i existing hfind
      intro e he
      rw [List.mem_append, List.mem_singleton] at he
      rcases he with he | rfl
      · exact h e (List.mem_of_mem_eraseP he)
      · exact h e (List.mem_of_find?_eq_some hfind)
    · intro e he
      rw [List.mem_append, List.mem_singleton] at he
      rcases he with he | rfl
      · obtain ⟨hlookup, hgenuine⟩ := h e ((evict_sublist _ _ _).subset he)
        exact ⟨lookup_of_extension (List.prefix_append _ _) hlookup, hgenuine⟩
      · exact ⟨List.getElem?_concat_length, i, region, descriptor, rfl⟩

theorem remember_lookup (h : c.Genuine F) {i : FrameInstance} {region : PixelRect}
    {descriptor : FrameDescriptor} {number : ℕ}
    (hnumber : (c.remember (F.map i region descriptor)).2 = some number) :
    (c.remember (F.map i region descriptor)).1.allocated[number]? =
      some (F.map i region descriptor) := by
  unfold remember at hnumber ⊢
  dsimp only at hnumber ⊢
  split_ifs at hnumber ⊢
  split at hnumber
  · rename_i existing hfind
    obtain rfl := Option.some.inj hnumber
    obtain ⟨hlookup, hgenuine⟩ := h existing (List.mem_of_find?_eq_some hfind)
    have hshows := List.find?_some hfind
    rw [← eq_of_shows hgenuine hshows]
    exact hlookup
  · obtain rfl := Option.some.inj hnumber
    exact List.getElem?_concat_length

end MappingCache

end MadoPilot.Watch
