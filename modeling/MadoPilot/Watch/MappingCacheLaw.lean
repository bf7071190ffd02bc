import MadoPilot.Watch.MappingCache
import MadoPilot.Lib.Recency
import Mathlib.Data.List.Induction

/-!
# What the cache of mappings keeps

Every use of a mapping small enough for the cache makes it the most recently used one.  The cache
keeps as many of the most recently used mappings as fit, in the order of their last use: the keys of
its entries are a suffix of that order.  Its total is the sum of its entries' sizes throughout, which
is also why evicting comes to its end as soon as there is room, and not for want of entries.

* `evict_spec` : what evicting leaves;
* `Accounted.call` : what one call keeps;
* `cache_lawful` : what every run of calls keeps.
-/

namespace MadoPilot.Watch

open MadoPilot.Core MadoPilot.Lib MadoPilot.Capture

/-- What no two entries share. -/
structure MappingKey where
  stamp : FrameStamp
  sourceInstance : FrameInstance
  region : PixelRect
  descriptor : FrameDescriptor
  deriving DecidableEq

def CpuMapping.key (m : CpuMapping) : MappingKey :=
  ⟨m.stamp, m.sourceInstance, m.region, m.descriptor⟩

theorem MappingCacheEntry.shows_iff {e : MappingCacheEntry} {m : CpuMapping} :
    e.shows m = true ↔ e.mapping.key = m.key := by
  unfold MappingCacheEntry.shows CpuMapping.key
  simp only [Bool.and_eq_true, beq_iff_eq, MappingKey.mk.injEq, and_assoc]

namespace MappingCache

/-! ### Calls -/

/-- The calls on the cache; a match has no pixels where there was nothing to search. -/
inductive CacheCall where
  | remember (pixels : Option CpuMapping)
  | rememberPixels (mapping : CpuMapping)
  | clear

variable (c : MappingCache)

def rememberMatch : Option CpuMapping → MappingCache × Option ℕ
  | some mapping => c.remember mapping
  | none => (c, none)

def call : CacheCall → MappingCache
  | .remember pixels => (c.rememberMatch pixels).1
  | .rememberPixels mapping => (c.remember mapping).1
  | .clear => c.clear

def run (calls : List CacheCall) : MappingCache := calls.foldl call new

/-- The keys that were used since the cache was last cleared: a mapping too large for the cache is no
use of it. -/
def used (keys : List MappingKey) (mapping : CpuMapping) : List MappingKey :=
  if mappedCacheBytes < mapping.bytes.length then keys else keys ++ [mapping.key]

def usedBy (keys : List MappingKey) : CacheCall → List MappingKey
  | .remember (some mapping) => used keys mapping
  | .remember none => keys
  | .rememberPixels mapping => used keys mapping
  | .clear => []

/-! ### Evicting -/

/-- One pass of the loop that evicts: there is no room, and there is an oldest entry. -/
inductive EvictStep (bytes : ℕ) :
    List MappingCacheEntry × ℕ → List MappingCacheEntry × ℕ → Prop
  | step {e : MappingCacheEntry} {entries : List MappingCacheEntry} {total : ℕ}
      (h : maxMappedCacheEntries ≤ (e :: entries).length ∨
        mappedCacheBytes < saturatingAdd usizeMax total bytes) :
      EvictStep bytes (e :: entries, total) (entries, total - e.bytes)

/-- **Every pass has fewer entries before it**, so the loop ends, wherever it starts. -/
theorem evictStep_wellFounded (bytes : ℕ) : WellFounded fun s' s => EvictStep bytes s s' := by
  refine Subrelation.wf ?_ (measure fun s : List MappingCacheEntry × ℕ => s.1.length).wf
  rintro _ _ ⟨-⟩
  exact Nat.lt_succ_self _

theorem evict_reached (bytes : ℕ) (entries : List MappingCacheEntry) (total : ℕ) :
    Relation.ReflTransGen (EvictStep bytes) (entries, total) (evict bytes entries total) := by
  induction entries generalizing total with
  | nil => exact .refl
  | cons e entries ih =>
    unfold evict
    split
    next h => exact .head (.step h) (ih _)
    next h => exact .refl

def sizes (entries : List MappingCacheEntry) : ℕ := (entries.map (·.bytes)).sum

theorem sizes_append (l l' : List MappingCacheEntry) : sizes (l ++ l') = sizes l + sizes l' := by
  unfold sizes
  rw [List.map_append, List.sum_append]

theorem evict_spec {bytes : ℕ} (hbytes : bytes ≤ mappedCacheBytes)
    (entries : List MappingCacheEntry) {total : ℕ} (htotal : total = sizes entries) :
    (evict bytes entries total).1 <:+ entries ∧
      (evict bytes entries total).2 = sizes (evict bytes entries total).1 ∧
      (evict bytes entries total).2 ≤ total ∧
      (evict bytes entries total).1.length < maxMappedCacheEntries ∧
      saturatingAdd usizeMax (evict bytes entries total).2 bytes ≤ mappedCacheBytes := by
  induction entries generalizing total with
  | nil =>
    subst htotal
    have hzero : sizes [] = 0 := rfl
    refine ⟨List.suffix_rfl, rfl, Nat.le_refl _, Nat.zero_lt_succ _, ?_⟩
    unfold evict saturatingAdd
    rw [hzero]
    omega
  | cons e entries ih =>
    have hcons : sizes (e :: entries) = e.bytes + sizes entries := by
      unfold sizes
      rw [List.map_cons, List.sum_cons]
    unfold evict
    split
    next h =>
      have hrest : total - e.bytes = sizes entries := by omega
      obtain ⟨hsuffix, hsum, hle, hlength, hroom⟩ := ih hrest
      exact ⟨hsuffix.trans (List.suffix_cons e entries), hsum, by omega, hlength, hroom⟩
    next h =>
      rw [not_or, Nat.not_le, Nat.not_lt] at h
      exact ⟨List.suffix_rfl, htotal, Nat.le_refl _, h.1, h.2⟩

/-! ### What every call keeps -/

structure Accounted (keys : List MappingKey) : Prop where
  own : ∀ e ∈ c.entries, e.bytes = e.mapping.bytes.length
  total : c.bytes = sizes c.entries
  bytes_le : c.bytes ≤ mappedCacheBytes
  entries_le : c.entries.length ≤ maxMappedCacheEntries
  order : (c.entries.map (·.mapping.key)) <:+ keys.dedup
  highWater : c.bytes ≤ c.highWater

variable {c} {keys : List MappingKey}

theorem new_accounted : Accounted new [] :=
  ⟨fun _ he => (List.not_mem_nil he).elim, rfl, Nat.zero_le _, Nat.zero_le _, List.suffix_rfl,
    Nat.le_refl _⟩

theorem remember_oversize {m : CpuMapping} (h : mappedCacheBytes < m.bytes.length) :
    c.remember m = (c, none) := by
  unfold remember
  rw [if_pos h]

theorem remember_hit {m : CpuMapping} (h : m.bytes.length ≤ mappedCacheBytes)
    {e : MappingCacheEntry} (hfind : c.entries.find? (·.shows m) = some e) :
    (c.remember m).1 =
      { c with entries := c.entries.eraseP (·.shows m) ++ [e] } := by
  unfold remember
  rw [if_neg (by omega), hfind]

theorem remember_miss {m : CpuMapping} (h : m.bytes.length ≤ mappedCacheBytes)
    (hfind : c.entries.find? (·.shows m) = none) :
    (c.remember m).1 =
      { entries := (evict m.bytes.length c.entries c.bytes).1 ++
          [⟨c.allocated.length, m, m.bytes.length⟩]
        bytes := saturatingAdd usizeMax (evict m.bytes.length c.entries c.bytes).2 m.bytes.length
        highWater := max c.highWater
          (saturatingAdd usizeMax (evict m.bytes.length c.entries c.bytes).2 m.bytes.length)
        allocated := c.allocated ++ [m] } := by
  unfold remember
  rw [if_neg (by omega), hfind]

theorem Accounted.remember (h : c.Accounted keys) {m : CpuMapping}
    (hbytes : m.bytes.length ≤ mappedCacheBytes) :
    (c.remember m).1.Accounted (keys ++ [m.key]) := by
  cases hfind : c.entries.find? (·.shows m) with
  | some e =>
    have hkey : e.mapping.key = m.key := by
      have hshows := List.find?_some hfind
      exact MappingCacheEntry.shows_iff.mp hshows
    have herase := Recency.map_eraseP (fun e => MappingCacheEntry.shows_iff (e := e) (m := m)) c.entries
    have hperm := Recency.perm_touch hfind
    rw [remember_hit hbytes hfind]
    refine ⟨?_, ?_, h.bytes_le, ?_, ?_, h.highWater⟩
    · intro e' he'
      exact h.own e' (hperm.mem_iff.mp he')
    · have hsizes := (hperm.map (·.bytes)).sum_nat
      exact h.total.trans hsizes.symm
    · show (c.entries.eraseP (·.shows m) ++ [e]).length ≤ _
      rw [hperm.length_eq]
      exact h.entries_le
    · show (c.entries.eraseP (·.shows m) ++ [e]).map _ <:+ _
      rw [List.map_append, herase, List.map_singleton, hkey, Recency.dedup_concat]
      exact Recency.suffix_touch (List.nodup_dedup keys) h.order m.key
  | none =>
    obtain ⟨hsuffix, hsum, hle, hlength, hroom⟩ := evict_spec hbytes c.entries h.total
    rw [remember_miss hbytes hfind]
    refine ⟨?_, ?_, hroom, ?_, ?_, Nat.le_max_right _ _⟩
    · intro e he
      rw [List.mem_append, List.mem_singleton] at he
      rcases he with he | rfl
      · exact h.own e (hsuffix.subset he)
      · rfl
    · show saturatingAdd usizeMax _ _ = sizes (_ ++ [_])
      have hmax : mappedCacheBytes < usizeMax := by decide
      have hone : sizes [⟨c.allocated.length, m, m.bytes.length⟩] = m.bytes.length := by simp [sizes]
      rw [sizes_append, ← hsum, hone]
      unfold saturatingAdd at hroom ⊢
      omega
    · show (_ ++ [_]).length ≤ _
      rw [List.length_append, List.length_singleton]
      omega
    · show (_ ++ [_]).map _ <:+ _
      have hnot : m.key ∉ (evict m.bytes.length c.entries c.bytes).1.map (·.mapping.key) := by
        intro hmem
        obtain ⟨e, he, hkey⟩ := List.mem_map.mp hmem
        have hfalse := List.find?_eq_none.mp hfind e (hsuffix.subset he)
        exact hfalse (MappingCacheEntry.shows_iff.mpr hkey)
      have horder := (hsuffix.map (·.mapping.key)).trans h.order
      have htouch := Recency.suffix_touch (List.nodup_dedup keys) horder m.key
      rw [List.erase_of_not_mem hnot] at htouch
      rw [List.map_append, List.map_singleton, Recency.dedup_concat]
      exact htouch

theorem Accounted.used (h : c.Accounted keys) (m : CpuMapping) :
    (c.remember m).1.Accounted (used keys m) := by
  unfold MappingCache.used
  split
  next hover =>
    rw [remember_oversize hover]
    exact h
  next hover => exact h.remember (by omega)

theorem Accounted.call (h : c.Accounted keys) (call : CacheCall) :
    (c.call call).Accounted (usedBy keys call) := by
  cases call with
  | remember pixels =>
    cases pixels with
    | none => exact h
    | some mapping => exact h.used mapping
  | rememberPixels mapping => exact h.used mapping
  | clear =>
    exact ⟨fun _ he => (List.not_mem_nil he).elim, rfl, Nat.zero_le _, Nat.zero_le _,
      List.suffix_rfl, Nat.zero_le _⟩

/-! ### Runs -/

def usedIn (calls : List CacheCall) : List MappingKey := calls.foldl usedBy []

theorem run_accounted (calls : List CacheCall) : (run calls).Accounted (usedIn calls) := by
  induction calls using List.reverseRecOn with
  | nil => exact new_accounted
  | append_singleton calls call ih =>
    unfold run usedIn at ih ⊢
    rw [List.foldl_append, List.foldl_append]
    exact ih.call call

theorem remember_highWater (m : CpuMapping) : c.highWater ≤ (c.remember m).1.highWater := by
  unfold remember
  dsimp only
  split
  next h => exact Nat.le_refl _
  next h =>
    split
    · exact Nat.le_refl _
    · exact Nat.le_max_left _ _

theorem call_highWater (call : CacheCall) : c.highWater ≤ (c.call call).highWater := by
  cases call with
  | remember pixels =>
    cases pixels with
    | none => exact Nat.le_refl _
    | some mapping => exact remember_highWater mapping
  | rememberPixels mapping => exact remember_highWater mapping
  | clear => exact Nat.le_refl _

theorem highWater_mono (calls later : List CacheCall) :
    (run calls).highWater ≤ (run (calls ++ later)).highWater := by
  induction later using List.reverseRecOn with
  | nil => rw [List.append_nil]
  | append_singleton later call ih =>
    have hstep := call_highWater (c := run (calls ++ later)) call
    have hrun : run (calls ++ (later ++ [call])) = (run (calls ++ later)).call call := by
      unfold run
      rw [← List.append_assoc, List.foldl_append]
      rfl
    rw [hrun]
    exact ih.trans hstep

theorem highWater_of_prefix {earlier calls : List CacheCall} (h : earlier <+: calls) :
    (run earlier).bytes ≤ (run calls).highWater := by
  obtain ⟨later, rfl⟩ := h
  exact (run_accounted earlier).highWater.trans (highWater_mono earlier later)

theorem Accounted.nodup (h : c.Accounted keys) : (c.entries.map (·.mapping.key)).Nodup :=
  (List.nodup_dedup keys).sublist h.order.sublist

theorem Accounted.hit (h : c.Accounted keys) {e : MappingCacheEntry} (he : e ∈ c.entries)
    {m : CpuMapping} (hkey : e.mapping.key = m.key) (hbytes : m.bytes.length ≤ mappedCacheBytes) :
    ∃ before after, c.entries = before ++ e :: after ∧
      (c.remember m).1 = { c with entries := before ++ after ++ [e] } ∧
      (c.remember m).2 = some e.number := by
  cases hfind : c.entries.find? (·.shows m) with
  | none =>
    have hfalse := List.find?_eq_none.mp hfind e he
    exact absurd (MappingCacheEntry.shows_iff.mpr hkey) hfalse
  | some e' =>
    have hshows := List.find?_some hfind
    have hsame : e' = e := by
      refine List.inj_on_of_nodup_map h.nodup (List.mem_of_find?_eq_some hfind) he ?_
      rw [hkey]
      exact MappingCacheEntry.shows_iff.mp hshows
    subst hsame
    obtain ⟨before, after, hentries, herase⟩ := Recency.touch_split hfind
    refine ⟨before, after, hentries, ?_, ?_⟩
    · rw [remember_hit hbytes hfind, herase]
    · unfold MappingCache.remember
      rw [if_neg (by omega), hfind]

theorem remember_newest {m : CpuMapping} (hbytes : m.bytes.length ≤ mappedCacheBytes) :
    ∃ kept e, (c.remember m).1.entries = kept ++ [e] ∧ e.mapping.key = m.key := by
  cases hfind : c.entries.find? (·.shows m) with
  | none =>
    rw [remember_miss hbytes hfind]
    exact ⟨_, _, rfl, rfl⟩
  | some e =>
    have hshows := List.find?_some hfind
    rw [remember_hit hbytes hfind]
    exact ⟨_, e, rfl, MappingCacheEntry.shows_iff.mp hshows⟩

theorem evictSteps_le {bytes : ℕ} {s s' : List MappingCacheEntry × ℕ}
    (h : Relation.ReflTransGen (EvictStep bytes) s s') : s'.2 ≤ s.2 := by
  induction h with
  | refl => exact Nat.le_refl _
  | tail _ hstep ih =>
    obtain ⟨-⟩ := hstep
    exact (Nat.sub_le _ _).trans ih

theorem Accounted.evict (h : c.Accounted keys) {bytes : ℕ} (hbytes : bytes ≤ mappedCacheBytes) :
    Relation.ReflTransGen (EvictStep bytes) (c.entries, c.bytes) (evict bytes c.entries c.bytes) ∧
      (evict bytes c.entries c.bytes).1 <:+ c.entries ∧
      (evict bytes c.entries c.bytes).1.length < maxMappedCacheEntries ∧
      (evict bytes c.entries c.bytes).2 + bytes ≤ mappedCacheBytes := by
  obtain ⟨hsuffix, -, -, hlength, hroom⟩ := evict_spec hbytes c.entries h.total
  refine ⟨evict_reached bytes c.entries c.bytes, hsuffix, hlength, ?_⟩
  have hmax : mappedCacheBytes < usizeMax := by decide
  unfold saturatingAdd at hroom
  omega

structure Lawful (calls : List CacheCall) : Prop where
  /-- The total is the sum of the sizes of the entries, which are those of their pixels. -/
  total : (run calls).bytes = ((run calls).entries.map (·.bytes)).sum
  own : ∀ e ∈ (run calls).entries, e.bytes = e.mapping.bytes.length
  bytes_le : (run calls).bytes ≤ mappedCacheBytes
  entries_le : (run calls).entries.length ≤ maxMappedCacheEntries
  distinct : (run calls).entries.Pairwise fun e e' => e.mapping.key ≠ e'.mapping.key
  /-- The entries are the most recently used ones, in the order of their last use. -/
  order : (run calls).entries.map (·.mapping.key) <:+ (usedIn calls).dedup
  hit : ∀ e ∈ (run calls).entries, ∀ m : CpuMapping, e.mapping.key = m.key →
    m.bytes.length ≤ mappedCacheBytes → ∃ before after,
      (run calls).entries = before ++ e :: after ∧
      ((run calls).remember m).1 = { run calls with entries := before ++ after ++ [e] } ∧
      ((run calls).remember m).2 = some e.number
  newest : ∀ m : CpuMapping, m.bytes.length ≤ mappedCacheBytes → ∃ kept e,
    ((run calls).remember m).1.entries = kept ++ [e] ∧ e.mapping.key = m.key
  oversize : ∀ m : CpuMapping, mappedCacheBytes < m.bytes.length →
    (run calls).remember m = (run calls, none)
  /-- The loop that evicts ends, from any entries and any total; from these, with room. -/
  ends : ∀ bytes, WellFounded fun s' s => EvictStep bytes s s'
  room : ∀ bytes ≤ mappedCacheBytes,
    Relation.ReflTransGen (EvictStep bytes) ((run calls).entries, (run calls).bytes)
        (evict bytes (run calls).entries (run calls).bytes) ∧
      (evict bytes (run calls).entries (run calls).bytes).1 <:+ (run calls).entries ∧
      (evict bytes (run calls).entries (run calls).bytes).1.length < maxMappedCacheEntries ∧
      (evict bytes (run calls).entries (run calls).bytes).2 + bytes ≤ mappedCacheBytes
  /-- The mark is at least every total along the run, and on the way of the loop. -/
  highWater : ∀ earlier, earlier <+: calls → (run earlier).bytes ≤ (run calls).highWater
  highWater_evicting : ∀ bytes s,
    Relation.ReflTransGen (EvictStep bytes) ((run calls).entries, (run calls).bytes) s →
      s.2 ≤ (run calls).highWater

/-- **Every run of calls keeps the cache lawful.** -/
theorem cache_lawful (calls : List CacheCall) : Lawful calls := by
  have h := run_accounted calls
  refine ⟨h.total, h.own, h.bytes_le, h.entries_le, List.pairwise_map.mp h.nodup, h.order, ?_, ?_, ?_,
    evictStep_wellFounded, ?_, ?_, ?_⟩
  · intro e he m hkey hbytes
    exact h.hit he hkey hbytes
  · intro m hbytes
    exact remember_newest hbytes
  · intro m hover
    exact remember_oversize hover
  · intro bytes hbytes
    exact h.evict hbytes
  · intro earlier hearlier
    exact highWater_of_prefix hearlier
  · intro bytes s hs
    exact (evictSteps_le hs).trans h.highWater

end MappingCache

end MadoPilot.Watch
