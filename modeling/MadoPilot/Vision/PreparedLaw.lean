import MadoPilot.Capture.MappingLaw
import MadoPilot.Vision.PreparedImages

/-!
# What a search is given

Mappings that are known by one key show the same bytes, because the storage of a frame is immutable; so an
image that was converted from one of them is the conversion of all of them.  The cache never leaves its
budget.

* `State.Sound` : the books of the cache, and `lookup_spec`, `publish_spec` : what its sections keep;
* `evict_spec` : the eviction loop ends, with room for the image;
* `prepared_images` : the law of the cache.
-/

namespace MadoPilot.Vision

open MadoPilot.Core MadoPilot.Lib MadoPilot.Capture

/-! ### Keys and bytes -/

section Keys

variable {cvtColor : CvtColor} {frames : Frames} {pixels pixels' : CpuMapping}

theorem Key.matching_iff {key : Key} : key.matching pixels = true ↔ key = .new pixels := by
  obtain ⟨source, stamp, region, descriptor⟩ := key
  simp only [Key.matching, Key.new, Bool.and_eq_true, beq_iff_eq, Key.mk.injEq, and_assoc]

theorem answers_bytes {source : MapSource} {request request' : MapRequest}
    (h : Mapping.Answers source request pixels) (h' : Mapping.Answers source request' pixels')
    (hregion : pixels.region = pixels'.region) (hdescriptor : pixels.descriptor = pixels'.descriptor) :
    pixels.storage.bytes = pixels'.storage.bytes := by
  have hsame : request.region = request'.region := by
    rw [← h.region, hregion, h'.region]
  by_cases hw : Mapping.Whole source request
  · obtain ⟨hlayout, hbytes⟩ := h.whole hw
    by_cases hw' : Mapping.Whole source request'
    · rw [hbytes, (h'.whole hw').2]
    · obtain ⟨-, hformat, -⟩ := h'.crop hw'
      refine absurd ⟨?_, ?_⟩ hw'
      · rw [← hsame]
        exact hw.1
      · rw [← hformat, ← hdescriptor, hlayout]
  · obtain ⟨-, hformat, -, hbytes⟩ := h.crop hw
    by_cases hw' : Mapping.Whole source request'
    · obtain ⟨hlayout, -⟩ := h'.whole hw'
      refine absurd ⟨?_, ?_⟩ hw
      · rw [hsame]
        exact hw'.1
      · rw [← hformat, hdescriptor, hlayout]
    · obtain ⟨-, hformat', -, hbytes'⟩ := h'.crop hw'
      have hrequest : request = request' := by
        obtain ⟨region, format⟩ := request
        obtain ⟨region', format'⟩ := request'
        have hformats : format = format' := hformat.symm.trans (by rw [hdescriptor, hformat'])
        have hregions : region = region' := hsame
        rw [hformats, hregions]
      rw [hbytes, hbytes', hrequest]

theorem mapped_bytes (h : Mapped frames pixels) (h' : Mapped frames pixels')
    (hkey : Key.new pixels = Key.new pixels') : pixels.storage.bytes = pixels'.storage.bytes := by
  obtain ⟨hsource, -, hregion, hdescriptor⟩ := Key.mk.inj hkey
  obtain ⟨request, trail, w, hpath, hmem⟩ := h
  obtain ⟨request', trail', w', hpath', hmem'⟩ := h'
  have hanswers := Mapping.answers_along hpath hmem
  have hanswers' := Mapping.answers_along hpath' hmem'
  rw [← hsource] at hanswers'
  exact answers_bytes hanswers hanswers' hregion hdescriptor

theorem regionToBgr_congr (hdescriptor : pixels.descriptor = pixels'.descriptor)
    (hbytes : pixels.storage.bytes = pixels'.storage.bytes) :
    regionToBgr cvtColor pixels = regionToBgr cvtColor pixels' := by
  unfold regionToBgr
  rw [hdescriptor, hbytes]

def Genuine (cvtColor : CvtColor) (frames : Frames) (entry : Entry) : Prop :=
  ∀ pixels, Mapped frames pixels → entry.key = .new pixels →
    regionToBgr cvtColor pixels = .ok entry.image.matrix

theorem genuine_of_mapped {image : CachedImage} (h : Mapped frames pixels)
    (hconverted : regionToBgr cvtColor pixels = .ok image.matrix) :
    Genuine cvtColor frames ⟨.new pixels, image⟩ := by
  intro pixels' h' hkey
  have hbytes := mapped_bytes h h' hkey
  obtain ⟨-, -, -, hdescriptor⟩ := Key.mk.inj hkey
  rw [← regionToBgr_congr hdescriptor hbytes, hconverted]

theorem PreparedRegion.new_matrix {matrix : Mat} {cacheable : Bool} :
    (PreparedRegion.new matrix cacheable).matrix = matrix := by
  unfold PreparedRegion.new
  split
  · split <;> rfl
  · rfl

end Keys

/-! ### The books of the cache -/

/-- The bytes are those of the entries and fit the budget, and no two entries have one key. -/
structure State.Sound (s : State) : Prop where
  bytes_eq : s.bytes = s.entries.load Entry.bytes
  bytes_le : s.bytes ≤ byteLimit
  distinct : s.entries.Distinct Entry.key

namespace State

variable {s s' : State} {index : Fin capacity} {pixels : CpuMapping} {image : CachedImage}

theorem Sound.new : State.new.Sound := by
  refine ⟨?_, Nat.zero_le _, fun i j a b hi => by cases hi⟩
  exact (Finset.sum_eq_zero fun i _ => rfl).symm

/-- What a section that only takes entries away leaves. -/
structure Shrinks (s s' : State) : Prop where
  sound : s'.Sound
  holds : ∀ e, s'.entries.Holds e → s.entries.Holds e

theorem Shrinks.trans {s'' : State} (h : s.Shrinks s') (h' : s'.Shrinks s'') : s.Shrinks s'' :=
  ⟨h'.sound, fun e he => h.holds e (h'.holds e he)⟩

theorem retire_spec (h : s.Sound) (index : Fin capacity) :
    ∃ s', s.retire index = some s' ∧ s.Shrinks s' ∧ s'.entries = s.entries.clear index := by
  unfold retire
  cases hentry : s.entries index with
  | none => exact ⟨s, rfl, ⟨h, fun _ he => he⟩, (Cells.clear_of_none hentry).symm⟩
  | some entry =>
    have hload : (s.entries.clear index).load Entry.bytes + entry.bytes = s.entries.load Entry.bytes :=
      Cells.load_clear hentry
    have hbytes := h.bytes_eq
    have hle := h.bytes_le
    have hback : entry.bytes ≤ s.bytes := by omega
    refine ⟨_, if_pos hback, ⟨⟨?_, ?_, h.distinct.clear⟩, fun e he => he.of_clear⟩, rfl⟩
    · show s.bytes - entry.bytes = (s.entries.clear index).load Entry.bytes
      omega
    · show s.bytes - entry.bytes ≤ byteLimit
      omega

theorem prune_spec (h : s.Sound) (alive : Fin capacity → Bool) :
    ∃ s', s.prune alive = some s' ∧ s.Shrinks s' := by
  unfold prune
  generalize List.finRange capacity = indices
  induction indices generalizing s with
  | nil => exact ⟨s, rfl, h, fun _ he => he⟩
  | cons index indices ih =>
    rw [List.foldlM_cons]
    split
    · obtain ⟨s₁, hretire, hshrinks, -⟩ := retire_spec h index
      obtain ⟨s₂, hrest, hshrinks'⟩ := ih hshrinks.sound
      rw [hretire]
      exact ⟨s₂, hrest, hshrinks.trans hshrinks'⟩
    · exact ih h

theorem Sound.swap {i j : Fin capacity} (h : s.Sound) : State.Sound ⟨s.entries.swap i j, s.bytes⟩ :=
  ⟨h.bytes_eq.trans Cells.load_swap.symm, h.bytes_le, h.distinct.swap⟩

theorem get_eq_some (h : s.Sound) (hget : s.get pixels = some (image, s')) :
    s.Shrinks s' ∧ s.entries.Holds ⟨.new pixels, image⟩ := by
  unfold get at hget
  obtain ⟨index, hfind, hget⟩ := Option.bind_eq_some_iff.mp hget
  obtain ⟨entry, hentry, hget⟩ := Option.map_eq_some_iff.mp hget
  obtain ⟨rfl, rfl⟩ := Prod.mk.inj hget
  rw [Cells.swap_left] at hentry
  have hmatch := List.find?_some hfind
  rw [hentry, Option.any_some, Key.matching_iff] at hmatch
  refine ⟨⟨h.swap, fun e he => Cells.holds_swap.mp he⟩, index, ?_⟩
  rw [hentry, ← hmatch]

theorem get_eq_none (hget : s.get pixels = none) {e : Entry} (he : s.entries.Holds e) :
    e.key ≠ .new pixels := by
  obtain ⟨index, hindex⟩ := he
  intro hkey
  unfold get at hget
  cases hfind : (List.finRange capacity).find? fun index =>
      (s.entries index).any (·.key.matching pixels) with
  | none =>
    have hnone := List.find?_eq_none.mp hfind index (List.mem_finRange index)
    rw [hindex, Option.any_some, Key.matching_iff] at hnone
    exact hnone hkey
  | some found =>
    have hmatch := List.find?_some hfind
    rw [hfind, Option.bind_some] at hget
    have hentry := Option.map_eq_none_iff.mp hget
    rw [Cells.swap_left] at hentry
    rw [hentry] at hmatch
    cases hmatch

/-! ### The eviction loop -/

theorem last_of_crowded (h : s.Sound) (hcrowded : s.crowded image = true) :
    ∃ entry, s.entries s.last = some entry := by
  unfold last
  by_cases hone : (s.entries 1).isSome = true
  · rw [if_pos hone]
    exact Option.isSome_iff_exists.mp hone
  · rw [if_neg hone]
    unfold crowded at hcrowded
    rw [Bool.or_eq_true, decide_eq_true_eq, List.all_eq_true] at hcrowded
    rcases hcrowded with hbytes | hfull
    · have himage := image.bytes_le
      have hload := h.bytes_eq
      obtain ⟨index, entry, hentry⟩ := Cells.exists_of_load_pos
        (show 0 < s.entries.load Entry.bytes by omega)
      have hindex : index = 0 ∨ index = 1 := by
        have hlt := index.isLt
        unfold capacity at hlt
        rcases index with ⟨n, hn⟩
        simp only [Fin.ext_iff]
        show n = 0 ∨ n = 1
        have hn' : n < 2 := hlt
        omega
      rcases hindex with rfl | rfl
      · exact ⟨entry, hentry⟩
      · rw [hentry] at hone
        exact absurd rfl hone
    · exact absurd (hfull 1 (List.mem_finRange _)) hone

theorem evict_spec (h : s.Sound) (image : CachedImage) : ∃ s', s.Shrinks s' ∧
    s'.crowded image = false ∧ ∀ fuel, s.entries.occupied < fuel → s.evict image fuel = some s' := by
  generalize hcount : s.entries.occupied = count
  induction count generalizing s with
  | zero =>
    have hroom : s.crowded image = false := by
      by_contra hcrowded
      rw [Bool.not_eq_false] at hcrowded
      obtain ⟨entry, hentry⟩ := last_of_crowded h hcrowded
      have hone := Cells.occupied_pos hentry
      omega
    refine ⟨s, ⟨h, fun _ he => he⟩, hroom, fun fuel hfuel => ?_⟩
    obtain ⟨fuel, rfl⟩ := Nat.exists_eq_succ_of_ne_zero (Nat.pos_iff_ne_zero.mp hfuel)
    unfold evict
    rw [hroom]
    rfl
  | succ count ih =>
    cases hcrowded : s.crowded image with
    | false =>
      refine ⟨s, ⟨h, fun _ he => he⟩, hcrowded, fun fuel hfuel => ?_⟩
      obtain ⟨fuel, rfl⟩ := Nat.exists_eq_succ_of_ne_zero (Nat.ne_of_gt (Nat.zero_lt_of_lt hfuel))
      unfold evict
      rw [hcrowded]
      rfl
    | true =>
      obtain ⟨entry, hentry⟩ := last_of_crowded h hcrowded
      obtain ⟨s₁, hretire, hshrinks, hclear⟩ := retire_spec h s.last
      have hfewer : (s.entries.clear s.last).occupied + 1 = s.entries.occupied := Cells.load_clear hentry
      rw [← hclear] at hfewer
      obtain ⟨s₂, hshrinks', hroom, hrest⟩ := ih hshrinks.sound (by omega)
      refine ⟨s₂, hshrinks.trans hshrinks', hroom, fun fuel hfuel => ?_⟩
      obtain ⟨fuel, rfl⟩ := Nat.exists_eq_succ_of_ne_zero (Nat.ne_of_gt (Nat.zero_lt_of_lt hfuel))
      unfold evict
      rw [hcrowded, if_pos rfl, hretire, Option.bind_some]
      exact hrest fuel (by omega)

theorem insert_spec (h : s.Sound) (entry : Entry) (hroom : s.crowded entry.image = false)
    (hfresh : ∀ e, s.entries.Holds e → e.key ≠ entry.key) :
    (s.insert entry).Sound ∧ ∀ e, (s.insert entry).entries.Holds e → e = entry ∨ s.entries.Holds e := by
  unfold crowded at hroom
  rw [Bool.or_eq_false_iff, decide_eq_false_iff_not, List.all_eq_false] at hroom
  obtain ⟨hfits, index, -, hfree⟩ := hroom
  have hplace : s.entries (if (s.entries 0).isSome = true then 1 else 0) = none := by
    by_cases hzero : (s.entries 0).isSome = true
    · rw [if_pos hzero]
      have hindex : index = 1 := by
        rcases index with ⟨n, hn⟩
        have hn' : n < 2 := hn
        have hne : n ≠ 0 := by
          rintro rfl
          exact hfree hzero
        refine Fin.ext ?_
        show n = 1
        omega
      subst hindex
      exact Option.not_isSome_iff_eq_none.mp hfree
    · rw [if_neg hzero]
      exact Option.not_isSome_iff_eq_none.mp hzero
  have hswap := Cells.swap_left (s := s.entries) (i := 0)
    (j := if (s.entries 0).isSome = true then 1 else 0)
  rw [hplace] at hswap
  refine ⟨⟨?_, ?_, h.distinct.swap.put fun e he => hfresh e (Cells.holds_swap.mp he)⟩, fun e he => ?_⟩
  · unfold insert
    show s.bytes + entry.bytes = _
    rw [Cells.load_put hswap, Cells.load_swap, h.bytes_eq]
  · show s.bytes + entry.image.bytes ≤ byteLimit
    omega
  · exact he.of_put.imp_right Cells.holds_swap.mp

/-! ### The sections -/

theorem lookup_spec (h : s.Sound) (pixels : CpuMapping) (contended : Bool)
    (alive : Fin capacity → Bool) (live : Bool) : ∃ found s',
    s.lookup pixels contended alive live = some (found, s') ∧ s.Shrinks s' ∧
      ∀ image, found = .hit image → s.entries.Holds ⟨.new pixels, image⟩ := by
  unfold lookup
  cases contended with
  | true => exact ⟨_, _, rfl, ⟨h, fun _ he => he⟩, fun image hhit => by cases hhit⟩
  | false =>
    obtain ⟨s₁, hprune, hshrinks⟩ := prune_spec h alive
    rw [if_neg Bool.false_ne_true, hprune, Option.map_some]
    cases hget : s₁.get pixels with
    | some r =>
      obtain ⟨image, s₂⟩ := r
      obtain ⟨hshrinks', hholds⟩ := get_eq_some hshrinks.sound hget
      refine ⟨_, _, rfl, hshrinks.trans hshrinks', fun image' hhit => ?_⟩
      obtain rfl := Lookup.hit.inj hhit
      exact hshrinks.holds _ hholds
    | none =>
      refine ⟨_, _, rfl, hshrinks, fun image hhit => ?_⟩
      cases live <;> cases hhit

theorem publish_spec (h : s.Sound) (pixels : CpuMapping) (candidate : PreparedRegion)
    (live contended : Bool) (alive : Fin capacity → Bool) :
    ∃ region s', s.publish pixels candidate live contended alive = some (region, s') ∧ s'.Sound ∧
      (∀ e, s'.entries.Holds e → s.entries.Holds e ∨
        ∃ image, candidate = .shared image ∧ e = ⟨.new pixels, image⟩) ∧
      (region = candidate ∨ ∃ image, region = .shared image ∧ s.entries.Holds ⟨.new pixels, image⟩) := by
  have hkept : ∃ region s', some (candidate, s) = some (region, s') ∧ s'.Sound ∧
      (∀ e, s'.entries.Holds e → s.entries.Holds e ∨
        ∃ image, candidate = .shared image ∧ e = ⟨.new pixels, image⟩) ∧
      (region = candidate ∨ ∃ image, region = .shared image ∧ s.entries.Holds ⟨.new pixels, image⟩) :=
    ⟨_, _, rfl, h, fun _ he => Or.inl he, Or.inl rfl⟩
  unfold publish
  cases candidate with
  | owned => exact hkept
  | shared image =>
    cases live with
    | false => exact hkept
    | true =>
      show ∃ region s', ((s.commit pixels image contended alive).map _) = some (region, s') ∧ _
      unfold commit
      cases contended with
      | true => exact hkept
      | false =>
        obtain ⟨s₁, hprune, hshrinks⟩ := prune_spec h alive
        rw [if_neg Bool.false_ne_true, hprune, Option.bind_some]
        cases hget : s₁.get pixels with
        | some r =>
          obtain ⟨winner, s₂⟩ := r
          obtain ⟨hshrinks', hholds⟩ := get_eq_some hshrinks.sound hget
          have hall := hshrinks.trans hshrinks'
          exact ⟨_, _, rfl, hall.sound, fun e he => Or.inl (hall.holds e he),
            Or.inr ⟨winner, rfl, hshrinks.holds _ hholds⟩⟩
        | none =>
          obtain ⟨s₂, hshrinks', hroom, hevict⟩ := evict_spec hshrinks.sound image
          have hfuel : s₁.entries.occupied < capacity + 1 := by
            have hcount := Cells.occupied_le (s := s₁.entries)
            rw [Fintype.card_fin] at hcount
            omega
          obtain ⟨hsound, hholds⟩ := insert_spec hshrinks'.sound ⟨.new pixels, image⟩ hroom
            fun e he => get_eq_none hget (hshrinks'.holds e he)
          refine ⟨_, s₂.insert ⟨.new pixels, image⟩, ?_, hsound, fun e he => ?_, Or.inl rfl⟩
          · show ((evict image (capacity + 1) s₁).map _).map _ = _
            rw [hevict _ hfuel]
            rfl
          · rcases hholds e he with rfl | hheld
            · exact Or.inr ⟨image, rfl, rfl⟩
            · exact Or.inl ((hshrinks.trans hshrinks').holds e hheld)

end State

/-! ### Whole runs -/

namespace Prepared

section Runs

variable {cvtColor : CvtColor} {frames : Frames} {τ : Type*} [DecidableEq τ]
  {trail : List (ImageWorld τ × (τ × Event))} {w : ImageWorld τ}

def Pc.Sound (cvtColor : CvtColor) (frames : Frames) : Pc → Prop
  | idle => True
  | looking pixels | converting pixels _ => Mapped frames pixels
  | checking pixels _ region | publishing pixels region | prepared pixels region =>
    Mapped frames pixels ∧ regionToBgr cvtColor pixels = .ok region.matrix

/-- The cache keeps its books, its entries are conversions of what they are known by, and every search has
a conversion of its own pixels in hand. -/
structure Inv (cvtColor : CvtColor) (frames : Frames) (w : ImageWorld τ) : Prop where
  books : w.shared.Sound
  genuine : ∀ e, w.shared.entries.Holds e → Genuine cvtColor frames e
  held : ∀ t, (w.pc t).Sound cvtColor frames

omit [DecidableEq τ] in
theorem Inv.start : Inv cvtColor frames (ImageWorld.start τ) :=
  ⟨.new, fun _ ⟨_, hi⟩ => absurd hi (Option.some_ne_none _).symm, fun _ => trivial⟩

theorem Inv.step {t : τ} {e : Event} {s' : State} {pc' : Pc} (h : Inv cvtColor frames w)
    (ha : Act cvtColor frames t w.shared (w.pc t) e s' pc') :
    Inv cvtColor frames (w.move t s' pc') := by
  have hheld := h.held t
  have hquiet : ∀ pc, pc.Sound cvtColor frames → Inv cvtColor frames (w.move t w.shared pc) :=
    fun pc hpc => ⟨h.books, h.genuine, w.forall_move t _ pc hpc fun u _ => h.held u⟩
  generalize hs : w.shared = s at ha
  generalize hpc : w.pc t = pc at ha hheld
  rw [hs] at hquiet
  cases ha with
  | call pixels hmapped => exact hquiet _ hmapped
  | @lookup _ pixels found contended alive live hlookup =>
    have hbooks := hs ▸ h.books
    obtain ⟨found', s₁, heq, hshrinks, hhit⟩ :=
      State.lookup_spec hbooks pixels contended alive live
    obtain ⟨rfl, rfl⟩ := Prod.mk.inj (Option.some.inj (heq.symm.trans hlookup))
    refine ⟨hshrinks.sound, fun e he => h.genuine e (hs ▸ hshrinks.holds e he),
      w.forall_move t _ _ ?_ fun u _ => h.held u⟩
    cases found' with
    | hit image => exact ⟨hheld, h.genuine _ (hs ▸ hhit image rfl) pixels hheld rfl⟩
    | vacant => exact hheld
    | bypass => exact hheld
  | convert live hconverted =>
    refine hquiet _ ⟨hheld, ?_⟩
    rw [PreparedRegion.new_matrix]
    exact hconverted
  | convertFails | interrupted | obtain => exact hquiet _ trivial
  | @continues pixels cacheable region =>
    refine hquiet _ ?_
    cases cacheable
    · exact hheld
    · exact hheld
  | @publish _ pixels candidate region live contended alive hpublish =>
    have hbooks := hs ▸ h.books
    obtain ⟨hmapped, hconverted⟩ := hheld
    obtain ⟨region', s₁, heq, hsound, hentries, hregion⟩ :=
      State.publish_spec hbooks pixels candidate live contended alive
    obtain ⟨rfl, rfl⟩ := Prod.mk.inj (Option.some.inj (heq.symm.trans hpublish))
    refine ⟨hsound, fun e he => ?_, w.forall_move t _ _ ⟨hmapped, ?_⟩ fun u _ => h.held u⟩
    · rcases hentries e he with hold | ⟨image, rfl, rfl⟩
      · exact h.genuine e (hs ▸ hold)
      · exact genuine_of_mapped hmapped hconverted
    · rcases hregion with rfl | ⟨image, rfl, hhit⟩
      · exact hconverted
      · exact h.genuine _ (hs ▸ hhit) pixels hmapped rfl

theorem inv_reachable (h : (imageSystem τ cvtColor frames).Reachable w) : Inv cvtColor frames w :=
  threads_invariant (P := Inv cvtColor frames) .start (fun _ _ _ _ _ _ hinv ha => hinv.step ha) h

/-- What holds of a run of searches. -/
structure ImagesLaw (cvtColor : CvtColor) (frames : Frames)
    (trail : List (ImageWorld τ × (τ × Event))) (w : ImageWorld τ) : Prop where
  /-- The recorded bytes are those of the entries and within the budget, and the keys are distinct. -/
  books : w.shared.Sound
  /-- There are two entries at most. -/
  entries : w.shared.entries.occupied ≤ 2
  /-- A lookup returns. -/
  looks : ∀ pixels contended alive live, (w.shared.lookup pixels contended alive live).isSome = true
  /-- A publication returns. -/
  publishes : ∀ pixels candidate live contended alive,
    (w.shared.publish pixels candidate live contended alive).isSome = true
  /-- The eviction loop of a publication ends after two turns at most. -/
  evicts : ∀ alive s, w.shared.prune alive = some s → ∀ image, ∃ s', ∀ fuel, 2 < fuel →
    State.evict image fuel s = some s'
  /-- The image that a search is given is the conversion of its own pixels. -/
  fresh : ∀ pixels region, .obtained pixels region ∈ events trail →
    regionToBgr cvtColor pixels = .ok region.matrix

/-- **A search is given the conversion of its own pixels**, whether it was a hit, a miss or a lost race,
and the cache keeps its books and its budget. -/
theorem prepared_images (h : (imageSystem τ cvtColor frames).Path (ImageWorld.start τ) trail w) :
    ImagesLaw cvtColor frames trail w := by
  have hinv := inv_reachable ⟨_, rfl, h.leads⟩
  have hcount : ∀ s : State, s.entries.occupied ≤ 2 := fun s => Cells.occupied_le
  refine ⟨hinv.books, hcount _, fun pixels contended alive live => ?_,
    fun pixels candidate live contended alive => ?_, fun alive s hprune image => ?_, ?_⟩
  · obtain ⟨found, s', heq, -⟩ := State.lookup_spec hinv.books pixels contended alive live
    rw [heq]
    rfl
  · obtain ⟨region, s', heq, -⟩ := State.publish_spec hinv.books pixels candidate live contended alive
    rw [heq]
    rfl
  · obtain ⟨s₁, heq, hshrinks⟩ := State.prune_spec hinv.books alive
    obtain rfl := Option.some.inj (heq.symm.trans hprune)
    obtain ⟨s', -, -, hevict⟩ := State.evict_spec hshrinks.sound image
    exact ⟨s', fun fuel hfuel => hevict fuel ((hcount _).trans_lt hfuel)⟩
  · refine threads_along (P := fun es _ => ∀ pixels region, .obtained pixels region ∈ es →
      regionToBgr cvtColor pixels = .ok region.matrix) (fun _ _ hmem => by cases hmem) ?_ h
    intro es w t e s' pc' hr ih ha pixels region hmem
    rcases List.mem_append.mp hmem with hold | hnew
    · exact ih pixels region hold
    · obtain rfl := List.mem_singleton.mp hnew
      have hheld := (inv_reachable hr).held t
      generalize w.pc t = pc at ha hheld
      cases ha
      exact hheld.2

end Runs

/-! ### A search that misses, and one that hits -/

def onePixelFrames : Frames where
  source n := { Mapping.onePixel with number := n }
  number_eq _ := rfl

def bgraPixels : CpuMapping := Mapping.mapping Mapping.onePixel Mapping.bgraPlan (.owned [3, 2, 1, 4])

theorem bgraPixels_mapped : Mapped onePixelFrames bgraPixels := by
  obtain ⟨trail, hpath, -⟩ := (Mapping.solo_bgra 0 none).path (.nil (Mapping.MapWorld.start ℕ)) rfl rfl
  have hstep : (Mapping.mapSystem ℕ Mapping.onePixel).step
      ((Mapping.MapWorld.start ℕ).move 0 Mapping.bgraStored
        (.returning Mapping.inBgra (Mapping.bgraResult none)))
      (0, .returned Mapping.inBgra (Mapping.bgraResult none))
      ((Mapping.MapWorld.start ℕ).move 0 Mapping.bgraStored .idle) := by
    refine ⟨Mapping.bgraStored, .idle, ?_, (World.move_move ..).symm⟩
    rw [World.move_pc_self]
    exact .returns
  refine ⟨Mapping.inBgra, _, _, hpath.snoc hstep, ?_⟩
  rw [events_append]
  exact List.mem_append_right _ (List.mem_singleton_self _)

def dropAlpha : CvtColor := fun code rows columns stride bytes =>
  some ⟨rows, columns, (List.range rows).flatMap fun y => (List.range columns).flatMap fun x =>
    let byte := fun channel => bytes.getD (y * stride + x * 4 + channel) 0
    match code with
    | .bgra2bgr => [byte 0, byte 1, byte 2]
    | .rgba2bgr => [byte 2, byte 1, byte 0]⟩

def bgrMat : Mat := ⟨1, 1, [3, 2, 1]⟩

theorem bgrMat_fits : 3 ≤ byteLimit := by decide

def bgrImage : CachedImage := ⟨bgrMat, 3, rfl, bgrMat_fits⟩

theorem bgraPixels_converted : regionToBgr dropAlpha bgraPixels = .ok bgrMat := rfl

def bgrStored : State := State.new.insert ⟨.new bgraPixels, bgrImage⟩

theorem solo_searches : Solo (Act dropAlpha onePixelFrames) () (ImageWorld.start Unit).shared .idle
    [.silent, .silent, .silent, .silent, .silent, .obtained bgraPixels (.shared bgrImage),
      .silent, .silent, .silent, .obtained bgraPixels (.shared bgrImage)]
    ⟨bgrStored.entries.swap 0 0, bgrStored.bytes⟩ .idle := by
  exact .cons (.call bgraPixels bgraPixels_mapped) <| .cons (.lookup false (fun _ => true) true rfl) <|
    .cons (.convert true bgraPixels_converted) <| .cons .continues <|
    .cons (.publish true false (fun _ => true) rfl) <| .cons .obtain <|
    .cons (.call bgraPixels bgraPixels_mapped) <| .cons (.lookup false (fun _ => true) true rfl) <|
    .cons .continues <| .cons .obtain <| .nil ..

/-- Both searches are given the conversion of the pixel. -/
theorem prepared_images_sample :
    ∃ (trail : List (ImageWorld Unit × (Unit × Event))) (w : ImageWorld Unit),
      ImagesLaw dropAlpha onePixelFrames trail w ∧
        events trail = [.silent, .silent, .silent, .silent, .silent,
          .obtained bgraPixels (.shared bgrImage), .silent, .silent, .silent,
          .obtained bgraPixels (.shared bgrImage)] := by
  obtain ⟨trail, hpath, hevents⟩ := solo_searches.path (.nil (ImageWorld.start Unit)) rfl rfl
  exact ⟨trail, _, prepared_images hpath, hevents⟩

end Prepared

end MadoPilot.Vision
