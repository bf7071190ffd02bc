import MadoPilot.Capture.Mapping

/-!
# What a mapping shows

* `mapInv_reachable` : every remembered copy is the reference crop of its region, and so is what a call
  is about to return;
* `seen_along` : what a call has seen when it publishes, and when it fails;
* `mapping_is_reference` : the law of the mappings of a frame.
-/

namespace MadoPilot.Capture.Mapping

open MadoPilot.Core MadoPilot.Lib

/-! ### The bytes -/

def Genuine (source : MapSource) (s : Mappings) (e : CacheEntry) : Prop :=
  ∃ bytes, s.copies[e.pixels]? = some bytes ∧
    copyRegion source.frame.descriptor source.pixels e.region e.descriptor = .ok bytes

def Whole (source : MapSource) (request : MapRequest) : Prop :=
  source.frame.descriptor.bounds = .ok request.region ∧ source.frame.descriptor.format = request.format

structure Answers (source : MapSource) (request : MapRequest) (m : CpuMapping) : Prop where
  inside : request.Inside source.frame.descriptor
  stamp : m.stamp = source.frame.stamp
  transform : m.transform = source.frame.transform
  region : m.region = request.region
  whole : Whole source request → m.descriptor = source.frame.descriptor ∧ m.storage.bytes = source.pixels
  crop : ¬ Whole source request → m.descriptor.extent = request.region.extent ∧
    m.descriptor.format = request.format ∧ m.descriptor.stride = request.region.width * 4 ∧
    m.storage.bytes = referenceCrop source.frame.descriptor source.pixels request

def Pc.Planned (source : MapSource) : Pc → Prop
  | loading _ plan | converted _ plan | committing _ plan _ =>
    planRegion source.frame.descriptor plan.request = .ok plan
  | searching _ plan | reserving _ plan | copying _ plan | copied _ plan _ | publishing _ plan _ =>
    planRegion source.frame.descriptor plan.request = .ok plan ∧ plan.unconverted = false
  | _ => True

def Pc.Sound (source : MapSource) (s : Mappings) : Pc → Prop
  | copied _ plan pixels | publishing _ plan pixels =>
    Genuine source s ⟨plan.request.region, plan.descriptor, pixels⟩
  | committing _ plan storage =>
    storage.bytes = referenceBytes source.frame.descriptor source.pixels plan
  | returning request (.ok m) => Answers source request m
  | _ => True

section Steps

variable {source : MapSource} {τ : Type*} {t : τ} {s s' : Mappings} {pc pc' : Pc} {e : Event}

theorem copy_of_planned {plan : MapPlan}
    (h : planRegion source.frame.descriptor plan.request = .ok plan ∧ plan.unconverted = false) :
    copyRegion source.frame.descriptor source.pixels plan.request.region plan.descriptor =
      .ok (referenceBytes source.frame.descriptor source.pixels plan) := by
  have hfor := plan_for h.1
  obtain ⟨hextent, hformat, hstride⟩ := hfor.packed h.2
  unfold referenceBytes
  rw [if_neg (by rw [h.2]; exact Bool.false_ne_true)]
  exact copyRegion_eq hfor.inside source.length hextent hformat hstride

theorem Genuine.bytes {plan : MapPlan} {pixels : ℕ}
    (h : Genuine source s ⟨plan.request.region, plan.descriptor, pixels⟩)
    (hplan : planRegion source.frame.descriptor plan.request = .ok plan ∧ plan.unconverted = false) :
    s.copy pixels = referenceBytes source.frame.descriptor source.pixels plan := by
  obtain ⟨bytes, hbytes, hcopy⟩ := h
  unfold Mappings.copy
  rw [hbytes]
  exact Except.ok.inj (hcopy.symm.trans (copy_of_planned hplan))

theorem Genuine.mono {e : CacheEntry} (h : Genuine source s e) (hcopies : s.copies <+: s'.copies) :
    Genuine source s' e := by
  obtain ⟨bytes, hbytes, hcopy⟩ := h
  obtain ⟨tail, htail⟩ := hcopies
  have hlt := (List.getElem?_eq_some_iff.mp hbytes).1
  refine ⟨bytes, ?_, hcopy⟩
  rw [← htail, List.getElem?_append_left hlt]
  exact hbytes

theorem Pc.Sound.mono (h : pc.Sound source s) (hcopies : s.copies <+: s'.copies) :
    pc.Sound source s' := by
  cases pc with
  | copied op plan pixels => exact Genuine.mono h hcopies
  | publishing op plan pixels => exact Genuine.mono h hcopies
  | committing op plan storage => exact h
  | returning request result =>
    cases result with
    | error error => trivial
    | ok m => exact h
  | idle | starting | planning | searching | loading | converted | reserving | copying => trivial

theorem answers_of_plan {plan : MapPlan} {storage : MappingStorage}
    (hplan : planRegion source.frame.descriptor plan.request = .ok plan)
    (hbytes : storage.bytes = referenceBytes source.frame.descriptor source.pixels plan) :
    Answers source plan.request (mapping source plan storage) := by
  have hfor := plan_for hplan
  unfold referenceBytes at hbytes
  refine ⟨hfor.inside, rfl, rfl, rfl, fun hwhole => ?_, fun hcrop => ?_⟩
  · have hunconverted := hfor.whole.mpr hwhole
    rw [if_pos hunconverted] at hbytes
    exact ⟨hfor.kept hunconverted, hbytes⟩
  · have hconverted : plan.unconverted = false := by
      rw [← Bool.not_eq_true]
      exact fun htrue => hcrop (hfor.whole.mp htrue)
    rw [hconverted] at hbytes
    obtain ⟨hextent, hformat, hstride⟩ := hfor.packed hconverted
    exact ⟨hextent, hformat, hstride, hbytes⟩

theorem loaded_planned {op : Operation} {plan : MapPlan} {shared : Bool}
    (hplan : planRegion source.frame.descriptor plan.request = .ok plan) :
    (Pc.loaded source op plan shared).Planned source ∧ (Pc.loaded source op plan shared).Sound source s := by
  unfold Pc.loaded
  by_cases hunconverted : plan.unconverted = true
  · rw [if_pos hunconverted]
    refine ⟨hplan, ?_⟩
    show (if shared then MappingStorage.shared source.pixels else .owned source.pixels).bytes =
      referenceBytes source.frame.descriptor source.pixels plan
    unfold referenceBytes
    rw [if_pos hunconverted]
    cases shared <;> rfl
  · rw [if_neg hunconverted]
    exact ⟨⟨hplan, Bool.eq_false_of_not_eq_true hunconverted⟩, trivial⟩

theorem Act.planned (h : pc.Planned source) (ha : Act source t s pc e s' pc') : pc'.Planned source := by
  cases ha with
  | plans hplan =>
    rename_i plan
    have hsame := (plan_for hplan).same
    rw [← hsame] at hplan
    by_cases hunconverted : plan.unconverted = true
    · rw [if_pos hunconverted]
      exact hplan
    · rw [if_neg hunconverted]
      exact ⟨hplan, Bool.eq_false_of_not_eq_true hunconverted⟩
  | hit | miss | stores | joins => exact h.1
  | resident => exact (loaded_planned (s := s) h).1
  | continues => exact (loaded_planned (s := s) h).1
  | read | reserve | copy | clears => exact h
  | call | refused | admitted | rejected | readFails | overtaken | reserveFails | copyFails | discards
  | commit | returns => trivial

theorem Act.sound (hentries : ∀ entry, some entry ∈ s.entries → Genuine source s entry)
    (hplanned : pc.Planned source) (hsound : pc.Sound source s) (ha : Act source t s pc e s' pc') :
    (∀ entry, some entry ∈ s'.entries → Genuine source s' entry) ∧ s.copies <+: s'.copies ∧
      pc'.Sound source s' := by
  cases ha with
  | call | refused | admitted | rejected | read | readFails | overtaken | reserve | reserveFails
  | copyFails | discards | returns => exact ⟨hentries, List.prefix_refl _, trivial⟩
  | @plans op request plan hplan =>
    refine ⟨hentries, List.prefix_refl _, ?_⟩
    split_ifs <;> trivial
  | hit locked upgraded hfind =>
    obtain ⟨hperm, hfound⟩ := MappingCache.find_eq hfind
    refine ⟨fun entry he => hentries entry (hperm.mem_iff.mp he), List.prefix_refl _, ?_⟩
    exact (hentries _ (hfound _ rfl)).bytes hplanned
  | miss locked upgraded hfind =>
    obtain ⟨hperm, -⟩ := MappingCache.find_eq hfind
    exact ⟨fun entry he => hentries entry (hperm.mem_iff.mp he), List.prefix_refl _, trivial⟩
  | resident => exact ⟨hentries, List.prefix_refl _, (loaded_planned hplanned).2⟩
  | continues => exact ⟨hentries, List.prefix_refl _, (loaded_planned hplanned).2⟩
  | @copy op plan bytes hcopy =>
    have hgrown : s.copies <+: s.copies ++ [bytes] := List.prefix_append _ _
    refine ⟨fun entry he => (hentries entry he).mono hgrown, hgrown, ?_⟩
    exact ⟨bytes, List.getElem?_concat_length, hcopy⟩
  | clears => exact ⟨hentries, List.prefix_refl _, hsound⟩
  | stores locked upgraded live hpublish =>
    obtain ⟨-, rfl, hkept⟩ | ⟨hstored, -⟩ := MappingCache.publish_eq hpublish
    · refine ⟨fun entry he => ?_, List.prefix_refl _, hsound.bytes hplanned⟩
      rcases hkept _ he with hnew | hold
      · obtain rfl := Option.some.inj hnew
        exact hsound
      · exact hentries entry hold
    · cases hstored
  | joins locked upgraded live hpublish =>
    obtain ⟨hstored, -⟩ | ⟨-, hperm, hused⟩ := MappingCache.publish_eq hpublish
    · cases hstored
    · refine ⟨fun entry he => hentries entry (hperm.mem_iff.mp he), List.prefix_refl _, ?_⟩
      rcases hused with rfl | hremembered
      · exact hsound.bytes hplanned
      · exact (hentries _ hremembered).bytes hplanned
  | @commit op plan storage seen =>
    refine ⟨hentries, List.prefix_refl _, ?_⟩
    cases hresult : (op.commit seen (mapping source plan storage)).mapError Interruption.toError with
    | error error => trivial
    | ok m =>
      obtain ⟨rfl, -⟩ := Operation.commit_eq_ok hresult
      exact answers_of_plan hplanned hsound

end Steps

/-! ### What a call has seen -/

def NoPub (es : List Event) : Prop := ∀ pixels, Event.published pixels ∉ es

/-- The last thing is a publication, right after a consultation that went well, and the only one. -/
def JustPublished (es : List Event) : Prop :=
  ∃ pixels rest, es = .published pixels :: .consulted none :: rest ∧ NoPub rest

def Pc.Published : Pc → List Event → Prop
  | publishing .., es => ∃ rest, es = .consulted none :: rest ∧ NoPub rest
  | committing .., es => NoPub es ∨ JustPublished es
  | returning _ (.error error), es =>
    NoPub es ∨ ∃ i rest, es = .consulted (some i) :: rest ∧ JustPublished rest ∧ error = i.toError
  | returning _ (.ok _), _ => True
  | _, es => NoPub es

/-- The error is one that the caller's context, the frame's storage or the budget gave. -/
def Blamed (error : Error) (es : List Event) : Prop :=
  (∃ i, Event.consulted (some i) ∈ es ∧ error = i.toError) ∨
    Event.read (some error) ∈ es ∨ Event.reserved (some error) ∈ es

def Pc.attempt : Pc → Option Operation
  | planning op _ | searching op _ | loading op _ | converted op _ | reserving op _ | copying op _
  | copied op _ _ | publishing op _ _ | committing op _ _ => some op
  | _ => none

def Pc.failure : Pc → Option (MapRequest × Error)
  | returning request (.error error) => some (request, error)
  | _ => none

structure Seen (source : MapSource) (pc : Pc) (es : List Event) : Prop where
  planned : pc.Planned source
  attempt : ∀ op, pc.attempt = some op → op.terminal = none
  published : pc.Published es
  failure : ∀ request error, pc.failure = some (request, error) →
    Blamed error es ∨ ¬ request.Inside source.frame.descriptor

section Seen

variable {source : MapSource} {τ : Type*} {t : τ} {s s' : Mappings} {pc pc' : Pc} {e : Event}
  {es : List Event}

theorem NoPub.nil : NoPub [] := fun _ hin => by cases hin

theorem NoPub.cons (h : NoPub es) (he : ∀ pixels, e ≠ .published pixels) : NoPub (e :: es) := by
  intro pixels hin
  rcases List.mem_cons.mp hin with hhead | hrest
  · exact he pixels hhead.symm
  · exact h pixels hrest

theorem Seen.fails {request : MapRequest} {error : Error} (hnone : NoPub es)
    (hblame : Blamed error es ∨ ¬ request.Inside source.frame.descriptor) :
    Seen source (.returning request (.error error)) es := by
  refine ⟨trivial, (fun op hop => by cases hop), Or.inl hnone, fun request' error' heq => ?_⟩
  obtain ⟨rfl, rfl⟩ := Prod.mk.inj (Option.some.inj heq)
  exact hblame

theorem loaded_attempt {op : Operation} {plan : MapPlan} {shared : Bool} (hop : op.terminal = none) :
    ∀ op', (Pc.loaded source op plan shared).attempt = some op' → op'.terminal = none := by
  intro op' hop'
  unfold Pc.loaded at hop'
  split_ifs at hop' <;> exact Option.some.inj hop' ▸ hop

theorem Seen.loaded {op : Operation} {plan : MapPlan} {shared : Bool}
    (hplan : planRegion source.frame.descriptor plan.request = .ok plan) (hop : op.terminal = none)
    (hnone : NoPub es) : Seen source (.loaded source op plan shared) es := by
  refine ⟨(loaded_planned (s := ⟨[], []⟩) hplan).1, loaded_attempt hop, ?_, fun request error heq => ?_⟩
  · unfold Pc.loaded
    by_cases hunconverted : plan.unconverted = true
    · rw [if_pos hunconverted]
      exact Or.inl hnone
    · rw [if_neg hunconverted]
      exact hnone
  · unfold Pc.loaded at heq
    split_ifs at heq <;> cases heq

theorem Seen.step (h : Seen source pc es) (ha : Act source t s pc e s' pc') :
    Seen source pc' (if e.ends then [] else e :: es) := by
  have hplanned := ha.planned h.planned
  have hquiet : ∀ {request : MapRequest} {error : Error}, pc'.failure = none →
      pc'.failure = some (request, error) →
        Blamed error (if e.ends then [] else e :: es) ∨ ¬ request.Inside source.frame.descriptor := by
    intro request error hnone hsome
    rw [hnone] at hsome
    cases hsome
  cases ha with
  | call =>
    exact ⟨trivial, (fun op hop => by cases hop), h.published.cons fun _ => nofun, fun _ _ => hquiet rfl⟩
  | refused seen hi =>
    obtain rfl := Operation.admitContext_eq_error hi
    exact Seen.fails (h.published.cons fun _ => nofun) (Or.inl (Or.inl ⟨_, List.mem_cons_self, rfl⟩))
  | admitted seen hi =>
    refine ⟨trivial, fun op hop => ?_, h.published.cons fun _ => nofun, fun _ _ => hquiet rfl⟩
    obtain rfl := Option.some.inj hop
    exact (Operation.admitContext_eq_ok hi).2
  | @rejected op request fault hplan =>
    refine Seen.fails (h.published.cons fun _ => nofun) (Or.inr fun hinside => ?_)
    obtain ⟨plan, hok, -⟩ := plan_of_inside hinside
    rw [hplan] at hok
    cases hok
  | @plans op request plan hplan =>
    have hnone : NoPub (Event.silent :: es) := h.published.cons fun _ => nofun
    by_cases hunconverted : plan.unconverted = true
    · rw [if_pos hunconverted] at hplanned ⊢
      exact ⟨hplanned, h.attempt, hnone, (fun _ _ hfail => by cases hfail)⟩
    · rw [if_neg hunconverted] at hplanned ⊢
      exact ⟨hplanned, h.attempt, hnone, (fun _ _ hfail => by cases hfail)⟩
  | hit => exact ⟨hplanned, h.attempt, Or.inl (h.published.cons fun _ => nofun), fun _ _ => hquiet rfl⟩
  | miss | read | reserve | copy =>
    exact ⟨hplanned, h.attempt, h.published.cons fun _ => nofun, fun _ _ => hquiet rfl⟩
  | resident => exact Seen.loaded h.planned (h.attempt _ rfl) (h.published.cons fun _ => nofun)
  | readFails error =>
    exact Seen.fails (h.published.cons fun _ => nofun) (Or.inl (Or.inr (Or.inl List.mem_cons_self)))
  | reserveFails error =>
    exact Seen.fails (h.published.cons fun _ => nofun) (Or.inl (Or.inr (Or.inr List.mem_cons_self)))
  | overtaken seen hi | discards seen hi =>
    obtain rfl := Operation.checkpoint_eq_error (h.attempt _ rfl) hi
    exact Seen.fails (h.published.cons fun _ => nofun) (Or.inl (Or.inl ⟨_, List.mem_cons_self, rfl⟩))
  | continues seen hi =>
    rw [Operation.checkpoint_eq_ok hi]
    exact Seen.loaded h.planned (h.attempt _ rfl) (h.published.cons fun _ => nofun)
  | copyFails hcopy =>
    rw [copy_of_planned h.planned] at hcopy
    cases hcopy
  | clears seen hi =>
    obtain rfl := Operation.checkpoint_eq_none (h.attempt _ rfl) hi
    obtain rfl := Operation.checkpoint_eq_ok hi
    exact ⟨hplanned, h.attempt, ⟨es, rfl, h.published⟩, fun _ _ => hquiet rfl⟩
  | stores =>
    obtain ⟨rest, rfl, hnone⟩ := h.published
    exact ⟨hplanned, h.attempt, Or.inr ⟨_, rest, rfl, hnone⟩, fun _ _ => hquiet rfl⟩
  | joins =>
    obtain ⟨rest, rfl, hnone⟩ := h.published
    have hcleared : NoPub (.consulted none :: rest) := hnone.cons fun _ => nofun
    exact ⟨hplanned, h.attempt, Or.inl (hcleared.cons fun _ => nofun), fun _ _ => hquiet rfl⟩
  | @commit op plan storage seen =>
    cases hresult : (op.commit seen (mapping source plan storage)).mapError Interruption.toError with
    | ok m => exact ⟨trivial, (fun op hop => by cases hop), trivial, (fun _ _ hfail => by cases hfail)⟩
    | error error =>
      obtain ⟨i, rfl, rfl⟩ := Operation.commit_eq_error (h.attempt _ rfl) hresult
      have hblame : Blamed i.toError (.consulted (some i) :: es) := Or.inl ⟨i, List.mem_cons_self, rfl⟩
      rcases h.published with hnone | hpublished
      · exact Seen.fails (hnone.cons fun _ => nofun) (Or.inl hblame)
      · refine ⟨trivial, (fun op hop => by cases hop), Or.inr ⟨i, es, rfl, hpublished, rfl⟩, ?_⟩
        intro request error heq
        obtain ⟨rfl, rfl⟩ := Prod.mk.inj (Option.some.inj heq)
        exact Or.inl hblame
  | returns => exact ⟨trivial, (fun op hop => by cases hop), NoPub.nil, fun _ _ => hquiet rfl⟩

end Seen

/-! ### Runs -/

section Runs

variable {source : MapSource} {τ : Type*} [DecidableEq τ] {w : MapWorld τ}
  {trail : List (MapWorld τ × (τ × Event))}

/-- What holds in every state. -/
structure MapInv (source : MapSource) (w : MapWorld τ) : Prop where
  entries : ∀ entry, some entry ∈ w.shared.entries → Genuine source w.shared entry
  planned : ∀ t, (w.pc t).Planned source
  sound : ∀ t, (w.pc t).Sound source w.shared

theorem mapInv_reachable (h : (mapSystem τ source).Reachable w) : MapInv source w := by
  refine threads_invariant (P := MapInv source) ?_ (fun w t e s' pc' _ hinv hact => ?_) h
  · refine ⟨fun entry he => ?_, fun t => trivial, fun t => trivial⟩
    have hnone := List.eq_of_mem_replicate he
    cases hnone
  · obtain ⟨hentries, hcopies, hsound⟩ := hact.sound hinv.entries (hinv.planned t) (hinv.sound t)
    refine ⟨hentries, fun u => ?_, fun u => ?_⟩
    · exact World.forall_move w t s' pc' (hact.planned (hinv.planned t)) (fun u _ => hinv.planned u) u
    · exact World.forall_move w t s' pc' hsound (fun u _ => (hinv.sound u).mono hcopies) u

theorem seen_along (h : (mapSystem τ source).Path (MapWorld.start τ) trail w) (t : τ) :
    Seen source (w.pc t) (current Event.ends (own t trail)) := by
  refine calls_along (P := fun _ pc es => Seen source pc es) (fun u => ?_)
    (fun _ _ _ _ _ _ _ ha hseen => hseen.step ha) (fun _ _ _ _ _ _ _ _ _ hseen => hseen) h t
  exact ⟨trivial, (fun op hop => by cases hop), NoPub.nil, (fun _ _ hfail => by cases hfail)⟩

theorem answers_along (h : (mapSystem τ source).Path (MapWorld.start τ) trail w)
    {request : MapRequest} {m : CpuMapping} (hm : .returned request (.ok m) ∈ events trail) :
    Answers source request m := by
  revert hm
  refine threads_along (P := fun es _ => .returned request (.ok m) ∈ es → Answers source request m)
    (fun hm => by cases hm) (fun es w t e s' pc' hr hanswers hact hm => ?_) h
  rcases List.mem_append.mp hm with hold | hnew
  · exact hanswers hold
  · obtain rfl := List.mem_singleton.mp hnew
    have hsound := (mapInv_reachable hr).sound t
    generalize w.pc t = pc at hact hsound
    cases hact
    exact hsound

structure MappingLaw (source : MapSource) (trail : List (MapWorld τ × (τ × Event))) (w : MapWorld τ) :
    Prop where
  /-- A successful call returns the reference crop, or the frame's own pixels. -/
  answers : ∀ request m, .returned request (.ok m) ∈ events trail → Answers source request m
  /-- No offset fails or overflows: for a region inside the frame there is a plan, and its copy. -/
  copies : ∀ request : MapRequest, request.Inside source.frame.descriptor → ∃ plan,
    planRegion source.frame.descriptor request = .ok plan ∧ (plan.unconverted = false →
      copyRegion source.frame.descriptor source.pixels request.region plan.descriptor =
        .ok (referenceCrop source.frame.descriptor source.pixels request))
  /-- A call for a region inside the frame fails by its own context, the storage or the budget. -/
  blame : ∀ t request error w', (mapSystem τ source).step w (t, .returned request (.error error)) w' →
    request.Inside source.frame.descriptor → Blamed error (current Event.ends (own t trail))
  /-- What is remembered is a copy of its region in its layout. -/
  remembered : ∀ entry, some entry ∈ w.shared.entries → Genuine source w.shared entry
  /-- Only a publication stores an entry; all else changes the order at most. -/
  kept : ∀ t e w', (mapSystem τ source).step w (t, e) w' → (∀ pixels, e ≠ .published pixels) →
    w'.shared.entries.Perm w.shared.entries
  /-- A call publishes once, and right after a consultation that went well. -/
  cleared : ∀ t pixels w', (mapSystem τ source).step w (t, .published pixels) w' →
    ∃ rest, current Event.ends (own t trail) = .consulted none :: rest ∧ NoPub rest
  /-- A call that fails has published nothing, or failed by the consultation after its publication. -/
  failed : ∀ t request error w', (mapSystem τ source).step w (t, .returned request (.error error)) w' →
    NoPub (current Event.ends (own t trail)) ∨ ∃ i rest,
      current Event.ends (own t trail) = .consulted (some i) :: rest ∧ JustPublished rest ∧
        error = i.toError

omit [DecidableEq τ] in
theorem Act.entries_perm {t : τ} {s s' : Mappings} {pc pc' : Pc} {e : Event}
    (ha : Act source t s pc e s' pc') (he : ∀ pixels, e ≠ .published pixels) :
    s'.entries.Perm s.entries := by
  cases ha with
  | hit locked upgraded hfind | miss locked upgraded hfind => exact (MappingCache.find_eq hfind).1
  | stores => exact absurd rfl (he _)
  | joins locked upgraded live hpublish =>
    obtain ⟨hstored, -⟩ | ⟨-, hperm, -⟩ := MappingCache.publish_eq hpublish
    · cases hstored
    · exact hperm
  | _ => exact List.Perm.refl _

/-- **A mapping is the reference crop.**  Whatever the callers of a frame do, a successful mapping has
the bytes of the reference crop with the frame's stamp and transform; no offset computation fails or
overflows; and a call that fails has published nothing, unless it was interrupted at its commit. -/
theorem mapping_is_reference (h : (mapSystem τ source).Path (MapWorld.start τ) trail w) :
    MappingLaw source trail w := by
  have hinv := mapInv_reachable ⟨_, rfl, h.leads⟩
  refine ⟨fun request m hm => answers_along h hm, fun request hinside => ?_, ?_, hinv.entries, ?_, ?_, ?_⟩
  · obtain ⟨plan, hplan, hfor⟩ := plan_of_inside hinside
    refine ⟨plan, hplan, fun hconverted => ?_⟩
    obtain ⟨hextent, hformat, hstride⟩ := hfor.packed hconverted
    exact copyRegion_eq hinside source.length hextent hformat hstride
  · rintro t request error w' ⟨s', pc', hact, -⟩ hinside
    have hseen := seen_along h t
    generalize w.pc t = pc at hact hseen
    cases hact
    exact (hseen.failure request error rfl).resolve_right (not_not_intro hinside)
  · rintro t e w' ⟨s', pc', hact, rfl⟩ he
    exact hact.entries_perm he
  · rintro t pixels w' ⟨s', pc', hact, -⟩
    have hseen := (seen_along h t).published
    generalize w.pc t = pc at hact hseen
    cases hact
    exact hseen
  · rintro t request error w' ⟨s', pc', hact, -⟩
    have hseen := (seen_along h t).published
    generalize w.pc t = pc at hact hseen
    cases hact
    exact hseen

end Runs

/-! ### Two runs -/

theorem unit_edge : (0 : Int32) ≤ 1 := by decide

theorem bgra_row : (⟨1, 1⟩ : PixelExtent).width * PixelFormat.bgra8.bytesPerPixel ≤ 4 := le_refl _

def onePixel : MapSource where
  frame := ⟨⟨⟨firstOrdinal, firstOrdinal⟩, 0, 0, 0⟩, 0,
    ⟨⟨1, 1⟩, .rgba8, 4, pixel_nonempty, pixel_row, pixel_len⟩, .frameOnly 0 ⟨1, 1⟩,
    .cpu ⟨⟨1, 1⟩, .rgba8, 4, pixel_nonempty, pixel_row, pixel_len⟩ [1, 2, 3, 4]⟩
  number := 0
  pixels := [1, 2, 3, 4]
  resident := true
  stored := by
    intro d bytes h
    cases h
    exact ⟨rfl, rfl⟩
  length := rfl

def inBgra : MapRequest := ⟨⟨0, 0, 1, 1, unit_edge, unit_edge⟩, .bgra8⟩

def bgraPlan : MapPlan :=
  ⟨inBgra, false, ⟨⟨1, 1⟩, .bgra8, 4, pixel_nonempty, bgra_row, pixel_len⟩⟩

theorem bgraPlan_eq : planRegion onePixel.frame.descriptor inBgra = .ok bgraPlan := by
  decide +kernel

theorem bgraCopy_eq : copyRegion onePixel.frame.descriptor onePixel.pixels
    bgraPlan.request.region bgraPlan.descriptor = .ok [3, 2, 1, 4] := by
  decide +kernel

def bgraStored : Mappings :=
  ⟨[some ⟨inBgra.region, bgraPlan.descriptor, 0⟩, none, none, none], [[3, 2, 1, 4]]⟩

def bgraResult (seen : Option Interruption) : Except Error CpuMapping :=
  ((⟨none⟩ : Operation).commit seen
    (mapping onePixel bgraPlan (.owned [3, 2, 1, 4]))).mapError Interruption.toError

def bgraEvents : List Event :=
  [.silent, .consulted none, .silent, .silent, .silent, .reserved none, .silent, .consulted none,
    .published 0]

theorem solo_bgra {τ : Type*} (t : τ) (seen : Option Interruption) :
    Solo (Act onePixel) t (MapWorld.start τ).shared .idle (bgraEvents ++ [.consulted seen])
      bgraStored (.returning inBgra (bgraResult seen)) := by
  exact .cons (.call inBgra) <| .cons (.admitted none rfl) <| .cons (.plans bgraPlan_eq) <|
    .cons (.miss true true rfl) <| .cons (.resident rfl) <| .cons .reserve <|
    .cons (.copy bgraCopy_eq) <| .cons (.clears none rfl) <|
    .cons (.stores true true (fun _ => true) rfl) <| .cons (.commit seen) <| .nil ..

/-- The copy that a call returns. -/
theorem mapping_is_reference_sample :
    Answers onePixel inBgra (mapping onePixel bgraPlan (.owned [3, 2, 1, 4])) := by
  obtain ⟨trail, hpath, -⟩ := (solo_bgra () none).path (.nil (MapWorld.start Unit)) rfl rfl
  have hstep : (mapSystem Unit onePixel).step
      ((MapWorld.start Unit).move () bgraStored (.returning inBgra (bgraResult none)))
      ((), .returned inBgra (bgraResult none)) ((MapWorld.start Unit).move () bgraStored .idle) := by
    refine ⟨bgraStored, .idle, ?_, (World.move_move ..).symm⟩
    rw [World.move_pc_self]
    exact .returns
  refine (mapping_is_reference (hpath.snoc hstep)).answers inBgra _ ?_
  rw [events_append]
  exact List.mem_append_right _ (List.mem_singleton_self _)

/-- A call that is interrupted at its commit has published its copy. -/
theorem interrupted_publishes :
    ∃ (trail : List (MapWorld Unit × (Unit × Event))) (w w' : MapWorld Unit),
      (mapSystem Unit onePixel).Path (MapWorld.start Unit) trail w ∧
      (mapSystem Unit onePixel).step w
        ((), .returned inBgra (.error Interruption.cancelled.toError)) w' ∧
      .published 0 ∈ events trail ∧
      some ⟨inBgra.region, bgraPlan.descriptor, 0⟩ ∈ w'.shared.entries := by
  obtain ⟨trail, hpath, hevents⟩ :=
    (solo_bgra () (some .cancelled)).path (.nil (MapWorld.start Unit)) rfl rfl
  refine ⟨trail, _, (MapWorld.start Unit).move () bgraStored .idle, hpath, ?_, ?_, List.mem_cons_self⟩
  · refine ⟨bgraStored, .idle, ?_, (World.move_move ..).symm⟩
    rw [World.move_pc_self]
    exact .returns
  · rw [hevents]
    simp [bgraEvents]

end MadoPilot.Capture.Mapping
