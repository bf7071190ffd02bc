import MadoPilot.Platform.Discovery

/-!
# What a discovery leaves

* `Shows.adopt` : the registry after one more snapshot;
* `inv_along` : the registry holds the last two of the snapshots that were committed;
* `discovery_registry` : the law of the registries of both platforms.
-/

namespace MadoPilot.Platform.Discovery

open MadoPilot.Core MadoPilot.Capture MadoPilot.Lib

variable {κ π : Type*}

def latest (snapshots : List (List (TargetRecord κ))) : List (List (TargetRecord κ)) :=
  snapshots.drop (snapshots.length - retainedDiscoveryGenerations)

def ids (records : List (TargetRecord κ)) : List TargetId := records.map (·.id)

structure Shows (registry : Registry κ) (snapshots : List (List (TargetRecord κ))) : Prop where
  generations : registry.generations = (latest snapshots).map ids
  apart : registry.generations.flatten.Nodup
  own : ∀ records ∈ latest snapshots, ∀ record ∈ records, registry.records record.id = some record
  other : ∀ id, id ∉ registry.generations.flatten → registry.records id = none

/-! ### One snapshot more -/

section Adopt

variable {registry : Registry κ} {snapshots : List (List (TargetRecord κ))}
  {records : List (TargetRecord κ)} {lookups : TargetId → Option (TargetRecord κ)}

theorem foldl_insert_of_notMem {id : TargetId} (h : id ∉ ids records) :
    records.foldl insert lookups id = lookups id := by
  induction records generalizing lookups with
  | nil => rfl
  | cons record records ih =>
    unfold ids at h ih
    rw [List.map_cons, List.mem_cons, not_or] at h
    rw [List.foldl_cons, ih h.2]
    exact Function.update_of_ne h.1 ..

theorem foldl_insert_of_mem (hnodup : (ids records).Nodup) {record : TargetRecord κ}
    (h : record ∈ records) : records.foldl insert lookups record.id = some record := by
  induction records generalizing lookups with
  | nil => cases h
  | cons first records ih =>
    unfold ids at hnodup ih
    obtain ⟨hfirst, hrest⟩ := List.nodup_cons.mp hnodup
    rw [List.foldl_cons]
    rcases List.mem_cons.mp h with rfl | hmem
    · rw [foldl_insert_of_notMem hfirst]
      exact Function.update_self ..
    · exact ih hrest hmem

theorem foldl_remove (expired : List TargetId) (id : TargetId) :
    expired.foldl remove lookups id = if id ∈ expired then none else lookups id := by
  induction expired generalizing lookups with
  | nil => rfl
  | cons first expired ih =>
    rw [List.foldl_cons, ih]
    unfold remove
    by_cases hmem : id ∈ expired
    · rw [if_pos hmem, if_pos (List.mem_cons_of_mem _ hmem)]
    · rw [if_neg hmem]
      by_cases hid : id = first
      · rw [hid, Function.update_self, if_pos List.mem_cons_self]
      · rw [Function.update_of_ne hid, if_neg]
        rw [List.mem_cons, not_or]
        exact ⟨hid, hmem⟩

theorem expire_eq (lookups : TargetId → Option (TargetRecord κ)) (generations : List (List TargetId)) :
    (Registry.expire lookups generations).generations =
        generations.drop (generations.length - retainedDiscoveryGenerations) ∧
      ∀ id, (Registry.expire lookups generations).records id =
        if id ∈ (generations.take (generations.length - retainedDiscoveryGenerations)).flatten then none
        else lookups id := by
  induction generations generalizing lookups with
  | nil => exact ⟨rfl, fun _ => rfl⟩
  | cons expired generations ih =>
    unfold Registry.expire
    by_cases hmany : (expired :: generations).length > retainedDiscoveryGenerations
    · rw [if_pos hmany]
      have hsucc : (expired :: generations).length - retainedDiscoveryGenerations =
          (generations.length - retainedDiscoveryGenerations) + 1 := by
        rw [List.length_cons] at hmany ⊢
        omega
      obtain ⟨hgenerations, hrecords⟩ := ih (expired.foldl remove lookups)
      rw [hsucc, List.drop_succ_cons, List.take_succ_cons, List.flatten_cons]
      refine ⟨hgenerations, fun id => ?_⟩
      rw [hrecords, foldl_remove]
      by_cases hlater : id ∈ (generations.take (generations.length - retainedDiscoveryGenerations)).flatten
      · rw [if_pos hlater, if_pos (List.mem_append_right _ hlater)]
      · rw [if_neg hlater]
        by_cases hfirst : id ∈ expired
        · rw [if_pos hfirst, if_pos (List.mem_append_left _ hfirst)]
        · rw [if_neg hfirst, if_neg]
          rw [List.mem_append, not_or]
          exact ⟨hfirst, hlater⟩
    · rw [if_neg hmany]
      have hzero : (expired :: generations).length - retainedDiscoveryGenerations = 0 := by omega
      rw [hzero]
      exact ⟨rfl, fun _ => rfl⟩

theorem latest_append :
    latest (snapshots ++ [records]) =
      (latest snapshots ++ [records]).drop
        ((latest snapshots ++ [records]).length - retainedDiscoveryGenerations) := by
  unfold latest retainedDiscoveryGenerations
  rw [List.length_append, List.length_singleton, List.length_append, List.length_singleton,
    List.length_drop]
  rcases Nat.lt_or_ge snapshots.length 2 with hlt | hge
  · have h₁ : snapshots.length + 1 - 2 = 0 := by omega
    have h₂ : snapshots.length - 2 = 0 := by omega
    rw [h₁, h₂, List.drop_zero, List.drop_zero, Nat.sub_zero, h₁, List.drop_zero]
  · have h₁ : snapshots.length - (snapshots.length - 2) + 1 - 2 = 1 := by omega
    rw [h₁, List.drop_append_of_le_length (by omega), List.drop_append_of_le_length]
    · rw [List.drop_drop]
      congr 2
      omega
    · rw [List.length_drop]
      omega

structure Fresh (registry : Registry κ) (records : List (TargetRecord κ)) : Prop where
  nodup : (ids records).Nodup
  unknown : ∀ record ∈ records, record.id ∉ registry.generations.flatten

theorem Shows.adopt (h : Shows registry snapshots) (hfresh : Fresh registry records) :
    Shows (registry.adopt records (ids records)) (snapshots ++ [records]) := by
  obtain ⟨hgenerations, hrecords⟩ := expire_eq (records.foldl insert registry.records)
    (registry.generations ++ [ids records])
  have hmap : registry.generations ++ [ids records] = (latest snapshots ++ [records]).map ids := by
    rw [List.map_append, ← h.generations]
    rfl
  have hnodup : (registry.generations ++ [ids records]).flatten.Nodup := by
    rw [List.flatten_append, List.flatten_singleton]
    refine List.nodup_append.mpr ⟨h.apart, hfresh.nodup, fun id hold new hnew hsame => ?_⟩
    obtain ⟨record, hrecord, rfl⟩ := List.mem_map.mp hnew
    exact hfresh.unknown record hrecord (hsame ▸ hold)
  have hsplit := List.take_append_drop
    ((registry.generations ++ [ids records]).length - retainedDiscoveryGenerations)
    (registry.generations ++ [ids records])
  have hparts := hsplit ▸ hnodup
  rw [List.flatten_append] at hparts
  obtain ⟨-, hkeptNodup, hdisjoint⟩ := List.nodup_append.mp hparts
  have hshown : (registry.adopt records (ids records)).generations =
      (latest (snapshots ++ [records])).map ids := by
    unfold Registry.adopt
    rw [hgenerations, latest_append, hmap, List.length_map, List.map_drop]
  refine ⟨hshown, ?_, fun kept hkept record hrecord => ?_, fun id hid => ?_⟩
  · unfold Registry.adopt
    rw [hgenerations]
    exact hkeptNodup
  · -- a retained record is not among the expired ones
    have hretained : record.id ∈ (registry.adopt records (ids records)).generations.flatten := by
      rw [hshown]
      exact List.mem_flatten.mpr ⟨ids kept, List.mem_map_of_mem hkept, List.mem_map_of_mem hrecord⟩
    unfold Registry.adopt at hretained ⊢
    rw [hgenerations] at hretained
    rw [hrecords, if_neg fun hexpired => hdisjoint _ hexpired _ hretained rfl]
    rw [latest_append] at hkept
    rcases List.mem_append.mp (List.mem_of_mem_drop hkept) with hold | hnew
    · rw [foldl_insert_of_notMem]
      · exact h.own kept hold record hrecord
      · intro hnew
        obtain ⟨fresh, hmem, hid⟩ := List.mem_map.mp hnew
        refine hfresh.unknown fresh hmem ?_
        rw [hid, h.generations]
        exact List.mem_flatten.mpr ⟨ids kept, List.mem_map_of_mem hold, List.mem_map_of_mem hrecord⟩
    · obtain rfl := List.mem_singleton.mp hnew
      exact foldl_insert_of_mem hfresh.nodup hrecord
  · unfold Registry.adopt at hid ⊢
    rw [hgenerations] at hid
    rw [hrecords]
    split_ifs with hexpired
    · rfl
    · have hnone : id ∉ (registry.generations ++ [ids records]).flatten := by
        rw [← hsplit, List.flatten_append, List.mem_append, not_or]
        exact ⟨hexpired, hid⟩
      rw [List.flatten_append, List.flatten_singleton, List.mem_append, not_or] at hnone
      rw [foldl_insert_of_notMem hnone.2]
      exact h.other id hnone.1

end Adopt

/-! ### The invariant -/

def Pc.gated : Pc κ π → Bool
  | listing _ | failing .. | listed .. | recording .. | registering .. | committing .. | installing ..
  | leaving _ => true
  | _ => false

def Pc.records : Pc κ π → List (TargetRecord κ)
  | recording _ _ records | registering _ _ records | committing _ records _ | installing records _ =>
    records
  | _ => []

def Pc.staged : Pc κ π → Option π
  | committing _ _ prepared | installing _ prepared => some prepared
  | _ => none

/-- What a platform installs is the registry with the records that were staged. -/
structure Staging.Lawful (P : Staging κ π) : Prop where
  installs : ∀ (registry : Registry κ) records,
    P.commitSnapshot registry (P.prepareSnapshot registry records) = registry.adopt records (ids records)
  describes : ∀ (registry : Registry κ) records,
    P.descriptions (P.prepareSnapshot registry records) = records.map (·.description)

theorem windows_lawful : (Windows.staging : Staging κ _).Lawful := ⟨fun _ _ => rfl, fun _ _ => rfl⟩

theorem macos_lawful : (Macos.staging : Staging κ _).Lawful := ⟨fun _ _ => rfl, fun _ _ => rfl⟩

/-- Every identity of some records was issued by an issuer at `nextTarget`. -/
def Issued (nextTarget : ℕ) (known : List TargetId) : Prop := ∀ id ∈ known, (id.ordinal : ℕ) ≤ nextTarget

theorem Issued.mono {n m : ℕ} {known : List TargetId} (h : Issued n known) (hle : n ≤ m) : Issued m known :=
  fun id hid => (h id hid).trans hle

/-- What a thread inside the gate has in hand. -/
structure Holds (P : Staging κ π) (nextTarget : ℕ) (registry : Registry κ) (pc : Pc κ π) : Prop where
  fresh : Fresh registry pc.records
  issued : Issued nextTarget (ids pc.records)
  staged : ∀ prepared, pc.staged = some prepared → prepared = P.prepareSnapshot registry pc.records

def committed (es : List (Event κ)) : List (List (TargetRecord κ)) :=
  es.filterMap fun
    | .committed records => some records
    | _ => none

def inventories (es : List (Event κ)) : List (List κ) :=
  es.filterMap fun
    | .inventoried candidates => some candidates
    | _ => none

def issues (es : List (Event κ)) : List TargetId :=
  es.filterMap fun
    | .issued id => some id
    | _ => none

theorem committed_snoc (es : List (Event κ)) (e : Event κ) :
    committed (es ++ [e]) = committed es ++ committed [e] := List.filterMap_append

def registryOf (snapshots : List (List (TargetRecord κ))) : Registry κ :=
  snapshots.foldl (fun registry records => registry.adopt records (ids records)) .empty

/-- What holds in every state of a run. -/
structure Inv {τ : Type*} (P : Staging κ π) (es : List (Event κ)) (w : DiscoveryWorld κ π τ) : Prop where
  gate : Mutex.Fits w.shared.discoveryGate fun t => (w.pc t).gated
  registry : w.shared.registry = registryOf (committed es)
  shows : Shows w.shared.registry (committed es)
  issued : Issued w.shared.nextTarget w.shared.registry.generations.flatten
  holds : ∀ t, Holds P w.shared.nextTarget w.shared.registry (w.pc t)

theorem Holds.outside {P : Staging κ π} {nextTarget : ℕ} {registry : Registry κ} {pc : Pc κ π}
    (hrecords : pc.records = []) (hstaged : pc.staged = none) : Holds P nextTarget registry pc := by
  refine ⟨⟨?_, fun record hrecord => ?_⟩, fun id hid => ?_, fun prepared hsome => ?_⟩
  · rw [hrecords]
    exact List.nodup_nil
  · rw [hrecords] at hrecord
    cases hrecord
  · rw [hrecords] at hid
    cases hid
  · rw [hstaged] at hsome
    cases hsome

theorem nextOrdinal_eq_ok {counter next : ℕ} {ordinal : ℕ+} (h : nextOrdinal counter = .ok (ordinal, next)) :
    (ordinal : ℕ) = counter + 1 ∧ next = counter + 1 := by
  unfold nextOrdinal at h
  cases hadd : checkedAdd u64Max counter 1 with
  | none =>
    rw [hadd] at h
    cases h
  | some n =>
    rw [hadd] at h
    obtain ⟨rfl, rfl⟩ := Prod.mk.inj (Except.ok.inj h)
    exact ⟨rfl, (checkedAdd_eq_some.mp hadd).1⟩

section Steps

variable {τ : Type*} {P : Staging κ π} {engine : ℕ+} {provider : String} {t : τ} {s s' : Shared κ τ}
  {pc pc' : Pc κ π} {e : Event κ}

theorem Act.moves (ha : Act P engine provider t s pc e s' pc')
    (hgate : pc.gated = true ↔ s.discoveryGate = some t) :
    Mutex.Move t s.discoveryGate pc.gated s'.discoveryGate pc'.gated := by
  cases ha with
  | enters hfree =>
    rw [hfree]
    exact .lock
  | leaves => exact .unlock _
  | issue => split <;> exact .stay _ _
  | _ => exact .stay _ _

theorem Act.counts (ha : Act P engine provider t s pc e s' pc') : s.nextTarget ≤ s'.nextTarget := by
  cases ha with
  | issuesOther hnext | issue hnext =>
    rw [(nextOrdinal_eq_ok hnext).2]
    exact Nat.le_succ _
  | _ => exact le_rfl

theorem Act.registers (ha : Act P engine provider t s pc e s' pc') (hP : P.Lawful)
    (hholds : Holds P s.nextTarget s.registry pc) :
    (committed [e] = [] ∧ s'.registry = s.registry) ∨
      (pc.gated = true ∧ committed [e] = [pc.records] ∧
        s'.registry = s.registry.adopt pc.records (ids pc.records)) := by
  cases ha with
  | @install records prepared =>
    refine Or.inr ⟨rfl, rfl, ?_⟩
    show P.commitSnapshot s.registry prepared = s.registry.adopt records (ids records)
    rw [hholds.staged prepared rfl]
    exact hP.installs _ _
  | _ => exact Or.inl ⟨rfl, rfl⟩

theorem Act.holds (ha : Act P engine provider t s pc e s' pc')
    (hissued : Issued s.nextTarget s.registry.generations.flatten)
    (hholds : Holds P s.nextTarget s.registry pc) : Holds P s'.nextTarget s'.registry pc' := by
  cases ha with
  | registered | commits => exact ⟨hholds.fresh, hholds.issued, hholds.staged⟩
  | prepare =>
    refine ⟨hholds.fresh, hholds.issued, fun prepared hsome => ?_⟩
    exact (Option.some.inj hsome).symm
  | @issue op candidate candidates records ordinal next hnext =>
    obtain ⟨hordinal, rfl⟩ := nextOrdinal_eq_ok hnext
    have hnew : ∀ {pc : Pc κ π}, pc.records = records ++ [⟨⟨engine, provider, ordinal⟩, candidate⟩] →
        pc.staged = none → Holds P (s.nextTarget + 1) s.registry pc := by
      intro pc hrecords hstaged
      have hold : ∀ id ∈ ids records, (id.ordinal : ℕ) ≤ s.nextTarget := hholds.issued
      refine ⟨⟨?_, fun record hrecord => ?_⟩, fun id hid => ?_, fun prepared hsome => ?_⟩
      · rw [hrecords]
        unfold ids
        rw [List.map_append]
        refine List.nodup_append.mpr ⟨hholds.fresh.nodup, List.pairwise_singleton .., ?_⟩
        intro id hid new hnew hsame
        obtain rfl := List.mem_singleton.mp hnew
        have hle := hold id hid
        rw [hsame] at hle
        simp only at hle
        omega
      · rw [hrecords] at hrecord
        rcases List.mem_append.mp hrecord with hmem | hmem
        · exact hholds.fresh.unknown record hmem
        · obtain rfl := List.mem_singleton.mp hmem
          intro hknown
          have hle := hissued _ hknown
          simp only at hle
          omega
      · rw [hrecords] at hid
        unfold ids at hid
        rw [List.map_append] at hid
        rcases List.mem_append.mp hid with hmem | hmem
        · exact (hold id hmem).trans (Nat.le_succ _)
        · obtain rfl := List.mem_singleton.mp hmem
          exact hordinal.le
      · rw [hstaged] at hsome
        cases hsome
    by_cases hregisters : P.registers = true
    · rw [if_pos hregisters]
      exact hnew rfl rfl
    · rw [if_neg hregisters]
      exact hnew rfl rfl
  | _ => exact Holds.outside rfl rfl

variable [DecidableEq τ] {es : List (Event κ)} {w : DiscoveryWorld κ π τ}

theorem Inv.step (h : Inv P es w) (hP : P.Lawful) (ha : Act P engine provider t w.shared (w.pc t) e s' pc') :
    Inv P (es ++ [e]) (w.move t s' pc') := by
  have hmove := ha.moves (h.gate t)
  have hcount := ha.counts
  have hgate : Mutex.Fits (w.move t s' pc').shared.discoveryGate
      fun u => ((w.move t s' pc').pc u).gated :=
    Mutex.Fits.step (f := Shared.discoveryGate) (b := Pc.gated) h.gate hmove
  have hself := ha.holds h.issued (h.holds t)
  rcases ha.registers hP (h.holds t) with ⟨hquiet, hregistry⟩ | ⟨hgated, hsnapshot, hregistry⟩
  · refine ⟨hgate, ?_, ?_, ?_, World.forall_move w t s' pc' ?_ fun u hu => ?_⟩
    · rw [World.move_shared, hregistry, committed_snoc, hquiet, List.append_nil]
      exact h.registry
    · rw [World.move_shared, hregistry, committed_snoc, hquiet, List.append_nil]
      exact h.shows
    · rw [World.move_shared, hregistry]
      exact h.issued.mono hcount
    · exact hself
    · rw [World.move_shared, hregistry]
      have hu := h.holds u
      exact ⟨hu.fresh, hu.issued.mono hcount, hu.staged⟩
  · have hshows := h.shows.adopt (h.holds t).fresh
    refine ⟨hgate, ?_, ?_, ?_, World.forall_move w t s' pc' ?_ fun u hu => ?_⟩
    · rw [World.move_shared, hregistry, committed_snoc, hsnapshot, h.registry]
      unfold registryOf
      rw [List.foldl_append]
      rfl
    · rw [World.move_shared, hregistry, committed_snoc, hsnapshot]
      exact hshows
    · rw [World.move_shared, hregistry]
      intro id hid
      rw [hshows.generations] at hid
      obtain ⟨generation, hgeneration, hid⟩ := List.mem_flatten.mp hid
      obtain ⟨records, hrecords, rfl⟩ := List.mem_map.mp hgeneration
      rw [latest_append] at hrecords
      rcases List.mem_append.mp (List.mem_of_mem_drop hrecords) with hold | hnew
      · refine (h.issued id ?_).trans hcount
        rw [h.shows.generations]
        exact List.mem_flatten.mpr ⟨_, List.mem_map_of_mem hold, hid⟩
      · obtain rfl := List.mem_singleton.mp hnew
        exact ((h.holds t).issued id hid).trans hcount
    · exact hself
    · -- only the thread inside the gate has something in hand
      have hout : (w.pc u).gated = false := by
        by_contra hne
        exact hu (h.gate.unique (by simpa using hne) hgated)
      cases hpc : w.pc u with
      | idle | admitting | gating | blocked | returning | selecting => exact Holds.outside rfl rfl
      | listing | failing | listed | recording | registering | committing | installing | leaving =>
        rw [hpc] at hout
        cases hout

omit [DecidableEq τ] in
theorem inv_start {nextTarget : ℕ} : Inv P [] (.start κ π τ nextTarget) := by
  refine ⟨.start, rfl, ⟨rfl, List.nodup_nil, ?_, fun _ _ => rfl⟩, ?_, fun _ => .outside rfl rfl⟩
  · intro records hrecords
    cases hrecords
  · intro id hid
    cases hid

theorem inv_along (hP : P.Lawful) {nextTarget : ℕ} {trail : List (DiscoveryWorld κ π τ × (τ × Event κ))}
    (h : (discoverySystem P engine provider τ nextTarget).Path (.start κ π τ nextTarget) trail w) :
    Inv P (events trail) w :=
  threads_along inv_start (fun _ _ _ _ _ _ _ hinv ha => hinv.step hP ha) h

theorem Shows.found {registry : Registry κ} {snapshots : List (List (TargetRecord κ))}
    (h : Shows registry snapshots) {id : TargetId} {record : TargetRecord κ}
    (hfound : registry.lookup id = .ok record) : record.id = id := by
  unfold Registry.lookup at hfound
  cases hrecord : registry.records id with
  | none =>
    rw [hrecord] at hfound
    cases hfound
  | some found =>
    have hknown : id ∈ registry.generations.flatten := by
      by_contra hnone
      rw [h.other id hnone] at hrecord
      cases hrecord
    rw [h.generations] at hknown
    obtain ⟨generation, hgeneration, hid⟩ := List.mem_flatten.mp hknown
    obtain ⟨records, hrecords, rfl⟩ := List.mem_map.mp hgeneration
    obtain ⟨own, hown, rfl⟩ := List.mem_map.mp hid
    rw [h.own records hrecords own hown] at hfound
    rw [Except.ok.inj hfound]

theorem selecting_along (hP : P.Lawful) {nextTarget : ℕ}
    {trail : List (DiscoveryWorld κ π τ × (τ × Event κ))}
    (h : (discoverySystem P engine provider τ nextTarget).Path (.start κ π τ nextTarget) trail w) :
    ∀ t id record, w.pc t = .selecting id record → record.id = id := by
  suffices hboth : Inv P (events trail) w ∧ ∀ t id record, w.pc t = .selecting id record →
      record.id = id from hboth.2
  refine threads_along
    (P := fun es w => Inv P es w ∧ ∀ t id record, w.pc t = .selecting id record → record.id = id)
    ⟨inv_start, fun t id record hpc => by cases hpc⟩
    (fun es w t e s' pc' _ hinv ha => ⟨hinv.1.step hP ha, fun u id record hpc => ?_⟩) h
  · by_cases hu : u = t
    · subst hu
      rw [World.move_pc_self] at hpc
      generalize w.pc u = pc at ha
      cases ha with
      | finds _ hfound =>
        obtain ⟨rfl, rfl⟩ := Pc.selecting.inj hpc
        exact hinv.1.shows.found hfound
      | issue => split_ifs at hpc
      | _ => cases hpc
    · rw [World.move_pc_of_ne _ _ _ _ hu] at hpc
      exact hinv.2 u id record hpc

end Steps

/-! ### One call -/

/-- Some records are those of the whole inventory that the call listed, in its order, under the
identities that the call was issued. -/
def Whole (es : List (Event κ)) (records : List (TargetRecord κ)) : Prop :=
  inventories es = [records.map (·.candidate)] ∧ issues es = (ids records).reverse

/-- What a discovery has listed, been issued and committed so far, and what it is about to return. -/
def CallTells (P : Staging κ π) (es : List (Event κ)) : Pc κ π → Prop
  | .leaving (.ok descriptions) | .returning (.ok descriptions) =>
    ∃ records, committed es = [records] ∧ Whole es records ∧ descriptions = records.map (·.description)
  | .committing _ records prepared | .installing records prepared =>
    committed es = [] ∧ Whole es records ∧ P.descriptions prepared = records.map (·.description)
  | .recording _ candidates records | .registering _ candidates records =>
    committed es = [] ∧ inventories es = [records.map (·.candidate) ++ candidates] ∧
      issues es = (ids records).reverse
  | .listed _ candidates => committed es = [] ∧ inventories es = [candidates] ∧ issues es = []
  | .failing .. | .leaving (.error _) | .returning (.error _) => committed es = []
  | _ => committed es = [] ∧ inventories es = [] ∧ issues es = []

section Law

variable {τ : Type*} {P : Staging κ π} {engine : ℕ+} {provider : String}

theorem CallTells.step {t : τ} {s s' : Shared κ τ} {pc pc' : Pc κ π} {e : Event κ} {es : List (Event κ)}
    (hP : P.Lawful) (ha : Act P engine provider t s pc e s' pc') (h : CallTells P es pc) :
    CallTells P (if e.ends then [] else e :: es) pc' := by
  cases ha with
  | inventory candidates => exact ⟨h.1, congrArg (candidates :: ·) h.2.1, h.2.2⟩
  | continues => exact ⟨h.1, h.2.1, h.2.2⟩
  | @prepare op records =>
    obtain ⟨hnone, hlisted, hissued⟩ := h
    rw [List.append_nil] at hlisted
    exact ⟨hnone, ⟨hlisted, hissued⟩, hP.describes _ _⟩
  | @install records prepared => exact ⟨records, congrArg (records :: ·) h.1, h.2.1, h.2.2⟩
  | @leaves result => cases result <;> exact h
  | @issue op candidate candidates records ordinal next =>
    have hnew : ∀ record : TargetRecord κ, record.candidate = candidate →
        committed (.issued record.id :: es) = [] ∧
        inventories (.issued record.id :: es) =
          [(records ++ [record]).map (·.candidate) ++ candidates] ∧
        issues (.issued record.id :: es) = (ids (records ++ [record])).reverse := by
      rintro record rfl
      refine ⟨h.1, h.2.1.trans ?_, (congrArg (_ :: ·) h.2.2).trans ?_⟩
      · rw [List.map_append, List.append_assoc]
        rfl
      · unfold ids
        rw [List.map_append, List.reverse_append]
        rfl
    by_cases hregisters : P.registers = true
    · rw [if_pos hregisters]
      exact hnew ⟨⟨engine, provider, ordinal⟩, candidate⟩ rfl
    · rw [if_neg hregisters]
      exact hnew ⟨⟨engine, provider, ordinal⟩, candidate⟩ rfl
  | refused | expires | inventoryFails | late | exhausted | registerFails | interrupted => exact h.1
  | returns => exact ⟨rfl, rfl, rfl⟩
  | _ => exact h

variable [DecidableEq τ] {nextTarget : ℕ} {trail : List (DiscoveryWorld κ π τ × (τ × Event κ))}
  {w : DiscoveryWorld κ π τ}

theorem callTells_along (hP : P.Lawful)
    (h : (discoverySystem P engine provider τ nextTarget).Path (.start κ π τ nextTarget) trail w) (t : τ) :
    CallTells P (current Event.ends (own t trail)) (w.pc t) := by
  refine calls_along (P := fun _ pc es => CallTells P es pc) (fun u => ?_)
    (fun _ _ _ _ _ _ _ ha htells => htells.step hP ha) (fun _ _ _ _ _ _ _ _ _ htells => htells) h t
  exact ⟨rfl, rfl, rfl⟩

structure DiscoveryLaw (P : Staging κ π) (engine : ℕ+) (provider : String) (nextTarget : ℕ)
    (trail : List (DiscoveryWorld κ π τ × (τ × Event κ))) (w : DiscoveryWorld κ π τ) : Prop where
  /-- The registry is what the committed snapshots make of it, one after another. -/
  registry : w.shared.registry = registryOf (committed (events trail))
  /-- A step that commits no snapshot leaves the registry. -/
  quiet : ∀ t e w', (discoverySystem P engine provider τ nextTarget).step w (t, e) w' →
    committed [e] = [] → w'.shared.registry = w.shared.registry
  /-- A snapshot is committed whole: it has the targets that the discovery listed, all of them in
  order, under the identities that it was issued. -/
  whole : ∀ t records w', (discoverySystem P engine provider τ nextTarget).step w
      (t, .committed records) w' → Whole (current Event.ends (own t trail)) records
  /-- A discovery that succeeds has committed one snapshot, of the whole of its inventory, and returns
  what that holds. -/
  succeeded : ∀ t descriptions w', (discoverySystem P engine provider τ nextTarget).step w
      (t, .returned (.ok descriptions)) w' →
    ∃ records, committed (current Event.ends (own t trail)) = [records] ∧
      Whole (current Event.ends (own t trail)) records ∧ descriptions = records.map (·.description)
  /-- A discovery that fails or is interrupted has committed none. -/
  failed : ∀ t error w', (discoverySystem P engine provider τ nextTarget).step w
      (t, .returned (.error error)) w' → committed (current Event.ends (own t trail)) = []
  /-- Two generations are retained, and they are those of the last two snapshots. -/
  retained : w.shared.registry.generations.length ≤ 2 ∧
    w.shared.registry.generations = (latest (committed (events trail))).map ids
  /-- The recorded targets are the retained ones, and none is in two generations. -/
  recorded : w.shared.registry.generations.flatten.Nodup ∧
    ∀ id, (w.shared.registry.records id).isSome ↔ ∃ generation ∈ w.shared.registry.generations,
      id ∈ generation
  /-- A target of the last two snapshots is looked up. -/
  own : ∀ records ∈ latest (committed (events trail)), ∀ record ∈ records,
    w.shared.registry.lookup record.id = .ok record
  /-- Every other target is lost. -/
  other : ∀ id, (∀ records ∈ latest (committed (events trail)), ∀ record ∈ records, record.id ≠ id) →
    w.shared.registry.lookup id = .error .targetLost
  /-- What a lookup shows is what the registry says. -/
  looked : ∀ t id result w', (discoverySystem P engine provider τ nextTarget).step w
      (t, .looked id result) w' → result = w.shared.registry.lookup id
  /-- A selection that passes the last check is of the target that was asked for. -/
  selected : ∀ t id record w', (discoverySystem P engine provider τ nextTarget).step w
      (t, .selected id (.ok record)) w' → record.id = id

theorem discovery_law (hP : P.Lawful)
    (h : (discoverySystem P engine provider τ nextTarget).Path (.start κ π τ nextTarget) trail w) :
    DiscoveryLaw P engine provider nextTarget trail w := by
  have hinv := inv_along hP h
  have hown : ∀ records ∈ latest (committed (events trail)), ∀ record ∈ records,
      w.shared.registry.records record.id = some record := hinv.shows.own
  have hmem : ∀ id, id ∈ w.shared.registry.generations.flatten ↔
      ∃ records ∈ latest (committed (events trail)), ∃ record ∈ records, record.id = id := by
    intro id
    rw [hinv.shows.generations, List.mem_flatten]
    constructor
    · rintro ⟨generation, hgeneration, hid⟩
      obtain ⟨records, hrecords, rfl⟩ := List.mem_map.mp hgeneration
      obtain ⟨record, hrecord, rfl⟩ := List.mem_map.mp hid
      exact ⟨records, hrecords, record, hrecord, rfl⟩
    · rintro ⟨records, hrecords, record, hrecord, rfl⟩
      exact ⟨ids records, List.mem_map_of_mem hrecords, List.mem_map_of_mem hrecord⟩
  refine ⟨hinv.registry, ?_, ?_, ?_, ?_, ⟨?_, hinv.shows.generations⟩, ⟨hinv.shows.apart, fun id => ?_⟩,
    fun records hrecords record hrecord => ?_, fun id hid => ?_, ?_, ?_⟩
  · rintro t e w' ⟨s', pc', ha, rfl⟩ hquiet
    rcases ha.registers hP (hinv.holds t) with ⟨-, hsame⟩ | ⟨-, hsnapshot, -⟩
    · exact hsame
    · rw [hquiet] at hsnapshot
      cases hsnapshot
  · rintro t records w' ⟨s', pc', ha, -⟩
    have htells := callTells_along hP h t
    generalize w.pc t = pc at ha htells
    cases ha
    exact htells.2.1
  · rintro t descriptions w' ⟨s', pc', ha, -⟩
    have htells := callTells_along hP h t
    generalize w.pc t = pc at ha htells
    cases ha
    exact htells
  · rintro t error w' ⟨s', pc', ha, -⟩
    have htells := callTells_along hP h t
    generalize w.pc t = pc at ha htells
    cases ha
    exact htells
  · rw [hinv.shows.generations, List.length_map]
    unfold latest retainedDiscoveryGenerations
    rw [List.length_drop]
    omega
  · rw [← List.mem_flatten]
    constructor
    · intro hsome
      by_contra hnone
      rw [hinv.shows.other id hnone] at hsome
      cases hsome
    · intro hknown
      obtain ⟨records, hrecords, record, hrecord, rfl⟩ := (hmem id).mp hknown
      rw [hown records hrecords record hrecord]
      rfl
  · unfold Registry.lookup
    rw [hown records hrecords record hrecord]
  · have hnone : id ∉ w.shared.registry.generations.flatten := by
      intro hknown
      obtain ⟨records, hrecords, record, hrecord, hsame⟩ := (hmem id).mp hknown
      exact hid records hrecords record hrecord hsame
    unfold Registry.lookup
    rw [hinv.shows.other id hnone]
  · rintro t id result w' ⟨s', pc', ha, -⟩
    generalize w.pc t = pc at ha
    cases ha with
    | finds _ hfound => exact hfound.symm
    | misses _ hmissed => exact hmissed.symm
  · rintro t id record w' ⟨s', pc', ha, -⟩
    have hselecting := selecting_along hP h t
    generalize w.pc t = pc at ha hselecting
    generalize hresult : Except.ok record = result at ha
    cases ha with
    | @selects _ found live =>
      unfold TargetRecord.ensureLive at hresult
      split_ifs at hresult
      rw [Except.ok.inj hresult]
      exact hselecting id found rfl

end Law

/-- **The discovery registry is atomic and two generations deep.**  Every run of the threads of a
provider keeps the law on both platforms, and runs that commit the same snapshots leave the same
registry. -/
theorem discovery_registry {κ τ : Type} [DecidableEq τ] (engine : ℕ+) (provider : String)
    (nextTarget : ℕ) :
    (∀ trail (w : DiscoveryWorld κ (Windows.PreparedSnapshot κ) τ),
      (discoverySystem Windows.staging engine provider τ nextTarget).Path (.start κ _ τ nextTarget) trail w →
        DiscoveryLaw Windows.staging engine provider nextTarget trail w) ∧
    (∀ trail (w : DiscoveryWorld κ (Macos.PreparedSnapshot κ) τ),
      (discoverySystem Macos.staging engine provider τ nextTarget).Path (.start κ _ τ nextTarget) trail w →
        DiscoveryLaw Macos.staging engine provider nextTarget trail w) ∧
    ∀ trail (w : DiscoveryWorld κ (Windows.PreparedSnapshot κ) τ) trail'
      (w' : DiscoveryWorld κ (Macos.PreparedSnapshot κ) τ),
      (discoverySystem Windows.staging engine provider τ nextTarget).Path (.start κ _ τ nextTarget) trail w →
      (discoverySystem Macos.staging engine provider τ nextTarget).Path (.start κ _ τ nextTarget) trail' w' →
      committed (events trail) = committed (events trail') → w.shared.registry = w'.shared.registry := by
  refine ⟨fun _ _ h => discovery_law windows_lawful h, fun _ _ h => discovery_law macos_lawful h, ?_⟩
  intro trail w trail' w' h h' hsame
  rw [(discovery_law windows_lawful h).registry, (discovery_law macos_lawful h').registry, hsame]

/-! ### Three discoveries -/

section Sample

def sampleRecord (n : ℕ) : TargetRecord ℕ := ⟨⟨firstOrdinal, "provider", n.succPNat⟩, n⟩

theorem solo_discovers (P : Staging ℕ π) {s : Shared ℕ Unit} (hfree : s.discoveryGate = none)
    (hnext : s.nextTarget < u64Max) :
    ∃ es s', Solo (Act P firstOrdinal "provider") () s .idle es s' .idle ∧ s'.discoveryGate = none ∧
      s'.nextTarget = s.nextTarget + 1 ∧ committed es = [[sampleRecord s.nextTarget]] ∧
      inventories es = [[s.nextTarget]] := by
  have hordinal : nextOrdinal s.nextTarget = .ok (s.nextTarget.succPNat, s.nextTarget + 1) := by
    unfold nextOrdinal
    rw [checkedAdd_eq_some.mpr ⟨rfl, hnext⟩]
  have hlists : Solo (Act P firstOrdinal "provider") () s .idle
      [.silent, .consulted none, .silent, .inventoried [s.nextTarget], .consulted none] _
      (.recording ⟨none⟩ [s.nextTarget] []) :=
    .cons .call <| .cons (.admitted none rfl) <| .cons (.enters hfree) <| .cons (.inventory _) <|
      .cons (.continues none rfl) <| .nil ..
  have hcommits : ∀ s : Shared ℕ Unit, ∀ record, Solo (Act P firstOrdinal "provider") () s
      (.recording ⟨none⟩ [] [record])
      [.silent, .consulted none, .committed [record], .silent, .returned _] _ .idle := fun s record =>
    .cons .prepare <| .cons (.commits none rfl) <| .cons .install <| .cons .leaves <|
      .cons .returns <| .nil ..
  have hissues : ∃ es, Solo (Act P firstOrdinal "provider") () { s with discoveryGate := some () }
      (.recording ⟨none⟩ [s.nextTarget] []) es
      { s with nextTarget := s.nextTarget + 1, discoveryGate := some () }
      (.recording ⟨none⟩ [] [sampleRecord s.nextTarget]) ∧ committed es = [] ∧ inventories es = [] := by
    have hissue := @Act.issue ℕ π Unit P firstOrdinal "provider" () { s with discoveryGate := some () }
      ⟨none⟩ s.nextTarget [] [] _ _ hordinal
    by_cases hregisters : P.registers = true
    · rw [if_pos hregisters] at hissue
      exact ⟨[.issued (sampleRecord s.nextTarget).id, .silent],
        .cons hissue (.cons .registered (.nil ..)), rfl, rfl⟩
    · rw [if_neg hregisters] at hissue
      exact ⟨[.issued (sampleRecord s.nextTarget).id], .cons hissue (.nil ..), rfl, rfl⟩
  obtain ⟨es, hissues, hnone, hnone'⟩ := hissues
  refine ⟨_, _, (hlists.append hissues).append (hcommits _ _), rfl, rfl, ?_, ?_⟩
  · unfold committed at hnone ⊢
    rw [List.filterMap_append, List.filterMap_append, hnone]
    rfl
  · unfold inventories at hnone' ⊢
    rw [List.filterMap_append, List.filterMap_append, hnone']
    rfl

theorem three_discoveries (P : Staging ℕ π) :
    ∃ (trail : List (DiscoveryWorld ℕ π Unit × (Unit × Event ℕ))) (w : DiscoveryWorld ℕ π Unit),
      (discoverySystem P firstOrdinal "provider" Unit 0).Path (.start ℕ π Unit 0) trail w ∧
      committed (events trail) = [[sampleRecord 0], [sampleRecord 1], [sampleRecord 2]] ∧
      inventories (events trail) = [[0], [1], [2]] := by
  obtain ⟨es₁, s₁, h₁, hfree₁, hnext₁, hc₁, hi₁⟩ := solo_discovers P
    (s := (DiscoveryWorld.start ℕ π Unit 0).shared) rfl (show 0 < u64Max by decide)
  obtain ⟨es₂, s₂, h₂, hfree₂, hnext₂, hc₂, hi₂⟩ := solo_discovers P hfree₁
    (hnext₁ ▸ show 1 < u64Max by decide)
  obtain ⟨es₃, s₃, h₃, hfree₃, hnext₃, hc₃, hi₃⟩ := solo_discovers P hfree₂
    (hnext₂ ▸ hnext₁ ▸ show 2 < u64Max by decide)
  obtain ⟨trail, hpath, hevents⟩ := ((h₁.append h₂).append h₃).path
    (.nil (DiscoveryWorld.start ℕ π Unit 0)) rfl rfl
  refine ⟨trail, _, hpath, ?_, ?_⟩
  · rw [hevents]
    unfold committed at hc₁ hc₂ hc₃ ⊢
    rw [events, List.map_nil, List.nil_append, List.filterMap_append, List.filterMap_append, hc₁, hc₂, hc₃,
      hnext₂, hnext₁]
    rfl
  · rw [hevents]
    unfold inventories at hi₁ hi₂ hi₃ ⊢
    rw [events, List.map_nil, List.nil_append, List.filterMap_append, List.filterMap_append, hi₁, hi₂, hi₃,
      hnext₂, hnext₁]
    rfl

/-- **Three snapshots on each platform**: the targets of the last two are looked up, and that of the
first is lost. -/
theorem discovery_registry_sample :
    ∃ (trail : List (DiscoveryWorld ℕ (Windows.PreparedSnapshot ℕ) Unit × (Unit × Event ℕ)))
      (w : DiscoveryWorld ℕ (Windows.PreparedSnapshot ℕ) Unit)
      (trail' : List (DiscoveryWorld ℕ (Macos.PreparedSnapshot ℕ) Unit × (Unit × Event ℕ)))
      (w' : DiscoveryWorld ℕ (Macos.PreparedSnapshot ℕ) Unit),
      inventories (events trail) = [[0], [1], [2]] ∧ inventories (events trail') = [[0], [1], [2]] ∧
      (∀ n, n = 1 ∨ n = 2 → w.shared.registry.lookup (sampleRecord n).id = .ok (sampleRecord n)) ∧
      w.shared.registry.lookup (sampleRecord 0).id = .error .targetLost ∧
      w.shared.registry.generations = [[(sampleRecord 1).id], [(sampleRecord 2).id]] ∧
      w.shared.registry = w'.shared.registry := by
  obtain ⟨trail, w, hpath, hsnapshots, hlisted⟩ := three_discoveries (@Windows.staging ℕ)
  obtain ⟨trail', w', hpath', hsnapshots', hlisted'⟩ := three_discoveries (@Macos.staging ℕ)
  obtain ⟨hwindows, -, hsame⟩ := @discovery_registry ℕ Unit _ firstOrdinal "provider" 0
  have law := hwindows trail w hpath
  have hlatest : latest (committed (events trail)) = [[sampleRecord 1], [sampleRecord 2]] := by
    rw [hsnapshots]
    rfl
  refine ⟨trail, w, trail', w', hlisted, hlisted', ?_, law.other _ ?_, ?_,
    hsame trail w trail' w' hpath hpath' (hsnapshots.trans hsnapshots'.symm)⟩
  · rintro n hn
    refine law.own [sampleRecord n] ?_ _ List.mem_cons_self
    rw [hlatest]
    rcases hn with rfl | rfl <;> simp
  · rw [hlatest]
    decide
  · rw [law.retained.2, hlatest]
    rfl

end Sample

end MadoPilot.Platform.Discovery
