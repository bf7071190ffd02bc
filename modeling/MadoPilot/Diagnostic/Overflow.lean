import MadoPilot.Diagnostic.StreamLaw
import MadoPilot.Lib.Recent

/-!
# What a full diagnostic stream retains

A full queue gives up its oldest debug record, and a normal one only where there is no other.  Over
any order of emissions this comes to quotas: the normal level has the whole capacity, and the debug
level what the normal emissions leave of it.

* `insert_cases` : the four ways an emission goes;
* `Filled`, `Filled.insert` : the queue holds the recent emissions under the quotas, and the others
  are counted as lost;
* `overflow_policy` : what a drain hands out of the emissions since the drain before it.
-/

namespace MadoPilot.Diagnostic

open MadoPilot.Core MadoPilot.Lib

variable {π : Type}

def DiagnosticRecord.emission (r : DiagnosticRecord π) : DiagnosticLevel × π := (r.level, r.observed)

def emitted (level : DiagnosticLevel) (es : List (DiagnosticLevel × π)) : ℕ :=
  es.countP fun e => e.1 = level

def places (normal debug : ℕ) : DiagnosticLevel → ℕ
  | .off => 0
  | .normal => normal
  | .debug => debug

@[simp] theorem places_normal (normal debug : ℕ) : places normal debug .normal = normal := rfl

@[simp] theorem places_debug (normal debug : ℕ) : places normal debug .debug = debug := rfl

/-- The places of a queue after some emissions. -/
def quota (capacity : ℕ) (es : List (DiagnosticLevel × π)) : DiagnosticLevel → ℕ :=
  places capacity (capacity - emitted .normal es)

/-! ### One emission -/

namespace StreamState

variable {s s' : StreamState π} {capacity : ℕ} {level : DiagnosticLevel} {observed : π}

def evict (s : StreamState π) (p : DiagnosticRecord π → Bool) (level : DiagnosticLevel) :
    StreamState π :=
  { s with records := s.records.eraseP p, losses := s.losses.increment level }

theorem append_records (s : StreamState π) (level : DiagnosticLevel) (observed : π)
    (hnext : s.nextRecord ≠ 0) :
    (s.append level observed).records = s.records ++ [⟨s.nextRecord, level, observed⟩] ∧
      (s.append level observed).losses = s.losses := by
  unfold append
  rw [if_neg hnext]
  exact ⟨rfl, rfl⟩

theorem remove_find (level : DiagnosticLevel) {p : DiagnosticRecord π → Bool} {index : ℕ}
    (hfind : s.records.findIdx? p = some index) (hlevel : ∀ r, p r = true → r.level = level) :
    s.remove index = some (s.evict p level) := by
  obtain ⟨hlt, hp, -⟩ := List.findIdx?_eq_some_iff_getElem.mp hfind
  unfold remove evict
  rw [List.getElem?_eq_getElem hlt, Option.map_some, hlevel _ hp, List.eraseP_eq_eraseIdx, hfind]

/-- **The ways of an emission.**  There is room, or a debug record goes, or, without one, a normal
record goes for a normal emission and a debug emission is lost. -/
theorem insert_cases (hlevel : level ≠ .off) (hcapacity : 0 < capacity)
    (hlevels : ∀ r ∈ s.records, r.level ≠ .off) (h : s.insert capacity level observed = some s') :
    s.records.length ≠ capacity ∧ s' = s.append level observed ∨
    s.records.length = capacity ∧ (∃ r ∈ s.records, r.level = .debug) ∧
      s' = (s.evict (·.level == .debug) .debug).append level observed ∨
    s.records.length = capacity ∧ (∀ r ∈ s.records, r.level = .normal) ∧ level = .normal ∧
      s' = (s.evict (·.level == .normal) .normal).append level observed ∨
    s.records.length = capacity ∧ (∀ r ∈ s.records, r.level = .normal) ∧ level = .debug ∧
      s' = { s with losses := s.losses.increment .debug } := by
  unfold insert at h
  by_cases hfull : s.records.length = capacity
  · rw [if_pos hfull] at h
    cases hfind : s.records.findIdx? (·.level == .debug) with
    | some index =>
      have hremove := remove_find .debug hfind fun r hr => by simpa using hr
      obtain ⟨hlt, hdebug, -⟩ := List.findIdx?_eq_some_iff_getElem.mp hfind
      rw [hfind] at h
      refine Or.inr (Or.inl ⟨hfull, ⟨_, List.getElem_mem hlt, by simpa using hdebug⟩, ?_⟩)
      cases level with
      | off => exact absurd rfl hlevel
      | normal =>
        simp only [Option.getD_some, hremove, Option.map_some, Option.some.injEq] at h
        exact h.symm
      | debug =>
        simp only [hremove, Option.map_some, Option.some.injEq] at h
        exact h.symm
    | none =>
      have hnormal : ∀ r ∈ s.records, r.level = .normal := fun r hr => by
        have hdebug := List.findIdx?_eq_none_iff.mp hfind r hr
        have henabled := hlevels r hr
        revert hdebug henabled
        cases r.level <;> simp
      rw [hfind] at h
      cases level with
      | off => exact absurd rfl hlevel
      | normal =>
        have hfirst : s.records.findIdx? (·.level == .normal) = some 0 := by
          cases hrecords : s.records with
          | nil =>
            rw [hrecords, List.length_nil] at hfull
            omega
          | cons r rest =>
            rw [List.findIdx?_cons, hnormal r (by rw [hrecords]; exact List.mem_cons_self)]
            rfl
        have hremove := remove_find .normal hfirst fun r hr => by simpa using hr
        simp only [Option.getD_none, hremove, Option.map_some, Option.some.injEq] at h
        exact Or.inr (Or.inr (Or.inl ⟨hfull, hnormal, rfl, h.symm⟩))
      | debug => exact Or.inr (Or.inr (Or.inr ⟨hfull, hnormal, rfl, (Option.some.inj h).symm⟩))
  · rw [if_neg hfull] at h
    exact Or.inl ⟨hfull, (Option.some.inj h).symm⟩

end StreamState

/-! ### Every order of emissions -/

section Emissions

variable {es : List (DiagnosticLevel × π)} {level : DiagnosticLevel} {observed : π} {capacity : ℕ}

theorem length_eq_emitted (h : ∀ e ∈ es, e.1 ≠ .off) :
    es.length = emitted .normal es + emitted .debug es := by
  induction es with
  | nil => rfl
  | cons e es ih =>
    have henabled := h e List.mem_cons_self
    have hrest := ih fun e' he' => h e' (List.mem_cons_of_mem _ he')
    unfold emitted at hrest ⊢
    rw [List.length_cons, countP_key_cons, countP_key_cons, hrest]
    cases hlevel : e.1 with
    | off => exact absurd hlevel henabled
    | normal => simp; omega
    | debug => simp; omega

theorem emitted_concat (other : DiagnosticLevel) : emitted other (es ++ [(level, observed)]) =
    emitted other es + if level = other then 1 else 0 := by
  unfold emitted
  rw [List.countP_append, countP_key_cons, List.countP_nil, Nat.zero_add]

/-- **The state of a queue after some emissions**, since it was empty. -/
structure Filled (capacity : ℕ) (es : List (DiagnosticLevel × π)) (s : StreamState π) : Prop where
  enabled : ∀ e ∈ es, e.1 ≠ .off
  records : s.records.map DiagnosticRecord.emission = recent Prod.fst (quota capacity es) es
  losses : ∀ level, level ≠ .off → s.losses.get level =
    min (emitted level es - quota capacity es level) u64Max

variable {s s' : StreamState π}

theorem Filled.levels (h : Filled capacity es s) : ∀ r ∈ s.records, r.level ≠ .off := by
  intro r hr
  have hmem : r.emission ∈ recent Prod.fst (quota capacity es) es :=
    h.records ▸ List.mem_map_of_mem hr
  exact h.enabled _ ((recent_sublist ..).subset hmem)

theorem Filled.count (h : Filled capacity es s) (level : DiagnosticLevel) :
    (s.records.countP fun r => r.level = level) = min (emitted level es) (quota capacity es level) := by
  have hcount := count_recent Prod.fst (quota capacity es) es level
  rw [← h.records, List.countP_map] at hcount
  exact hcount

theorem Filled.length (h : Filled capacity es s) : s.records.length =
    min (emitted .normal es) capacity + min (emitted .debug es) (capacity - emitted .normal es) := by
  have henabled : ∀ e ∈ s.records.map DiagnosticRecord.emission, e.1 ≠ .off := by
    intro e he
    rw [h.records] at he
    exact h.enabled e ((recent_sublist ..).subset he)
  have hlength := length_eq_emitted henabled
  rw [List.length_map] at hlength
  rw [hlength, h.records]
  unfold emitted
  rw [count_recent, count_recent]
  rfl

theorem increment_get_min {l : DiagnosticLosses} {n : ℕ} (hlevel : level ≠ .off)
    (h : l.get level = min n u64Max) (other : DiagnosticLevel) :
    (l.increment level).get other = if level = other then min (n + 1) u64Max else l.get other := by
  cases level with
  | off => exact absurd rfl hlevel
  | normal =>
    have hn : l.normal = min n u64Max := h
    cases other with
    | normal =>
      show saturatingAdd u64Max l.normal 1 = _
      rw [if_pos rfl, hn]
      unfold saturatingAdd
      omega
    | off => rfl
    | debug => rfl
  | debug =>
    have hn : l.debug = min n u64Max := h
    cases other with
    | debug =>
      show saturatingAdd u64Max l.debug 1 = _
      rw [if_pos rfl, hn]
      unfold saturatingAdd
      omega
    | off => rfl
    | normal => rfl

theorem map_evict (victim : DiagnosticLevel) (records : List (DiagnosticRecord π)) :
    (records.eraseP (·.level == victim)).map DiagnosticRecord.emission =
      (records.map DiagnosticRecord.emission).eraseP fun e => e.1 = victim := by
  have hsame : (fun r : DiagnosticRecord π => r.level == victim) =
      (fun e : DiagnosticLevel × π => decide (e.1 = victim)) ∘ DiagnosticRecord.emission := by
    funext r
    rw [Bool.eq_iff_iff, beq_iff_eq]
    exact decide_eq_true_iff.symm
  rw [List.eraseP_map, hsame]

theorem emitted_off (h : ∀ e ∈ es, e.1 ≠ .off) : emitted .off es = 0 :=
  List.countP_eq_zero.mpr fun e he => by simpa using h e he

theorem enabled_concat (h : ∀ e ∈ es, e.1 ≠ .off) (hlevel : level ≠ .off) :
    ∀ e ∈ es ++ [(level, observed)], e.1 ≠ .off := by
  intro e he
  rcases List.mem_append.mp he with he | he
  · exact h e he
  · obtain rfl := List.mem_singleton.mp he
    exact hlevel

theorem quota_concat (k : DiagnosticLevel) : quota capacity (es ++ [(level, observed)]) k =
    places capacity (capacity - (emitted .normal es + if level = .normal then 1 else 0)) k := by
  unfold quota
  rw [emitted_concat]

theorem recent_quota_concat {normal debug : ℕ}
    (h : ∀ k, quota capacity (es ++ [(level, observed)]) k =
      places normal debug k + if k = level then 1 else 0) :
    recent Prod.fst (quota capacity (es ++ [(level, observed)])) (es ++ [(level, observed)]) =
      recent Prod.fst (places normal debug) es ++ [(level, observed)] := by
  refine recent_concat ?_ fun k hk => ?_
  · rw [h, if_pos rfl]
  · rw [h, if_neg hk, Nat.add_zero]

theorem Filled.room (h : Filled capacity es s) (hlevel : level ≠ .off) (hnext : s.nextRecord ≠ 0)
    (hroom : s.records.length ≠ capacity) :
    Filled capacity (es ++ [(level, observed)]) (s.append level observed) := by
  have hlength := h.length
  have hfits : emitted .normal es + emitted .debug es < capacity := by omega
  have hbefore : ∀ k, emitted k es ≤ quota capacity es k := by
    intro k
    unfold quota
    cases k with
    | off => rw [emitted_off h.enabled]; exact Nat.zero_le _
    | normal => rw [places_normal]; omega
    | debug => rw [places_debug]; omega
  have hafter : ∀ k, emitted k (es ++ [(level, observed)]) ≤
      quota capacity (es ++ [(level, observed)]) k := by
    intro k
    rw [quota_concat]
    cases k with
    | off => rw [emitted_off (enabled_concat h.enabled hlevel)]; exact Nat.zero_le _
    | normal => rw [emitted_concat, places_normal]; split <;> omega
    | debug =>
      rw [emitted_concat, places_debug]
      cases level with
      | off => exact absurd rfl hlevel
      | normal => simp; omega
      | debug => simp; omega
  obtain ⟨hrecords, hlosses⟩ := s.append_records level observed hnext
  refine ⟨enabled_concat h.enabled hlevel, ?_, fun other hother => ?_⟩
  · rw [hrecords, List.map_append, h.records, recent_of_le hafter, recent_of_le hbefore]
    rfl
  · have hnone := h.losses other hother
    rw [Nat.sub_eq_zero_of_le (hbefore other)] at hnone
    rw [hlosses, hnone, Nat.sub_eq_zero_of_le (hafter other)]

theorem Filled.evict (h : Filled capacity es s) (hlevel : level ≠ .off) (hnext : s.nextRecord ≠ 0)
    {victim : DiagnosticLevel} (hvictim : victim ≠ .off)
    (hrecent : recent Prod.fst (quota capacity (es ++ [(level, observed)])) (es ++ [(level, observed)]) =
      ((recent Prod.fst (quota capacity es) es).eraseP fun e => e.1 = victim) ++ [(level, observed)])
    (hlost : ∀ k, k ≠ .off →
      emitted k (es ++ [(level, observed)]) - quota capacity (es ++ [(level, observed)]) k =
        emitted k es - quota capacity es k + if victim = k then 1 else 0) :
    Filled capacity (es ++ [(level, observed)])
      ((s.evict (·.level == victim) victim).append level observed) := by
  obtain ⟨hrecords, hlosses⟩ :=
    (s.evict (·.level == victim) victim).append_records level observed hnext
  refine ⟨enabled_concat h.enabled hlevel, ?_, fun other hother => ?_⟩
  · rw [hrecords, List.map_append, hrecent, ← h.records]
    exact congrArg (· ++ _) (map_evict victim s.records)
  · rw [hlosses, hlost other hother]
    show (s.losses.increment victim).get other = _
    rw [increment_get_min hvictim (h.losses victim hvictim)]
    split
    · rename_i hsame
      rw [hsame]
    · rw [Nat.add_zero]
      exact h.losses other hother

theorem Filled.evictDebug (h : Filled capacity es s) (hlevel : level ≠ .off)
    (hnext : s.nextRecord ≠ 0) (hfull : s.records.length = capacity)
    (hdebug : ∃ r ∈ s.records, r.level = .debug) :
    Filled capacity (es ++ [(level, observed)])
      ((s.evict (·.level == .debug) .debug).append level observed) := by
  have hlength := h.length
  obtain ⟨r, hr, hdebug⟩ := hdebug
  have hpos : 0 < s.records.countP fun r => r.level = .debug :=
    List.countP_pos_iff.mpr ⟨r, hr, by simpa using hdebug⟩
  rw [h.count .debug] at hpos
  have hquota : quota capacity es .debug = capacity - emitted .normal es := rfl
  rw [hquota] at hpos
  have herase : recent Prod.fst (places capacity (capacity - emitted .normal es - 1)) es =
      (recent Prod.fst (quota capacity es) es).eraseP fun e => e.1 = .debug := by
    refine recent_erase ?_ (fun k hk => ?_) ?_
    · rw [hquota, places_debug]
      omega
    · cases k with
      | debug => exact absurd rfl hk
      | off => rfl
      | normal => rfl
    · show capacity - emitted .normal es ≤ emitted .debug es
      omega
  refine h.evict hlevel hnext (by decide) ?_ fun k hk => ?_
  · rw [← herase]
    cases level with
    | off => exact absurd rfl hlevel
    | debug =>
      refine recent_quota_concat fun k => ?_
      rw [quota_concat]
      cases k with
      | off => rfl
      | normal => rfl
      | debug => simp; omega
    | normal =>
      have hspare : recent Prod.fst (places capacity (capacity - emitted .normal es - 1)) es =
          recent Prod.fst (places (capacity - 1) (capacity - emitted .normal es - 1)) es := by
        refine recent_congr fun k => ?_
        cases k with
        | off => rfl
        | debug => rfl
        | normal =>
          show min (emitted .normal es) capacity = min (emitted .normal es) (capacity - 1)
          omega
      rw [hspare]
      refine recent_quota_concat fun k => ?_
      rw [quota_concat]
      cases k with
      | off => rfl
      | normal => simp; omega
      | debug => simp; omega
  · rw [emitted_concat, quota_concat]
    unfold quota
    cases k with
    | off => exact absurd rfl hk
    | normal => cases level <;> simp; omega
    | debug =>
      cases level with
      | off => exact absurd rfl hlevel
      | normal => simp; omega
      | debug => simp; omega

theorem Filled.normals (h : Filled capacity es s) (hfull : s.records.length = capacity)
    (hall : ∀ r ∈ s.records, r.level = .normal) : capacity ≤ emitted .normal es := by
  have hnone : (s.records.countP fun r => r.level = .debug) = 0 :=
    List.countP_eq_zero.mpr fun r hr => by simp [hall r hr]
  have hlength := h.length
  rw [h.count .debug] at hnone
  unfold quota at hnone
  rw [places_debug] at hnone
  omega

theorem Filled.evictNormal (h : Filled capacity es s) (hcapacity : 0 < capacity)
    (hnext : s.nextRecord ≠ 0) (hfull : s.records.length = capacity)
    (hall : ∀ r ∈ s.records, r.level = .normal) :
    Filled capacity (es ++ [(.normal, observed)])
      ((s.evict (·.level == .normal) .normal).append .normal observed) := by
  have hnormals := h.normals hfull hall
  have herase : recent Prod.fst (places (capacity - 1) 0) es =
      (recent Prod.fst (quota capacity es) es).eraseP fun e => e.1 = .normal := by
    refine recent_erase ?_ (fun k hk => ?_) hnormals
    · unfold quota
      rw [places_normal, places_normal]
      omega
    · unfold quota
      cases k with
      | normal => exact absurd rfl hk
      | off => rfl
      | debug => simp; omega
  refine h.evict (by decide) hnext (by decide) ?_ fun k hk => ?_
  · rw [← herase]
    refine recent_quota_concat fun k => ?_
    rw [quota_concat]
    cases k with
    | off => rfl
    | normal => simp; omega
    | debug => simp; omega
  · rw [emitted_concat, quota_concat]
    unfold quota
    cases k with
    | off => exact absurd rfl hk
    | normal => simp; omega
    | debug => simp; omega

theorem Filled.lose (h : Filled capacity es s) (hfull : s.records.length = capacity)
    (hall : ∀ r ∈ s.records, r.level = .normal) :
    Filled capacity (es ++ [(.debug, observed)])
      { s with losses := s.losses.increment .debug } := by
  have hnormals := h.normals hfull hall
  have hquota : quota capacity (es ++ [(.debug, observed)]) = quota capacity es := by
    funext k
    rw [quota_concat]
    rfl
  have hnone : quota capacity es .debug = 0 := Nat.sub_eq_zero_of_le hnormals
  refine ⟨enabled_concat h.enabled (by decide), ?_, fun other hother => ?_⟩
  · have hsame : recent Prod.fst (quota capacity es) (es ++ [(.debug, observed)]) =
        recent Prod.fst (quota capacity es) es := recent_concat_none hnone
    rw [hquota, hsame]
    exact h.records
  · show (s.losses.increment .debug).get other = _
    rw [increment_get_min (by decide) (h.losses .debug (by decide)), hquota, emitted_concat]
    split
    · rename_i hsame
      rw [← hsame, hnone]
      rfl
    · rw [Nat.add_zero]
      exact h.losses other hother

theorem Filled.insert (h : Filled capacity es s) (hlevel : level ≠ .off) (hcapacity : 0 < capacity)
    (hnext : s.nextRecord ≠ 0) (hinsert : s.insert capacity level observed = some s') :
    Filled capacity (es ++ [(level, observed)]) s' := by
  rcases StreamState.insert_cases hlevel hcapacity h.levels hinsert with
    ⟨hroom, rfl⟩ | ⟨hfull, hdebug, rfl⟩ | ⟨hfull, hall, rfl, rfl⟩ | ⟨hfull, hall, rfl, rfl⟩
  · exact h.room hlevel hnext hroom
  · exact h.evictDebug hlevel hnext hfull hdebug
  · exact h.evictNormal hcapacity hnext hfull hall
  · exact h.lose hfull hall

end Emissions

/-! ### From one drain to the next -/

/-- The step is neither a contended emission, a loss of its own nor the end of a drain. -/
def StreamEvent.uncontended : StreamEvent π → Bool
  | .emit _ _ contended => !contended
  | .normalLoss | .deliver => false
  | _ => true

def emission (x : DiagnosticStream π × StreamEvent π) : Option (DiagnosticLevel × π) :=
  match x.2, x.1.critical with
  | .insert, some (.emitting level observed) =>
    if x.1.state.sealed then none else some (level, observed)
  | _, _ => none

namespace DiagnosticStream

variable {o : DiagnosticOptions} {s s' t : DiagnosticStream π} {e : StreamEvent π}
  {es : List (DiagnosticLevel × π)} {level : DiagnosticLevel}

def Drained (o : DiagnosticOptions) (s : DiagnosticStream π) : Prop :=
  s = .new ∨ ∃ r, (streamSystem π o).Reachable r ∧ (streamSystem π o).step r .deliver s

structure Calm (s : DiagnosticStream π) : Prop where
  contended : s.contended = .none
  words : ∀ level, s.pending level &&& pendingLossMask = 0

/-- What holds of a stream after the emissions since a drain. -/
structure Filling (o : DiagnosticOptions) (es : List (DiagnosticLevel × π))
    (s : DiagnosticStream π) : Prop where
  filled : Filled o.capacity es s.state
  calm : s.Calm
  taken : s.taken = .none
  enabled : ∀ level observed, s.critical = some (.emitting level observed) → level ≠ .off

theorem Filling.same (h : Filling o es s) (hstate : s'.state = s.state) (hcalm : s'.Calm)
    (htaken : s'.taken = .none)
    (henabled : ∀ level observed, s'.critical = some (.emitting level observed) → level ≠ .off) :
    Filling o es s' := ⟨hstate ▸ h.filled, hcalm, htaken, henabled⟩

theorem calm_word {w : ℕ} (h : w &&& pendingLossMask = 0) :
    (w &&& lossAdmissionSealed) &&& pendingLossMask = 0 ∧
      (w ||| lossAdmissionSealed) &&& pendingLossMask = 0 := by
  have hfence : lossAdmissionSealed &&& pendingLossMask = 0 := by decide
  constructor
  · rw [Nat.and_assoc, hfence, Nat.and_zero]
  · rw [Nat.and_or_distrib_right, h, hfence, Nat.or_zero]

theorem Filling.step (h : Filling o es s) (hstep : s.perform o e = some s')
    (hquiet : e.uncontended = true) (hnext : e = .insert → s.state.nextRecord ≠ 0) :
    Filling o (es ++ (emission (s, e)).toList) s' := by
  have hnone : ∀ {es : List (DiagnosticLevel × π)}, es ++ (none : Option _).toList = es :=
    List.append_nil _
  obtain ⟨hcontended, hwords⟩ := h.calm
  have hnormal : s.pendingNormal &&& pendingLossMask = 0 := hwords .normal
  have hdebug : s.pendingDebug &&& pendingLossMask = 0 := hwords .debug
  unfold perform at hstep
  cases e with
  | normalLoss => cases hquiet
  | deliver => cases hquiet
  | emit level observed contended =>
    obtain rfl : contended = false := by simpa [StreamEvent.uncontended] using hquiet
    have hmade : emission (s, .emit level observed false) = none := rfl
    rw [hmade, hnone]
    simp only [Bool.false_eq_true, if_false] at hstep
    split at hstep
    · obtain rfl := Option.some.inj hstep
      exact h
    · rename_i hadmits
      split at hstep
      · obtain rfl := Option.some.inj hstep
        refine h.same rfl ⟨hcontended, hwords⟩ rfl fun other observed' hc => ?_
        obtain ⟨rfl, -⟩ := Critical.emitting.inj (Option.some.inj hc)
        rintro rfl
        rw [DiagnosticLevel.admits_off] at hadmits
        exact hadmits rfl
      · cases hstep
  | insert =>
    dsimp only at hstep
    split at hstep
    · rename_i level observed hcritical
      have henabled := h.enabled level observed hcritical
      split at hstep
      · rename_i hsealed
        have hmade : emission (s, .insert) = none := by
          simp [emission, hcritical, hsealed]
        obtain rfl := Option.some.inj hstep
        rw [hmade, hnone]
        exact h.same rfl ⟨hcontended, hwords⟩ rfl fun _ _ hc => (by cases hc)
      · rename_i hsealed
        have hmade : emission (s, .insert) = some (level, observed) := by
          simp [emission, hcritical, hsealed]
        obtain ⟨state, hinsert, rfl⟩ := Option.map_eq_some_iff.mp hstep
        rw [hmade]
        exact ⟨h.filled.insert henabled o.capacity_pos (hnext rfl) hinsert,
          ⟨hcontended, hwords⟩, rfl, fun _ _ hc => (by cases hc)⟩
    · cases hstep
  | countLoss level =>
    cases level with
    | off => cases hstep
    | normal =>
      simp only [hcontended, DiagnosticLosses.none, Nat.lt_irrefl, if_false] at hstep
      cases hstep
    | debug =>
      simp only [hcontended, DiagnosticLosses.none, Nat.lt_irrefl, if_false] at hstep
      cases hstep
  | lockDrain =>
    have hmade : emission (s, .lockDrain) = none := rfl
    rw [hmade, hnone]
    dsimp only at hstep
    split at hstep
    · obtain rfl := Option.some.inj hstep
      exact h.same rfl ⟨hcontended, hwords⟩ rfl fun _ _ hc => (by cases hc)
    · cases hstep
  | takeNormal =>
    have hmade : emission (s, .takeNormal) = none := rfl
    rw [hmade, hnone]
    dsimp only at hstep
    split at hstep
    · obtain rfl := Option.some.inj hstep
      refine h.same rfl ⟨hcontended, fun level => ?_⟩ ?_ fun _ _ hc => (by cases hc)
      · cases level with
        | off => exact Nat.zero_and _
        | normal => exact (calm_word hnormal).1
        | debug => exact hdebug
      · show (⟨s.pendingNormal &&& pendingLossMask, 0⟩ : DiagnosticLosses) = _
        rw [hnormal]
        rfl
    · cases hstep
  | takeDebug =>
    have hmade : emission (s, .takeDebug) = none := rfl
    rw [hmade, hnone]
    dsimp only at hstep
    split at hstep
    · rename_i normal hcritical
      obtain rfl := Option.some.inj hstep
      have htaken := h.taken
      rw [taken_of hcritical] at htaken
      obtain ⟨hzero, -⟩ := DiagnosticLosses.mk.inj htaken
      refine h.same rfl ⟨hcontended, fun level => ?_⟩ ?_ fun _ _ hc => (by cases hc)
      · cases level with
        | off => exact Nat.zero_and _
        | normal => exact hnormal
        | debug => exact (calm_word hdebug).1
      · show (⟨normal, s.pendingDebug &&& pendingLossMask⟩ : DiagnosticLosses) = _
        rw [hdebug, hzero]
        rfl
    · cases hstep
  | lockSeal =>
    have hmade : emission (s, .lockSeal) = none := rfl
    rw [hmade, hnone]
    dsimp only at hstep
    split at hstep
    · obtain rfl := Option.some.inj hstep
      exact h.same rfl ⟨hcontended, hwords⟩ rfl fun _ _ hc => (by cases hc)
    · cases hstep
  | fenceNormal =>
    have hmade : emission (s, .fenceNormal) = none := rfl
    rw [hmade, hnone]
    dsimp only at hstep
    split at hstep
    · obtain rfl := Option.some.inj hstep
      refine h.same rfl ⟨hcontended, fun level => ?_⟩ rfl fun _ _ hc => (by cases hc)
      cases level with
      | off => exact Nat.zero_and _
      | normal => exact (calm_word hnormal).2
      | debug => exact hdebug
    · cases hstep
  | fenceDebug =>
    have hmade : emission (s, .fenceDebug) = none := rfl
    rw [hmade, hnone]
    dsimp only at hstep
    split at hstep
    · obtain rfl := Option.some.inj hstep
      refine h.same rfl ⟨hcontended, fun level => ?_⟩ rfl fun _ _ hc => (by cases hc)
      cases level with
      | off => exact Nat.zero_and _
      | normal => exact hnormal
      | debug => exact (calm_word hdebug).2
    · cases hstep
  | publishSeal =>
    have hmade : emission (s, .publishSeal) = none := rfl
    rw [hmade, hnone]
    dsimp only at hstep
    split at hstep
    · obtain rfl := Option.some.inj hstep
      exact ⟨⟨h.filled.enabled, h.filled.records, h.filled.losses⟩, ⟨hcontended, hwords⟩, rfl,
        fun _ _ hc => (by cases hc)⟩
    · cases hstep

theorem deliver_drained (h : s.perform o .deliver = some s') :
    s'.state.records = [] ∧ s'.state.losses = .none ∧ s'.critical = none := by
  unfold perform at h
  dsimp only at h
  split at h
  · rename_i taken hcritical
    obtain rfl := Option.some.inj h
    refine ⟨?_, ?_, rfl⟩
    · show (s.state.deliver taken).1.records = []
      unfold StreamState.deliver
      dsimp only
      split
      · rename_i hempty
        rw [Bool.and_eq_true, List.isEmpty_iff] at hempty
        exact hempty.1
      · rfl
    · show (s.state.deliver taken).1.losses = .none
      unfold StreamState.deliver
      dsimp only
      split
      · rename_i hempty
        rw [Bool.and_eq_true] at hempty
        exact DiagnosticLosses.eq_none_of_sum hempty.2
      · rfl
  · cases h

theorem Drained.filling (h : Drained o s) (hcalm : s.Calm) :
    (streamSystem π o).Reachable s ∧ Filling o [] s := by
  have hempty : s.state.records = [] ∧ s.state.losses = .none ∧ s.critical = none := by
    rcases h with rfl | ⟨r, -, hstep⟩
    · exact ⟨rfl, rfl, rfl⟩
    · exact deliver_drained hstep
  obtain ⟨hrecords, hlosses, hcritical⟩ := hempty
  refine ⟨?_, ⟨fun e he => (by cases he), ?_, fun level _ => ?_⟩, hcalm, ?_, fun level observed hc => ?_⟩
  · rcases h with rfl | ⟨r, hr, hstep⟩
    · exact .of_init rfl
    · exact hr.step hstep
  · rw [hrecords]
    rfl
  · rw [hlosses, DiagnosticLosses.none_get]
    exact (Nat.zero_min _ ▸ congrArg (min · u64Max) (Nat.zero_sub _)).symm
  · unfold taken
    rw [hcritical]
  · rw [hcritical] at hc
    cases hc

theorem Drained.run (h : Drained o t) (hcalm : t.Calm)
    {trail : List (DiagnosticStream π × StreamEvent π)} (hpath : (streamSystem π o).Path t trail s)
    (hquiet : ∀ x ∈ trail, x.2.uncontended = true)
    (hnext : ∀ x ∈ trail, x.2 = .insert → x.1.state.nextRecord ≠ 0) :
    Filling o (trail.filterMap emission) s := by
  induction hpath with
  | nil => exact (h.filling hcalm).2
  | @snoc s s' trail e _ hstep ih =>
    have hbefore := ih (fun x hx => hquiet x (List.mem_append_left _ hx))
      fun x hx => hnext x (List.mem_append_left _ hx)
    have hlast := hbefore.step hstep (hquiet (s, e) (List.mem_append_right _ List.mem_cons_self))
      (hnext (s, e) (List.mem_append_right _ List.mem_cons_self))
    rw [List.filterMap_append]
    cases hmade : emission (s, e) with
    | none =>
      rw [hmade] at hlast
      rw [List.filterMap_cons_none hmade]
      exact hlast
    | some made =>
      rw [hmade] at hlast
      rw [List.filterMap_cons_some hmade]
      exact hlast

theorem Filling.deliver (h : Filling o es s) (hstep : s.perform o .deliver = some s') :
    ∃ d, s'.book.drains = s.book.drains ++ [d] ∧ d.records = s.state.records ∧
      ∀ level, level ≠ .off → d.losses.get level = s.state.losses.get level := by
  unfold perform at hstep
  dsimp only at hstep
  split at hstep
  · rename_i taken hcritical
    obtain rfl := Option.some.inj hstep
    have htaken : taken = .none := (taken_of hcritical).symm.trans h.taken
    subst htaken
    refine ⟨(s.state.deliver .none).2, rfl, ?_⟩
    have hsum : ∀ level, level ≠ .off →
        (s.state.losses.saturatingSum .none).get level = s.state.losses.get level := by
      intro level hlevel
      have hbound := h.filled.losses level hlevel
      rw [DiagnosticLosses.saturatingSum_get (by rw [DiagnosticLosses.none_get]; omega),
        DiagnosticLosses.none_get, Nat.add_zero]
    by_cases hempty : s.state.records = [] ∧ (s.state.losses.saturatingSum .none).isEmpty = true
    · have hlosses := DiagnosticLosses.eq_none_of_sum hempty.2
      rw [StreamState.deliver_empty hempty.1 hempty.2, hempty.1, hlosses]
      cases s.state.sealed with
      | true => exact ⟨rfl, fun _ _ => rfl⟩
      | false => exact ⟨rfl, fun _ _ => rfl⟩
    · rw [StreamState.deliver_batch hempty]
      exact ⟨rfl, hsum⟩
  · cases hstep

end DiagnosticStream

open DiagnosticStream

theorem filter_eraseP {α : Type*} {p q : α → Bool} (h : ∀ a, p a = true → q a = false) (l : List α) :
    (l.eraseP p).filter q = l.filter q := by
  induction l with
  | nil => rfl
  | cons a l ih =>
    by_cases ha : p a = true
    · rw [List.eraseP_cons_of_pos ha, List.filter_cons_of_neg (by rw [h a ha]; exact Bool.false_ne_true)]
    · rw [List.eraseP_cons_of_neg ha, List.filter_cons, List.filter_cons, ih]

theorem StreamState.insert_debug {s s' : StreamState π} {capacity : ℕ} {observed : π}
    (h : s.insert capacity .debug observed = some s') :
    s'.records.filter (·.level == .normal) = s.records.filter (·.level == .normal) := by
  have happend : ∀ t : StreamState π, (t.append .debug observed).records.filter (·.level == .normal) =
      t.records.filter (·.level == .normal) := by
    intro t
    unfold append
    split
    · rfl
    · dsimp only
      rw [List.filter_append, List.filter_cons_of_neg (by simp), List.filter_nil, List.append_nil]
  unfold insert at h
  split at h
  · cases hfind : s.records.findIdx? (·.level == .debug) with
    | none =>
      rw [hfind] at h
      obtain rfl := Option.some.inj h
      rfl
    | some index =>
      have hremove := remove_find .debug hfind fun r hr => by simpa using hr
      simp only [hfind, hremove, Option.map_some, Option.some.injEq] at h
      obtain rfl := h
      rw [happend]
      refine filter_eraseP (fun r hr => ?_) s.records
      rw [beq_iff_eq] at hr
      rw [hr]
      rfl
  · obtain rfl := Option.some.inj h
    exact happend s

/-- **The overflow policy.**  Of the emissions from one drain to the next, made without contention and
while the sequence lasts, the next drain hands out the last normal ones that the capacity allows and
the last debug ones that these leave room for, in the order of their emission and of their sequences,
and reports the others of each level as lost, up to the maximum of the counter.  No debug emission
removes a normal record. -/
theorem overflow_policy {o : DiagnosticOptions} {t s s' : DiagnosticStream π}
    {trail : List (DiagnosticStream π × StreamEvent π)} (hstart : Drained o t) (hcalm : t.Calm)
    (hpath : (streamSystem π o).Path t trail s)
    (hquiet : ∀ x ∈ trail, x.2.uncontended = true)
    (hnext : ∀ x ∈ trail, x.2 = .insert → x.1.state.nextRecord ≠ 0)
    (hdrain : (streamSystem π o).step s .deliver s') :
    ∃ d, s'.book.drains = s.book.drains ++ [d] ∧
      d.records.map DiagnosticRecord.emission =
        recent Prod.fst (quota o.capacity (trail.filterMap emission)) (trail.filterMap emission) ∧
      ((d.records.map DiagnosticRecord.emission).filter fun e => e.1 = .normal) =
        ((trail.filterMap emission).filter fun e => e.1 = .normal).rtake
          (min (emitted .normal (trail.filterMap emission)) o.capacity) ∧
      ((d.records.map DiagnosticRecord.emission).filter fun e => e.1 = .debug) =
        ((trail.filterMap emission).filter fun e => e.1 = .debug).rtake
          (min (emitted .debug (trail.filterMap emission))
            (o.capacity - min (emitted .normal (trail.filterMap emission)) o.capacity)) ∧
      (∀ r ∈ d.records, r.level = .normal ∨ r.level = .debug) ∧
      (d.records.map DiagnosticRecord.emission).Sublist (trail.filterMap emission) ∧
      d.records.Pairwise (·.sequence < ·.sequence) ∧
      d.losses.normal = min (emitted .normal (trail.filterMap emission) -
        min (emitted .normal (trail.filterMap emission)) o.capacity) u64Max ∧
      d.losses.debug = min (emitted .debug (trail.filterMap emission) -
        min (emitted .debug (trail.filterMap emission))
          (o.capacity - min (emitted .normal (trail.filterMap emission)) o.capacity)) u64Max ∧
      ∀ (st st' : StreamState π) (observed : π), st.insert o.capacity .debug observed = some st' →
        st'.records.filter (·.level == .normal) = st.records.filter (·.level == .normal) := by
  have hfilling := hstart.run hcalm hpath hquiet hnext
  have hreachable : (streamSystem π o).Reachable s := (hstart.filling hcalm).1.leads hpath.leads
  have hordered := (sound hreachable).2.1
  obtain ⟨d, hbook, hrecords, hlosses⟩ := hfilling.deliver hdrain
  generalize trail.filterMap emission = es at hfilling
  have hnormal : (es.filter fun e => e.1 = .normal).length = emitted .normal es :=
    List.countP_eq_length_filter.symm
  have hdebug : (es.filter fun e => e.1 = .debug).length = emitted .debug es :=
    List.countP_eq_length_filter.symm
  have hemissions := hfilling.filled.records
  refine ⟨d, hbook, hrecords ▸ hemissions, ?_, ?_, fun r hr => ?_, ?_, ?_, ?_, ?_,
    fun st st' observed => StreamState.insert_debug⟩
  · rw [hrecords, hemissions, filter_recent]
    unfold List.rtake quota
    rw [hnormal, places_normal]
    congr 1
    omega
  · rw [hrecords, hemissions, filter_recent]
    unfold List.rtake quota
    rw [hdebug, places_debug]
    congr 1
    omega
  · have hlevel := hfilling.filled.levels r (hrecords ▸ hr)
    cases hr : r.level with
    | off => exact absurd hr hlevel
    | normal => exact Or.inl rfl
    | debug => exact Or.inr rfl
  · rw [hrecords, hemissions]
    exact recent_sublist _ _ _
  · rw [hrecords]
    exact (List.pairwise_append.mp hordered.sorted).2.1
  · have hlost := (hlosses .normal (by decide)).trans (hfilling.filled.losses .normal (by decide))
    refine hlost.trans ?_
    unfold quota
    rw [places_normal]
    congr 1
    omega
  · have hlost := (hlosses .debug (by decide)).trans (hfilling.filled.losses .debug (by decide))
    refine hlost.trans ?_
    unfold quota
    rw [places_debug]
    congr 1
    omega

/-! ### Two runs -/

/-- Three emissions into one place, and a drain up to its end. -/
def overflowRun : List (StreamEvent ℕ) :=
  [.emit .debug 10 false, .insert, .emit .normal 11 false, .insert, .emit .debug 12 false, .insert,
    .lockDrain, .takeNormal, .takeDebug]

def overflowTrace : List (DiagnosticStream ℕ × StreamEvent ℕ) × DiagnosticStream ℕ :=
  (System.trace (fun s e => s.perform oneRecord e) overflowRun .new).get (by decide)

theorem overflowTrace_path :
    (streamSystem ℕ oneRecord).Path .new overflowTrace.1 overflowTrace.2 := by
  have htrace : System.trace (fun s e => s.perform oneRecord e) overflowRun .new =
      some overflowTrace := by
    unfold overflowTrace
    rw [Option.some_get]
  exact System.trace_path htrace

theorem new_calm : (new : DiagnosticStream π).Calm := by
  refine ⟨rfl, fun level => ?_⟩
  cases level <;> exact Nat.zero_and _

/-- The normal record is retained, and both debug ones are lost. -/
theorem overflow_policy_sample : ∃ s' d, overflowTrace.2.perform oneRecord .deliver = some s' ∧
    s'.book.drains = overflowTrace.2.book.drains ++ [d] ∧
    d.records.map DiagnosticRecord.emission = [(.normal, 11)] ∧ d.losses.debug = 2 := by
  have hquiet : ∀ x ∈ overflowTrace.1, x.2.uncontended = true := by decide +kernel
  have hnext : ∀ x ∈ overflowTrace.1, x.1.state.nextRecord ≠ 0 := by decide +kernel
  obtain ⟨s', hdrain⟩ : ∃ s', overflowTrace.2.perform oneRecord .deliver = some s' := ⟨_, rfl⟩
  obtain ⟨d, hbook, hrecords, -, -, -, -, -, -, hdebug, -⟩ := overflow_policy (Or.inl rfl) new_calm
    overflowTrace_path hquiet (fun x hx _ => hnext x hx) hdrain
  refine ⟨s', d, hdrain, hbook, hrecords.trans ?_, hdebug.trans ?_⟩
  · decide +kernel
  · decide +kernel

/-- One place, taken by a normal record, after some lost debug emissions. -/
def crowded (n : ℕ) (critical : Option (Critical ℕ)) : DiagnosticStream ℕ :=
  { (new : DiagnosticStream ℕ) with
    state := ⟨[⟨1, .normal, 0⟩], ⟨0, min n u64Max⟩, 2, false⟩
    critical := critical
    book := ⟨[], ⟨1, n⟩, .none⟩ }

/-- A run from the beginning makes these emissions. -/
def Emits (es : List (DiagnosticLevel × ℕ)) (s : DiagnosticStream ℕ) : Prop :=
  ∃ trail, (streamSystem ℕ oneRecord).Path .new trail s ∧
    (∀ x ∈ trail, x.2.uncontended = true ∧ x.1.state.nextRecord ≠ 0) ∧
    trail.filterMap emission = es

theorem Emits.step {es : List (DiagnosticLevel × ℕ)} {s s' : DiagnosticStream ℕ}
    {e : StreamEvent ℕ} (h : Emits es s) (made : List (DiagnosticLevel × ℕ))
    (hstep : s.perform oneRecord e = some s') (hquiet : e.uncontended = true)
    (hnext : s.state.nextRecord ≠ 0) (hmade : [(s, e)].filterMap emission = made) :
    Emits (es ++ made) s' := by
  obtain ⟨trail, hpath, hall, hes⟩ := h
  refine ⟨_, hpath.snoc hstep, fun x hx => ?_, ?_⟩
  · rcases List.mem_append.mp hx with hx | hx
    · exact hall x hx
    · obtain rfl := List.mem_singleton.mp hx
      exact ⟨hquiet, hnext⟩
  · rw [List.filterMap_append, hes, hmade]

theorem crowded_emits (n : ℕ) :
    Emits ((.normal, 0) :: List.replicate n (.debug, 0)) (crowded n none) := by
  induction n with
  | zero =>
    have hnew : Emits [] (new : DiagnosticStream ℕ) := ⟨[], .nil _, fun x hx => (by cases hx), rfl⟩
    have hemit : (new : DiagnosticStream ℕ).perform oneRecord (.emit .normal 0 false) =
        some { (new : DiagnosticStream ℕ) with critical := some (.emitting .normal 0) } := rfl
    have hinsert : ({ (new : DiagnosticStream ℕ) with critical := some (.emitting .normal 0) } :
        DiagnosticStream ℕ).perform oneRecord .insert = some (crowded 0 none) := rfl
    exact (hnew.step [] hemit rfl (Nat.succ_ne_zero 0) rfl).step [(.normal, 0)] hinsert rfl
      (Nat.succ_ne_zero 0) rfl
  | succ n ih =>
    have hemit : (crowded n none).perform oneRecord (.emit .debug 0 false) =
        some (crowded n (some (.emitting .debug 0))) := rfl
    have hinsert : (crowded n (some (.emitting .debug 0))).perform oneRecord .insert =
        some (crowded (n + 1) none) := by
      have hlost : saturatingAdd u64Max (min n u64Max) 1 = min (n + 1) u64Max := by
        unfold saturatingAdd
        omega
      unfold crowded
      rw [← hlost]
      rfl
    rw [List.replicate_succ', ← List.cons_append]
    have hboth := (ih.step [] hemit rfl (Nat.succ_ne_zero 1) rfl).step [(.debug, 0)] hinsert rfl
      (Nat.succ_ne_zero 1) rfl
    rwa [List.append_nil] at hboth

/-- The counter of lost records stops at its maximum: of `2 ^ 64` debug emissions that find the only
place taken, one is not reported. -/
theorem overflow_saturates : ∃ trail s s' d, Drained oneRecord (new : DiagnosticStream ℕ) ∧
    (new : DiagnosticStream ℕ).Calm ∧ (streamSystem ℕ oneRecord).Path .new trail s ∧
    (∀ x ∈ trail, x.2.uncontended = true ∧ x.1.state.nextRecord ≠ 0) ∧
    s.perform oneRecord .deliver = some s' ∧ s'.book.drains = s.book.drains ++ [d] ∧
    oneRecord.capacity = 1 ∧ emitted .normal (trail.filterMap emission) = 1 ∧
    emitted .debug (trail.filterMap emission) = 2 ^ 64 ∧
    d.losses.debug ≠ 2 ^ 64 - min (2 ^ 64) (1 - min 1 1) := by
  have hlock : (crowded (2 ^ 64) none).perform oneRecord .lockDrain =
      some (crowded (2 ^ 64) (some .draining)) := rfl
  have hnormal : (crowded (2 ^ 64) (some .draining)).perform oneRecord .takeNormal =
      some (crowded (2 ^ 64) (some (.takenNormal 0))) := rfl
  have hdebug : (crowded (2 ^ 64) (some (.takenNormal 0))).perform oneRecord .takeDebug =
      some (crowded (2 ^ 64) (some (.takenBoth ⟨0, 0⟩))) := rfl
  obtain ⟨trail, hpath, hall, hemissions⟩ :=
    (((crowded_emits (2 ^ 64)).step [] hlock rfl (Nat.succ_ne_zero 1) rfl).step [] hnormal rfl
      (Nat.succ_ne_zero 1) rfl).step [] hdebug rfl (Nat.succ_ne_zero 1) rfl
  rw [List.append_nil, List.append_nil, List.append_nil] at hemissions
  obtain ⟨s', hdrain⟩ : ∃ s', (crowded (2 ^ 64) (some (.takenBoth ⟨0, 0⟩))).perform oneRecord
      .deliver = some s' := ⟨_, rfl⟩
  have hfilling := Drained.run (Or.inl rfl) new_calm hpath (fun x hx => (hall x hx).1)
    fun x hx _ => (hall x hx).2
  obtain ⟨d, hbook, -, hlosses⟩ := hfilling.deliver hdrain
  have hreported : d.losses.debug = min (2 ^ 64) u64Max := hlosses .debug (by decide)
  refine ⟨trail, _, s', d, Or.inl rfl, new_calm, hpath, hall, hdrain, hbook, rfl, ?_, ?_, ?_⟩
  · rw [hemissions]
    unfold emitted
    rw [countP_key_cons, List.countP_replicate]
    rfl
  · rw [hemissions]
    unfold emitted
    rw [countP_key_cons, List.countP_replicate]
    rfl
  · rw [hreported]
    decide

end MadoPilot.Diagnostic
