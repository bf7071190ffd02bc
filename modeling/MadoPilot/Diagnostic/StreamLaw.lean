import MadoPilot.Diagnostic.StreamMoves

/-!
# Diagnostic accounting

Every emission that is made before its level is sealed is retained, delivered, reported as lost or
still to be reported, and the end of the stream is final.

* `Fences` : the high bits of the words say how far the seal is, and nothing is made of a fenced level;
* `Balanced` : the account of the emissions, while nothing is saturated or exhausted;
* `Ordered` : the sequences of the records;
* `Ended` : what is left once a drain found the end;
* `diagnostic_accounting` is the result.
-/

namespace MadoPilot.Diagnostic

open MadoPilot.Core MadoPilot.Lib

variable {π : Type} {o : DiagnosticOptions}

def Critical.fences : Critical π → DiagnosticLevel → Bool
  | .fencedNormal, .normal | .fencedBoth, .normal | .fencedBoth, .debug => true
  | _, _ => false

/-- The emissions of a level that the holder of the mutex is making. -/
def Critical.emits (level : DiagnosticLevel) : Critical π → ℕ
  | .emitting other _ => if other = level then 1 else 0
  | _ => 0

/-- The losses that the holder of the mutex has taken from the words. -/
def Critical.taken : Critical π → DiagnosticLosses
  | .takenNormal normal => ⟨normal, 0⟩
  | .takenBoth taken => taken
  | _ => .none

namespace DiagnosticStream

variable {s s' : DiagnosticStream π} {level : DiagnosticLevel}

/-! ### Fences -/

def fence (s : DiagnosticStream π) (level : DiagnosticLevel) : Bool :=
  decide (level ≠ .off) && (s.state.sealed || s.critical.any (·.fences level))

/-- The word of a level, with a high bit that says whether the seal has come past it. -/
def Kept (s : DiagnosticStream π) (level : DiagnosticLevel) : Prop :=
  ∃ count, count ≤ pendingLossMask ∧ s.pending level = LossWord.pack (s.fence level) count

/-- The words are as the seal leaves them, and only what a fence turned away was refused. -/
structure Fences (s : DiagnosticStream π) : Prop where
  kept : ∀ level, s.Kept level
  refused : ∀ level, s.book.refused.get level ≠ 0 → s.fence level = true

theorem fence_eq (hsealed : s'.state.sealed = s.state.sealed)
    (hcritical : s'.critical.any (·.fences level) = s.critical.any (·.fences level)) :
    s'.fence level = s.fence level := by
  unfold fence
  rw [hsealed, hcritical]

theorem fence_keeps (h : s.fence level = true) (hsealed : s'.state.sealed = s.state.sealed)
    (hcritical : s'.critical.any (·.fences level) = s.critical.any (·.fences level)) :
    s'.fence level = true :=
  (fence_eq hsealed hcritical).trans h

theorem fence_of_sealed (h : s.state.sealed = true) (henabled : level ≠ .off) :
    s.fence level = true := by
  unfold fence
  rw [h]
  simpa using henabled

theorem Kept.fenced (h : s.Kept level) : s.fenced level = s.fence level := by
  obtain ⟨count, hcount, hword⟩ := h
  unfold DiagnosticStream.fenced
  rw [hword]
  unfold LossWord.pack
  cases s.fence level with
  | true => simp
  | false =>
    have hlt : count < lossAdmissionSealed := by
      rw [LossWord.mask_eq] at hcount
      rw [LossWord.sealed_eq]
      omega
    simpa using hlt

theorem Kept.same (h : s.Kept level) (hpending : s'.pending level = s.pending level)
    (hfence : s'.fence level = s.fence level) : s'.Kept level := by
  unfold Kept at h ⊢
  rw [hpending, hfence]
  exact h

theorem Kept.drained (h : s.Kept level)
    (hpending : s'.pending level = s.pending level &&& lossAdmissionSealed)
    (hfence : s'.fence level = s.fence level) :
    s'.pending level = LossWord.pack (s'.fence level) 0 := by
  obtain ⟨count, hcount, hword⟩ := h
  rw [hpending, hword, LossWord.drain_pack hcount, hfence]

theorem Kept.emptied (h : s.Kept level) (hsealed : s'.state.sealed = true)
    (hpending : s'.pending level = s.pending level &&& lossAdmissionSealed)
    (hfence : s'.fence level = s.fence level) (henabled : level ≠ .off := by decide) :
    s'.pending level = LossWord.pack true 0 := by
  rw [h.drained hpending hfence, fence_of_sealed hsealed henabled]

theorem Kept.sealing (h : s.Kept level)
    (hpending : s'.pending level = s.pending level ||| lossAdmissionSealed)
    (hfence : s'.fence level = true) : s'.Kept level := by
  obtain ⟨count, hcount, hword⟩ := h
  refine ⟨count, hcount, ?_⟩
  rw [hpending, hword, LossWord.seal_pack hcount, hfence]

theorem Kept.counted (h : s.Kept level)
    (hpending : s'.pending level = LossWord.countLoss (s.pending level))
    (hfence : s'.fence level = s.fence level) : s'.Kept level := by
  obtain ⟨count, hcount, hword⟩ := h
  unfold Kept
  rw [hpending, hword, hfence]
  cases s.fence level with
  | true => exact ⟨count, hcount, LossWord.countLoss_fenced⟩
  | false =>
    by_cases hfull : count < pendingLossMask
    · exact ⟨count + 1, hfull, LossWord.countLoss_pack hfull⟩
    · refine ⟨count, hcount, ?_⟩
      unfold LossWord.countLoss LossWord.pack
      simp [hfull]

theorem Fences.steady (h : s.Fences) (hpending : ∀ level, s'.pending level = s.pending level)
    (hfence : ∀ level, s'.fence level = s.fence level)
    (hrefused : s'.book.refused = s.book.refused) : s'.Fences := by
  refine ⟨fun level => (h.kept level).same (hpending level) (hfence level), fun level hlevel => ?_⟩
  rw [hrefused] at hlevel
  exact (hfence level).trans (h.refused level hlevel)

theorem Fences.noted (h : s.Fences) {other : DiagnosticLevel}
    (hother : (s.note level (s.fenced level)).refused.get other ≠ 0) : s.fence other = true := by
  unfold note at hother
  split at hother
  · rename_i hfenced
    rw [DiagnosticLosses.succ_get] at hother
    split at hother
    · rename_i hsame
      rw [← hsame.1, ← (h.kept level).fenced]
      exact hfenced
    · exact h.refused other hother
  · exact h.refused other hother

theorem deliver_sealed (state : StreamState π) (taken : DiagnosticLosses) :
    (state.deliver taken).1.sealed = state.sealed := by
  unfold StreamState.deliver
  dsimp only
  split <;> rfl

theorem Moves.fence_mono (hmoves : s.Moves o s') (h : s.fence level = true) :
    s'.fence level = true := by
  cases hmoves with
  | waits contended => exact h
  | locks c hfree hbegins =>
    refine fence_keeps h rfl ?_
    rw [hfree]
    cases c <;> first | rfl | cases hbegins
  | refuses other observed hcritical hsealed =>
    exact fence_keeps h rfl (by rw [hcritical]; rfl)
  | inserts other observed state hcritical hopen hinsert =>
    exact fence_keeps h (StreamState.insert_records hinsert).1 (by rw [hcritical]; rfl)
  | counts other contended => cases other <;> exact h
  | takesNormal hcritical => exact fence_keeps h rfl (by rw [hcritical]; rfl)
  | takesDebug normal hcritical => exact fence_keeps h rfl (by rw [hcritical]; rfl)
  | delivers taken hcritical => exact fence_keeps h (deliver_sealed _ _) (by rw [hcritical]; rfl)
  | fencesNormal hcritical =>
    unfold fence at h ⊢
    rw [hcritical] at h
    rw [Bool.and_eq_true, Bool.or_eq_true] at h ⊢
    exact ⟨h.1, Or.inl (h.2.resolve_right fun hnone => by cases hnone)⟩
  | fencesDebug hcritical =>
    unfold fence at h ⊢
    cases level with
    | off => cases h
    | normal => simp [Critical.fences]
    | debug => simp [Critical.fences]
  | seals hcritical =>
    unfold fence at h ⊢
    rw [Bool.and_eq_true] at h ⊢
    exact ⟨h.1, rfl⟩

theorem note_drains (level : DiagnosticLevel) (refused : Bool) :
    (s.note level refused).drains = s.book.drains := by
  unfold note
  split <;> rfl

theorem countLoss_rest (level : DiagnosticLevel) :
    (s.countLoss level).state = s.state ∧ (s.countLoss level).critical = s.critical ∧
      (s.countLoss level).book.drains = s.book.drains := by
  cases level with
  | off => exact ⟨rfl, rfl, rfl⟩
  | normal => exact ⟨rfl, rfl, note_drains _ _⟩
  | debug => exact ⟨rfl, rfl, note_drains _ _⟩

theorem Fences.moves (h : s.Fences) (hmoves : s.Moves o s') : s'.Fences := by
  have hkept := h.kept
  have hmono : ∀ other, s.fence other = true → s'.fence other = true :=
    fun other => hmoves.fence_mono
  cases hmoves with
  | waits contended => exact ⟨hkept, h.refused⟩
  | locks c hfree hbegins =>
    refine h.steady (fun level => by cases level <;> rfl) (fun level => fence_eq rfl ?_) rfl
    rw [hfree]
    cases c <;> first | rfl | cases hbegins
  | refuses level observed hcritical hsealed =>
    refine ⟨fun other => (hkept other).same rfl
      (fence_eq rfl (by rw [hcritical]; rfl)), fun other hother => fence_of_sealed hsealed ?_⟩
    rintro rfl
    exact hother rfl
  | inserts level observed state hcritical hopen hinsert =>
    exact h.steady (fun other => by cases other <;> rfl)
      (fun other => fence_eq (StreamState.insert_records hinsert).1 (by rw [hcritical]; rfl)) rfl
  | counts level contended =>
    cases level with
    | off => exact ⟨hkept, h.refused⟩
    | normal =>
      refine ⟨fun other => ?_, fun other hother => h.noted hother⟩
      cases other with
      | off => exact hkept .off
      | normal => exact (hkept .normal).counted rfl rfl
      | debug => exact hkept .debug
    | debug =>
      refine ⟨fun other => ?_, fun other hother => h.noted hother⟩
      cases other with
      | off => exact hkept .off
      | normal => exact hkept .normal
      | debug => exact (hkept .debug).counted rfl rfl
  | takesNormal hcritical =>
    refine ⟨fun other => ?_, fun other hother => hmono other (h.refused other hother)⟩
    cases other with
    | off => exact (hkept .off).same rfl rfl
    | normal =>
      exact ⟨0, Nat.zero_le _, (hkept .normal).drained rfl (fence_eq rfl (by rw [hcritical]; rfl))⟩
    | debug => exact (hkept .debug).same rfl (fence_eq rfl (by rw [hcritical]; rfl))
  | takesDebug normal hcritical =>
    refine ⟨fun other => ?_, fun other hother => hmono other (h.refused other hother)⟩
    cases other with
    | off => exact (hkept .off).same rfl rfl
    | normal => exact (hkept .normal).same rfl (fence_eq rfl (by rw [hcritical]; rfl))
    | debug =>
      exact ⟨0, Nat.zero_le _, (hkept .debug).drained rfl (fence_eq rfl (by rw [hcritical]; rfl))⟩
  | delivers taken hcritical =>
    exact h.steady (fun other => by cases other <;> rfl)
      (fun other => fence_eq (deliver_sealed _ _) (by rw [hcritical]; rfl)) rfl
  | fencesNormal hcritical =>
    refine ⟨fun other => ?_, fun other hother => hmono other (h.refused other hother)⟩
    cases other with
    | off => exact (hkept .off).same rfl rfl
    | normal =>
      refine (hkept .normal).sealing rfl ?_
      unfold fence
      simp [Critical.fences]
    | debug => exact (hkept .debug).same rfl (fence_eq rfl (by rw [hcritical]; rfl))
  | fencesDebug hcritical =>
    refine ⟨fun other => ?_, fun other hother => hmono other (h.refused other hother)⟩
    cases other with
    | off => exact (hkept .off).same rfl rfl
    | normal => exact (hkept .normal).same rfl (fence_eq rfl (by rw [hcritical]; rfl))
    | debug =>
      refine (hkept .debug).sealing rfl ?_
      unfold fence
      simp [Critical.fences]
  | seals hcritical =>
    have hfence : ∀ other,
        { s with state := { s.state with sealed := true }, critical := none }.fence other =
          s.fence other := by
      intro other
      unfold fence
      rw [hcritical]
      cases other <;> simp [Critical.fences]
    exact h.steady (fun other => by cases other <;> rfl) hfence rfl

theorem Fences.made_moves (h : s.Fences) (hmoves : s.Moves o s') (hfence : s.fence level = true) :
    s'.book.made.get level = s.book.made.get level := by
  cases hmoves with
  | inserts other observed state hcritical hopen hinsert =>
    unfold fence at hfence
    rw [hcritical, hopen, Bool.and_eq_true] at hfence
    cases hfence.2
  | counts other contended =>
    have hnoted : (s.note other (s.fenced other)).made.get level = s.book.made.get level := by
      unfold note
      split
      · rfl
      · rename_i hopen
        have hother : ¬ (other = level ∧ other ≠ .off) := by
          rintro ⟨rfl, -⟩
          exact hopen ((h.kept other).fenced.trans hfence)
        rw [DiagnosticLosses.succ_get, if_neg hother]
        rfl
    cases other with
    | off => rfl
    | normal => exact hnoted
    | debug => exact hnoted
  | _ => rfl

/-! ### Sequences -/

def delivered (s : DiagnosticStream π) : List (DiagnosticRecord π) :=
  s.book.drains.flatMap DiagnosticDrain.records

structure Ordered (s : DiagnosticStream π) : Prop where
  sorted : (s.delivered ++ s.state.records).Pairwise (·.sequence < ·.sequence)
  below : s.state.nextRecord ≠ 0 →
    ∀ r ∈ s.delivered ++ s.state.records, r.sequence < s.state.nextRecord

theorem Ordered.moves (h : s.Ordered) (hmoves : s.Moves o s') : s'.Ordered := by
  cases hmoves with
  | inserts level observed state hcritical hopen hinsert =>
    obtain ⟨-, kept, hsub, hleft⟩ := StreamState.insert_records hinsert
    have hkept : (s.delivered ++ kept).Sublist (s.delivered ++ s.state.records) :=
      (List.Sublist.refl _).append hsub
    rcases hleft with ⟨hrecords, hnext⟩ | ⟨hnext, hrecords, hafter⟩
    · constructor
      · show (s.delivered ++ state.records).Pairwise _
        rw [hrecords]
        exact h.sorted.sublist hkept
      · show state.nextRecord ≠ 0 → ∀ r ∈ s.delivered ++ state.records, _ < state.nextRecord
        rw [hrecords, hnext]
        exact fun hzero r hr => h.below hzero r (hkept.subset hr)
    · have hbelow : ∀ r ∈ s.delivered ++ kept, r.sequence < s.state.nextRecord :=
        fun r hr => h.below hnext r (hkept.subset hr)
      constructor
      · show (s.delivered ++ state.records).Pairwise _
        rw [hrecords, ← List.append_assoc, List.pairwise_append]
        refine ⟨h.sorted.sublist hkept, List.pairwise_singleton _ _, fun r hr r' hr' => ?_⟩
        rw [List.mem_singleton] at hr'
        rw [hr']
        exact hbelow r hr
      · show state.nextRecord ≠ 0 → ∀ r ∈ s.delivered ++ state.records, _ < state.nextRecord
        intro hzero r hr
        have hplus : state.nextRecord = s.state.nextRecord + 1 := by
          rw [hafter] at hzero ⊢
          cases hadd : checkedAdd u64Max s.state.nextRecord 1 with
          | none =>
            rw [hadd] at hzero
            exact absurd rfl hzero
          | some next => exact (checkedAdd_eq_some.mp hadd).1
        rw [hrecords, ← List.append_assoc, List.mem_append, List.mem_singleton] at hr
        rcases hr with hr | rfl
        · have hlt := hbelow r hr
          omega
        · show s.state.nextRecord < state.nextRecord
          omega
  | delivers taken hcritical =>
    have hdelivered : ∀ d : DiagnosticDrain π,
        (s.book.drains ++ [d]).flatMap DiagnosticDrain.records = s.delivered ++ d.records := by
      intro d
      rw [List.flatMap_append, List.flatMap_singleton]
      rfl
    by_cases hempty : s.state.records = [] ∧ (s.state.losses.saturatingSum taken).isEmpty = true
    · have hsame := StreamState.deliver_empty hempty.1 hempty.2
      have hnone : (s.state.deliver taken).2.records = [] := by
        rw [hsame]
        dsimp only
        split <;> rfl
      have hall : (s.book.drains ++ [(s.state.deliver taken).2]).flatMap DiagnosticDrain.records ++
          (s.state.deliver taken).1.records = s.delivered ++ s.state.records := by
        rw [hdelivered, hnone, List.append_nil, hsame]
      refine ⟨?_, ?_⟩
      · unfold delivered
        dsimp only
        rw [hall]
        exact h.sorted
      · unfold delivered
        dsimp only
        rw [hall, hsame]
        exact h.below
    · have hbatch := StreamState.deliver_batch hempty
      have hall : (s.book.drains ++ [(s.state.deliver taken).2]).flatMap DiagnosticDrain.records ++
          (s.state.deliver taken).1.records = s.delivered ++ s.state.records := by
        rw [hdelivered, hbatch]
        exact List.append_nil _
      refine ⟨?_, ?_⟩
      · unfold delivered
        dsimp only
        rw [hall]
        exact h.sorted
      · unfold delivered
        dsimp only
        rw [hall, hbatch]
        exact h.below
  | counts level contended =>
    obtain ⟨hstate, -, hdrains⟩ := countLoss_rest (s := s) level
    constructor
    · unfold delivered
      dsimp only
      rw [hstate, hdrains]
      exact h.sorted
    · unfold delivered
      dsimp only
      rw [hstate, hdrains]
      exact h.below
  | _ => exact ⟨h.sorted, h.below⟩

/-! ### The end of the stream -/

def taken (s : DiagnosticStream π) : DiagnosticLosses :=
  match s.critical with
  | some c => c.taken
  | none => .none

theorem taken_of {c : Critical π} (h : s.critical = some c) : s.taken = c.taken := by
  unfold taken
  rw [h]

structure Over (s : DiagnosticStream π) : Prop where
  closed : s.state.sealed = true
  records : s.state.records = []
  losses : s.state.losses = .none
  normal : s.pendingNormal = LossWord.pack true 0
  debug : s.pendingDebug = LossWord.pack true 0
  taken : s.taken = .none

theorem Over.moves (h : s.Over) (hmoves : s.Moves o s') : s'.Over := by
  have hmask : ∀ fenced, LossWord.pack fenced 0 &&& pendingLossMask = 0 :=
    fun _ => LossWord.taken_pack (Nat.zero_le _)
  have hdrain : ∀ fenced, LossWord.pack fenced 0 &&& lossAdmissionSealed = LossWord.pack fenced 0 :=
    fun _ => LossWord.drain_pack (Nat.zero_le _)
  have hseal : ∀ fenced, LossWord.pack fenced 0 ||| lossAdmissionSealed = LossWord.pack true 0 :=
    fun _ => LossWord.seal_pack (Nat.zero_le _)
  obtain ⟨hsealed, hrecords, hlosses, hnormal, hdebug, htaken⟩ := h
  cases hmoves with
  | waits contended => exact ⟨hsealed, hrecords, hlosses, hnormal, hdebug, htaken⟩
  | locks c hfree hbegins =>
    refine ⟨hsealed, hrecords, hlosses, hnormal, hdebug, ?_⟩
    cases c <;> first | rfl | cases hbegins
  | refuses level observed hcritical _ => exact ⟨hsealed, hrecords, hlosses, hnormal, hdebug, rfl⟩
  | inserts level observed state hcritical hopen hinsert =>
    rw [hsealed] at hopen
    cases hopen
  | counts level contended =>
    have hcount : LossWord.countLoss (LossWord.pack true 0) = LossWord.pack true 0 :=
      LossWord.countLoss_fenced
    cases level with
    | off => exact ⟨hsealed, hrecords, hlosses, hnormal, hdebug, htaken⟩
    | normal =>
      refine ⟨hsealed, hrecords, hlosses, ?_, hdebug, htaken⟩
      show LossWord.countLoss s.pendingNormal = _
      rw [hnormal, hcount]
    | debug =>
      refine ⟨hsealed, hrecords, hlosses, hnormal, ?_, htaken⟩
      show LossWord.countLoss s.pendingDebug = _
      rw [hdebug, hcount]
  | takesNormal hcritical =>
    refine ⟨hsealed, hrecords, hlosses, ?_, hdebug, ?_⟩
    · show s.pendingNormal &&& lossAdmissionSealed = _
      rw [hnormal, hdrain]
    · show (⟨s.pendingNormal &&& pendingLossMask, 0⟩ : DiagnosticLosses) = .none
      rw [hnormal, hmask]
      rfl
  | takesDebug normal hcritical =>
    have hzero : normal = 0 :=
      congrArg DiagnosticLosses.normal ((taken_of hcritical).symm.trans htaken)
    refine ⟨hsealed, hrecords, hlosses, hnormal, ?_, ?_⟩
    · show s.pendingDebug &&& lossAdmissionSealed = _
      rw [hdebug, hdrain]
    · show (⟨normal, s.pendingDebug &&& pendingLossMask⟩ : DiagnosticLosses) = .none
      rw [hdebug, hmask, hzero]
      rfl
  | delivers taken hcritical =>
    have hnone : taken = .none := (taken_of hcritical).symm.trans htaken
    have hempty : (s.state.losses.saturatingSum taken).isEmpty = true := by
      rw [hlosses, hnone]
      rfl
    have hsame := StreamState.deliver_empty hrecords hempty
    rw [hsame]
    exact ⟨hsealed, hrecords, hlosses, hnormal, hdebug, rfl⟩
  | fencesNormal hcritical =>
    refine ⟨hsealed, hrecords, hlosses, ?_, hdebug, rfl⟩
    show s.pendingNormal ||| lossAdmissionSealed = _
    rw [hnormal, hseal]
  | fencesDebug hcritical =>
    refine ⟨hsealed, hrecords, hlosses, hnormal, ?_, rfl⟩
    show s.pendingDebug ||| lossAdmissionSealed = _
    rw [hdebug, hseal]
  | seals hcritical => exact ⟨rfl, hrecords, hlosses, hnormal, hdebug, rfl⟩

def Critical.took : Critical π → DiagnosticLevel → Bool
  | .takenNormal _, .normal | .takenBoth _, .normal | .takenBoth _, .debug => true
  | _, _ => false

/-- What is left of a sealed stream whose losses are being drained, and of one whose end was found. -/
structure Ended (s : DiagnosticStream π) : Prop where
  drained : ∀ level, s.state.sealed = true → s.critical.any (Critical.took · level) = true →
    s.pending level = LossWord.pack true 0
  finished : .endOfStream ∈ s.book.drains → s.Over
  last : s.book.drains.Pairwise fun d d' => d = .endOfStream → d' = .endOfStream

theorem Ended.deliver_over (h : s.Ended) {taken : DiagnosticLosses}
    (hcritical : s.critical = some (.takenBoth taken))
    (hend : (s.state.deliver taken).2 = .endOfStream) :
    { s with
      state := (s.state.deliver taken).1
      critical := none
      book := { s.book with drains := s.book.drains ++ [(s.state.deliver taken).2] } }.Over := by
  have hempty : s.state.records = [] ∧ (s.state.losses.saturatingSum taken).isEmpty = true := by
    by_contra hsome
    rw [StreamState.deliver_batch hsome] at hend
    cases hend
  have hsame := StreamState.deliver_empty hempty.1 hempty.2
  rw [hsame] at hend ⊢
  have hsealed : s.state.sealed = true := by
    by_contra hopen
    rw [Bool.eq_false_of_not_eq_true hopen] at hend
    cases hend
  have hnone : s.state.losses = .none := DiagnosticLosses.eq_none_of_sum hempty.2
  have hnormal := h.drained .normal hsealed (by rw [hcritical]; rfl)
  have hdebug := h.drained .debug hsealed (by rw [hcritical]; rfl)
  exact ⟨hsealed, hempty.1, hnone, hnormal, hdebug, rfl⟩

theorem Over.deliver (h : s.Over) {taken : DiagnosticLosses}
    (hcritical : s.critical = some (.takenBoth taken)) :
    (s.state.deliver taken).2 = .endOfStream := by
  have hnone : taken = .none := (taken_of hcritical).symm.trans h.taken
  have hempty : (s.state.losses.saturatingSum taken).isEmpty = true := by
    rw [h.losses, hnone]
    rfl
  rw [StreamState.deliver_empty h.records hempty, h.closed]
  rfl

theorem Ended.moves (h : s.Ended) (hfences : s.Fences) (hmoves : s.Moves o s') : s'.Ended := by
  have hover : s.Over → s'.Over := fun hover => hover.moves hmoves
  cases hmoves with
  | waits contended => exact ⟨h.drained, fun hend => hover (h.finished hend), h.last⟩
  | locks c hfree hbegins =>
    refine ⟨fun level _ htook => ?_, fun hend => hover (h.finished hend), h.last⟩
    cases c <;> first | cases htook | cases hbegins
  | refuses level observed hcritical hsealed =>
    exact ⟨fun _ _ htook => (by cases htook), fun hend => hover (h.finished hend), h.last⟩
  | inserts level observed state hcritical hopen hinsert =>
    exact ⟨fun _ _ htook => (by cases htook), fun hend => hover (h.finished hend), h.last⟩
  | counts level contended =>
    obtain ⟨hstate, hcritical, hdrains⟩ := countLoss_rest (s := s) level
    have hcount : LossWord.countLoss (LossWord.pack true 0) = LossWord.pack true 0 :=
      LossWord.countLoss_fenced
    refine ⟨fun other hsealed htook => ?_, fun hend => ?_, ?_⟩
    · dsimp only at hsealed htook
      rw [hstate] at hsealed
      rw [hcritical] at htook
      have hword := h.drained other hsealed htook
      cases level with
      | off => exact hword
      | normal =>
        cases other with
        | off => exact hword
        | debug => exact hword
        | normal =>
          show LossWord.countLoss s.pendingNormal = _
          rw [show s.pendingNormal = LossWord.pack true 0 from hword, hcount]
      | debug =>
        cases other with
        | off => exact hword
        | normal => exact hword
        | debug =>
          show LossWord.countLoss s.pendingDebug = _
          rw [show s.pendingDebug = LossWord.pack true 0 from hword, hcount]
    · dsimp only at hend
      rw [hdrains] at hend
      exact hover (h.finished hend)
    · dsimp only
      rw [hdrains]
      exact h.last
  | takesNormal hcritical =>
    refine ⟨fun other hsealed htook => ?_, fun hend => hover (h.finished hend), h.last⟩
    cases other with
    | off => cases htook
    | debug => cases htook
    | normal =>
      exact (hfences.kept .normal).emptied hsealed rfl (fence_eq rfl (by rw [hcritical]; rfl))
  | takesDebug normal hcritical =>
    refine ⟨fun other hsealed htook => ?_, fun hend => hover (h.finished hend), h.last⟩
    cases other with
    | off => cases htook
    | normal => exact h.drained .normal hsealed (by rw [hcritical]; rfl)
    | debug =>
      exact (hfences.kept .debug).emptied hsealed rfl (fence_eq rfl (by rw [hcritical]; rfl))
  | delivers taken hcritical =>
    refine ⟨fun _ _ htook => (by cases htook), fun hend => ?_, ?_⟩
    · rcases List.mem_append.mp hend with hbefore | hlast
      · exact hover (h.finished hbefore)
      · exact h.deliver_over hcritical (List.mem_singleton.mp hlast).symm
    · show (s.book.drains ++ [(s.state.deliver taken).2]).Pairwise _
      rw [List.pairwise_append]
      refine ⟨h.last, List.pairwise_singleton _ _, fun d hd d' hd' hend => ?_⟩
      rw [hend] at hd
      rw [List.mem_singleton.mp hd']
      exact (h.finished hd).deliver hcritical
  | fencesNormal hcritical =>
    exact ⟨fun _ _ htook => (by cases htook), fun hend => hover (h.finished hend), h.last⟩
  | fencesDebug hcritical =>
    exact ⟨fun _ _ htook => (by cases htook), fun hend => hover (h.finished hend), h.last⟩
  | seals hcritical =>
    exact ⟨fun _ _ htook => (by cases htook), fun hend => hover (h.finished hend), h.last⟩

/-! ### The account -/

def reported (s : DiagnosticStream π) (level : DiagnosticLevel) : ℕ :=
  (s.book.drains.map fun d => d.losses.get level).sum

/-- The losses of a level that the reader is still to be told of. -/
def pendingLosses (s : DiagnosticStream π) (level : DiagnosticLevel) : ℕ :=
  s.state.losses.get level + (s.pending level &&& pendingLossMask) + s.taken.get level

def accounted (s : DiagnosticStream π) (level : DiagnosticLevel) : ℕ :=
  s.state.retained level + s.delivered.countP (·.level == level) + s.reported level +
    s.pendingLosses level

/-- No loss counter is full, and the sequence is not exhausted. -/
structure Unsaturated (s : DiagnosticStream π) : Prop where
  next : s.state.nextRecord ≠ 0
  words : ∀ level, (s.pending level &&& pendingLossMask) < pendingLossMask
  losses : ∀ level, s.state.losses.get level + s.taken.get level < u64Max

def Balanced (s : DiagnosticStream π) : Prop :=
  ∀ level, level ≠ .off → s.book.made.get level = s.accounted level

theorem drains_append (drains : List (DiagnosticDrain π)) (d : DiagnosticDrain π)
    (level : DiagnosticLevel) :
    ((drains ++ [d]).flatMap DiagnosticDrain.records).countP (·.level == level) =
      (drains.flatMap DiagnosticDrain.records).countP (·.level == level) +
        d.records.countP (·.level == level) ∧
    ((drains ++ [d]).map fun d => d.losses.get level).sum =
      (drains.map fun d => d.losses.get level).sum + d.losses.get level := by
  constructor
  · rw [List.flatMap_append, List.countP_append, List.flatMap_singleton]
  · rw [List.map_append, List.sum_append, List.map_singleton, List.sum_singleton]

theorem Kept.count_noted (h : s.Kept level) (henabled : level ≠ .off)
    (hroom : (s.pending level &&& pendingLossMask) < pendingLossMask) :
    (s.note level (s.fenced level)).made.get level + (s.pending level &&& pendingLossMask) =
      s.book.made.get level + (LossWord.countLoss (s.pending level) &&& pendingLossMask) := by
  have hfenced := h.fenced
  obtain ⟨count, hcount, hword⟩ := h
  rw [hword, LossWord.taken_pack hcount] at hroom
  unfold note
  rw [hfenced, hword]
  cases s.fence level with
  | true =>
    rw [LossWord.countLoss_fenced]
    rfl
  | false =>
    rw [LossWord.countLoss_pack hroom, LossWord.taken_pack hcount, LossWord.taken_pack hroom]
    rw [if_neg Bool.false_ne_true]
    dsimp only
    rw [DiagnosticLosses.succ_get, if_pos ⟨rfl, henabled⟩]
    omega

theorem note_made_of_ne {other : DiagnosticLevel} (hne : level ≠ other) (refused : Bool) :
    (s.note level refused).made.get other = s.book.made.get other := by
  unfold note
  split
  · rfl
  · dsimp only
    rw [DiagnosticLosses.succ_get, if_neg fun h => hne h.1]
    rfl

theorem Fences.countLoss_counts (h : s.Fences) (hunsaturated : s.Unsaturated)
    (other : DiagnosticLevel) (henabled : level ≠ .off) :
    (s.countLoss other).book.made.get level + (s.pending level &&& pendingLossMask) =
      s.book.made.get level + ((s.countLoss other).pending level &&& pendingLossMask) := by
  by_cases hsame : other = level
  · subst hsame
    have hcount := (h.kept other).count_noted henabled (hunsaturated.words other)
    cases other with
    | off => exact absurd rfl henabled
    | normal => exact hcount
    | debug => exact hcount
  · have hpending : (s.countLoss other).pending level = s.pending level := by
      cases other <;> cases level <;> first | rfl | exact absurd rfl hsame
    have hmade : (s.countLoss other).book.made.get level = s.book.made.get level := by
      cases other with
      | off => rfl
      | normal => exact note_made_of_ne hsame _
      | debug => exact note_made_of_ne hsame _
    rw [hpending, hmade]

theorem Kept.fencing (h : s.Kept level) :
    (s.pending level ||| lossAdmissionSealed) &&& pendingLossMask = s.pending level &&& pendingLossMask := by
  obtain ⟨count, hcount, hword⟩ := h
  rw [hword, LossWord.seal_pack hcount, LossWord.taken_pack hcount, LossWord.taken_pack hcount]

theorem Kept.taking (h : s.Kept level) :
    (s.pending level &&& lossAdmissionSealed) &&& pendingLossMask = 0 := by
  obtain ⟨count, hcount, hword⟩ := h
  rw [hword, LossWord.drain_pack hcount, LossWord.taken_pack (Nat.zero_le _)]

/-- **Every step keeps the account balanced**, while nothing is saturated or exhausted. -/
theorem Balanced.moves (h : s.Balanced) (hfences : s.Fences) (hunsaturated : s.Unsaturated)
    (hmoves : s.Moves o s') : s'.Balanced := by
  intro level hlevel
  have hbefore := h level hlevel
  unfold accounted pendingLosses at hbefore ⊢
  cases hmoves with
  | waits contended => exact hbefore
  | locks c hfree hbegins =>
    have htaken : s.taken = .none := by
      unfold DiagnosticStream.taken
      rw [hfree]
    rw [htaken] at hbefore
    cases c <;> first | exact hbefore | cases hbegins
  | refuses other observed hcritical hsealed =>
    rw [taken_of hcritical] at hbefore
    exact hbefore
  | inserts other observed state hcritical hopen hinsert =>
    rw [taken_of hcritical] at hbefore
    have hroom : ∀ level, s.state.losses.get level < u64Max := by
      intro level
      have hlt := hunsaturated.losses level
      omega
    have hcounts := StreamState.insert_counts hinsert hunsaturated.next hroom hlevel
    show (s.book.made.succ other).get level = state.retained level +
      s.delivered.countP (·.level == level) + s.reported level +
      (state.losses.get level + (s.pending level &&& pendingLossMask) + DiagnosticLosses.none.get level)
    rw [DiagnosticLosses.succ_get]
    dsimp only [Critical.taken] at hbefore
    omega
  | counts other contended =>
    obtain ⟨hstate, hcritical, hdrains⟩ := countLoss_rest (s := s) other
    have hcounts := hfences.countLoss_counts hunsaturated other hlevel
    unfold delivered reported DiagnosticStream.taken at hbefore ⊢
    dsimp only
    rw [hstate, hcritical, hdrains]
    show (s.countLoss other).book.made.get level = _ + _ + _ +
      (_ + ((s.countLoss other).pending level &&& pendingLossMask) + _)
    omega
  | takesNormal hcritical =>
    rw [taken_of hcritical] at hbefore
    cases level with
    | off => exact absurd rfl hlevel
    | normal =>
      have htaking := (hfences.kept .normal).taking
      show s.book.made.normal = s.state.retained .normal + s.delivered.countP (·.level == .normal) +
        s.reported .normal + (s.state.losses.normal +
          (s.pending .normal &&& lossAdmissionSealed &&& pendingLossMask) +
          (s.pending .normal &&& pendingLossMask))
      have hmade : s.book.made.normal = s.state.retained .normal +
          s.delivered.countP (·.level == .normal) + s.reported .normal +
          (s.state.losses.normal + (s.pending .normal &&& pendingLossMask) + 0) := hbefore
      omega
    | debug => exact hbefore
  | takesDebug normal hcritical =>
    rw [taken_of hcritical] at hbefore
    cases level with
    | off => exact absurd rfl hlevel
    | normal => exact hbefore
    | debug =>
      have htaking := (hfences.kept .debug).taking
      show s.book.made.debug = s.state.retained .debug + s.delivered.countP (·.level == .debug) +
        s.reported .debug + (s.state.losses.debug +
          (s.pending .debug &&& lossAdmissionSealed &&& pendingLossMask) +
          (s.pending .debug &&& pendingLossMask))
      have hmade : s.book.made.debug = s.state.retained .debug +
          s.delivered.countP (·.level == .debug) + s.reported .debug +
          (s.state.losses.debug + (s.pending .debug &&& pendingLossMask) + 0) := hbefore
      omega
  | delivers taken hcritical =>
    rw [taken_of hcritical] at hbefore
    have hlt := hunsaturated.losses level
    rw [taken_of hcritical] at hlt
    have hcounts := StreamState.deliver_counts (s := s.state) (le_of_lt hlt)
    obtain ⟨hdelivered, hreported⟩ := drains_append s.book.drains (s.state.deliver taken).2 level
    show s.book.made.get level = (s.state.deliver taken).1.retained level +
      ((s.book.drains ++ [(s.state.deliver taken).2]).flatMap DiagnosticDrain.records).countP
        (·.level == level) +
      ((s.book.drains ++ [(s.state.deliver taken).2]).map fun d => d.losses.get level).sum +
      ((s.state.deliver taken).1.losses.get level + (s.pending level &&& pendingLossMask) +
        DiagnosticLosses.none.get level)
    unfold delivered reported at hbefore
    rw [hdelivered, hreported, DiagnosticLosses.none_get]
    dsimp only [Critical.taken] at hbefore hcounts
    omega
  | fencesNormal hcritical =>
    rw [taken_of hcritical] at hbefore
    cases level with
    | off => exact absurd rfl hlevel
    | normal =>
      have hfencing := (hfences.kept .normal).fencing
      rw [← hfencing] at hbefore
      exact hbefore
    | debug => exact hbefore
  | fencesDebug hcritical =>
    rw [taken_of hcritical] at hbefore
    cases level with
    | off => exact absurd rfl hlevel
    | normal => exact hbefore
    | debug =>
      have hfencing := (hfences.kept .debug).fencing
      rw [← hfencing] at hbefore
      exact hbefore
  | seals hcritical =>
    rw [taken_of hcritical] at hbefore
    exact hbefore

/-! ### Emissions -/

/-- The emissions of a level that are neither made nor refused yet. -/
def underway (s : DiagnosticStream π) (level : DiagnosticLevel) : ℕ :=
  s.contended.get level + (s.critical.map (·.emits level)).getD 0

theorem note_ends (s : DiagnosticStream π) (other : DiagnosticLevel) (refused : Bool)
    (henabled : level ≠ .off) :
    (s.note other refused).made.get level + (s.note other refused).refused.get level =
      s.book.made.get level + s.book.refused.get level + if other = level then 1 else 0 := by
  have hsame : (other = level ∧ other ≠ .off) ↔ other = level := by
    constructor
    · exact And.left
    · rintro rfl
      exact ⟨rfl, henabled⟩
  unfold note
  split
  · dsimp only
    rw [DiagnosticLosses.succ_get]
    simp only [hsame]
    omega
  · dsimp only
    rw [DiagnosticLosses.succ_get]
    simp only [hsame]
    omega

theorem underway_same (hbook : s'.book.made = s.book.made ∧ s'.book.refused = s.book.refused)
    (hcontended : s'.contended = s.contended)
    (hcritical : (s'.critical.map (·.emits level)).getD 0 = (s.critical.map (·.emits level)).getD 0) :
    s'.book.made.get level + s'.book.refused.get level + s'.underway level =
      s.book.made.get level + s.book.refused.get level + s.underway level + 0 := by
  unfold underway
  rw [hbook.1, hbook.2, hcontended, hcritical]
  rfl

theorem perform_emissions {e : StreamEvent π} (h : s.perform o e = some s') (henabled : level ≠ .off) :
    s'.book.made.get level + s'.book.refused.get level + s'.underway level =
      s.book.made.get level + s.book.refused.get level + s.underway level +
        if e.emits o level then 1 else 0 := by
  cases e with
  | emit other observed contended =>
    show _ = _ + if (o.level.admits other && other == level) = true then 1 else 0
    unfold perform at h
    dsimp only at h
    by_cases hadmits : o.level.admits other = true
    · rw [hadmits] at h ⊢
      rw [if_neg (by decide)] at h
      simp only [Bool.true_and, beq_iff_eq]
      have hsame : (other = level ∧ other ≠ .off) ↔ other = level := by
        constructor
        · exact And.left
        · rintro rfl
          exact ⟨rfl, henabled⟩
      split at h
      · obtain rfl := Option.some.inj h
        unfold underway
        dsimp only
        rw [DiagnosticLosses.succ_get]
        simp only [hsame]
        omega
      · split at h
        · rename_i hfree
          obtain rfl := Option.some.inj h
          unfold underway
          rw [hfree]
          show s.book.made.get level + s.book.refused.get level +
            (s.contended.get level + if other = level then 1 else 0) = _ + _ + (_ + 0) + _
          omega
        · cases h
    · rw [if_pos (by simpa using hadmits)] at h
      obtain rfl := Option.some.inj h
      rw [Bool.eq_false_of_not_eq_true hadmits]
      rfl
  | insert =>
    unfold perform at h
    dsimp only at h
    split at h
    · rename_i other observed hcritical
      have hbefore : s.underway level = s.contended.get level + if other = level then 1 else 0 := by
        unfold underway
        rw [hcritical]
        rfl
      split at h
      · obtain rfl := Option.some.inj h
        have hends := s.note_ends other true henabled
        show _ + _ + (s.contended.get level + 0) = _ + 0
        rw [hbefore]
        dsimp only
        omega
      · obtain ⟨state, -, rfl⟩ := Option.map_eq_some_iff.mp h
        have hends := s.note_ends other false henabled
        show _ + _ + (s.contended.get level + 0) = _ + 0
        rw [hbefore]
        dsimp only
        omega
    · cases h
  | countLoss other =>
    unfold perform at h
    have hends := s.note_ends other (s.fenced other) henabled
    cases other with
    | off => cases h
    | normal =>
      dsimp only at h
      split at h
      · rename_i hwaits
        obtain rfl := Option.some.inj h
        show _ + _ + ((⟨s.contended.normal - 1, s.contended.debug⟩ : DiagnosticLosses).get level +
          (s.critical.map (·.emits level)).getD 0) =
            _ + _ + (s.contended.get level + (s.critical.map (·.emits level)).getD 0) + 0
        have hleft : (⟨s.contended.normal - 1, s.contended.debug⟩ : DiagnosticLosses).get level +
            (if .normal = level then 1 else 0) = s.contended.get level := by
          cases level with
          | off => exact absurd rfl henabled
          | normal => exact Nat.sub_add_cancel hwaits
          | debug => rfl
        dsimp only [countLoss]
        omega
      · cases h
    | debug =>
      dsimp only at h
      split at h
      · rename_i hwaits
        obtain rfl := Option.some.inj h
        show _ + _ + ((⟨s.contended.normal, s.contended.debug - 1⟩ : DiagnosticLosses).get level +
          (s.critical.map (·.emits level)).getD 0) =
            _ + _ + (s.contended.get level + (s.critical.map (·.emits level)).getD 0) + 0
        have hleft : (⟨s.contended.normal, s.contended.debug - 1⟩ : DiagnosticLosses).get level +
            (if .debug = level then 1 else 0) = s.contended.get level := by
          cases level with
          | off => exact absurd rfl henabled
          | normal => rfl
          | debug => exact Nat.sub_add_cancel hwaits
        dsimp only [countLoss]
        omega
      · cases h
  | normalLoss =>
    obtain rfl := Option.some.inj h
    have hends := s.note_ends .normal (s.fenced .normal) henabled
    have hone : (if (StreamEvent.normalLoss : StreamEvent π).emits o level then 1 else 0) =
        if DiagnosticLevel.normal = level then 1 else 0 := by
      cases level <;> rfl
    rw [hone]
    show (s.note .normal (s.fenced .normal)).made.get level +
      (s.note .normal (s.fenced .normal)).refused.get level + s.underway level = _
    omega
  | lockDrain =>
    unfold perform at h
    dsimp only at h
    split at h
    · rename_i hfree
      obtain rfl := Option.some.inj h
      exact underway_same ⟨rfl, rfl⟩ rfl (by rw [hfree]; rfl)
    · cases h
  | takeNormal =>
    unfold perform at h
    dsimp only at h
    split at h
    · rename_i hcritical
      obtain rfl := Option.some.inj h
      exact underway_same ⟨rfl, rfl⟩ rfl (by rw [hcritical]; rfl)
    · cases h
  | takeDebug =>
    unfold perform at h
    dsimp only at h
    split at h
    · rename_i normal hcritical
      obtain rfl := Option.some.inj h
      exact underway_same ⟨rfl, rfl⟩ rfl (by rw [hcritical]; rfl)
    · cases h
  | deliver =>
    unfold perform at h
    dsimp only at h
    split at h
    · rename_i taken hcritical
      obtain rfl := Option.some.inj h
      exact underway_same ⟨rfl, rfl⟩ rfl (by rw [hcritical]; rfl)
    · cases h
  | lockSeal =>
    unfold perform at h
    dsimp only at h
    split at h
    · rename_i hfree
      obtain rfl := Option.some.inj h
      exact underway_same ⟨rfl, rfl⟩ rfl (by rw [hfree]; rfl)
    · cases h
  | fenceNormal =>
    unfold perform at h
    dsimp only at h
    split at h
    · rename_i hcritical
      obtain rfl := Option.some.inj h
      exact underway_same ⟨rfl, rfl⟩ rfl (by rw [hcritical]; rfl)
    · cases h
  | fenceDebug =>
    unfold perform at h
    dsimp only at h
    split at h
    · rename_i hcritical
      obtain rfl := Option.some.inj h
      exact underway_same ⟨rfl, rfl⟩ rfl (by rw [hcritical]; rfl)
    · cases h
  | publishSeal =>
    unfold perform at h
    dsimp only at h
    split at h
    · rename_i hcritical
      obtain rfl := Option.some.inj h
      exact underway_same ⟨rfl, rfl⟩ rfl (by rw [hcritical]; rfl)
    · cases h

/-! ### Runs -/

theorem sound {s : DiagnosticStream π} (h : (streamSystem π o).Reachable s) :
    s.Fences ∧ s.Ordered ∧ s.Ended := by
  refine h.invariant (P := fun s => s.Fences ∧ s.Ordered ∧ s.Ended) (fun s hs => ?_)
    fun s e s' _ hsound hstep => ?_
  · obtain rfl : s = .new := hs
    refine ⟨⟨fun level => ⟨0, Nat.zero_le _, ?_⟩, fun level hlevel => ?_⟩, ⟨.nil, fun _ r hr => ?_⟩,
      ⟨fun _ hsealed => ?_, fun hend => ?_, .nil⟩⟩
    · cases level <;> rfl
    · cases level <;> exact absurd rfl hlevel
    · cases hr
    · cases hsealed
    · cases hend
  · obtain ⟨hfences, hordered, hended⟩ := hsound
    have hmoves := perform_moves hstep
    exact ⟨hfences.moves hmoves, hordered.moves hmoves, hended.moves hfences hmoves⟩

theorem balanced {s : DiagnosticStream π} {trail : List (DiagnosticStream π × StreamEvent π)}
    (h : (streamSystem π o).Path .new trail s) (hunsaturated : ∀ x ∈ trail, x.1.Unsaturated) :
    s.Balanced := by
  refine h.guarded (G := fun s _ => s.Unsaturated) (fun s e s' hr hbalanced hun hstep => ?_)
    (.of_init rfl) (fun level _ => ?_) hunsaturated
  · exact hbalanced.moves (sound hr).1 hun (perform_moves hstep)
  · have hzero : (new : DiagnosticStream π).pending level &&& pendingLossMask = 0 := by
      cases level <;> exact Nat.zero_and _
    unfold accounted pendingLosses
    rw [hzero]
    cases level <;> rfl

theorem emissions {s : DiagnosticStream π} {trail : List (DiagnosticStream π × StreamEvent π)}
    (h : (streamSystem π o).Path .new trail s) {level : DiagnosticLevel} (henabled : level ≠ .off) :
    s.book.made.get level + s.book.refused.get level + s.underway level =
      trail.countP fun x => x.2.emits o level := by
  refine h.along (P := fun trail s => s.book.made.get level + s.book.refused.get level +
    s.underway level = trail.countP fun x => x.2.emits o level) ?_ fun trail t e u _ hbefore hstep => ?_
  · cases level <;> rfl
  · rw [perform_emissions hstep henabled, hbefore, List.countP_append, List.countP_singleton]

end DiagnosticStream

open DiagnosticStream

/-- **Diagnostic accounting.**  Of the emissions of a level that a run begins, those that were made are
the records retained and delivered and the losses reported and pending.  The others are underway or were
refused; only a level that the seal has come past refuses emissions, and no more are made of it.  What
was delivered is in the order of its sequences, and a stream whose end was found has ended. -/
theorem diagnostic_accounting {s : DiagnosticStream π}
    {trail : List (DiagnosticStream π × StreamEvent π)} (h : (streamSystem π o).Path .new trail s)
    (hunsaturated : ∀ x ∈ trail, x.1.Unsaturated) :
    (∀ level, o.level.admits level = true →
      s.book.made.get level + s.book.refused.get level + s.underway level =
        (trail.countP fun x => x.2.emits o level) ∧
      s.book.made.get level = s.state.retained level + s.delivered.countP (·.level == level) +
        s.reported level + s.pendingLosses level ∧
      (s.book.refused.get level ≠ 0 → s.fenced level = true) ∧
      (s.fenced level = true → ∀ s', (streamSystem π o).Leads s s' →
        s'.book.made.get level = s.book.made.get level)) ∧
    (s.delivered.map DiagnosticRecord.sequence).Pairwise (· < ·) ∧
    s.book.drains.Pairwise (fun d d' => d = .endOfStream → d' = .endOfStream) := by
  have hreachable : (streamSystem π o).Reachable s := ⟨_, rfl, _, h⟩
  obtain ⟨hfences, hordered, hended⟩ := sound hreachable
  refine ⟨fun level hadmits => ?_, ?_, hended.last⟩
  · have henabled : level ≠ .off := by
      rintro rfl
      rw [DiagnosticLevel.admits_off] at hadmits
      cases hadmits
    refine ⟨emissions h henabled, balanced h hunsaturated level henabled, ?_, ?_⟩
    · intro hrefused
      exact (hfences.kept level).fenced.trans (hfences.refused level hrefused)
    · intro hfenced s' hleads
      have hstays : s'.fence level = true ∧ s'.book.made.get level = s.book.made.get level := by
        refine hleads.preserves
          (P := fun s' => s'.fence level = true ∧ s'.book.made.get level = s.book.made.get level)
          (fun t e t' hr hP hstep => ?_) hreachable
          ⟨(hfences.kept level).fenced.symm.trans hfenced, rfl⟩
        have hmoves := perform_moves hstep
        exact ⟨hmoves.fence_mono hP.1, ((sound hr).1.made_moves hmoves hP.1).trans hP.2⟩
      exact hstays.2
  · rw [List.pairwise_map]
    exact (List.pairwise_append.mp hordered.sorted).1

/-! ### A run -/

def oneRecord : DiagnosticOptions := ⟨.debug, 1, by decide, by decide, by decide⟩

/-- Two emissions, the second one evicting the first; a third finds the mutex held by a drain, which
takes the words before that loss is counted; then the stream is sealed, an emission is refused, and
the reader drains the rest and finds the end. -/
def sealedRun : List (StreamEvent ℕ) :=
  [.emit .normal 10 false, .insert, .emit .normal 11 false, .insert, .lockDrain, .emit .debug 12 true,
    .takeNormal, .takeDebug, .countLoss .debug, .deliver, .lockSeal, .fenceNormal, .fenceDebug,
    .publishSeal, .emit .normal 13 false, .insert, .lockDrain, .takeNormal, .takeDebug, .deliver,
    .lockDrain, .takeNormal, .takeDebug, .deliver]

def sealedTrace : List (DiagnosticStream ℕ × StreamEvent ℕ) × DiagnosticStream ℕ :=
  (System.trace (fun s e => s.perform oneRecord e) sealedRun .new).get (by decide)

instance (s : DiagnosticStream π) : Decidable s.Unsaturated :=
  decidable_of_iff (s.state.nextRecord ≠ 0 ∧
    (∀ level ∈ [DiagnosticLevel.off, .normal, .debug],
      (s.pending level &&& pendingLossMask) < pendingLossMask ∧
        s.state.losses.get level + s.taken.get level < u64Max)) (by
    constructor
    · rintro ⟨hnext, hall⟩
      exact ⟨hnext, fun level => (hall level (by cases level <;> simp)).1,
        fun level => (hall level (by cases level <;> simp)).2⟩
    · rintro ⟨hnext, hwords, hlosses⟩
      exact ⟨hnext, fun level _ => ⟨hwords level, hlosses level⟩⟩)

theorem sealedTrace_path :
    (streamSystem ℕ oneRecord).Path .new sealedTrace.1 sealedTrace.2 := by
  have htrace : System.trace (fun s e => s.perform oneRecord e) sealedRun .new = some sealedTrace := by
    unfold sealedTrace
    rw [Option.some_get]
  exact System.trace_path htrace

/-- Two normal emissions were made, one was delivered and one reported as lost, and the one after the
seal was refused; the debug emission was reported by the second drain. -/
theorem diagnostic_accounting_sample :
    sealedTrace.2.book.drains =
      [.batch [⟨2, .normal, 11⟩] ⟨1, 0⟩, .batch [] ⟨0, 1⟩, .endOfStream] ∧
    sealedTrace.2.book.made.get .normal =
      sealedTrace.2.state.retained .normal +
        sealedTrace.2.delivered.countP (·.level == .normal) +
        sealedTrace.2.reported .normal + sealedTrace.2.pendingLosses .normal ∧
    sealedTrace.2.fenced .normal = true ∧
    (sealedTrace.2.delivered.map DiagnosticRecord.sequence).Pairwise (· < ·) := by
  have hunsaturated : ∀ x ∈ sealedTrace.1, x.1.Unsaturated := by decide +kernel
  obtain ⟨hlevels, hsequences, -⟩ := diagnostic_accounting sealedTrace_path hunsaturated
  obtain ⟨-, hmade, hrefused, -⟩ := hlevels .normal rfl
  refine ⟨by decide +kernel, hmade, hrefused ?_, hsequences⟩
  decide +kernel

end MadoPilot.Diagnostic
