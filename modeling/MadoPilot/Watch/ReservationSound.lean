import MadoPilot.Watch.Reservation

/-!
# What a start and a session keep

A start keeps the books of its two places, whatever its thread and the threads on its query do next
(`Reservation.Sound`), and a session that is being switched is not activated
(`WatchSession.Sound`).  The lemmas say that each call keeps either, one lemma for each.
-/

namespace MadoPilot.Watch

open MadoPilot.Lib

/-- What a start has taken it has or has given back once, and a query gives back when it has ended. -/
structure Reservation.Sound (q : Reservation) : Prop where
  engine : q.engineReturns + q.stage.holdsEngine.toNat = 1
  slot : q.slotReturns + q.stage.holdsSlot.toNat = q.slotsTaken
  taken : q.slotsTaken = q.stage.tookSlot.toNat
  unbuilt : q.stage.built = false → q.references = 0 ∧ q.terminal = false ∧ q.calls = 0
  released : q.reservationReleased = true ↔ q.stage.built = true ∧ q.stage ≠ .live
  owed : q.ended = true → q.stage = .live → 0 < q.calls
  due : q.reservationReleased = true ∨ 0 < q.calls → q.ended = true

/-- A session that is being activated or deactivated is not activated. -/
structure WatchSession.Sound (x : WatchSession) : Prop where
  switching : x.activation.isSome = true → x.activated = false
  empty : ∀ i, x.activation = some (.activating i) → x.activeQueries = 0
  limit : x.activeQueries ≤ maxSessionQueries

/-! ### Starts and their queries -/

namespace Reservation

variable {q : Reservation}

theorem begun_sound (kind : WatchKind) (s : ℕ) : (begun kind s).Sound := by
  constructor <;> simp [begun, ended, Stage.holdsEngine, Stage.holdsSlot, Stage.tookSlot, Stage.built]

theorem Sound.move {stage : Stage} {slots engines returns : ℕ} (h : q.Sound)
    (hunbuilt : q.stage.built = false) (hstage : stage.built = false)
    (hengine : engines + stage.holdsEngine.toNat = 1)
    (hslot : returns + stage.holdsSlot.toNat = slots) (htaken : slots = stage.tookSlot.toNat) :
    Sound { q with stage := stage, slotsTaken := slots, engineReturns := engines
                   slotReturns := returns } := by
  obtain ⟨hrefs, hterminal, hcalls⟩ := h.unbuilt hunbuilt
  have hreleased := h.released
  rw [hunbuilt] at hreleased
  simp only [Bool.false_eq_true, false_and, iff_false] at hreleased
  refine ⟨hengine, hslot, htaken, fun _ => ⟨hrefs, hterminal, hcalls⟩, ?_, ?_, fun hd => ?_⟩
  · simpa only [hstage, Bool.false_eq_true, false_and, iff_false] using hreleased
  · simp [ended, hterminal, hstage]
  · rcases hd with hd | hd
    · exact absurd hd hreleased
    · exact absurd hcalls (Nat.ne_of_gt hd)

theorem Sound.place {start : StartPlace} (h : q.Sound) : Sound { q with start := start } :=
  ⟨h.engine, h.slot, h.taken, h.unbuilt, h.released, h.owed, h.due⟩

theorem Sound.build (h : q.Sound) (hstage : q.stage = .slotted) :
    Sound { q with stage := .live, references := 1 } := by
  obtain ⟨-, hterminal, hcalls⟩ := h.unbuilt (by rw [hstage]; rfl)
  have hengine := h.engine
  have hslot := h.slot
  have htaken := h.taken
  have hreleased := h.released
  rw [hstage] at hengine hslot htaken hreleased
  simp only [Stage.built, Bool.false_eq_true, false_and, iff_false] at hreleased
  refine ⟨hengine, hslot, htaken, fun hb => (by cases hb), ?_, fun he => ?_, fun hd => ?_⟩
  · simpa using hreleased
  · simp [ended, hterminal] at he
  · rcases hd with hd | hd
    · exact absurd hd hreleased
    · exact absurd hcalls (Nat.ne_of_gt hd)

theorem ended_of_references (hrefs : 0 < q.references) : q.ended = q.terminal := by
  have hne : (q.references == 0) = false := beq_false_of_ne (Nat.ne_of_gt hrefs)
  simp [ended, hne]

theorem Sound.live_built (h : q.Sound) (hrefs : 0 < q.references ∨ 0 < q.calls) :
    q.stage.built = true := by
  cases hb : q.stage.built with
  | true => rfl
  | false =>
    obtain ⟨h0, -, hc⟩ := h.unbuilt hb
    omega

theorem Sound.upgrade (h : q.Sound) (hrefs : 0 < q.references) :
    Sound { q with references := q.references + 1 } := by
  have hbuilt := h.live_built (Or.inl hrefs)
  have hended : ended { q with references := q.references + 1 } = q.ended := by
    rw [ended_of_references hrefs]
    exact ended_of_references (Nat.succ_pos _)
  refine ⟨h.engine, h.slot, h.taken, fun hb => ?_, h.released, fun he => ?_, fun hd => ?_⟩
  · rw [hbuilt] at hb
    cases hb
  · rw [hended] at he
    exact h.owed he
  · rw [hended]
    exact h.due hd

theorem Sound.letGo (h : q.Sound) (hrefs : 0 < q.references) : q.letGo.Sound := by
  have hbuilt := h.live_built (Or.inl hrefs)
  have hunbuilt : q.stage.built = false → q.references - 1 = 0 ∧ q.terminal = false ∧
      (if q.references = 1 then q.calls + 1 else q.calls) = 0 := fun hb => by
    rw [hbuilt] at hb
    cases hb
  unfold Reservation.letGo
  by_cases hone : q.references = 1
  · -- the last reference
    refine ⟨h.engine, h.slot, h.taken, hunbuilt, h.released, fun _ _ => ?_, fun _ => ?_⟩
    · simp only [if_pos hone]
      omega
    · simp [ended, hone, hbuilt]
  · have hended : ended { q with references := q.references - 1, calls := if q.references = 1 then
        q.calls + 1 else q.calls } = q.ended := by
      rw [ended_of_references hrefs]
      exact ended_of_references (by simp only; omega)
    refine ⟨h.engine, h.slot, h.taken, hunbuilt, h.released, fun he => ?_, fun hd => ?_⟩
    · rw [hended] at he
      simpa only [if_neg hone] using h.owed he
    · rw [hended]
      simp only [if_neg hone] at hd
      exact h.due hd

theorem terminate_stage : q.terminate.stage = q.stage := by
  unfold terminate
  split <;> rfl

theorem terminate_session : q.terminate.session = q.session := by
  unfold terminate
  split <;> rfl

theorem Sound.terminate (h : q.Sound) (hrefs : 0 < q.references) : q.terminate.Sound := by
  have hbuilt := h.live_built (Or.inl hrefs)
  unfold Reservation.terminate
  split
  · exact h
  · refine ⟨h.engine, h.slot, h.taken, fun hb => ?_, h.released, fun _ _ => Nat.succ_pos _,
      fun _ => rfl⟩
    rw [hbuilt] at hb
    cases hb

/-- **The swap.**  The first call finds the query with both places and starts giving them back, a
later one finds the flag set. -/
theorem Sound.swapReleased (h : q.Sound) (hcalls : 0 < q.calls) :
    q.swapReleased.Sound ∧ q.swapReleased.stage.holdsEngine = q.stage.holdsEngine ∧
    q.swapReleased.stage.holdsSlot = q.stage.holdsSlot ∧ q.swapReleased.stage ≠ .activating := by
  have hbuilt := h.live_built (Or.inr hcalls)
  have hended := h.due (Or.inr hcalls)
  unfold Reservation.swapReleased
  split
  · rename_i hset
    have hstage := h.released.mp hset
    refine ⟨⟨h.engine, h.slot, h.taken, fun hb => ?_, h.released, fun _ hlive => ?_, fun _ => hended⟩,
      rfl, rfl, fun he => ?_⟩
    · rw [hbuilt] at hb
      cases hb
    · exact absurd hlive hstage.2
    · rw [he] at hbuilt
      cases hbuilt
  · rename_i hclear
    have hlive : q.stage = .live := by
      by_contra hne
      exact hclear (h.released.mpr ⟨hbuilt, hne⟩)
    have hengine := h.engine
    have hslot := h.slot
    have htaken := h.taken
    rw [hlive] at hengine hslot htaken
    rw [ended, hbuilt] at hended
    refine ⟨⟨hengine, hslot, htaken, fun hb => (by cases hb), ?_, fun _ hl => (by cases hl),
      fun _ => hended⟩, ?_, ?_, fun he => (by cases he)⟩
    · simp [Stage.built]
    · rw [hlive]
      rfl
    · rw [hlive]
      rfl

end Reservation

namespace Stage

theorem engineReturned_spec {a b : Stage} (h : a.engineReturned = some b) :
    a.holdsEngine = true ∧ b.holdsEngine = false ∧ b.holdsSlot = a.holdsSlot ∧
    b.tookSlot = a.tookSlot ∧ b.built = a.built ∧ a ≠ .live ∧ b ≠ .live ∧ b ≠ .activating := by
  cases a <;> simp only [engineReturned, Option.some.injEq, reduceCtorEq] at h <;> subst h <;>
    simp [holdsEngine, holdsSlot, tookSlot, built]

theorem slotReturned_spec {a b : Stage} (h : a.slotReturned = some b) :
    a.holdsSlot = true ∧ b.holdsSlot = false ∧ b.holdsEngine = a.holdsEngine ∧
    b.tookSlot = a.tookSlot ∧ b.built = a.built ∧ a ≠ .live ∧ b ≠ .live ∧ b ≠ .activating := by
  cases a <;> simp only [slotReturned, Option.some.injEq, reduceCtorEq] at h <;> subst h <;>
    simp [holdsEngine, holdsSlot, tookSlot, built]

end Stage

namespace Reservation

variable {q : Reservation}

theorem Sound.returnEngine {stage : Stage} (h : q.Sound) (hs : q.stage.engineReturned = some stage) :
    Sound { q with stage := stage, engineReturns := q.engineReturns + 1 } := by
  obtain ⟨hheld, hback, hslot, htook, hbuilt, hne, hne', -⟩ := Stage.engineReturned_spec hs
  have hengine := h.engine
  have hslots := h.slot
  have htaken := h.taken
  have hreleased := h.released
  have hdue := h.due
  refine ⟨?_, ?_, ?_, ?_, ?_, fun _ hl => absurd hl hne', ?_⟩
  · simp only [hheld, hback, Bool.toNat_true, Bool.toNat_false] at hengine ⊢
    omega
  · simpa only [hslot] using hslots
  · simpa only [htook] using htaken
  · simpa only [hbuilt] using h.unbuilt
  · simpa only [hbuilt, hne, hne', ne_eq, not_false_eq_true, and_true] using hreleased
  · simpa only [ended, hbuilt] using hdue

theorem Sound.returnSlot {stage : Stage} (h : q.Sound) (hs : q.stage.slotReturned = some stage) :
    Sound { q with stage := stage, slotReturns := q.slotReturns + 1 } := by
  obtain ⟨hheld, hback, hengine, htook, hbuilt, hne, hne', -⟩ := Stage.slotReturned_spec hs
  have hengines := h.engine
  have hslots := h.slot
  have htaken := h.taken
  have hreleased := h.released
  have hdue := h.due
  refine ⟨?_, ?_, ?_, ?_, ?_, fun _ hl => absurd hl hne', ?_⟩
  · simpa only [hengine] using hengines
  · simp only [hheld, hback, Bool.toNat_true, Bool.toNat_false] at hslots ⊢
    omega
  · simpa only [htook] using htaken
  · simpa only [hbuilt] using h.unbuilt
  · simpa only [hbuilt, hne, hne', ne_eq, not_false_eq_true, and_true] using hreleased
  · simpa only [ended, hbuilt] using hdue

end Reservation

/-! ### Sessions -/

namespace WatchSession

variable {x : WatchSession}

/-- **The end of a section that may deactivate.**  The session keeps its place until
`active_sessions` is written, and only a session nobody switches is switched. -/
theorem deactivateIf_spec (wanted leaving : Bool) (x : WatchSession) :
    (x.deactivateIf wanted leaving).activeQueries = x.activeQueries ∧
    (x.activation = none → (x.deactivateIf wanted leaving).counted = x.counted) ∧
    (x.activation = none → (x.deactivateIf wanted leaving).activation.isSome = true →
      (x.deactivateIf wanted leaving).activated = false) ∧
    (x.activation = none →
      ∀ j, (x.deactivateIf wanted leaving).activation ≠ some (.activating j)) := by
  unfold WatchSession.deactivateIf WatchSession.deactivateLocked WatchSession.counted
    WatchSession.acquisitionLeft
  by_cases hp : x.physicalOcr = 0 <;> cases wanted <;> cases leaving <;> cases ha : x.activated <;>
    simp +contextual [hp, ha]

theorem deactivateIf_sound {wanted leaving : Bool} (hnone : x.activation = none)
    (hlimit : x.activeQueries ≤ maxSessionQueries) : (x.deactivateIf wanted leaving).Sound := by
  obtain ⟨hslot, -, hswitch, hlock⟩ := deactivateIf_spec wanted leaving x
  exact ⟨hswitch hnone, fun j hj => absurd hj (hlock hnone j), hslot ▸ hlimit⟩

end WatchSession

end MadoPilot.Watch
