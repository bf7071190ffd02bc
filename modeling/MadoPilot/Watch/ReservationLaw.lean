import MadoPilot.Watch.ReservationSound

/-!
# Every place is counted, and given back once

* `Kept` : the counters count the places that are out, and none passes its limit; it is what every
  step of a manager keeps (`Kept.perform`);
* `reservations_counted` : the law in every reachable state, and what is left of it when no start, no
  release and no deactivation is under way;
* `slot_lags_engine` : between the two places of one start the counters disagree.
-/

namespace MadoPilot.Watch

open MadoPilot.Capture (usizeMax)
open MadoPilot.Lib

/-! ### The invariant -/

/-- The start has a place in session `s`. -/
def Reservation.inSlot (s : ℕ) (q : Reservation) : Bool := q.session == s && q.stage.holdsSlot

structure Manager.Kept (m : Manager) : Prop where
  engine : m.queryCount = m.queries.countP (·.stage.holdsEngine)
  engine_le : m.queryCount ≤ maxEngineQueries
  slot : ∀ (s : ℕ) (x : WatchSession), m.sessions[s]? = some x →
    x.activeQueries = m.queries.countP (·.inSlot s)
  active : m.activeSessions = m.sessions.countP (·.counted)
  active_le : m.activeSessions ≤ maxActiveSessions
  query : ∀ (i : ℕ) (q : Reservation), m.queries[i]? = some q → q.Sound
  session : ∀ (s : ℕ) (x : WatchSession), m.sessions[s]? = some x → x.Sound
  placed : ∀ q ∈ m.queries, q.session < m.sessions.length
  holder : ∀ (i : ℕ) (q : Reservation) (x : WatchSession), m.queries[i]? = some q →
    m.sessions[q.session]? = some x → q.stage = .activating → x.activation = some (.activating i)

namespace Manager

variable {m m' : Manager} {i : ℕ} {q r : Reservation} {x z : WatchSession}

theorem kept_new : new.Kept := by
  constructor <;> simp [new]

/-- **A step of a start and its session.**  The counters move with the two entries, and the session's
lock is not taken from another start. -/
theorem Kept.shift (h : m.Kept) (hq : m.queries[i]? = some q) (hx : m.sessions[q.session]? = some x)
    (hqs : m'.queries = m.queries.set i r) (hxs : m'.sessions = m.sessions.set q.session z)
    (hsame : r.session = q.session)
    (hengine : m'.queryCount + q.stage.holdsEngine.toNat =
      m.queryCount + r.stage.holdsEngine.toNat)
    (hengine_le : m'.queryCount ≤ maxEngineQueries)
    (hslot : z.activeQueries + q.stage.holdsSlot.toNat =
      x.activeQueries + r.stage.holdsSlot.toNat)
    (hactive : m'.activeSessions + x.counted.toNat = m.activeSessions + z.counted.toNat)
    (hactive_le : m'.activeSessions ≤ maxActiveSessions)
    (hqSound : r.Sound) (hxSound : z.Sound)
    (hown : r.stage = .activating → z.activation = some (.activating i))
    (hothers : ∀ j, j ≠ i → x.activation = some (.activating j) →
      z.activation = some (.activating j)) : m'.Kept := by
  have hqlt : i < m.queries.length := (List.getElem?_eq_some_iff.mp hq).1
  have hxlt : q.session < m.sessions.length := (List.getElem?_eq_some_iff.mp hx).1
  have hcount : ∀ p : Reservation → Bool, (m.queries.set i r).countP p + (p q).toNat =
      m.queries.countP p + (p r).toNat := fun p => countP_set_add p hq
  constructor
  · have hset := hcount (·.stage.holdsEngine)
    have hold := h.engine
    rw [hqs]
    omega
  · exact hengine_le
  · intro s y hy
    have hset := hcount (·.inSlot s)
    rw [hxs] at hy
    rw [hqs]
    rcases of_getElem?_set hy with ⟨rfl, rfl⟩ | ⟨hs, hy⟩
    · have hold := h.slot _ _ hx
      simp only [Reservation.inSlot, hsame, beq_self_eq_true, Bool.true_and] at hset hold ⊢
      omega
    · have hold := h.slot _ _ hy
      have hne : (q.session == s) = false := beq_false_of_ne fun e => hs e.symm
      simp only [Reservation.inSlot, hsame, hne, Bool.false_and, Bool.toNat_false] at hset hold ⊢
      omega
  · have hset := countP_set_add (·.counted) hx (b := z)
    have hold := h.active
    rw [hxs]
    omega
  · exact hactive_le
  · intro j p hp
    rw [hqs] at hp
    rcases of_getElem?_set hp with ⟨-, rfl⟩ | ⟨-, hp⟩
    · exact hqSound
    · exact h.query j p hp
  · intro s y hy
    rw [hxs] at hy
    rcases of_getElem?_set hy with ⟨-, rfl⟩ | ⟨-, hy⟩
    · exact hxSound
    · exact h.session s y hy
  · intro p hp
    rw [hqs] at hp
    rw [hxs, List.length_set]
    rcases List.mem_or_eq_of_mem_set hp with hp | rfl
    · exact h.placed p hp
    · rw [hsame]
      exact hxlt
  · intro j p y hp hy hstage
    rw [hqs] at hp
    rw [hxs] at hy
    rcases of_getElem?_set hp with ⟨rfl, rfl⟩ | ⟨hj, hp⟩
    · rw [hsame, List.getElem?_set_self hxlt] at hy
      obtain rfl := Option.some.inj hy
      exact hown hstage
    · rcases of_getElem?_set hy with ⟨hs, rfl⟩ | ⟨-, hy⟩
      · exact hothers j hj (h.holder j p x hp (hs ▸ hx) hstage)
      · exact h.holder j p y hp hy hstage

theorem Kept.query_step (h : m.Kept) (hq : m.queries[i]? = some q)
    (hx : m.sessions[q.session]? = some x)
    (hqs : m'.queries = m.queries.set i r) (hxs : m'.sessions = m.sessions)
    (hsame : r.session = q.session)
    (hengine : m'.queryCount + q.stage.holdsEngine.toNat =
      m.queryCount + r.stage.holdsEngine.toNat)
    (hengine_le : m'.queryCount ≤ maxEngineQueries)
    (hslot : r.stage.holdsSlot = q.stage.holdsSlot)
    (hactive : m'.activeSessions = m.activeSessions) (hqSound : r.Sound)
    (hown : r.stage = .activating → q.stage = .activating) : m'.Kept := by
  have hset : m.sessions.set q.session x = m.sessions := by
    obtain ⟨hlt, rfl⟩ := List.getElem?_eq_some_iff.mp hx
    exact List.set_getElem_self hlt
  refine h.shift (z := x) hq hx hqs (hxs.trans hset.symm) hsame hengine hengine_le (by rw [hslot])
    (by rw [hactive]) (hactive ▸ h.active_le) hqSound (h.session _ _ hx) (fun hs => ?_)
    (fun _ _ hj => hj)
  exact h.holder i q x hq hx (hown hs)

theorem Kept.put_query (h : m.Kept) (hq : m.queries[i]? = some q)
    (hx : m.sessions[q.session]? = some x) (hsame : r.session = q.session)
    (hengine : r.stage.holdsEngine = q.stage.holdsEngine)
    (hslot : r.stage.holdsSlot = q.stage.holdsSlot) (hqSound : r.Sound)
    (hown : r.stage = .activating → q.stage = .activating) : (m.putQuery i r).Kept :=
  h.query_step hq hx rfl rfl hsame (by rw [hengine]; rfl) h.engine_le hslot rfl hqSound hown

theorem Kept.session_step {s : ℕ} (h : m.Kept) (hx : m.sessions[s]? = some x)
    (hqs : m'.queries = m.queries) (hxs : m'.sessions = m.sessions.set s z)
    (hcount : m'.queryCount = m.queryCount) (hslot : z.activeQueries = x.activeQueries)
    (hactive : m'.activeSessions + x.counted.toNat = m.activeSessions + z.counted.toNat)
    (hactive_le : m'.activeSessions ≤ maxActiveSessions) (hxSound : z.Sound)
    (hothers : ∀ j, x.activation = some (.activating j) → z.activation = some (.activating j)) :
    m'.Kept := by
  have hxlt : s < m.sessions.length := (List.getElem?_eq_some_iff.mp hx).1
  constructor
  · rw [hqs, hcount]
    exact h.engine
  · rw [hcount]
    exact h.engine_le
  · intro t y hy
    rw [hxs] at hy
    rw [hqs]
    rcases of_getElem?_set hy with ⟨rfl, rfl⟩ | ⟨-, hy⟩
    · rw [hslot]
      exact h.slot _ _ hx
    · exact h.slot _ _ hy
  · have hset := countP_set_add (·.counted) hx (b := z)
    have hold := h.active
    rw [hxs]
    omega
  · exact hactive_le
  · rw [hqs]
    exact h.query
  · intro t y hy
    rw [hxs] at hy
    rcases of_getElem?_set hy with ⟨-, rfl⟩ | ⟨-, hy⟩
    · exact hxSound
    · exact h.session t y hy
  · rw [hqs, hxs, List.length_set]
    exact h.placed
  · intro j p y hp hy hstage
    rw [hqs] at hp
    rw [hxs] at hy
    rcases of_getElem?_set hy with ⟨hs, rfl⟩ | ⟨-, hy⟩
    · exact hothers j (h.holder j p x hp (hs ▸ hx) hstage)
    · exact h.holder j p y hp hy hstage

theorem Kept.put_session {s : ℕ} (h : m.Kept) (hx : m.sessions[s]? = some x)
    (hslot : z.activeQueries = x.activeQueries) (hactivated : z.activated = x.activated)
    (hactivation : z.activation = x.activation) : (m.putSession s z).Kept := by
  refine h.session_step hx rfl rfl rfl hslot ?_ h.active_le ?_ (fun j hj => hactivation.trans hj)
  · unfold WatchSession.counted
    rw [hactivated, hactivation]
    rfl
  · have hs := h.session s x hx
    exact ⟨by rw [hactivation, hactivated]; exact hs.switching,
      fun j hj => hslot.trans (hs.empty j (hactivation ▸ hj)), hslot ▸ hs.limit⟩

theorem Kept.deactivate {s : ℕ} {wanted leaving : Bool} (h : m.Kept) (hx : m.sessions[s]? = some x)
    (hnone : x.activation = none) : (m.putSession s (x.deactivateIf wanted leaving)).Kept := by
  obtain ⟨hslot, hcounted, -, -⟩ := WatchSession.deactivateIf_spec wanted leaving x
  refine h.session_step hx rfl rfl rfl hslot ?_ h.active_le
    (WatchSession.deactivateIf_sound hnone (h.session s x hx).limit) (fun j hj => ?_)
  · rw [hcounted hnone]
    rfl
  · rw [hnone] at hj
    cases hj

end Manager

/-! ### The steps -/

namespace Manager

variable {m m' : Manager} {i s : ℕ} {q : Reservation} {x : WatchSession}

theorem reserve_eq_some {counter limit n : ℕ} (h : reserve counter limit = some n) :
    counter < limit ∧ n = counter + 1 := by
  unfold reserve at h
  split at h
  · rename_i hlt
    exact ⟨hlt, (Option.some.inj h).symm⟩
  · cases h

theorem Kept.register (h : m.Kept) : ({ m with sessions := m.sessions ++ [.new] } : Manager).Kept := by
  have hempty : m.queries.countP (·.inSlot m.sessions.length) = 0 := by
    rw [List.countP_eq_zero]
    intro q hq
    have hlt := h.placed q hq
    simp [Reservation.inSlot, show q.session ≠ m.sessions.length by omega]
  refine ⟨h.engine, h.engine_le, ?_, ?_, h.active_le, h.query, ?_, ?_, ?_⟩
  · intro t y hy
    rcases of_getElem?_concat hy with ⟨rfl, rfl⟩ | hy
    · exact hempty.symm
    · exact h.slot t y hy
  · rw [countP_concat]
    exact h.active
  · intro t y hy
    rcases of_getElem?_concat hy with ⟨-, rfl⟩ | hy
    · exact ⟨fun hs => (by cases hs), fun _ hs => (by cases hs), Nat.zero_le _⟩
    · exact h.session t y hy
  · intro q hq
    have hlt := h.placed q hq
    simp only [List.length_append, List.length_singleton]
    omega
  · intro j p y hp hy hstage
    rcases of_getElem?_concat hy with ⟨hs, -⟩ | hy
    · have hlt := h.placed p (List.mem_of_getElem? hp)
      omega
    · exact h.holder j p y hp hy hstage

theorem Kept.begin {kind : WatchKind} (h : m.Kept) (hx : m.sessions[s]? = some x) :
    (m.begin x kind s).Kept := by
  unfold Manager.begin
  split
  swap
  · exact h
  cases hr : reserve m.queryCount maxEngineQueries with
  | none => exact h
  | some n =>
    obtain ⟨hlt, rfl⟩ := reserve_eq_some hr
    refine ⟨?_, hlt, ?_, h.active, h.active_le, ?_, h.session, ?_, ?_⟩
    · rw [countP_concat, h.engine]
      rfl
    · intro t y hy
      rw [countP_concat, h.slot t y hy]
      simp [Reservation.inSlot, Reservation.begun, Stage.holdsSlot]
    · intro j p hp
      rcases of_getElem?_concat hp with ⟨-, rfl⟩ | hp
      · exact Reservation.begun_sound kind s
      · exact h.query j p hp
    · intro p hp
      rcases List.mem_append.mp hp with hp | hp
      · exact h.placed p hp
      · rw [List.mem_singleton.mp hp]
        exact (List.getElem?_eq_some_iff.mp hx).1
    · intro j p y hp hy hstage
      rcases of_getElem?_concat hp with ⟨-, rfl⟩ | hp
      · cases hstage
      · exact h.holder j p y hp hy hstage

theorem Kept.refuse (h : m.Kept) (hq : m.queries[i]? = some q) (hx : m.sessions[q.session]? = some x)
    (hstage : q.stage = .reserved) : (m.putQuery i { q with stage := .refused }).Kept := by
  have hsound := h.query i q hq
  have hengine := hsound.engine
  have hslot := hsound.slot
  have htaken := hsound.taken
  rw [hstage] at hengine hslot htaken
  refine h.put_query hq hx rfl (by rw [hstage]; rfl) (by rw [hstage]; rfl) ?_ (fun hs => (by cases hs))
  exact hsound.move (by rw [hstage]; rfl) rfl hengine hslot htaken

theorem Kept.reserveQuerySlot (h : m.Kept) (hq : m.queries[i]? = some q)
    (hx : m.sessions[q.session]? = some x) (hstage : q.stage = .reserved)
    (hnone : x.activation = none) : (m.reserveQuerySlot i q x).Kept := by
  have hsound := h.query i q hq
  have hxSound := h.session _ x hx
  have hengine := hsound.engine
  have hslot := hsound.slot
  have htaken := hsound.taken
  have hunbuilt : q.stage.built = false := by rw [hstage]; rfl
  rw [hstage] at hengine hslot htaken
  unfold Manager.reserveQuerySlot
  split_ifs with hclosed hfull hidle
  · exact h.refuse hq hx hstage
  · exact h.refuse hq hx hstage
  · -- the session has no query and is not activated
    obtain ⟨hzero, hinactive⟩ := hidle
    cases hr : reserve m.activeSessions maxActiveSessions with
    | none => exact h.refuse hq hx hstage
    | some n =>
      obtain ⟨hlt, rfl⟩ := reserve_eq_some hr
      refine h.shift (z := { x with activation := some (.activating i) })
        (r := { q with stage := .activating }) hq hx rfl rfl rfl (by rw [hstage]; rfl) h.engine_le
        (by rw [hstage]; rfl) ?_ hlt ?_ ?_ (fun _ => rfl) (fun j _ hj => ?_)
      · simp [WatchSession.counted, hnone, hinactive]
      · exact hsound.move hunbuilt rfl hengine hslot htaken
      · exact ⟨fun _ => hinactive, fun _ _ => hzero, hxSound.limit⟩
      · rw [hnone] at hj
        cases hj
  · refine h.shift (z := { x with activeQueries := x.activeQueries + 1 })
      (r := { q with stage := .slotted, slotsTaken := q.slotsTaken + 1 }) hq hx rfl rfl rfl
      (by rw [hstage]; rfl) h.engine_le (by rw [hstage]; rfl) rfl h.active_le ?_ ?_
      (fun hs => (by cases hs)) (fun j _ hj => hj)
    · refine hsound.move hunbuilt rfl hengine ?_ ?_
      · simp only [Stage.holdsSlot, Bool.toNat_false, Bool.toNat_true] at hslot ⊢
        omega
      · simp only [Stage.tookSlot, Bool.toNat_false, Bool.toNat_true] at htaken ⊢
        omega
    · refine ⟨hxSound.switching, fun j hj => ?_, Nat.lt_of_not_le hfull⟩
      rw [hnone] at hj
      cases hj

theorem Kept.activate (h : m.Kept) (hq : m.queries[i]? = some q)
    (hx : m.sessions[q.session]? = some x) (hstage : q.stage = .activating) :
    (m.activate i q x).Kept := by
  have hsound := h.query i q hq
  have hxSound := h.session _ x hx
  have hlock : x.activation = some (.activating i) := h.holder i q x hq hx hstage
  have hzero : x.activeQueries = 0 := hxSound.empty i hlock
  have hengine := hsound.engine
  have hslot := hsound.slot
  have htaken := hsound.taken
  rw [hstage] at hengine hslot htaken
  refine h.shift
    (z := { x with activated := true, activeQueries := x.activeQueries + 1, activation := none })
    (r := { q with stage := .slotted, slotsTaken := q.slotsTaken + 1 }) hq hx rfl rfl rfl
    (by rw [hstage]; rfl) h.engine_le (by rw [hstage]; rfl) ?_ h.active_le ?_ ?_
    (fun hs => (by cases hs)) (fun j hj hj' => ?_)
  · simp [WatchSession.counted, hlock, Manager.activate, putQuery, putSession]
  · refine hsound.move (by rw [hstage]; rfl) rfl hengine ?_ ?_
    · simp only [Stage.holdsSlot, Bool.toNat_false, Bool.toNat_true] at hslot ⊢
      omega
    · simp only [Stage.tookSlot, Bool.toNat_false, Bool.toNat_true] at htaken ⊢
      omega
  · refine ⟨fun hs => (by cases hs), fun j hj => (by cases hj), ?_⟩
    simp only [hzero, maxSessionQueries]
    omega
  · rw [hlock] at hj'
    obtain rfl : i = j := by simpa using hj'
    exact absurd rfl hj

theorem Kept.build {issued : Bool} (h : m.Kept) (hq : m.queries[i]? = some q)
    (hx : m.sessions[q.session]? = some x) (hstage : q.stage = .slotted) :
    (m.build i q issued).Kept := by
  have hsound := h.query i q hq
  unfold Manager.build
  split_ifs
  · have hengine := hsound.engine
    have hslot := hsound.slot
    have htaken := hsound.taken
    rw [hstage] at hengine hslot htaken
    refine h.put_query hq hx rfl (by rw [hstage]; rfl) (by rw [hstage]; rfl) ?_
      (fun hs => (by cases hs))
    exact hsound.move (by rw [hstage]; rfl) rfl hengine hslot htaken
  · exact h.put_query hq hx rfl (by rw [hstage]; rfl) (by rw [hstage]; rfl) (hsound.build hstage)
      (fun hs => (by cases hs))

theorem Kept.terminate {start : StartPlace} (h : m.Kept) (hq : m.queries[i]? = some q)
    (hx : m.sessions[q.session]? = some x) (hrefs : 0 < q.references) :
    (m.putQuery i { q.terminate with start := start }).Kept := by
  have hstage : q.terminate.stage = q.stage := Reservation.terminate_stage
  refine h.put_query hq hx Reservation.terminate_session (by rw [hstage]) (by rw [hstage])
    ((h.query i q hq).terminate hrefs).place (fun hs => ?_)
  rw [← hstage]
  exact hs

theorem Kept.place {start : StartPlace} (h : m.Kept) (hq : m.queries[i]? = some q)
    (hx : m.sessions[q.session]? = some x) : (m.putQuery i { q with start := start }).Kept :=
  h.put_query hq hx rfl rfl rfl (h.query i q hq).place id

theorem Kept.fail (h : m.Kept) (hq : m.queries[i]? = some q) (hx : m.sessions[q.session]? = some x)
    (hrefs : 0 < q.references) : (m.fail i q).Kept := by
  unfold Manager.fail
  split
  · exact h.terminate hq hx hrefs
  · exact h.place hq hx

theorem Kept.commit {granted : Bool} (h : m.Kept) (hq : m.queries[i]? = some q)
    (hx : m.sessions[q.session]? = some x) (hrefs : 0 < q.references) :
    (m.commit i q granted).Kept := by
  unfold Manager.commit
  split
  · exact h.place hq hx
  · exact h.fail hq hx hrefs

theorem Kept.publish {room : Bool} (h : m.Kept) (hq : m.queries[i]? = some q)
    (hx : m.sessions[q.session]? = some x) (hrefs : 0 < q.references) :
    (m.publish i q x room).Kept := by
  unfold Manager.publish
  split
  · exact h.place hq hx
  · exact h.fail hq hx hrefs

theorem Kept.acquire {fails : Bool} (h : m.Kept) (hq : m.queries[i]? = some q)
    (hx : m.sessions[q.session]? = some x) (hrefs : 0 < q.references) :
    (m.acquire i q x fails).Kept := by
  unfold Manager.acquire
  split
  · exact h.terminate hq hx hrefs
  · have hlt : q.session < m.sessions.length := (List.getElem?_eq_some_iff.mp hx).1
    have hs : (m.putSession q.session { x with acquisitionRunning := true }).Kept :=
      h.put_session hx rfl rfl rfl
    exact hs.place hq (x := { x with acquisitionRunning := true })
      (by simp [putSession, List.getElem?_set_self hlt])

theorem Kept.releaseQueryReservation {stage : Stage} (h : m.Kept) (hq : m.queries[i]? = some q)
    (hx : m.sessions[q.session]? = some x) (hs : q.stage.engineReturned = some stage) :
    (m.releaseQueryReservation i q stage).Kept := by
  obtain ⟨hheld, hback, hslot, -, -, -, -, hne⟩ := Stage.engineReturned_spec hs
  have hpos : 1 ≤ m.queryCount := by
    have hle := toNat_le_countP (·.stage.holdsEngine) hq
    simp only [hheld, Bool.toNat_true] at hle
    rw [h.engine]
    exact hle
  have hle := h.engine_le
  have hsub : wrappingSub usizeMax m.queryCount 1 = m.queryCount - 1 := by
    apply wrappingSub_of_le _ hpos
    exact Nat.le_trans hle (by decide)
  unfold Manager.releaseQueryReservation
  rw [hsub]
  refine h.query_step (r := { q with stage := stage, engineReturns := q.engineReturns + 1 }) hq hx rfl
    rfl rfl ?_ ?_ hslot rfl ((h.query i q hq).returnEngine hs) (fun he => absurd he hne)
  · simp only [hheld, hback, Bool.toNat_true, Bool.toNat_false]
    omega
  · simp only
    omega

theorem Kept.releaseQuerySlot {stage : Stage} (h : m.Kept) (hq : m.queries[i]? = some q)
    (hx : m.sessions[q.session]? = some x) (hs : q.stage.slotReturned = some stage)
    (hnone : x.activation = none) : (m.releaseQuerySlot i q x stage).Kept := by
  obtain ⟨hheld, hback, hengine, -, -, -, -, hne⟩ := Stage.slotReturned_spec hs
  have hpos : 1 ≤ x.activeQueries := by
    have hle := toNat_le_countP (·.inSlot q.session) hq
    simp only [Reservation.inSlot, beq_self_eq_true, Bool.true_and, hheld, Bool.toNat_true] at hle
    rw [h.slot _ x hx]
    exact hle
  have hlimit := (h.session _ x hx).limit
  unfold Manager.releaseQuerySlot
  rw [if_neg (by omega)]
  generalize hw : (x.activeQueries == 1 && !x.acquisitionRunning) = wanted
  obtain ⟨hslot, hcounted, -, -⟩ :=
    WatchSession.deactivateIf_spec wanted false { x with activeQueries := x.activeQueries - 1 }
  have hz : ({ x with activeQueries := x.activeQueries - 1 }.deactivateIf wanted false).Sound :=
    WatchSession.deactivateIf_sound hnone (Nat.le_trans (Nat.sub_le _ _) hlimit)
  refine h.shift
    (z := { x with activeQueries := x.activeQueries - 1 }.deactivateIf wanted false)
    (r := { q with stage := stage, slotReturns := q.slotReturns + 1 }) hq hx rfl rfl rfl
    (by rw [hengine]; rfl) h.engine_le ?_ ?_ h.active_le ((h.query i q hq).returnSlot hs)
    hz (fun he => absurd he hne) (fun j _ hj => ?_)
  · rw [hslot, hheld, hback]
    simp only [Bool.toNat_true, Bool.toNat_false]
    omega
  · rw [hcounted hnone]
    rfl
  · rw [hnone] at hj
    cases hj

theorem Kept.finishDeactivation {leaving : Bool} (h : m.Kept) (hx : m.sessions[s]? = some x)
    (hlock : ∃ b, x.activation = some (.deactivating b)) : (m.finishDeactivation x s leaving).Kept := by
  obtain ⟨b, hlock⟩ := hlock
  have hinactive : x.activated = false := (h.session s x hx).switching (by rw [hlock]; rfl)
  have hcounted : x.counted = true := by simp [WatchSession.counted, hlock]
  have hpos : 1 ≤ m.activeSessions := by
    have hle := toNat_le_countP (·.counted) hx
    simp only [hcounted, Bool.toNat_true] at hle
    rw [h.active]
    exact hle
  have hle := h.active_le
  have hsub : wrappingSub usizeMax m.activeSessions 1 = m.activeSessions - 1 := by
    apply wrappingSub_of_le _ hpos
    exact Nat.le_trans hle (by decide)
  unfold Manager.finishDeactivation
  rw [hsub]
  refine h.session_step
    (z := { (if leaving then x.acquisitionLeft else x) with activation := none }) hx rfl rfl rfl ?_
    ?_ ?_ ?_ (fun j hj => ?_)
  · cases leaving <;> rfl
  · have hout : ({ (if leaving then x.acquisitionLeft else x) with activation := none } :
        WatchSession).counted = false := by
      cases leaving <;> simp [WatchSession.counted, WatchSession.acquisitionLeft, hinactive]
    rw [hout, hcounted]
    simp only [Bool.toNat_true, Bool.toNat_false]
    omega
  · simp only
    omega
  · refine ⟨fun he => (by cases he), fun j hj => (by cases hj), ?_⟩
    have hlimit := (h.session s x hx).limit
    cases leaving <;> exact hlimit
  · rw [hlock] at hj
    cases hj

/-! ### Runs -/

theorem onQuery_eq_some {guard : Reservation → WatchSession → Bool}
    {f : Reservation → WatchSession → Manager} (h : m.onQuery i guard f = some m') :
    ∃ q x, m.queries[i]? = some q ∧ m.sessions[q.session]? = some x ∧ guard q x = true ∧
      f q x = m' := by
  obtain ⟨q, hq, h⟩ := Option.bind_eq_some_iff.mp h
  obtain ⟨x, hx, h⟩ := Option.bind_eq_some_iff.mp h
  split at h
  · rename_i hg
    exact ⟨q, x, hq, hx, hg, Option.some.inj h⟩
  · cases h

theorem onSession_eq_some {guard : WatchSession → Bool} {f : WatchSession → Manager}
    (h : m.onSession s guard f = some m') :
    ∃ x, m.sessions[s]? = some x ∧ guard x = true ∧ f x = m' := by
  obtain ⟨x, hx, h⟩ := Option.bind_eq_some_iff.mp h
  split at h
  · rename_i hg
    exact ⟨x, hx, hg, Option.some.inj h⟩
  · cases h

theorem Kept.perform {a : Action} (h : m.Kept) (hp : m.perform a = some m') : m'.Kept := by
  cases a with
  | register =>
    obtain rfl := Option.some.inj hp
    exact h.register
  | begin kind s =>
    obtain ⟨x, hx, -, rfl⟩ := onSession_eq_some hp
    exact h.begin hx
  | reserveSlot i =>
    obtain ⟨q, x, hq, hx, hg, rfl⟩ := onQuery_eq_some hp
    simp only [Bool.and_eq_true, beq_iff_eq] at hg
    exact h.reserveQuerySlot hq hx hg.1 hg.2
  | activate i =>
    obtain ⟨q, x, hq, hx, hg, rfl⟩ := onQuery_eq_some hp
    exact h.activate hq hx (beq_iff_eq.mp hg)
  | build i issued =>
    obtain ⟨q, x, hq, hx, hg, rfl⟩ := onQuery_eq_some hp
    exact h.build hq hx (beq_iff_eq.mp hg)
  | commit i granted =>
    obtain ⟨q, x, hq, hx, hg, rfl⟩ := onQuery_eq_some hp
    simp only [Bool.and_eq_true, decide_eq_true_eq] at hg
    exact h.commit hq hx hg.2
  | publish i room =>
    obtain ⟨q, x, hq, hx, hg, rfl⟩ := onQuery_eq_some hp
    simp only [Bool.and_eq_true, decide_eq_true_eq] at hg
    exact h.publish hq hx hg.1.2
  | acquire i fails =>
    obtain ⟨q, x, hq, hx, hg, rfl⟩ := onQuery_eq_some hp
    simp only [Bool.and_eq_true, decide_eq_true_eq] at hg
    exact h.acquire hq hx hg.1.2
  | upgrade i =>
    obtain ⟨q, x, hq, hx, hg, rfl⟩ := onQuery_eq_some hp
    exact h.put_query hq hx rfl rfl rfl ((h.query i q hq).upgrade (of_decide_eq_true hg)) id
  | letGo i =>
    obtain ⟨q, x, hq, hx, hg, rfl⟩ := onQuery_eq_some hp
    simp only [Bool.or_eq_true, Bool.and_eq_true, decide_eq_true_eq, beq_iff_eq] at hg
    have hrefs : 0 < q.references := by omega
    exact h.put_query hq hx rfl rfl rfl ((h.query i q hq).letGo hrefs) id
  | terminate i =>
    obtain ⟨q, x, hq, hx, hg, rfl⟩ := onQuery_eq_some hp
    have hrefs : 0 < q.references := of_decide_eq_true hg
    exact h.put_query hq hx Reservation.terminate_session (by rw [Reservation.terminate_stage])
      (by rw [Reservation.terminate_stage]) ((h.query i q hq).terminate hrefs)
      (fun hs => Reservation.terminate_stage ▸ hs)
  | release i =>
    obtain ⟨q, x, hq, hx, hg, rfl⟩ := onQuery_eq_some hp
    obtain ⟨hsound, hengine, hslot, hne⟩ := (h.query i q hq).swapReleased (of_decide_eq_true hg)
    refine h.put_query hq hx ?_ hengine hslot hsound (fun he => absurd he hne)
    unfold Reservation.swapReleased
    split <;> rfl
  | returnEngine i =>
    obtain ⟨q, x, hq, hx, hg, rfl⟩ := onQuery_eq_some hp
    obtain ⟨stage, hs⟩ := Option.isSome_iff_exists.mp hg
    rw [hs]
    exact h.releaseQueryReservation hq hx hs
  | returnSlot i =>
    obtain ⟨q, x, hq, hx, hg, rfl⟩ := onQuery_eq_some hp
    simp only [Bool.and_eq_true, beq_iff_eq] at hg
    obtain ⟨stage, hs⟩ := Option.isSome_iff_exists.mp hg.1
    rw [hs]
    exact h.releaseQuerySlot hq hx hs hg.2
  | deactivate s =>
    obtain ⟨x, hx, hg, rfl⟩ := onSession_eq_some hp
    exact h.deactivate hx (beq_iff_eq.mp hg)
  | stopAcquisition s =>
    obtain ⟨x, hx, -, rfl⟩ := onSession_eq_some hp
    exact h.put_session hx rfl rfl rfl
  | leaveAcquisition s current =>
    obtain ⟨x, hx, hg, rfl⟩ := onSession_eq_some hp
    simp only [Bool.and_eq_true, beq_iff_eq] at hg
    unfold Manager.leaveAcquisition
    split
    · exact h.deactivate hx hg.2
    · exact h
  | finishDeactivation s =>
    obtain ⟨x, hx, hg, rfl⟩ := onSession_eq_some hp
    simp only [Bool.or_eq_true, beq_iff_eq] at hg
    exact h.finishDeactivation hx (hg.elim (fun hl => ⟨true, hl⟩) fun hl => ⟨false, hl⟩)
  | admitPhysical s =>
    obtain ⟨x, hx, -, rfl⟩ := onSession_eq_some hp
    exact h.put_session hx rfl rfl rfl
  | leavePhysical s =>
    obtain ⟨x, hx, -, rfl⟩ := onSession_eq_some hp
    exact h.put_session hx rfl rfl rfl
  | closeSession s =>
    obtain ⟨x, hx, -, rfl⟩ := onSession_eq_some hp
    exact h.put_session hx rfl rfl rfl
  | endSource s =>
    obtain ⟨x, hx, -, rfl⟩ := onSession_eq_some hp
    exact h.put_session hx rfl rfl rfl
  | closeScheduler =>
    obtain rfl := Option.some.inj hp
    exact ⟨h.engine, h.engine_le, h.slot, h.active, h.active_le, h.query, h.session, h.placed,
      h.holder⟩

theorem kept_of_reachable (h : reservations.Reachable m) : m.Kept := by
  refine System.Reachable.invariant (P := Kept) ?_ ?_ h
  · intro n hn
    obtain rfl : n = new := hn
    exact kept_new
  · intro n a n' _ hn hp
    exact hn.perform hp

end Manager

/-! ### The law -/

/-- What a start has taken it has or has given back once; its query gives back when it has ended, and
not before. -/
structure Reservation.ReturnsOnce (q : Reservation) : Prop where
  engine : q.engineReturns + q.stage.holdsEngine.toNat = 1
  slot : q.slotReturns + q.stage.holdsSlot.toNat = q.slotsTaken
  taken : q.slotsTaken ≤ 1
  due : q.reservationReleased = true → q.ended = true
  owed : q.ended = true → q.reservationReleased = true ∨ 0 < q.calls

def Reservation.unreleased (q : Reservation) : Bool := q.stage == .live

/-- No start, no release and no switch of a session is under way. -/
def Manager.Resting (m : Manager) : Prop :=
  (∀ q ∈ m.queries, q.calls = 0 ∧ (q.stage = .rejected ∨ q.stage = .abandoned ∨ q.stage = .live ∨
    q.stage = .done)) ∧ ∀ x ∈ m.sessions, x.activation = none

theorem Reservation.Sound.returnsOnce {q : Reservation} (h : q.Sound) : q.ReturnsOnce := by
  refine ⟨h.engine, h.slot, ?_, fun hr => h.due (Or.inl hr), fun he => ?_⟩
  · rw [h.taken]
    exact Bool.toNat_le _
  · by_cases hlive : q.stage = .live
    · exact Or.inr (h.owed he hlive)
    · refine Or.inl (h.released.mpr ⟨?_, hlive⟩)
      by_contra hb
      have hunbuilt : q.stage.built = false := Bool.eq_false_iff.mpr hb
      obtain ⟨-, hterminal, -⟩ := h.unbuilt hunbuilt
      simp [Reservation.ended, hterminal, hunbuilt] at he

theorem Reservation.Sound.at_rest {q : Reservation} (h : q.Sound) (hcalls : q.calls = 0)
    (hstage : q.stage = .rejected ∨ q.stage = .abandoned ∨ q.stage = .live ∨ q.stage = .done) :
    q.stage.holdsEngine = q.unreleased ∧ q.stage.holdsSlot = q.unreleased ∧
    (q.unreleased = true → q.ended = false) := by
  unfold Reservation.unreleased
  refine ⟨?_, ?_, fun hlive => ?_⟩
  · rcases hstage with hs | hs | hs | hs <;> rw [hs] <;> rfl
  · rcases hstage with hs | hs | hs | hs <;> rw [hs] <;> rfl
  · by_contra he
    have hpos := h.owed (by simpa using he) (beq_iff_eq.mp hlive)
    omega

/-- **Places are counted, and given back once.**  In every reachable state the three counters are the
numbers of engine places, of places in each session and of places among the active sessions that are
out, within their limits; what a start took it has or has given back once, and its query gives back
when it has ended.  When nothing is under way, the first two count the queries that are not released,
none of which has ended, the third the activated sessions, and every other start has given back all
it took. -/
theorem reservations_counted {m : Manager} (h : reservations.Reachable m) :
    (m.queryCount = m.queries.countP (·.stage.holdsEngine) ∧ m.queryCount ≤ maxEngineQueries) ∧
    (∀ s x, m.sessions[s]? = some x → x.activeQueries = m.queries.countP (·.inSlot s) ∧
      x.activeQueries ≤ maxSessionQueries) ∧
    (m.activeSessions = m.sessions.countP (·.counted) ∧ m.activeSessions ≤ maxActiveSessions) ∧
    (∀ q ∈ m.queries, q.ReturnsOnce) ∧
    (m.Resting →
      m.queryCount = m.queries.countP (·.unreleased) ∧
      (∀ s x, m.sessions[s]? = some x →
        x.activeQueries = m.queries.countP (fun q => q.session == s && q.unreleased)) ∧
      m.activeSessions = m.sessions.countP (·.activated) ∧
      ∀ q ∈ m.queries,
        if q.unreleased then q.ended = false ∧ q.engineReturns = 0 ∧ q.slotReturns = 0
        else q.engineReturns = 1 ∧ q.slotReturns = q.slotsTaken) := by
  have hk : m.Kept := Manager.kept_of_reachable h
  have hsound : ∀ q ∈ m.queries, q.Sound := by
    intro q hq
    obtain ⟨i, hi⟩ := List.mem_iff_getElem?.mp hq
    exact hk.query i q hi
  refine ⟨⟨hk.engine, hk.engine_le⟩, fun s x hx => ⟨hk.slot s x hx, (hk.session s x hx).limit⟩,
    ⟨hk.active, hk.active_le⟩, fun q hq => (hsound q hq).returnsOnce, fun hrest => ?_⟩
  have hat : ∀ q ∈ m.queries, q.stage.holdsEngine = q.unreleased ∧
      q.stage.holdsSlot = q.unreleased ∧ (q.unreleased = true → q.ended = false) := by
    intro q hq
    obtain ⟨hcalls, hstage⟩ := hrest.1 q hq
    exact (hsound q hq).at_rest hcalls hstage
  refine ⟨?_, fun s x hx => ?_, ?_, fun q hq => ?_⟩
  · rw [hk.engine]
    exact List.countP_congr fun q hq => by rw [(hat q hq).1]
  · rw [hk.slot s x hx]
    exact List.countP_congr fun q hq => by rw [Reservation.inSlot, (hat q hq).2.1]
  · rw [hk.active]
    exact List.countP_congr fun x hx => by simp [WatchSession.counted, hrest.2 x hx]
  · obtain ⟨hengine, hslot, hended⟩ := hat q hq
    have hengines := (hsound q hq).engine
    have hslots := (hsound q hq).slot
    have htaken := (hsound q hq).taken
    split
    · rename_i hlive
      rw [hengine, hlive] at hengines
      rw [hslot, hlive, htaken] at hslots
      have hle := Bool.toNat_le q.stage.tookSlot
      simp only [Bool.toNat_true] at hengines hslots
      exact ⟨hended hlive, by omega, by omega⟩
    · rename_i hlive
      rw [hengine, Bool.eq_false_iff.mpr hlive] at hengines
      rw [hslot, Bool.eq_false_iff.mpr hlive] at hslots
      exact ⟨hengines, hslots⟩

def oneQuery : List Action :=
  [.register, .begin .template 0, .reserveSlot 0, .activate 0, .build 0 true, .commit 0 true,
    .publish 0 true, .acquire 0 false, .terminate 0, .release 0, .letGo 0, .release 0,
    .returnEngine 0, .returnSlot 0, .stopAcquisition 0, .leaveAcquisition 0 true,
    .finishDeactivation 0]

/-- Where `oneQuery` ends. -/
def afterOneQuery : Manager where
  closed := false
  queryCount := 0
  activeSessions := 0
  sessions := [.new]
  queries :=
    [{ kind := .template
       session := 0
       stage := .done
       start := .returned
       references := 0
       terminal := true
       reservationReleased := true
       calls := 0
       slotsTaken := 1
       engineReturns := 1
       slotReturns := 1 }]

theorem oneQuery_run : Manager.new.run oneQuery = some afterOneQuery := by decide

/-- A query that is terminated and dropped, either of which releases its reservation, has given both
places back once, and no counter counts it. -/
theorem reservations_counted_sample :
    reservations.Reachable afterOneQuery ∧ afterOneQuery.Resting ∧
    (∀ q ∈ afterOneQuery.queries, q.ended = true ∧ q.ReturnsOnce ∧ q.engineReturns = 1 ∧
      q.slotReturns = 1) ∧
    afterOneQuery.queryCount = afterOneQuery.queries.countP (·.unreleased) := by
  have hr : reservations.Reachable afterOneQuery := ⟨_, rfl, Manager.run_leads oneQuery_run⟩
  have hrest : afterOneQuery.Resting := by
    unfold Manager.Resting
    decide
  obtain ⟨-, -, -, honce, hatRest⟩ := reservations_counted hr
  obtain ⟨hcount, -, -, hreturned⟩ := hatRest hrest
  refine ⟨hr, hrest, fun q hq => ⟨?_, honce q hq, ?_⟩, hcount⟩
  · revert q
    decide
  · obtain rfl : q = _ := List.mem_singleton.mp hq
    exact hreturned _ hq

/-- **Between two places.**  A start has its engine place and no place in its session yet, so the
engine counts one query, the sessions none, and no query stands. -/
theorem slot_lags_engine :
    ∃ m, reservations.Reachable m ∧ m.queryCount = 1 ∧ m.queries.countP (·.unreleased) = 0 ∧
      (m.sessions.map (·.activeQueries)).sum = 0 := by
  obtain ⟨m, hm⟩ : ∃ m, Manager.new.run [.register, .begin .template 0] = some m :=
    ⟨_, rfl⟩
  refine ⟨m, ⟨_, rfl, Manager.run_leads hm⟩, ?_⟩
  obtain rfl := Option.some.inj hm
  decide

end MadoPilot.Watch
