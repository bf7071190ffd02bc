import MadoPilot.Platform.StorageRequests

/-!
# The law of the Windows storage

* `Storage.subtractions` : what an access subtracts, and from what;
* `refused_step` : a reservation that an account refuses leaves the accounts;
* `storage_budgets` : the law of every reachable storage;
* `storage_mid_call` : between its two reservations a call makes the sessions and the global budget differ.
-/

namespace MadoPilot.Platform.WindowsStorage

open MadoPilot.Core MadoPilot.Capture MadoPilot.Lib MadoPilot.Lib.Leases

/-! ### Subtractions -/

/-- The subtractions of `apply_deferred_discards`. -/
def TexturePool.settling (p : TexturePool) : List (ℕ × ℕ) :=
  [(p.state.leased, p.deferredDiscards), (p.state.allocated, p.deferredDiscards)]

def PoolState.retiring (s : PoolState) : ℕ × ℕ := (s.allocated, s.free.length)

/-- The subtractions of `release`. -/
def PoolState.puttingBack (s : PoolState) (shape : TextureShape) : List (ℕ × ℕ) :=
  (s.leased, 1) :: if s.shape = some shape then [] else [(s.allocated, 1)]

namespace Storage

variable (w : Storage)

/-- The subtractions of a call's next step: an atomic one from a budget, or saturating ones under the
mutex of the pool. -/
def callSubtractions (ok : Bool) : Call → List (ℕ × ℕ)
  | .clearing _ _ _ (drop :: _) | .closing _ (drop :: _) | .dropping (drop :: _) =>
    [(w.used drop.1, drop.2)]
  | .acquiring pool shape _ =>
    if ok then
      (w.pools[pool]?).elim [] fun p =>
        p.settling ++ if p.settle.state.shape = some shape then [] else [p.settle.state.retiring]
    else []
  | _ => []

def subtractions : Access → List (ℕ × ℕ)
  | .retire pool true =>
    (w.pools[pool]?).elim [] fun p => p.settling ++ [p.settle.state.retiring]
  | .dropTexture index true =>
    (w.leases[index]?).elim [] fun lease => (w.pools[lease.pool]?).elim [] fun p =>
      if p.alive then p.settling ++ p.settle.state.puttingBack lease.shape else []
  | .advance index ok => (w.calls[index]?).elim [] (w.callSubtractions ok)
  | _ => []

end Storage

section Subtractions

variable {start w : Storage} {k : ℕ} {p : TexturePool}

theorem Sound.settling (h : Sound w k p) (halive : p.alive = true) :
    ∀ x ∈ p.settling, x.2 ≤ x.1 := by
  have hleased := h.leased halive
  have hallocated := h.allocated halive
  intro x hx
  rcases List.mem_pair.mp hx with rfl | rfl
  · dsimp only
    omega
  · dsimp only
    omega

theorem Sound.retiring (h : Sound w k p) (halive : p.alive = true) :
    p.settle.state.retiring.2 ≤ p.settle.state.retiring.1 := by
  have hallocated := h.allocated halive
  simp only [PoolState.retiring, TexturePool.settle, PoolState.applyDeferredDiscards]
  omega

theorem Sound.puttingBack (h : Sound w k p) (halive : p.alive = true) (hout : 0 < w.out k)
    (shape : TextureShape) : ∀ x ∈ p.settle.state.puttingBack shape, x.2 ≤ x.1 := by
  have hleased := h.leased halive
  have hallocated := h.allocated halive
  intro x hx
  have hx : x = (p.settle.state.leased, 1) ∨ x = (p.settle.state.allocated, 1) := by
    unfold PoolState.puttingBack at hx
    split at hx
    · exact Or.inl (List.mem_singleton.mp hx)
    · exact List.mem_pair.mp hx
  rcases hx with rfl | rfl <;>
    simp only [TexturePool.settle, PoolState.applyDeferredDiscards] <;> omega

theorem Books.drop_le (h : Books start w) {i : ℕ} {c : Call} {drop : ByteLease}
    {drops : List ByteLease} (hc : w.calls[i]? = some c)
    (hheld : c.held = ((drop :: drops : List ByteLease) : Multiset ByteLease)) :
    drop.2 ≤ w.used drop.1 := by
  have hend := Storage.held_endCall hc
  rw [hheld, ← Multiset.cons_coe, ← Multiset.singleton_add, add_left_comm] at hend
  exact h.balanced.drawn (k := drop.1) (n := drop.2) hend.symm

theorem subtractions_le (hbooks : Books start w) (hpools : PoolsInv w) {a : Access}
    (ha : (w.perform a).isSome) : ∀ x ∈ w.subtractions a, x.2 ≤ x.1 := by
  intro x hx
  cases a with
  | reserve | dropBytes | acquire | dropPool => cases hx
  | retire pool ok =>
    cases ok with
    | false => cases hx
    | true =>
      cases hp : w.pools[pool]? with
      | none =>
        simp only [Storage.subtractions, hp] at hx
        cases hx
      | some p =>
        have halive : p.alive = true := by
          by_contra hdead
          rw [Bool.not_eq_true] at hdead
          simp [Storage.perform, Storage.retire, hp, hdead] at ha
        simp only [Storage.subtractions, hp, Option.elim_some] at hx
        rcases List.mem_append.mp hx with hx | hx
        · exact (hpools.pool pool p hp).settling halive x hx
        · rw [List.mem_singleton.mp hx]
          exact (hpools.pool pool p hp).retiring halive
  | dropTexture index ok =>
    cases ok with
    | false => cases hx
    | true =>
      cases hl : w.leases[index]? with
      | none =>
        simp only [Storage.subtractions, hl] at hx
        cases hx
      | some lease =>
        cases hp : w.pools[lease.pool]? with
        | none =>
          simp only [Storage.subtractions, hl, hp, Option.elim_some] at hx
          cases hx
        | some p =>
          simp only [Storage.subtractions, hl, hp, Option.elim_some] at hx
          split at hx
          · rename_i halive
            have hout : 0 < w.out lease.pool :=
              List.countP_pos_iff.mpr ⟨lease, List.mem_of_getElem? hl, decide_eq_true rfl⟩
            rcases List.mem_append.mp hx with hx | hx
            · exact (hpools.pool _ p hp).settling halive x hx
            · exact (hpools.pool _ p hp).puttingBack halive hout lease.shape x hx
          · cases hx
  | advance index ok =>
    cases hc : w.calls[index]? with
    | none =>
      simp only [Storage.subtractions, hc] at hx
      cases hx
    | some c =>
      have hmem := List.mem_of_getElem? hc
      simp only [Storage.subtractions, hc, Option.elim_some] at hx
      unfold Storage.callSubtractions at hx
      split at hx
      · obtain rfl := List.mem_singleton.mp hx
        exact hbooks.drop_le hc rfl
      · obtain rfl := List.mem_singleton.mp hx
        exact hbooks.drop_le hc rfl
      · obtain rfl := List.mem_singleton.mp hx
        exact hbooks.drop_le hc rfl
      · split at hx
        · obtain ⟨p, hp, halive, -⟩ := hpools.call _ hmem _ rfl
          rw [hp, Option.elim_some] at hx
          rcases List.mem_append.mp hx with hx | hx
          · exact (hpools.pool _ p hp).settling halive x hx
          · split at hx
            · cases hx
            · rw [List.mem_singleton.mp hx]
              exact (hpools.pool _ p hp).retiring halive
        · cases hx
      · cases hx

end Subtractions

/-! ### Refused reservations -/

def Call.asks : Call → Option ByteLease
  | reserving session bytes | charging _ _ session bytes => some (some session, bytes)
  | reserved _ bytes | charged _ _ _ bytes => some (none, bytes)
  | _ => none

/-- The session's share that a call has drawn while it asks the global budget. -/
def Call.share : Call → List ByteLease
  | reserved session bytes | charged _ _ session bytes => [(some session, bytes)]
  | _ => []

/-- The leases that a call is on its way to drop, when it does nothing else any more. -/
def Call.Drops (drops : List ByteLease) (c : Call) : Prop :=
  c = .dropping drops ∨ ∃ pool, c = .closing pool drops

section Refused

variable {start w w₁ w₂ w₃ : Storage} {i : ℕ} {ok : Bool} {c : Call} {a : Option ℕ} {bytes : ℕ}

theorem advance_of_perform (hc : w.calls[i]? = some c) (h : w.perform (.advance i ok) = some w₁) :
    w.advance i ok c = some w₁ := by
  obtain ⟨d, hd, hstep⟩ := Option.bind_eq_some_iff.mp h
  rw [hc] at hd
  obtain rfl := Option.some.inj hd
  exact hstep

/-- **A reservation that an account refuses** leaves the accounts; the call has its session's share to
give back when the global budget refuses. -/
theorem refused_step (hc : w.calls[i]? = some c) (hasks : c.asks = some (a, bytes))
    (hrefused : w.tryReserve a bytes = none) (h : w.perform (.advance i ok) = some w₁) :
    w₁.used = w.used ∧ (a = none → ∃ d, w₁.calls[i]? = some d ∧ d.Drops c.share) := by
  have hi : i < w.calls.length := (List.getElem?_eq_some_iff.mp hc).1
  have hset : ∀ d, (w.setCall i d).calls[i]? = some d := fun d => by
    simp [Storage.setCall, hi]
  have hstep := advance_of_perform hc h
  cases c with
  | reserving session n =>
    obtain ⟨rfl, rfl⟩ := Prod.mk.inj (Option.some.inj hasks)
    simp only [Storage.advance, hrefused] at hstep
    obtain rfl := Option.some.inj hstep
    exact ⟨rfl, fun hnone => (by cases hnone)⟩
  | reserved session n =>
    obtain ⟨rfl, rfl⟩ := Prod.mk.inj (Option.some.inj hasks)
    simp only [Storage.advance, hrefused] at hstep
    obtain rfl := Option.some.inj hstep
    exact ⟨rfl, fun _ => ⟨_, hset _, Or.inl rfl⟩⟩
  | charging pool shape session n =>
    obtain ⟨rfl, rfl⟩ := Prod.mk.inj (Option.some.inj hasks)
    simp only [Storage.advance, hrefused] at hstep
    obtain ⟨p, -, rfl⟩ := Option.map_eq_some_iff.mp hstep
    exact ⟨rfl, fun hnone => (by cases hnone)⟩
  | charged pool shape session n =>
    obtain ⟨rfl, rfl⟩ := Prod.mk.inj (Option.some.inj hasks)
    simp only [Storage.advance, hrefused] at hstep
    obtain rfl := Option.some.inj hstep
    exact ⟨rfl, fun _ => ⟨_, hset _, Or.inr ⟨_, rfl⟩⟩⟩
  | acquiring | clearing | creating | closing | dropping => cases hasks

theorem give_back (h : Books start w) {drop : ByteLease} {drops : List ByteLease}
    (hc : w.calls[i]? = some c) (hdrops : c.Drops (drop :: drops))
    (hstep : w.perform (.advance i ok) = some w₁) :
    w₁.used = Function.update w.used drop.1 (w.used drop.1 - drop.2) := by
  have hadvance := advance_of_perform hc hstep
  rcases hdrops with rfl | ⟨pool, rfl⟩
  · obtain rfl := Option.some.inj hadvance
    exact (h.dropLease drop (h.drop_le hc rfl)).2.2
  · obtain rfl := Option.some.inj hadvance
    exact (h.dropLease drop (h.drop_le hc rfl)).2.2

theorem granted_step {session : ℕ} (hc : w.calls[i]? = some c)
    (hasks : c.asks = some (some session, bytes)) (hgranted : w.tryReserve (some session) bytes ≠ none)
    (h : w.perform (.advance i ok) = some w₁) :
    w₁.used = Function.update w.used (some session) (w.used (some session) + bytes) ∧
      ∃ d, w₁.calls[i]? = some d ∧ d.asks = some (none, bytes) ∧ d.share = [(some session, bytes)] := by
  obtain ⟨w', hw'⟩ := Option.ne_none_iff_exists'.mp hgranted
  obtain ⟨-, -, -, hused⟩ := Storage.tryReserve_eq_some hw'
  obtain ⟨-, -, -, hcalls⟩ := Storage.tryReserve_lists hw'
  have hi : i < w'.calls.length := by
    rw [hcalls]
    exact (List.getElem?_eq_some_iff.mp hc).1
  have hset : ∀ d, (w'.setCall i d).calls[i]? = some d := fun d => by
    simp [Storage.setCall, hi]
  have hstep := advance_of_perform hc h
  cases c with
  | reserving s n | charging pool shape s n =>
    obtain ⟨hs, rfl⟩ := Prod.mk.inj (Option.some.inj hasks)
    obtain rfl := Option.some.inj hs
    simp only [Storage.advance, hw'] at hstep
    obtain rfl := Option.some.inj hstep
    exact ⟨hused, _, hset _, rfl, rfl⟩
  | reserved | charged =>
    obtain ⟨hs, -⟩ := Prod.mk.inj (Option.some.inj hasks)
    cases hs
  | acquiring | clearing | creating | closing | dropping => cases hasks

theorem refused_alone (h₂ : Books start w₂) {session : ℕ} {ok₁ ok₂ : Bool} (hc : w.calls[i]? = some c)
    (hasks : c.asks = some (some session, bytes)) (hgranted : w.tryReserve (some session) bytes ≠ none)
    (hw₁ : w.perform (.advance i ok) = some w₁) (hrefused : w₁.tryReserve none bytes = none)
    (hw₂ : w₁.perform (.advance i ok₁) = some w₂) (hw₃ : w₂.perform (.advance i ok₂) = some w₃) :
    w₃.used = w.used := by
  obtain ⟨hused₁, d, hd, hdasks, hshare⟩ := granted_step hc hasks hgranted hw₁
  obtain ⟨hused₂, hdrops⟩ := refused_step hd hdasks hrefused hw₂
  obtain ⟨e, he, hedrops⟩ := hdrops rfl
  rw [hshare] at hedrops
  rw [give_back h₂ he hedrops hw₃, hused₂, hused₁]
  rw [Function.update_self, Nat.add_sub_cancel, Function.update_idem, Function.update_eq_self]

end Refused

/-! ### The law -/

/-- What holds of a storage that was reached from `start`. -/
structure StorageLaw (start : Storage) (trail : List (Storage × Access)) (w : Storage) : Prop where
  /-- Every account counts the leases that are out, within its limit. -/
  accounts : ∀ k, w.used k = owed w.held k ∧ w.used k ≤ start.limit k
  /-- The global use is the sum of the sessions' but for what calls in progress hold of only one. -/
  together : w.total.used + w.sessionShare = (w.sessions.map (·.session.used)).sum + w.globalShare
  quiet : (∀ c ∈ w.calls, c.held = 0) → w.total.used = (w.sessions.map (·.session.used)).sum
  /-- A refused reservation leaves the accounts, and a session's share already drawn is given back. -/
  refused : ∀ (i : ℕ) (ok : Bool) (c : Call) (a : Option ℕ) (bytes : ℕ) (w₁ : Storage),
    w.calls[i]? = some c → c.asks = some (a, bytes) → w.tryReserve a bytes = none →
    w.perform (.advance i ok) = some w₁ →
      w₁.used = w.used ∧ (a = none → ∃ d, w₁.calls[i]? = some d ∧ d.Drops c.share)
  gives : ∀ (i : ℕ) (ok : Bool) (c : Call) (drop : ByteLease) (drops : List ByteLease) (w₁ : Storage),
    w.calls[i]? = some c → c.Drops (drop :: drops) → w.perform (.advance i ok) = some w₁ →
      w₁.used = Function.update w.used drop.1 (w.used drop.1 - drop.2)
  /-- The three steps of a reservation that only the global budget refuses, with no other between. -/
  alone : ∀ (i : ℕ) (ok₁ ok₂ ok₃ : Bool) (c : Call) (session bytes : ℕ) (w₁ w₂ w₃ : Storage),
    w.calls[i]? = some c → c.asks = some (some session, bytes) →
    w.tryReserve (some session) bytes ≠ none → w.perform (.advance i ok₁) = some w₁ →
    w₁.tryReserve none bytes = none → w₁.perform (.advance i ok₂) = some w₂ →
    w₂.perform (.advance i ok₃) = some w₃ → w₃.used = w.used
  /-- The counts of a pool that is in use. -/
  pools : ∀ k p, w.pools[k]? = some p → p.alive = true →
    p.state.allocated = w.out k + p.state.free.length + p.deferredDiscards ∧
      p.state.leased = w.out k + p.deferredDiscards ∧ p.state.allocated ≤ p.capacity
  /-- Every texture that is out has the shape of the request that it was handed out for. -/
  leased : ∀ l ∈ w.leases, l.pooled.shape = l.shape ∧ Granted trail l
  free : ∀ p ∈ w.pools, ∀ t ∈ p.state.free, p.state.shape = some t.shape
  /-- Nothing is subtracted from less. -/
  subtracted : ∀ a, (w.perform a).isSome → ∀ x ∈ w.subtractions a, x.2 ≤ x.1

/-- **The law of the storage.** -/
theorem storage_budgets {start w : Storage} {trail : List (Storage × Access)} (h₀ : Fresh start)
    (hp : (storageSystem start).Path start trail w) : StorageLaw start trail w := by
  have hr : (storageSystem start).Reachable w := ⟨start, rfl, trail, hp⟩
  have hbooks := books_reachable h₀ hr
  have hpools := pools_reachable h₀ hr
  have htogether := hbooks.sum_sessions
  refine
    { accounts := fun k => ⟨hbooks.balanced.counts k, hbooks.limit ▸ hbooks.balanced.le k⟩
      together := htogether
      quiet := fun hquiet => ?_
      refused := fun i ok c a bytes w₁ hc hasks hrefused hstep => refused_step hc hasks hrefused hstep
      gives := fun i ok c drop drops w₁ hc hdrops hstep => give_back hbooks hc hdrops hstep
      alone := fun i ok₁ ok₂ ok₃ c session bytes w₁ w₂ w₃ hc hasks hgranted hw₁ hrefused hw₂ hw₃ => ?_
      pools := fun k p hp halive => ?_
      leased := fun l hl => ⟨hpools.lease l hl, leases_granted h₀.out.2.2 h₀.out.2.1 hp l hl⟩
      free := fun p hp t ht => ?_
      subtracted := fun a ha => subtractions_le hbooks hpools ha }
  · have hheld : (w.calls.map Call.held).sum = 0 := List.sum_eq_zero fun x hx => by
      obtain ⟨c, hc, rfl⟩ := List.mem_map.mp hx
      exact hquiet c hc
    have hsession : w.sessionShare = 0 := by
      unfold Storage.sessionShare
      rw [hheld]
      rfl
    have hglobal : w.globalShare = 0 := by
      unfold Storage.globalShare
      rw [hheld]
      rfl
    omega
  · have hr₁ : (storageSystem start).Reachable w₁ := hr.step (i := .advance i ok₁) hw₁
    have hr₂ : (storageSystem start).Reachable w₂ := hr₁.step (i := .advance i ok₂) hw₂
    exact refused_alone (books_reachable h₀ hr₂) hc hasks hgranted hw₁ hrefused hw₂ hw₃
  · have hsound := hpools.pool k p hp
    exact ⟨hsound.allocated halive, hsound.leased halive, hsound.capacity halive⟩
  · obtain ⟨k, hk⟩ := List.getElem?_of_mem hp
    exact (hpools.pool k p hk).free t ht

def oneSession : Storage :=
  ⟨[⟨⟨10, 0⟩, 4⟩], ⟨15, 0⟩, [⟨0, 1, .empty, 0, false, true⟩], [], [], []⟩

theorem oneSession_fresh : Fresh oneSession := by
  refine ⟨?_, ?_, ?_, rfl, rfl, rfl⟩ <;> decide

def oneTexture : List Access :=
  [.acquire 0 ⟨1, 1, 1, 1, bgra8Unorm, 1, 0⟩, .advance 0 true, .advance 0 true, .advance 0 true,
    .advance 0 true, .advance 0 true, .reserve 0 5, .advance 0 true]

/-- The law of a storage with a texture out and a call between its two reservations. -/
theorem storage_budgets_sample : ∃ (trail : List (Storage × Access)) (w : Storage),
    StorageLaw oneSession trail w ∧ w.leases.map (·.shape) = [⟨1, 1, bgra8Unorm, 1, 0⟩] ∧
    (∀ l ∈ w.leases, Granted trail l) ∧ w.used (some 0) = 9 ∧ w.used none = 4 := by
  have hrun : (System.trace Storage.perform oneTexture oneSession).isSome := by decide +kernel
  obtain ⟨⟨trail, w⟩, htrace⟩ := Option.isSome_iff_exists.mp hrun
  have hcounts : (System.trace Storage.perform oneTexture oneSession).map
      (fun r => (r.2.leases.map (·.shape), r.2.used (some 0), r.2.used none)) =
        some ([⟨1, 1, bgra8Unorm, 1, 0⟩], 9, 4) := by
    decide +kernel
  rw [htrace] at hcounts
  obtain ⟨hleases, hcounts⟩ := Prod.mk.inj (Option.some.inj hcounts)
  obtain ⟨hsession, htotal⟩ := Prod.mk.inj hcounts
  have law := storage_budgets oneSession_fresh (System.trace_path htrace)
  exact ⟨trail, w, law, hleases, fun l hl => (law.leased l hl).2, hsession, htotal⟩

/-- Between its two reservations a call makes the global use differ from the sessions'. -/
theorem storage_mid_call : ∃ start w : Storage, Fresh start ∧ (storageSystem start).Reachable w ∧
    w.total.used ≠ (w.sessions.map (·.session.used)).sum := by
  have hrun : (System.trace Storage.perform [.reserve 0 5, .advance 0 true] oneSession).isSome := by
    decide +kernel
  obtain ⟨⟨trail, w⟩, htrace⟩ := Option.isSome_iff_exists.mp hrun
  have huses : (System.trace Storage.perform [.reserve 0 5, .advance 0 true] oneSession).map
      (fun r => (r.2.total.used, (r.2.sessions.map (·.session.used)).sum)) = some (0, 5) := by
    decide +kernel
  rw [htrace] at huses
  obtain ⟨htotal, hsessions⟩ := Prod.mk.inj (Option.some.inj huses)
  refine ⟨oneSession, w, oneSession_fresh, ⟨_, rfl, _, System.trace_path htrace⟩, ?_⟩
  dsimp only at htotal hsessions
  rw [htotal, hsessions]
  decide

end MadoPilot.Platform.WindowsStorage
