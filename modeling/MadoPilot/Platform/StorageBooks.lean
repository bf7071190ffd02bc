import Mathlib.Algebra.BigOperators.Fin
import MadoPilot.Platform.StorageSteps

/-!
# The byte accounts of the Windows storage

What is out at any moment is held by a caller, by a texture or by a call in progress.

* `Step.booked` : an access begins a lease of bytes, ends one, or moves leases between holders;
* `books_reachable` : the budgets count the leases that are out;
* `sum_sessions` : how the sessions' use and the global use differ while calls are in progress.
-/

namespace MadoPilot.Platform.WindowsStorage

open MadoPilot.Core MadoPilot.Capture MadoPilot.Lib MadoPilot.Lib.Leases

def Call.held : Call → Multiset ByteLease
  | reserving .. | acquiring .. | charging .. => 0
  | reserved session bytes | charged _ _ session bytes => {(some session, bytes)}
  | creating _ _ session bytes => (RetainedBytes.leases ⟨session, bytes⟩ : Multiset ByteLease)
  | clearing _ _ _ drops | closing _ drops | dropping drops => (drops : Multiset ByteLease)

namespace Storage

variable (w : Storage)

def held : Multiset ByteLease :=
  (w.retained.map fun r => (r.leases : Multiset ByteLease)).sum +
    (w.leases.map fun l => (l.pooled.bytes.leases : Multiset ByteLease)).sum +
    (w.pools.map fun p => (p.freeLeases : Multiset ByteLease)).sum + (w.calls.map Call.held).sum

def used (k : Option ℕ) : ℕ := (w.budget k).elim 0 (·.used)

def limit (k : Option ℕ) : ℕ := (w.budget k).elim 0 (·.limit)

variable {w : Storage} {i k : ℕ} {c c' : Call} {p p' : TexturePool} {b : ByteBudget} {a : Option ℕ}

theorem held_startCall : (w.startCall c).held = w.held + c.held := by
  unfold held startCall
  rw [sum_map_concat]
  abel

theorem held_setCall (h : w.calls[i]? = some c) (c' : Call) : (w.setCall i c').held + c.held = w.held + c'.held := by
  have hsum := sum_map_set_add Call.held h c'
  unfold held setCall
  rw [add_assoc, hsum]
  abel

theorem held_endCall (h : w.calls[i]? = some c) : (w.endCall i).held + c.held = w.held := by
  have hsum := sum_map_eraseIdx_add Call.held h
  unfold held endCall
  rw [add_assoc, hsum]

theorem held_setPool (h : w.pools[k]? = some p) (p' : TexturePool) :
    (w.setPool k p').held + (p.freeLeases : Multiset ByteLease) =
      w.held + (p'.freeLeases : Multiset ByteLease) := by
  have hsum := sum_map_set_add (fun p : TexturePool => (p.freeLeases : Multiset ByteLease)) h p'
  unfold held setPool
  dsimp only
  rw [add_right_comm, add_assoc _ (List.sum _) (p.freeLeases : Multiset ByteLease), hsum]
  abel

theorem held_setPool_of_eq (h : w.pools[k]? = some p) (p' : TexturePool)
    (hfree : p'.state.free = p.state.free) :
    (w.setPool k p').held = w.held := by
  have hsum := held_setPool h p'
  have hsame : p'.freeLeases = p.freeLeases := by
    unfold TexturePool.freeLeases
    rw [hfree]
  rw [hsame] at hsum
  exact add_right_cancel hsum

theorem held_eraseRetained {r : RetainedBytes} (h : w.retained[i]? = some r) :
    held { w with retained := w.retained.eraseIdx i } + (r.leases : Multiset ByteLease) = w.held := by
  have hsum := sum_map_eraseIdx_add (fun r : RetainedBytes => (r.leases : Multiset ByteLease)) h
  unfold held
  rw [← hsum]
  abel

theorem held_eraseLease {l : TextureLease} (h : w.leases[i]? = some l) :
    held { w with leases := w.leases.eraseIdx i } + (l.pooled.bytes.leases : Multiset ByteLease) =
      w.held := by
  have hsum := sum_map_eraseIdx_add
    (fun l : TextureLease => (l.pooled.bytes.leases : Multiset ByteLease)) h
  unfold held
  rw [← hsum]
  abel

/-! ### Budgets -/

theorem budget_setBudget (h : w.budget a = some b) (b' : ByteBudget) (k : Option ℕ) :
    (w.setBudget b' a).budget k = if k = a then some b' else w.budget k := by
  cases a with
  | none =>
    cases k with
    | none => rfl
    | some s => rfl
  | some s =>
    cases k with
    | none => rfl
    | some s' =>
      have hmodify : (w.setBudget b' (some s)).budget (some s') =
          ((w.sessions.modify s fun m => { m with session := b' })[s']?).map (·.session) := rfl
      rw [hmodify, List.getElem?_modify]
      by_cases hs : s = s'
      · subst hs
        obtain ⟨m, hm, -⟩ := Option.map_eq_some_iff.mp h
        simp [hm]
      · have hne : ¬ (some s' = some s) := fun heq => hs (Option.some.inj heq).symm
        rw [if_neg hne]
        simp [hs, budget]

theorem used_setBudget (h : w.budget a = some b) (b' : ByteBudget) :
    (w.setBudget b' a).used = Function.update w.used a b'.used := by
  funext k
  unfold used
  rw [budget_setBudget h]
  by_cases hk : k = a
  · subst hk
    rw [if_pos rfl, Function.update_self]
    rfl
  · rw [if_neg hk, Function.update_of_ne hk]

theorem limit_setBudget (h : w.budget a = some b) {b' : ByteBudget} (hb : b'.limit = b.limit) :
    (w.setBudget b' a).limit = w.limit := by
  funext k
  unfold limit
  rw [budget_setBudget h]
  by_cases hk : k = a
  · subst hk
    rw [if_pos rfl, h]
    exact hb
  · rw [if_neg hk]

theorem held_setBudget (b' : ByteBudget) (a : Option ℕ) : (w.setBudget b' a).held = w.held := by
  cases a <;> rfl

theorem tryReserve_eq_some {bytes : ℕ} {w' : Storage} (h : w.tryReserve a bytes = some w') :
    w'.held = w.held ∧ w'.limit = w.limit ∧ w.used a + bytes ≤ w.limit a ∧
      w'.used = Function.update w.used a (w.used a + bytes) := by
  unfold tryReserve at h
  obtain ⟨b', hb', rfl⟩ := Option.map_eq_some_iff.mp h
  obtain ⟨b, hb, hreserve⟩ := Option.bind_eq_some_iff.mp hb'
  unfold ByteBudget.tryReserve at hreserve
  obtain ⟨next, hnext, rfl⟩ := Option.map_eq_some_iff.mp hreserve
  obtain ⟨hadd, hle⟩ := Option.filter_eq_some_iff.mp hnext
  obtain ⟨rfl, -⟩ := checkedAdd_eq_some.mp hadd
  have hused : w.used a = b.used := by
    unfold used
    rw [hb]
    rfl
  have hlimit : w.limit a = b.limit := by
    unfold limit
    rw [hb]
    rfl
  refine ⟨held_setBudget _ _, limit_setBudget hb rfl, ?_, ?_⟩
  · rw [hused, hlimit]
    exact of_decide_eq_true hle
  · rw [used_setBudget hb, hused]

theorem tryReserve_lists {bytes : ℕ} {w' : Storage} (h : w.tryReserve a bytes = some w') :
    w'.retained = w.retained ∧ w'.leases = w.leases ∧ w'.pools = w.pools ∧ w'.calls = w.calls := by
  unfold tryReserve at h
  obtain ⟨b', -, rfl⟩ := Option.map_eq_some_iff.mp h
  cases a <;> exact ⟨rfl, rfl, rfl, rfl⟩

theorem dropLease_lists (lease : ByteLease) :
    (w.dropLease lease).retained = w.retained ∧ (w.dropLease lease).leases = w.leases ∧
      (w.dropLease lease).pools = w.pools ∧ (w.dropLease lease).calls = w.calls := by
  unfold dropLease
  split
  · obtain ⟨k, n⟩ := lease
    cases k <;> exact ⟨rfl, rfl, rfl, rfl⟩
  · exact ⟨rfl, rfl, rfl, rfl⟩

end Storage

/-! ### The books -/

/-- The budgets count what is out, and no budget is larger than its counter. -/
structure Books (start w : Storage) : Prop where
  limit : w.limit = start.limit
  balanced : Balanced w.limit w.used w.held
  small : ∀ k, w.limit k ≤ u64Max

section Moves

variable {start w w' : Storage} {i : ℕ} {c : Call}

theorem release_limit (b : ByteBudget) (n : ℕ) : (b.release n).limit = b.limit := by
  cases b
  rfl

theorem release_used {b : ByteBudget} {n : ℕ} (hmax : b.used ≤ u64Max) (hle : n ≤ b.used) :
    (b.release n).used = b.used - n := by
  unfold ByteBudget.release
  exact wrappingSub_of_le hmax hle

theorem Books.dropLease (h : Books start w) (lease : ByteLease) (hle : lease.2 ≤ w.used lease.1) :
    (w.dropLease lease).held = w.held ∧ (w.dropLease lease).limit = w.limit ∧
      (w.dropLease lease).used = Function.update w.used lease.1 (w.used lease.1 - lease.2) := by
  obtain ⟨a, n⟩ := lease
  unfold Storage.dropLease
  dsimp only at hle ⊢
  cases hb : w.budget a with
  | none =>
    have hzero : w.used a = 0 := by
      unfold Storage.used
      rw [hb]
      rfl
    refine ⟨rfl, rfl, ?_⟩
    rw [hzero, Nat.zero_sub, ← hzero, Function.update_eq_self]
  | some b =>
    have hused : w.used a = b.used := by
      unfold Storage.used
      rw [hb]
      rfl
    have hmax : b.used ≤ u64Max := hused ▸ (h.balanced.le a).trans (h.small a)
    refine ⟨Storage.held_setBudget _ _, Storage.limit_setBudget hb (release_limit b n), ?_⟩
    have hle : n ≤ b.used := hused ▸ hle
    rw [Storage.used_setBudget hb, hused, release_used hmax hle]

/-- What a step does to the accounts. -/
structure Booked (w w' : Storage) : Prop where
  limit : w'.limit = w.limit
  move : Move w.limit w.used w.held w'.used w'.held

theorem Booked.stay (hlimit : w'.limit = w.limit) (hused : w'.used = w.used) (hheld : w'.held = w.held) :
    Booked w w' := by
  refine ⟨hlimit, ?_⟩
  rw [hused]
  exact .stay hheld

theorem booked_reserve {a : Option ℕ} {bytes : ℕ} {w₁ : Storage} {c' : Call}
    (hreserve : w.tryReserve a bytes = some w₁) (hc : w.calls[i]? = some c)
    (hheld : c'.held = {(a, bytes)} + c.held) : Booked w (w₁.setCall i c') := by
  obtain ⟨hsame, hlimit, hle, hused⟩ := Storage.tryReserve_eq_some hreserve
  obtain ⟨-, -, -, hcalls⟩ := Storage.tryReserve_lists hreserve
  have hset := Storage.held_setCall (hcalls ▸ hc : w₁.calls[i]? = some c) c'
  refine ⟨hlimit, ?_⟩
  have hmove : (w₁.setCall i c').used = Function.update w.used a (w.used a + bytes) := hused
  rw [hmove]
  refine .reserve a bytes hle ?_
  rw [hheld, hsame, ← add_assoc] at hset
  rw [add_right_cancel hset, add_comm]

theorem booked_drop (h : Books start w) {drop : ByteLease} {c' : Call} (hc : w.calls[i]? = some c)
    (hheld : c.held = {drop} + c'.held) : Booked w ((w.dropLease drop).setCall i c') := by
  obtain ⟨a, n⟩ := drop
  have hout : w.held = {(a, n)} + ((w.setCall i c').held) := by
    have hset := Storage.held_setCall hc c'
    rw [hheld, ← add_assoc] at hset
    rw [← add_right_cancel hset, add_comm]
  have hle := h.balanced.drawn hout
  obtain ⟨hsame, hlimit, hused⟩ := h.dropLease (a, n) hle
  obtain ⟨-, -, -, hcalls⟩ := w.dropLease_lists (a, n)
  refine ⟨hlimit, ?_⟩
  have hmove : ((w.dropLease (a, n)).setCall i c').used = Function.update w.used a (w.used a - n) := hused
  rw [hmove]
  refine .release a n ?_
  have hset := Storage.held_setCall (hcalls ▸ hc : (w.dropLease (a, n)).calls[i]? = some c) c'
  rw [hheld, hsame, ← add_assoc] at hset
  rw [← add_right_cancel hset, add_comm]

theorem booked_setCall {c' : Call} (hc : w.calls[i]? = some c) (hheld : c'.held = c.held) :
    Booked w (w.setCall i c') := by
  refine .stay rfl rfl ?_
  have hset := Storage.held_setCall hc c'
  rw [hheld] at hset
  exact add_right_cancel hset

theorem booked_endCall (hc : w.calls[i]? = some c) (hheld : c.held = 0) : Booked w (w.endCall i) := by
  refine .stay rfl rfl ?_
  have hend := Storage.held_endCall hc
  rwa [hheld, add_zero] at hend

theorem booked_unlock {pool : ℕ} {p : TexturePool} (hp : w.pools[pool]? = some p)
    (hc : w.calls[i]? = some c) (hheld : c.held = 0) : Booked w (w.unlock i pool p) := by
  refine .stay rfl rfl ?_
  have hset := Storage.held_setPool_of_eq hp { p with locked := false } rfl
  have hend := Storage.held_endCall (w := w.setPool pool { p with locked := false }) hc
  rw [hheld, add_zero] at hend
  exact hend.trans hset

theorem booked_lease {pool : ℕ} {p : TexturePool} {state : PoolState} {pooled : PooledTexture}
    {shape : TextureShape} (hp : w.pools[pool]? = some p) (hc : w.calls[i]? = some c)
    (hheld : (p.freeLeases : Multiset ByteLease) + c.held =
      (state.free.flatMap (·.bytes.leases) : List ByteLease) + (pooled.bytes.leases : Multiset ByteLease)) :
    Booked w (w.lease i pool p state pooled shape) := by
  refine .stay rfl rfl ?_
  have hset := Storage.held_setPool hp { p with
    state := { state with leased := state.leased + 1 }, locked := false }
  have hend := Storage.held_endCall (w := w.setPool pool { p with
    state := { state with leased := state.leased + 1 }, locked := false }) hc
  have hleases : (w.lease i pool p state pooled shape).held =
      ((w.setPool pool { p with
        state := { state with leased := state.leased + 1 }, locked := false }).endCall i).held +
        (pooled.bytes.leases : Multiset ByteLease) := by
    unfold Storage.held Storage.lease Storage.endCall Storage.setPool
    dsimp only
    rw [sum_map_concat]
    abel
  have hfree : (TexturePool.freeLeases { p with
      state := { state with leased := state.leased + 1 }, locked := false } : Multiset ByteLease) =
      (state.free.flatMap (·.bytes.leases) : List ByteLease) := rfl
  rw [hfree] at hset
  refine add_right_cancel (b := (p.freeLeases : Multiset ByteLease) + c.held) ?_
  calc (w.lease i pool p state pooled shape).held + ((p.freeLeases : Multiset ByteLease) + c.held)
      = (((w.setPool pool { p with
          state := { state with leased := state.leased + 1 }, locked := false }).endCall i).held +
          c.held) + (p.freeLeases : Multiset ByteLease) + (pooled.bytes.leases : Multiset ByteLease) := by
        rw [hleases]
        abel
    _ = w.held + (state.free.flatMap (·.bytes.leases) : List ByteLease) +
          (pooled.bytes.leases : Multiset ByteLease) := by
        rw [hend, hset]
    _ = w.held + ((p.freeLeases : Multiset ByteLease) + c.held) := by
        rw [hheld]
        abel

theorem booked_setPool_setCall {pool : ℕ} {p p' : TexturePool} {c' : Call}
    (hp : w.pools[pool]? = some p) (hc : w.calls[i]? = some c)
    (hheld : (p'.freeLeases : Multiset ByteLease) + c'.held = (p.freeLeases : Multiset ByteLease) + c.held) :
    Booked w ((w.setPool pool p').setCall i c') := by
  refine .stay rfl rfl ?_
  have hset := Storage.held_setPool hp p'
  have hcall := Storage.held_setCall (w := w.setPool pool p') hc c'
  refine add_right_cancel (b := (p.freeLeases : Multiset ByteLease) + c.held) ?_
  calc ((w.setPool pool p').setCall i c').held + ((p.freeLeases : Multiset ByteLease) + c.held)
      = ((w.setPool pool p').setCall i c').held + c.held + (p.freeLeases : Multiset ByteLease) := by abel
    _ = (w.setPool pool p').held + (p.freeLeases : Multiset ByteLease) + c'.held := by
        rw [hcall]
        abel
    _ = w.held + ((p'.freeLeases : Multiset ByteLease) + c'.held) := by
        rw [hset]
        abel
    _ = w.held + ((p.freeLeases : Multiset ByteLease) + c.held) := by rw [hheld]

theorem booked_setPool_startCall {pool : ℕ} {p p' : TexturePool} {c' : Call}
    (hp : w.pools[pool]? = some p)
    (hheld : (p'.freeLeases : Multiset ByteLease) + c'.held = (p.freeLeases : Multiset ByteLease)) :
    Booked w ((w.setPool pool p').startCall c') := by
  refine .stay rfl rfl ?_
  have hset := Storage.held_setPool hp p'
  refine add_right_cancel (b := (p.freeLeases : Multiset ByteLease)) ?_
  calc ((w.setPool pool p').startCall c').held + (p.freeLeases : Multiset ByteLease)
      = (w.setPool pool p').held + (p.freeLeases : Multiset ByteLease) + c'.held := by
        rw [Storage.held_startCall]
        abel
    _ = w.held + ((p'.freeLeases : Multiset ByteLease) + c'.held) := by
        rw [hset]
        abel
    _ = w.held + (p.freeLeases : Multiset ByteLease) := by rw [hheld]

theorem held_dropTexture {index : ℕ} {lease : TextureLease} {p : TexturePool}
    (hl : w.leases[index]? = some lease) (hp : w.pools[lease.pool]? = some p) (p' : TexturePool) :
    (Storage.setPool { w with leases := w.leases.eraseIdx index } lease.pool p').held +
        ((p.freeLeases : Multiset ByteLease) + (lease.pooled.bytes.leases : Multiset ByteLease)) =
      w.held + (p'.freeLeases : Multiset ByteLease) := by
  have hset := Storage.held_setPool (w := { w with leases := w.leases.eraseIdx index }) hp p'
  have herase := Storage.held_eraseLease hl
  rw [← add_assoc, hset, ← herase]
  abel

theorem booked_keep {index : ℕ} {lease : TextureLease} {p p' : TexturePool}
    (hl : w.leases[index]? = some lease) (hp : w.pools[lease.pool]? = some p)
    (hheld : p'.freeLeases = p.freeLeases ++ lease.pooled.bytes.leases) :
    Booked w (Storage.setPool { w with leases := w.leases.eraseIdx index } lease.pool p') := by
  refine .stay rfl rfl ?_
  have hout := held_dropTexture hl hp p'
  rw [hheld, ← Multiset.coe_add] at hout
  exact add_right_cancel hout

theorem booked_discard {index : ℕ} {lease : TextureLease} {p p' : TexturePool}
    (hl : w.leases[index]? = some lease) (hp : w.pools[lease.pool]? = some p)
    (hheld : p'.freeLeases = p.freeLeases) :
    Booked w ((Storage.setPool { w with leases := w.leases.eraseIdx index } lease.pool p').startCall
      (.dropping lease.pooled.bytes.leases)) := by
  refine .stay rfl rfl ?_
  have hout := held_dropTexture hl hp p'
  rw [hheld, ← add_assoc, add_right_comm] at hout
  rw [Storage.held_startCall]
  exact add_right_cancel hout

theorem CallStep.booked (h : Books start w) (hc : w.calls[i]? = some c) (hs : CallStep w i c w') :
    Booked w w' := by
  cases hs with
  | reserve hreserve => exact booked_reserve hreserve hc (add_zero _).symm
  | refuseSession => exact booked_endCall hc rfl
  | @retain session bytes w₁ hreserve =>
    obtain ⟨hsame, hlimit, hle, hused⟩ := Storage.tryReserve_eq_some hreserve
    obtain ⟨hretained, -, -, hcalls⟩ := Storage.tryReserve_lists hreserve
    refine ⟨hlimit, ?_⟩
    have hmove : Storage.used { w₁.endCall i with retained := w.retained ++ [⟨session, bytes⟩] } =
        Function.update w.used none (w.used none + bytes) := hused
    rw [hmove]
    refine .reserve none bytes hle ?_
    have hend := Storage.held_endCall (hcalls ▸ hc : w₁.calls[i]? = some (.reserved session bytes))
    have hkeep : Storage.held { w₁.endCall i with retained := w.retained ++ [⟨session, bytes⟩] } =
        (w₁.endCall i).held + ({(some session, bytes)} + {(none, bytes)}) := by
      rw [← hretained]
      unfold Storage.held Storage.endCall
      dsimp only
      rw [sum_map_concat]
      have hpair : (RetainedBytes.leases ⟨session, bytes⟩ : Multiset ByteLease) =
          {(some session, bytes)} + {(none, bytes)} := rfl
      rw [hpair]
      abel
    rw [hkeep, ← hsame, ← hend]
    have hcall : (Call.reserved session bytes).held = {(some session, bytes)} := rfl
    rw [hcall]
    abel
  | refuseGlobal => exact booked_setCall hc rfl
  | wouldBlock => exact booked_endCall hc rfl
  | enter hp _ hshape => exact booked_setPool_setCall hp hc rfl
  | reshape hp _ =>
    refine booked_setPool_setCall hp hc ?_
    exact (zero_add _).trans (add_zero _).symm
  | clear => exact booked_drop h hc rfl
  | @reuse pool bytes shape p pooled hp hlast =>
    refine booked_lease hp hc ?_
    have hsplit := List.dropLast_append_getLast? pooled hlast
    have hfree : p.freeLeases = p.state.free.dropLast.flatMap (·.bytes.leases) ++ pooled.bytes.leases := by
      unfold TexturePool.freeLeases
      rw [← hsplit, List.flatMap_append, hsplit]
      simp
    rw [hfree, ← Multiset.coe_add]
    exact add_zero _
  | full hp => exact booked_unlock hp hc rfl
  | charge => exact booked_setCall hc rfl
  | chargeSession hreserve => exact booked_reserve hreserve hc (add_zero _).symm
  | uncharged hp => exact booked_unlock hp hc rfl
  | chargeGlobal hreserve =>
    refine booked_reserve hreserve hc ?_
    rw [add_comm]
    rfl
  | discharge => exact booked_setCall hc rfl
  | create hp => exact booked_lease hp hc rfl
  | createFails => exact booked_setCall hc rfl
  | closes => exact booked_drop h hc rfl
  | closed hp => exact booked_unlock hp hc rfl
  | drops => exact booked_drop h hc rfl
  | dropped => exact booked_endCall hc rfl

theorem Step.booked {a : Access} (h : Books start w) (hs : Step w a w') : Booked w w' := by
  cases hs with
  | nothing => exact .stay rfl rfl rfl
  | reserve | acquire =>
    refine .stay rfl rfl ?_
    rw [Storage.held_startCall]
    exact add_zero _
  | dropBytes hr =>
    refine .stay rfl rfl ?_
    rw [Storage.held_startCall]
    exact Storage.held_eraseRetained hr
  | retire hp =>
    refine booked_setPool_startCall hp ?_
    exact zero_add _
  | orphan hl =>
    refine .stay rfl rfl ?_
    rw [Storage.held_startCall]
    exact Storage.held_eraseLease hl
  | defer hl hp =>
    exact booked_discard hl hp rfl
  | @keep index lease p _ hl hp _ _ hshape =>
    refine booked_keep hl hp ?_
    unfold TexturePool.freeLeases PoolState.putBack
    rw [if_pos hshape]
    dsimp only
    rw [List.flatMap_append]
    simp [TexturePool.settle, PoolState.applyDeferredDiscards]
  | @discard index lease p _ hl hp _ _ hshape =>
    refine booked_discard hl hp ?_
    unfold TexturePool.freeLeases PoolState.putBack
    rw [if_neg hshape]
    rfl
  | dropPool hp =>
    refine booked_setPool_startCall hp ?_
    exact zero_add _
  | advance hc hstep => exact hstep.booked h hc

theorem Books.step {a : Access} (h : Books start w) (hs : Step w a w') : Books start w' := by
  obtain ⟨hlimit, hmove⟩ := hs.booked h
  have hbalanced := h.balanced.move hmove
  rw [← hlimit] at hbalanced
  exact ⟨hlimit.trans h.limit, hbalanced, fun k => by rw [hlimit]; exact h.small k⟩

end Moves

/-! ### Runs -/

section Runs

variable {start w : Storage}

theorem Fresh.books (h : Fresh start) : Books start start := by
  obtain ⟨hretained, hleases, hcalls⟩ := h.out
  have hfree : ∀ p ∈ start.pools, (p.freeLeases : Multiset ByteLease) = 0 := by
    intro p hp
    unfold TexturePool.freeLeases
    rw [(h.pools p hp).2.1]
    rfl
  have hpools : (start.pools.map fun p => (p.freeLeases : Multiset ByteLease)).sum = 0 :=
    List.sum_eq_zero fun x hx => by
      obtain ⟨p, hp, rfl⟩ := List.mem_map.mp hx
      exact hfree p hp
  have hheld : start.held = 0 := by
    unfold Storage.held
    rw [hretained, hleases, hcalls, hpools]
    rfl
  have hbudget : ∀ k b, start.budget k = some b → b.used = 0 ∧ b.limit ≤ u64Max := by
    intro k b hb
    cases k with
    | none =>
      obtain rfl := Option.some.inj hb
      exact h.total
    | some s =>
      obtain ⟨m, hm, rfl⟩ := Option.map_eq_some_iff.mp hb
      exact h.sessions m (List.mem_of_getElem? hm)
  have hused : ∀ k, start.used k = 0 := by
    intro k
    unfold Storage.used
    cases hb : start.budget k with
    | none => rfl
    | some b => exact (hbudget k b hb).1
  refine ⟨rfl, ⟨fun k => ?_, fun k => ?_⟩, fun k => ?_⟩
  · rw [hused, hheld]
    rfl
  · rw [hused]
    exact Nat.zero_le _
  · unfold Storage.limit
    cases hb : start.budget k with
    | none => exact Nat.zero_le _
    | some b => exact (hbudget k b hb).2

theorem books_reachable (h₀ : Fresh start) (hr : (storageSystem start).Reachable w) :
    Books start w := by
  refine hr.invariant ?_ fun w a w' _ hw hstep => hw.step (step_of_perform hstep)
  rintro w rfl
  exact h₀.books

/-! ### Sessions together -/

def Paired (leases : Multiset ByteLease) : Prop := owedByFamily leases = owed leases none

theorem Paired.zero : Paired 0 := rfl

theorem Paired.add {leases leases' : Multiset ByteLease} (h : Paired leases) (h' : Paired leases') :
    Paired (leases + leases') := by
  unfold Paired at *
  rw [owedByFamily_add, owed_add, h, h']

theorem paired_sum {α : Type*} (f : α → Multiset ByteLease) (l : List α) (h : ∀ x ∈ l, Paired (f x)) :
    Paired (l.map f).sum := by
  induction l with
  | nil => exact .zero
  | cons x l ih =>
    rw [List.map_cons, List.sum_cons]
    exact (h x List.mem_cons_self).add (ih fun y hy => h y (List.mem_cons_of_mem _ hy))

theorem paired_leases (r : RetainedBytes) : Paired (r.leases : Multiset ByteLease) := by
  have hpair : (r.leases : Multiset ByteLease) = {(some r.session, r.bytes)} + {(none, r.bytes)} := rfl
  unfold Paired
  rw [hpair, owedByFamily_add, owed_add, owed_singleton, owed_singleton]
  simp [owedByFamily, Multiset.filter_singleton]

theorem paired_free (p : TexturePool) : Paired (p.freeLeases : Multiset ByteLease) := by
  unfold TexturePool.freeLeases
  induction p.state.free with
  | nil => exact .zero
  | cons t free ih =>
    rw [List.flatMap_cons, ← Multiset.coe_add]
    exact (paired_leases t.bytes).add ih

/-- What the calls in progress hold of the sessions' budgets, and of the global one. -/
def Storage.sessionShare (w : Storage) : ℕ := owedByFamily (w.calls.map Call.held).sum

def Storage.globalShare (w : Storage) : ℕ := owed (w.calls.map Call.held).sum none

theorem Books.sum_sessions (h : Books start w) :
    w.total.used + w.sessionShare = (w.sessions.map (·.session.used)).sum + w.globalShare := by
  have houtside : ∀ s ∉ Finset.range w.sessions.length, owed w.held (some s) = 0 := by
    intro s hs
    rw [← h.balanced.counts]
    have hnone : w.sessions[s]? = none := List.getElem?_eq_none (by simpa using hs)
    simp [Storage.used, Storage.budget, hnone]
  have hsessions : (w.sessions.map (·.session.used)).sum = owedByFamily w.held := by
    rw [← sum_owed w.held (Finset.range w.sessions.length) houtside]
    rw [Finset.sum_congr rfl fun s _ => (h.balanced.counts (some s)).symm]
    rw [Finset.sum_range fun s => w.used (some s), ← List.sum_ofFn]
    congr 1
    refine List.ext_getElem (by simp) fun s h₁ h₂ => ?_
    simp [Storage.used, Storage.budget]
  have htotal : w.total.used = owed w.held none := h.balanced.counts none
  have hpaired : Paired ((w.retained.map fun r => (r.leases : Multiset ByteLease)).sum +
      (w.leases.map fun l => (l.pooled.bytes.leases : Multiset ByteLease)).sum +
      (w.pools.map fun p => (p.freeLeases : Multiset ByteLease)).sum) :=
    ((paired_sum _ _ fun r _ => paired_leases r).add
      (paired_sum _ _ fun l _ => paired_leases l.pooled.bytes)).add
      (paired_sum _ _ fun p _ => paired_free p)
  unfold Paired at hpaired
  rw [hsessions, htotal]
  unfold Storage.held Storage.sessionShare Storage.globalShare
  rw [owed_add, owedByFamily_add, hpaired]
  omega

end Runs

end MadoPilot.Platform.WindowsStorage
