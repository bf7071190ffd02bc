import MadoPilot.Lib.Tally
import MadoPilot.Platform.StorageBooks

/-!
# The texture pools of the Windows storage

A call that holds the mutex of a pool knows the pool's shape and, before it creates a texture, that there
is room for one.  Nobody else changes either, since only one call holds the mutex.

* `Sound` : what the fields of a pool say;
* `PoolsInv.change` : what a section on one pool has to leave;
* `pools_reachable` : the invariant.
-/

namespace MadoPilot.Platform.WindowsStorage

open MadoPilot.Core MadoPilot.Capture MadoPilot.Lib

/-! ### The invariant -/

def Storage.out (w : Storage) (k : ℕ) : ℕ := w.leases.countP (·.pool = k)

def Storage.holders (w : Storage) (k : ℕ) : ℕ := w.calls.countP (·.locks = some k)

structure Sound (w : Storage) (k : ℕ) (p : TexturePool) : Prop where
  leased : p.alive = true → p.state.leased = w.out k + p.deferredDiscards
  allocated : p.alive = true → p.state.allocated = w.out k + p.state.free.length + p.deferredDiscards
  capacity : p.alive = true → p.state.allocated ≤ p.capacity
  free : ∀ t ∈ p.state.free, p.state.shape = some t.shape
  locked : w.holders k = p.locked.toNat

def Call.Knows (p : TexturePool) : Call → Prop
  | clearing _ shape _ _ => p.state.shape = some shape
  | charging _ shape _ _ | charged _ shape _ _ | creating _ shape _ _ =>
    p.state.shape = some shape ∧ p.state.allocated < p.capacity
  | _ => True

theorem Call.knows_of_unlocked {c : Call} {p : TexturePool} (h : c.locks = none) : c.Knows p := by
  cases c with
  | reserving | reserved | acquiring | dropping => trivial
  | clearing | charging | charged | creating | closing => cases h

theorem Call.refers_of_locks {c : Call} {k : ℕ} (h : c.locks = some k) : c.refers = some k := by
  cases c with
  | reserving | reserved | acquiring | dropping => cases h
  | clearing | charging | charged | creating | closing => exact h

theorem Call.locks_of_refers {c : Call} {k : ℕ} (h : c.refers = some k) :
    c.locks = some k ∨ c.locks = none := by
  cases c with
  | reserving | reserved | dropping => cases h
  | acquiring => exact Or.inr rfl
  | clearing | charging | charged | creating | closing => exact Or.inl h

structure PoolsInv (w : Storage) : Prop where
  pool : ∀ k p, w.pools[k]? = some p → Sound w k p
  call : ∀ c ∈ w.calls, ∀ k, c.refers = some k → ∃ p, w.pools[k]? = some p ∧ p.alive = true ∧ c.Knows p
  lease : ∀ l ∈ w.leases, l.pooled.shape = l.shape

section Steps

variable {w w' : Storage} {i k : ℕ} {c c' : Call} {p p' : TexturePool}

theorem PoolsInv.change (h : PoolsInv w) (hp : w.pools[k]? = some p) (p' : TexturePool)
    (hpools : w'.pools = w.pools.set k p')
    (hout : ∀ j, j ≠ k → w'.out j = w.out j) (hholders : ∀ j, j ≠ k → w'.holders j = w.holders j)
    (hcalls : ∀ c ∈ w'.calls, c ∈ w.calls ∨ c.refers = some k ∨ c.refers = none)
    (hsound : Sound w' k p') (hknows : ∀ c ∈ w'.calls, c.refers = some k → p'.alive = true ∧ c.Knows p')
    (hlease : ∀ l ∈ w'.leases, l ∈ w.leases ∨ l.pooled.shape = l.shape) : PoolsInv w' := by
  have hk : k < w.pools.length := (List.getElem?_eq_some_iff.mp hp).1
  have hat : ∀ j, w'.pools[j]? = if j = k then some p' else w.pools[j]? := by
    intro j
    rw [hpools, List.getElem?_set]
    by_cases hj : k = j
    · rw [if_pos hj, if_pos hk, if_pos hj.symm]
    · rw [if_neg hj, if_neg (Ne.symm hj)]
  refine ⟨fun j q hq => ?_, fun c hc j hj => ?_, fun l hl => ?_⟩
  · rw [hat] at hq
    by_cases hjk : j = k
    · subst hjk
      rw [if_pos rfl] at hq
      obtain rfl := Option.some.inj hq
      exact hsound
    · rw [if_neg hjk] at hq
      obtain ⟨hleased, hallocated, hcapacity, hfree, hlocked⟩ := h.pool j q hq
      refine ⟨?_, ?_, hcapacity, hfree, ?_⟩
      · rw [hout j hjk]
        exact hleased
      · rw [hout j hjk]
        exact hallocated
      · rw [hholders j hjk]
        exact hlocked
  · by_cases hjk : j = k
    · subst hjk
      obtain ⟨halive, hknow⟩ := hknows c hc hj
      exact ⟨p', by rw [hat, if_pos rfl], halive, hknow⟩
    · have hold : c ∈ w.calls := by
        rcases hcalls c hc with hold | hk | hnone
        · exact hold
        · exact absurd (Option.some.inj (hj.symm.trans hk)) hjk
        · cases hnone.symm.trans hj
      obtain ⟨q, hq, halive, hknow⟩ := h.call c hold j hj
      exact ⟨q, by rw [hat, if_neg hjk]; exact hq, halive, hknow⟩
  · rcases hlease l hl with hold | hnew
    · exact h.lease l hold
    · exact hnew

theorem PoolsInv.frame (h : PoolsInv w) (hpools : w'.pools = w.pools) (hleases : w'.leases = w.leases)
    (hholders : ∀ k, w'.holders k = w.holders k)
    (hcalls : ∀ c ∈ w'.calls, ∀ k, c.refers = some k →
      ∃ p, w.pools[k]? = some p ∧ p.alive = true ∧ c.Knows p) : PoolsInv w' := by
  refine ⟨fun k p hp => ?_, fun c hc k hk => ?_, fun l hl => ?_⟩
  · rw [hpools] at hp
    have hout : w'.out k = w.out k := by
      unfold Storage.out
      rw [hleases]
    obtain ⟨hleased, hallocated, hcapacity, hfree, hlocked⟩ := h.pool k p hp
    exact ⟨hout ▸ hleased, hout ▸ hallocated, hcapacity, hfree, (hholders k).trans hlocked⟩
  · rw [hpools]
    exact hcalls c hc k hk
  · rw [hleases] at hl
    exact h.lease l hl

theorem holders_setCall (h : w.calls[i]? = some c) (c' : Call) (k : ℕ) :
    (w.setCall i c').holders k + (decide (c.locks = some k)).toNat =
      w.holders k + (decide (c'.locks = some k)).toNat :=
  countP_set_add (fun c : Call => decide (c.locks = some k)) h

theorem holders_endCall (h : w.calls[i]? = some c) (k : ℕ) :
    (w.endCall i).holders k + (decide (c.locks = some k)).toNat = w.holders k :=
  countP_eraseIdx_add (fun c : Call => decide (c.locks = some k)) h

theorem holders_startCall (k : ℕ) :
    (w.startCall c).holders k = w.holders k + (decide (c.locks = some k)).toNat :=
  countP_concat (fun c : Call => decide (c.locks = some k)) _ _

theorem PoolsInv.alone (h : PoolsInv w) (hc : w.calls[i]? = some c) (hk : c.locks = some k)
    (hc' : c' ∈ w.calls.eraseIdx i) : c'.locks ≠ some k := by
  intro hk'
  obtain ⟨p, hp, -, -⟩ := h.call c (List.mem_of_getElem? hc) k (Call.refers_of_locks hk)
  have hlocked := (h.pool k p hp).locked
  have herase := holders_endCall hc k
  have hpos : 0 < (w.endCall i).holders k :=
    List.countP_pos_iff.mpr ⟨c', hc', decide_eq_true hk'⟩
  have hle : p.locked.toNat ≤ 1 := Bool.toNat_le _
  rw [decide_eq_true hk] at herase
  simp only [Bool.toNat_true] at herase
  omega

theorem PoolsInv.nobody (h : PoolsInv w) (hp : w.pools[k]? = some p) (hfree : p.locked = false)
    (hc : c ∈ w.calls) : c.locks ≠ some k := by
  intro hk
  have hlocked := (h.pool k p hp).locked
  rw [hfree] at hlocked
  have hpos : 0 < w.holders k := List.countP_pos_iff.mpr ⟨c, hc, decide_eq_true hk⟩
  rw [hlocked] at hpos
  exact absurd hpos (by simp)

theorem knows_of_ne (hk : c.refers = some k) (hne : c.locks ≠ some k) : c.Knows p' :=
  Call.knows_of_unlocked ((Call.locks_of_refers hk).resolve_left hne)

theorem PoolsInv.alive_of_refers (h : PoolsInv w) (hp : w.pools[k]? = some p) (hc : c ∈ w.calls)
    (hk : c.refers = some k) : p.alive = true := by
  obtain ⟨q, hq, halive, -⟩ := h.call c hc k hk
  rw [hp] at hq
  exact Option.some.inj hq ▸ halive

theorem PoolsInv.knows (h : PoolsInv w) (hp : w.pools[k]? = some p) (hc : c ∈ w.calls)
    (hk : c.refers = some k) : c.Knows p := by
  obtain ⟨q, hq, -, hknow⟩ := h.call c hc k hk
  rw [hp] at hq
  exact Option.some.inj hq ▸ hknow

/-! ### Steps of calls -/

theorem PoolsInv.moveCall (h : PoolsInv w) (hpools : w'.pools = w.pools) (hleases : w'.leases = w.leases)
    (hcalls : w'.calls = w.calls.set i c') (hc : w.calls[i]? = some c) (hlocks : c'.locks = c.locks)
    (hrefers : c'.refers = c.refers)
    (hknows : ∀ k p, w.pools[k]? = some p → c.refers = some k → c.Knows p → c'.Knows p) :
    PoolsInv w' := by
  refine h.frame hpools hleases (fun k => ?_) fun d hd k hk => ?_
  · have hset := holders_setCall hc c' k
    have hsame : w'.holders k = (w.setCall i c').holders k := by
      unfold Storage.holders Storage.setCall
      rw [hcalls]
    rw [hlocks] at hset
    omega
  · rw [hcalls] at hd
    rcases mem_eraseIdx_of_mem_set hd with rfl | hd
    · rw [hrefers] at hk
      obtain ⟨p, hp, halive, hknow⟩ := h.call c (List.mem_of_getElem? hc) k hk
      exact ⟨p, hp, halive, hknows k p hp hk hknow⟩
    · exact h.call d (List.mem_of_mem_eraseIdx hd) k hk

theorem PoolsInv.finishCall (h : PoolsInv w) (hpools : w'.pools = w.pools) (hleases : w'.leases = w.leases)
    (hcalls : w'.calls = w.calls.eraseIdx i) (hc : w.calls[i]? = some c) (hlocks : c.locks = none) :
    PoolsInv w' := by
  refine h.frame hpools hleases (fun k => ?_) fun d hd k hk => ?_
  · have hend := holders_endCall hc k
    have hsame : w'.holders k = (w.endCall i).holders k := by
      unfold Storage.holders Storage.endCall
      rw [hcalls]
    rw [hlocks] at hend
    rw [hsame]
    simpa using hend
  · rw [hcalls] at hd
    exact h.call d (List.mem_of_mem_eraseIdx hd) k hk

theorem PoolsInv.beginCall (h : PoolsInv w) (hpools : w'.pools = w.pools) (hleases : w'.leases = w.leases)
    (hcalls : w'.calls = w.calls ++ [c]) (hlocks : c.locks = none)
    (hrefers : ∀ k, c.refers = some k → ∃ p, w.pools[k]? = some p ∧ p.alive = true) : PoolsInv w' := by
  refine h.frame hpools hleases (fun k => ?_) fun d hd k hk => ?_
  · have hsame : w'.holders k = (w.startCall c).holders k := by
      unfold Storage.holders Storage.startCall
      rw [hcalls]
    rw [hsame, holders_startCall, hlocks]
    rfl
  · rw [hcalls] at hd
    rcases List.mem_append.mp hd with hd | hd
    · exact h.call d hd k hk
    · obtain rfl := List.mem_singleton.mp hd
      obtain ⟨p, hp, halive⟩ := hrefers k hk
      exact ⟨p, hp, halive, Call.knows_of_unlocked hlocks⟩

theorem PoolsInv.guarded (h : PoolsInv w) (hp : w.pools[k]? = some p) (hc : w.calls[i]? = some c)
    (hk : c.refers = some k) (hfree : c.locks = none → p.locked = false) (hk' : c'.locks = some k)
    (hlocked : p'.locked = true) (halive : p'.alive = p.alive) (hknows : c'.Knows p')
    (hleased : p.alive = true → p'.state.leased = w.out k + p'.deferredDiscards)
    (hallocated : p.alive = true →
      p'.state.allocated = w.out k + p'.state.free.length + p'.deferredDiscards)
    (hcapacity : p.alive = true → p'.state.allocated ≤ p'.capacity)
    (hshape : ∀ t ∈ p'.state.free, p'.state.shape = some t.shape) :
    PoolsInv ((w.setPool k p').setCall i c') := by
  have hother : ∀ d ∈ w.calls.eraseIdx i, d.locks ≠ some k := by
    intro d hd
    rcases Call.locks_of_refers hk with hl | hl
    · exact h.alone hc hl hd
    · exact h.nobody hp (hfree hl) (List.mem_of_mem_eraseIdx hd)
  have hset : ∀ j, ((w.setPool k p').setCall i c').holders j + (decide (c.locks = some j)).toNat =
      w.holders j + (decide (c'.locks = some j)).toNat := fun j =>
    holders_setCall (w := w.setPool k p') hc c' j
  have hmem : ∀ d ∈ ((w.setPool k p').setCall i c').calls, d = c' ∨ d ∈ w.calls.eraseIdx i :=
    fun d hd => mem_eraseIdx_of_mem_set hd
  refine h.change hp p' rfl (fun _ _ => rfl) (fun j hj => ?_) (fun d hd => ?_)
    ⟨halive ▸ hleased, halive ▸ hallocated, halive ▸ hcapacity, hshape, ?_⟩ (fun d hd hdk => ?_)
    fun l hl => Or.inl hl
  · have hs := hset j
    have h₁ : ¬ c'.locks = some j := by
      rw [hk']
      exact fun heq => hj (Option.some.inj heq).symm
    have h₂ : ¬ c.locks = some j := by
      rcases Call.locks_of_refers hk with hl | hl
      · rw [hl]
        exact fun heq => hj (Option.some.inj heq).symm
      · rw [hl]
        exact fun heq => by cases heq
    rw [decide_eq_false h₁, decide_eq_false h₂] at hs
    exact Nat.add_right_cancel hs
  · rcases hmem d hd with rfl | hd
    · exact Or.inr (Or.inl (Call.refers_of_locks hk'))
    · exact Or.inl (List.mem_of_mem_eraseIdx hd)
  · have hs := hset k
    have hold := (h.pool k p hp).locked
    rw [decide_eq_true hk'] at hs
    rw [hlocked]
    rcases Call.locks_of_refers hk with hl | hl
    · rw [decide_eq_true hl] at hs
      have hle : p.locked.toNat ≤ 1 := Bool.toNat_le _
      have hpos : 0 < w.holders k :=
        List.countP_pos_iff.mpr ⟨c, List.mem_of_getElem? hc, decide_eq_true hl⟩
      simp only [Bool.toNat_true] at hs ⊢
      omega
    · rw [hfree hl] at hold
      have hnot : ¬ c.locks = some k := by
        rw [hl]
        exact fun heq => by cases heq
      rw [decide_eq_false hnot] at hs
      simp only [Bool.toNat_true, Bool.toNat_false] at hs hold ⊢
      omega
  · have hpalive := h.alive_of_refers hp (List.mem_of_getElem? hc) hk
    rcases hmem d hd with rfl | hd
    · exact ⟨halive.trans hpalive, hknows⟩
    · exact ⟨halive.trans hpalive, knows_of_ne hdk (hother d hd)⟩

theorem PoolsInv.release (h : PoolsInv w) (hp : w.pools[k]? = some p) (p' : TexturePool)
    (hc : w.calls[i]? = some c) (hk : c.locks = some k) (hlocked : p'.locked = false) (halive : p'.alive = p.alive)
    (hpools : w'.pools = w.pools.set k p') (hcalls : w'.calls = w.calls.eraseIdx i)
    (hout : ∀ j, j ≠ k → w'.out j = w.out j)
    (hleased : p.alive = true → p'.state.leased = w'.out k + p'.deferredDiscards)
    (hallocated : p.alive = true →
      p'.state.allocated = w'.out k + p'.state.free.length + p'.deferredDiscards)
    (hcapacity : p.alive = true → p'.state.allocated ≤ p'.capacity)
    (hshape : ∀ t ∈ p'.state.free, p'.state.shape = some t.shape)
    (hlease : ∀ l ∈ w'.leases, l ∈ w.leases ∨ l.pooled.shape = l.shape) : PoolsInv w' := by
  have hend : ∀ j, w'.holders j + (decide (c.locks = some j)).toNat = w.holders j := by
    intro j
    have hsame : w'.holders j = (w.endCall i).holders j := by
      unfold Storage.holders Storage.endCall
      rw [hcalls]
    rw [hsame]
    exact holders_endCall hc j
  have hpalive := h.alive_of_refers hp (List.mem_of_getElem? hc) (Call.refers_of_locks hk)
  refine h.change hp p' hpools hout (fun j hj => ?_) (fun d hd => ?_)
    ⟨halive ▸ hleased, halive ▸ hallocated, halive ▸ hcapacity, hshape, ?_⟩ (fun d hd hdk => ?_) hlease
  · have hs := hend j
    have hnot : ¬ c.locks = some j := by
      rw [hk]
      exact fun heq => hj (Option.some.inj heq).symm
    rw [decide_eq_false hnot] at hs
    exact hs
  · rw [hcalls] at hd
    exact Or.inl (List.mem_of_mem_eraseIdx hd)
  · have hs := hend k
    have hold := (h.pool k p hp).locked
    have hle : p.locked.toNat ≤ 1 := Bool.toNat_le _
    rw [decide_eq_true hk] at hs
    rw [hlocked]
    simp only [Bool.toNat_true, Bool.toNat_false] at hs ⊢
    omega
  · rw [hcalls] at hd
    exact ⟨halive.trans hpalive, knows_of_ne hdk (h.alone hc hk hd)⟩

theorem PoolsInv.unlock (h : PoolsInv w) (hp : w.pools[k]? = some p) (hc : w.calls[i]? = some c)
    (hk : c.locks = some k) : PoolsInv (w.unlock i k p) := by
  obtain ⟨hleased, hallocated, hcapacity, hsame, -⟩ := h.pool k p hp
  exact h.release hp { p with locked := false } hc hk rfl rfl rfl rfl (fun _ _ => rfl) hleased
    hallocated hcapacity hsame fun l hl => Or.inl hl

theorem PoolsInv.giveBack {index : ℕ} {lease : TextureLease} (h : PoolsInv w)
    (hl : w.leases[index]? = some lease) (hp : w.pools[lease.pool]? = some p) (p' : TexturePool)
    (hpools : w'.pools = w.pools.set lease.pool p') (hleases : w'.leases = w.leases.eraseIdx index)
    (hcalls : ∀ c ∈ w'.calls, c ∈ w.calls ∨ c.refers = none)
    (hholders : ∀ j, w'.holders j = w.holders j) (hlocked : p'.locked = p.locked)
    (halive : p'.alive = p.alive)
    (hguard : p'.state = p.state ∧ p'.capacity = p.capacity ∨ p.locked = false)
    (hleased : p.alive = true → p'.state.leased + 1 = w.out lease.pool + p'.deferredDiscards)
    (hallocated : p.alive = true →
      p'.state.allocated + 1 = w.out lease.pool + p'.state.free.length + p'.deferredDiscards)
    (hcapacity : p.alive = true → p'.state.allocated ≤ p'.capacity)
    (hshape : ∀ t ∈ p'.state.free, p'.state.shape = some t.shape) : PoolsInv w' := by
  have hout : ∀ j, w'.out j + (decide (lease.pool = j)).toNat = w.out j := by
    intro j
    have hcount := countP_eraseIdx_add (fun l : TextureLease => decide (l.pool = j)) hl
    unfold Storage.out
    rw [hleases]
    exact hcount
  have hself := hout lease.pool
  rw [decide_eq_true rfl, Bool.toNat_true] at hself
  refine h.change hp p' hpools (fun j hj => ?_) (fun j _ => hholders j) (fun c hc => ?_)
    ⟨fun ha => ?_, fun ha => ?_, halive ▸ hcapacity, hshape, ?_⟩ (fun c hc hk => ?_) fun l hl' => ?_
  · have hs := hout j
    rw [decide_eq_false (Ne.symm hj)] at hs
    exact hs
  · exact (hcalls c hc).imp id Or.inr
  · have hs := hleased (halive ▸ ha)
    omega
  · have hs := hallocated (halive ▸ ha)
    omega
  · rw [hholders, hlocked]
    exact (h.pool _ p hp).locked
  · have hold : c ∈ w.calls := (hcalls c hc).resolve_right fun hnone => by
      cases hnone.symm.trans hk
    refine ⟨halive.trans (h.alive_of_refers hp hold hk), ?_⟩
    rcases hguard with ⟨hstate, hcap⟩ | hfree
    · have hknow := h.knows hp hold hk
      cases c with
      | reserving | reserved | acquiring | closing | dropping => trivial
      | clearing =>
        unfold Call.Knows at hknow ⊢
        rw [hstate]
        exact hknow
      | charging | charged | creating =>
        unfold Call.Knows at hknow ⊢
        rw [hstate, hcap]
        exact hknow
    · exact knows_of_ne hk (h.nobody hp hfree hold)
  · rw [hleases] at hl'
    exact Or.inl (List.mem_of_mem_eraseIdx hl')

theorem PoolsInv.opened (h : PoolsInv w) (hp : w.pools[k]? = some p) (hfree : p.locked = false)
    (hlocks : c.locks = none ∨ c.locks = some k) (hlocked : p'.locked = (decide (c.locks = some k)))
    (hrefers : c.refers = c.locks) (hclosing : c.locks = some k → ∀ q, c.Knows q)
    (halive : p'.alive = p.alive ∨ ∀ d ∈ w.calls, d.refers ≠ some k)
    (hstill : c.locks = some k → p'.alive = true)
    (hleased : p'.alive = true → p'.state.leased = w.out k + p'.deferredDiscards)
    (hallocated : p'.alive = true →
      p'.state.allocated = w.out k + p'.state.free.length + p'.deferredDiscards)
    (hcapacity : p'.alive = true → p'.state.allocated ≤ p'.capacity)
    (hshape : ∀ t ∈ p'.state.free, p'.state.shape = some t.shape) :
    PoolsInv ((w.setPool k p').startCall c) := by
  have hstart : ∀ j, ((w.setPool k p').startCall c).holders j =
      w.holders j + (decide (c.locks = some j)).toNat := fun j => holders_startCall (w := w.setPool k p') j
  refine h.change hp p' rfl (fun _ _ => rfl) (fun j hj => ?_) (fun d hd => ?_)
    ⟨hleased, hallocated, hcapacity, hshape, ?_⟩ (fun d hd hdk => ?_) fun l hl => Or.inl hl
  · have hnot : ¬ c.locks = some j := by
      rcases hlocks with hn | hk
      · rw [hn]
        exact fun heq => by cases heq
      · rw [hk]
        exact fun heq => hj (Option.some.inj heq).symm
    rw [hstart, decide_eq_false hnot]
    rfl
  · rcases List.mem_append.mp hd with hd | hd
    · exact Or.inl hd
    · obtain rfl := List.mem_singleton.mp hd
      rw [hrefers]
      exact Or.inr hlocks.symm
  · have hold := (h.pool k p hp).locked
    rw [hstart, hold, hfree, hlocked]
    exact Nat.zero_add _
  · rcases List.mem_append.mp hd with hd | hd
    · refine ⟨?_, knows_of_ne hdk (h.nobody hp hfree hd)⟩
      rcases halive with hsame | hnone
      · exact hsame.trans (h.alive_of_refers hp hd hdk)
      · exact absurd hdk (hnone d hd)
    · obtain rfl := List.mem_singleton.mp hd
      rw [hrefers] at hdk
      exact ⟨hstill hdk, hclosing hdk p'⟩

end Steps

/-! ### The steps -/

section Moves

variable {w w' : Storage} {i : ℕ} {c : Call}

theorem CallStep.pools (h : PoolsInv w) (hc : w.calls[i]? = some c) (hs : CallStep w i c w') :
    PoolsInv w' := by
  have hmem := List.mem_of_getElem? hc
  cases hs with
  | reserve hreserve | chargeSession hreserve | chargeGlobal hreserve =>
    obtain ⟨-, hleases, hpools, hcalls⟩ := Storage.tryReserve_lists hreserve
    refine h.moveCall hpools hleases (congrArg (List.set · i _) hcalls) hc rfl rfl ?_
    exact fun _ _ _ _ hknow => hknow
  | refuseSession | wouldBlock | dropped => exact h.finishCall rfl rfl rfl hc rfl
  | retain hreserve =>
    obtain ⟨-, hleases, hpools, hcalls⟩ := Storage.tryReserve_lists hreserve
    exact h.finishCall hpools hleases (congrArg (List.eraseIdx · i) hcalls) hc rfl
  | refuseGlobal => exact h.moveCall rfl rfl rfl hc rfl rfl fun _ _ _ _ _ => trivial
  | discharge | createFails => exact h.moveCall rfl rfl rfl hc rfl rfl fun _ _ _ _ _ => trivial
  | clear | closes | drops =>
    obtain ⟨-, hleases, hpools, hcalls⟩ := w.dropLease_lists _
    refine h.moveCall hpools hleases (congrArg (List.set · i _) hcalls) hc rfl rfl ?_
    exact fun _ _ _ _ hknow => hknow
  | charge hp hroom =>
    refine h.moveCall rfl rfl rfl hc rfl rfl fun k q hq hk hknow => ?_
    obtain rfl := Option.some.inj hk
    rw [hp] at hq
    obtain rfl := Option.some.inj hq
    exact ⟨hknow, hroom⟩
  | @enter pool bytes shape p hp hfree hshape =>
    obtain ⟨hleased, hallocated, hcapacity, hsame, -⟩ := h.pool pool p hp
    refine h.guarded hp hc rfl (fun _ => hfree) rfl rfl rfl hshape (fun ha => ?_) (fun ha => ?_)
      (fun ha => ?_) hsame
    · have hl := hleased ha
      simp only [TexturePool.settle, PoolState.applyDeferredDiscards]
      omega
    · have hl := hallocated ha
      simp only [TexturePool.settle, PoolState.applyDeferredDiscards]
      omega
    · exact (Nat.sub_le _ _).trans (hcapacity ha)
  | @reshape pool bytes shape p hp hfree =>
    obtain ⟨hleased, hallocated, hcapacity, -, -⟩ := h.pool pool p hp
    refine h.guarded hp hc rfl (fun _ => hfree) rfl rfl rfl rfl (fun ha => ?_) (fun ha => ?_)
      (fun ha => ?_) fun t ht => by cases ht
    · have hl := hleased ha
      simp only [TexturePool.settle, PoolState.applyDeferredDiscards, PoolState.retire]
      omega
    · have hl := hallocated ha
      simp only [TexturePool.settle, PoolState.applyDeferredDiscards, PoolState.retire,
        List.length_nil]
      omega
    · exact (Nat.sub_le _ _).trans ((Nat.sub_le _ _).trans (hcapacity ha))
  | @reuse pool bytes shape p pooled hp hlast =>
    obtain ⟨hleased, hallocated, hcapacity, hsame, -⟩ := h.pool pool p hp
    have hlen : p.state.free.length = p.state.free.dropLast.length + 1 := by
      have hsplit := congrArg List.length (List.dropLast_append_getLast? pooled hlast)
      rw [List.length_append, List.length_singleton] at hsplit
      exact hsplit.symm
    have hpooled : pooled.shape = shape := by
      have hknow : p.state.shape = some shape := h.knows hp hmem rfl
      rw [hsame pooled (List.mem_of_getLast? hlast)] at hknow
      exact Option.some.inj hknow
    have hout : ∀ j, (w.lease i pool p { p.state with free := p.state.free.dropLast } pooled shape).out j =
        w.out j + (decide (pool = j)).toNat := fun j =>
      countP_concat (fun l : TextureLease => decide (l.pool = j)) w.leases _
    refine h.release hp { p with
      state := { p.state with free := p.state.free.dropLast, leased := p.state.leased + 1 }
      locked := false } hc rfl rfl rfl rfl rfl (fun j hj => ?_) (fun ha => ?_) (fun ha => ?_)
      hcapacity (fun t ht => hsame t (List.mem_of_mem_dropLast ht)) fun l hl => ?_
    · rw [hout, decide_eq_false (Ne.symm hj)]
      rfl
    · have hl := hleased ha
      rw [hout, decide_eq_true rfl, Bool.toNat_true]
      dsimp only
      omega
    · have hl := hallocated ha
      rw [hout, decide_eq_true rfl, Bool.toNat_true]
      dsimp only
      omega
    · rcases List.mem_append.mp hl with hl | hl
      · exact Or.inl hl
      · obtain rfl := List.mem_singleton.mp hl
        exact Or.inr hpooled
  | @create pool session bytes shape p hp =>
    obtain ⟨hleased, hallocated, -, hsame, -⟩ := h.pool pool p hp
    obtain ⟨-, hroom⟩ : p.state.shape = some shape ∧ p.state.allocated < p.capacity :=
      h.knows hp hmem rfl
    have hout : ∀ j, (w.lease i pool p { p.state with allocated := p.state.allocated + 1 }
        ⟨shape, ⟨session, bytes⟩⟩ shape).out j = w.out j + (decide (pool = j)).toNat := fun j =>
      countP_concat (fun l : TextureLease => decide (l.pool = j)) w.leases _
    refine h.release hp { p with
      state := { p.state with allocated := p.state.allocated + 1, leased := p.state.leased + 1 }
      locked := false } hc rfl rfl rfl rfl rfl (fun j hj => ?_) (fun ha => ?_) (fun ha => ?_)
      (fun _ => hroom) hsame fun l hl => ?_
    · rw [hout, decide_eq_false (Ne.symm hj)]
      rfl
    · have hl := hleased ha
      rw [hout, decide_eq_true rfl, Bool.toNat_true]
      dsimp only
      omega
    · have hl := hallocated ha
      rw [hout, decide_eq_true rfl, Bool.toNat_true]
      dsimp only
      omega
    · rcases List.mem_append.mp hl with hl | hl
      · exact Or.inl hl
      · obtain rfl := List.mem_singleton.mp hl
        exact Or.inr rfl
  | full hp | uncharged hp | closed hp => exact h.unlock hp hc rfl

theorem Step.pools {a : Access} (h : PoolsInv w) (hs : Step w a w') : PoolsInv w' := by
  cases hs with
  | nothing => exact h
  | reserve => exact h.beginCall rfl rfl rfl rfl fun k hk => by cases hk
  | acquire hp halive =>
    refine h.beginCall rfl rfl rfl rfl fun k hk => ?_
    obtain rfl := Option.some.inj hk
    exact ⟨_, hp, halive⟩
  | dropBytes => exact h.beginCall rfl rfl rfl rfl fun k hk => by cases hk
  | @retire pool p _ hp halive hfree =>
    obtain ⟨hleased, hallocated, hcapacity, -, -⟩ := h.pool pool p hp
    refine h.opened hp hfree (Or.inr rfl) (decide_eq_true rfl).symm rfl (fun _ _ => trivial) (Or.inl rfl)
      (fun _ => halive) (fun ha => ?_) (fun ha => ?_) (fun ha => ?_) fun t ht => by cases ht
    · have hl := hleased ha
      simp only [TexturePool.settle, PoolState.applyDeferredDiscards, PoolState.retire]
      omega
    · have hl := hallocated ha
      simp only [TexturePool.settle, PoolState.applyDeferredDiscards, PoolState.retire,
        List.length_nil]
      omega
    · exact (Nat.sub_le _ _).trans ((Nat.sub_le _ _).trans (hcapacity ha))
  | @orphan index lease p _ hl hp hdead =>
    have hnot : p.alive = true → False := fun ha => by
      rw [hdead] at ha
      cases ha
    refine h.giveBack hl hp p ?_ rfl (fun d hd => ?_) (fun j => ?_) rfl rfl
      (Or.inl ⟨rfl, rfl⟩) (fun ha => (hnot ha).elim) (fun ha => (hnot ha).elim)
      (fun ha => (hnot ha).elim) (h.pool _ p hp).free
    · exact (set_self hp).symm
    · rcases List.mem_append.mp hd with hd | hd
      · exact Or.inl hd
      · exact Or.inr (by rw [List.mem_singleton.mp hd]; rfl)
    · exact holders_startCall (w := { w with leases := w.leases.eraseIdx index }) j
  | @defer index lease p _ hl hp halive =>
    obtain ⟨hleased, hallocated, hcapacity, hsame, -⟩ := h.pool _ p hp
    refine h.giveBack hl hp { p with deferredDiscards := p.deferredDiscards + 1 } rfl rfl
      (fun d hd => ?_) (fun j => ?_) rfl rfl (Or.inl ⟨rfl, rfl⟩) (fun ha => ?_) (fun ha => ?_)
      hcapacity hsame
    · rcases List.mem_append.mp hd with hd | hd
      · exact Or.inl hd
      · exact Or.inr (by rw [List.mem_singleton.mp hd]; rfl)
    · exact holders_startCall (w := Storage.setPool { w with leases := w.leases.eraseIdx index } _ _) j
    · have hl := hleased ha
      dsimp only
      omega
    · have hl := hallocated ha
      dsimp only
      omega
  | @keep index lease p _ hl hp halive hfree hshape =>
    obtain ⟨hleased, hallocated, hcapacity, hsame, -⟩ := h.pool _ p hp
    have hpos : 0 < w.out lease.pool :=
      List.countP_pos_iff.mpr ⟨lease, List.mem_of_getElem? hl, decide_eq_true rfl⟩
    refine h.giveBack hl hp { p.settle with
      state := p.settle.state.putBack lease.pooled lease.shape } rfl rfl (fun d hd => Or.inl hd)
      (fun _ => rfl) rfl rfl (Or.inr hfree) (fun ha => ?_) (fun ha => ?_) (fun ha => ?_) fun t ht => ?_
    all_goals simp only [PoolState.putBack, if_pos hshape] at *
    · have hl := hleased ha
      simp only [TexturePool.settle, PoolState.applyDeferredDiscards]
      omega
    · have hl := hallocated ha
      simp only [TexturePool.settle, PoolState.applyDeferredDiscards, List.length_append,
        List.length_singleton]
      omega
    · exact (Nat.sub_le _ _).trans (hcapacity ha)
    · rcases List.mem_append.mp ht with ht | ht
      · exact hsame t ht
      · rw [List.mem_singleton.mp ht, h.lease lease (List.mem_of_getElem? hl)]
        exact hshape
  | @discard index lease p _ hl hp halive hfree hshape =>
    obtain ⟨hleased, hallocated, hcapacity, hsame, -⟩ := h.pool _ p hp
    have hpos : 0 < w.out lease.pool :=
      List.countP_pos_iff.mpr ⟨lease, List.mem_of_getElem? hl, decide_eq_true rfl⟩
    refine h.giveBack hl hp { p.settle with
      state := p.settle.state.putBack lease.pooled lease.shape } rfl rfl (fun d hd => ?_)
      (fun j => ?_) rfl rfl (Or.inr hfree) (fun ha => ?_) (fun ha => ?_) (fun ha => ?_) fun t ht => ?_
    · rcases List.mem_append.mp hd with hd | hd
      · exact Or.inl hd
      · exact Or.inr (by rw [List.mem_singleton.mp hd]; rfl)
    · exact holders_startCall (w := Storage.setPool { w with leases := w.leases.eraseIdx index } _ _) j
    all_goals simp only [PoolState.putBack, if_neg hshape] at *
    · have hl := hleased ha
      simp only [TexturePool.settle, PoolState.applyDeferredDiscards]
      omega
    · have hl := hallocated ha
      simp only [TexturePool.settle, PoolState.applyDeferredDiscards]
      omega
    · exact (Nat.sub_le _ _).trans ((Nat.sub_le _ _).trans (hcapacity ha))
    · exact hsame t ht
  | @dropPool pool p hp halive hnone =>
    have hfree : p.locked = false := by
      by_contra hne
      have hlocked := (h.pool pool p hp).locked
      rw [Bool.not_eq_false] at hne
      rw [hne] at hlocked
      have hpos : 0 < w.holders pool := by
        rw [hlocked]
        exact Nat.one_pos
      obtain ⟨d, hd, hdk⟩ := List.countP_pos_iff.mp hpos
      exact hnone d hd (Call.refers_of_locks (of_decide_eq_true hdk))
    refine h.opened hp hfree (Or.inl rfl) ?_ rfl (fun hk => ?_) (Or.inr hnone) (fun hk => ?_)
      (fun ha => ?_) (fun ha => ?_) (fun ha => ?_) fun t ht => ?_
    · exact hfree
    · cases hk
    · cases hk
    · cases ha
    · cases ha
    · cases ha
    · cases ht
  | advance hc hstep => exact hstep.pools h hc

theorem Fresh.poolsInv (h : Fresh w) : PoolsInv w := by
  obtain ⟨-, hleases, hcalls⟩ := h.out
  refine ⟨fun k p hp => ?_, fun c hc => ?_, fun l hl => ?_⟩
  · obtain ⟨-, hstate, hdeferred, hlocked⟩ := h.pools p (List.mem_of_getElem? hp)
    have hout : w.out k = 0 := by
      unfold Storage.out
      rw [hleases]
      rfl
    have hholders : w.holders k = 0 := by
      unfold Storage.holders
      rw [hcalls]
      rfl
    refine ⟨fun _ => ?_, fun _ => ?_, fun _ => ?_, fun t ht => ?_, ?_⟩
    · rw [hstate, hout, hdeferred]
      rfl
    · rw [hstate, hout, hdeferred]
      rfl
    · rw [hstate]
      exact Nat.zero_le _
    · rw [hstate] at ht
      cases ht
    · rw [hholders, hlocked]
      rfl
  · rw [hcalls] at hc
    cases hc
  · rw [hleases] at hl
    cases hl

theorem pools_reachable {start : Storage} (h₀ : Fresh start) (hr : (storageSystem start).Reachable w) :
    PoolsInv w := by
  refine hr.invariant ?_ fun w a w' _ hw hstep => ?_
  · rintro w rfl
    exact h₀.poolsInv
  · exact (step_of_perform (a := a) hstep).pools hw

end Moves

end MadoPilot.Platform.WindowsStorage
