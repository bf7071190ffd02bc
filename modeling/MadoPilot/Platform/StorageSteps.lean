import MadoPilot.Platform.WindowsStorage

/-!
# What an access to the Windows storage can do

* `Step` : the outcomes of an access, each with what was checked for it;
* `step_of_perform` : an access has one of them.
-/

namespace MadoPilot.Platform.WindowsStorage

open MadoPilot.Core MadoPilot.Capture MadoPilot.Lib

/-- A step of the call number `i`, which stands at `c`. -/
inductive CallStep (w : Storage) (i : ℕ) : Call → Storage → Prop
  | reserve {session bytes : ℕ} {w' : Storage} : w.tryReserve (some session) bytes = some w' →
      CallStep w i (.reserving session bytes) (w'.setCall i (.reserved session bytes))
  | refuseSession {session bytes : ℕ} : w.tryReserve (some session) bytes = none →
      CallStep w i (.reserving session bytes) (w.endCall i)
  | retain {session bytes : ℕ} {w' : Storage} : w.tryReserve none bytes = some w' →
      CallStep w i (.reserved session bytes)
        { w'.endCall i with retained := w.retained ++ [⟨session, bytes⟩] }
  | refuseGlobal {session bytes : ℕ} : w.tryReserve none bytes = none →
      CallStep w i (.reserved session bytes) (w.setCall i (.dropping [(some session, bytes)]))
  | wouldBlock {pool bytes : ℕ} {shape : TextureShape} :
      CallStep w i (.acquiring pool shape bytes) (w.endCall i)
  | enter {pool bytes : ℕ} {shape : TextureShape} {p : TexturePool} :
      w.pools[pool]? = some p → p.locked = false → p.settle.state.shape = some shape →
      CallStep w i (.acquiring pool shape bytes)
        ((w.setPool pool { p.settle with locked := true }).setCall i (.clearing pool shape bytes []))
  | reshape {pool bytes : ℕ} {shape : TextureShape} {p : TexturePool} :
      w.pools[pool]? = some p → p.locked = false →
      CallStep w i (.acquiring pool shape bytes)
        ((w.setPool pool { p.settle with
          state := p.settle.state.retire (some shape)
          locked := true }).setCall i (.clearing pool shape bytes p.settle.freeLeases))
  | clear {pool bytes : ℕ} {shape : TextureShape} {drop : ByteLease} {drops : List ByteLease} :
      CallStep w i (.clearing pool shape bytes (drop :: drops))
        ((w.dropLease drop).setCall i (.clearing pool shape bytes drops))
  | reuse {pool bytes : ℕ} {shape : TextureShape} {p : TexturePool} {pooled : PooledTexture} :
      w.pools[pool]? = some p → p.state.free.getLast? = some pooled →
      CallStep w i (.clearing pool shape bytes [])
        (w.lease i pool p { p.state with free := p.state.free.dropLast } pooled shape)
  | full {pool bytes : ℕ} {shape : TextureShape} {p : TexturePool} :
      w.pools[pool]? = some p → CallStep w i (.clearing pool shape bytes []) (w.unlock i pool p)
  | charge {pool bytes : ℕ} {shape : TextureShape} {p : TexturePool} :
      w.pools[pool]? = some p → p.state.allocated < p.capacity →
      CallStep w i (.clearing pool shape bytes [])
        (w.setCall i (.charging pool shape p.memory bytes))
  | chargeSession {pool session bytes : ℕ} {shape : TextureShape} {w' : Storage} :
      w.tryReserve (some session) bytes = some w' →
      CallStep w i (.charging pool shape session bytes)
        (w'.setCall i (.charged pool shape session bytes))
  | uncharged {pool session bytes : ℕ} {shape : TextureShape} {p : TexturePool} :
      w.pools[pool]? = some p → w.tryReserve (some session) bytes = none →
      CallStep w i (.charging pool shape session bytes) (w.unlock i pool p)
  | chargeGlobal {pool session bytes : ℕ} {shape : TextureShape} {w' : Storage} :
      w.tryReserve none bytes = some w' →
      CallStep w i (.charged pool shape session bytes)
        (w'.setCall i (.creating pool shape session bytes))
  | discharge {pool session bytes : ℕ} {shape : TextureShape} : w.tryReserve none bytes = none →
      CallStep w i (.charged pool shape session bytes)
        (w.setCall i (.closing pool [(some session, bytes)]))
  | create {pool session bytes : ℕ} {shape : TextureShape} {p : TexturePool} :
      w.pools[pool]? = some p →
      CallStep w i (.creating pool shape session bytes)
        (w.lease i pool p { p.state with allocated := p.state.allocated + 1 } ⟨shape, ⟨session, bytes⟩⟩
          shape)
  | createFails {pool session bytes : ℕ} {shape : TextureShape} :
      CallStep w i (.creating pool shape session bytes)
        (w.setCall i (.closing pool (RetainedBytes.leases ⟨session, bytes⟩)))
  | closes {pool : ℕ} {drop : ByteLease} {drops : List ByteLease} :
      CallStep w i (.closing pool (drop :: drops)) ((w.dropLease drop).setCall i (.closing pool drops))
  | closed {pool : ℕ} {p : TexturePool} :
      w.pools[pool]? = some p → CallStep w i (.closing pool []) (w.unlock i pool p)
  | drops {drop : ByteLease} {drops : List ByteLease} :
      CallStep w i (.dropping (drop :: drops)) ((w.dropLease drop).setCall i (.dropping drops))
  | dropped : CallStep w i (.dropping []) (w.endCall i)

inductive Step (w : Storage) : Access → Storage → Prop
  | nothing {a : Access} : Step w a w
  | reserve {session bytes : ℕ} :
      Step w (.reserve session bytes) (w.startCall (.reserving session bytes))
  | acquire {pool bytes : ℕ} {descriptor : TextureDescriptor} {p : TexturePool} :
      w.pools[pool]? = some p → p.alive = true →
      Step w (.acquire pool descriptor)
        (w.startCall (.acquiring pool (.fromDescriptor descriptor) bytes))
  | dropBytes {index : ℕ} {r : RetainedBytes} : w.retained[index]? = some r →
      Step w (.dropBytes index)
        (Storage.startCall { w with retained := w.retained.eraseIdx index } (.dropping r.leases))
  | retire {pool : ℕ} {p : TexturePool} {ok : Bool} :
      w.pools[pool]? = some p → p.alive = true → p.locked = false →
      Step w (.retire pool ok) ((w.setPool pool { p.settle with
        state := p.settle.state.retire none
        locked := true }).startCall (.closing pool p.settle.freeLeases))
  | orphan {index : ℕ} {lease : TextureLease} {p : TexturePool} {ok : Bool} :
      w.leases[index]? = some lease → w.pools[lease.pool]? = some p → p.alive = false →
      Step w (.dropTexture index ok) (Storage.startCall { w with leases := w.leases.eraseIdx index }
        (.dropping lease.pooled.bytes.leases))
  | defer {index : ℕ} {lease : TextureLease} {p : TexturePool} {ok : Bool} :
      w.leases[index]? = some lease → w.pools[lease.pool]? = some p → p.alive = true →
      Step w (.dropTexture index ok) ((Storage.setPool { w with leases := w.leases.eraseIdx index }
        lease.pool { p with deferredDiscards := p.deferredDiscards + 1 }).startCall
          (.dropping lease.pooled.bytes.leases))
  | keep {index : ℕ} {lease : TextureLease} {p : TexturePool} {ok : Bool} :
      w.leases[index]? = some lease → w.pools[lease.pool]? = some p → p.alive = true →
      p.locked = false → p.settle.state.shape = some lease.shape →
      Step w (.dropTexture index ok) (Storage.setPool { w with leases := w.leases.eraseIdx index }
        lease.pool { p.settle with state := p.settle.state.putBack lease.pooled lease.shape })
  | discard {index : ℕ} {lease : TextureLease} {p : TexturePool} {ok : Bool} :
      w.leases[index]? = some lease → w.pools[lease.pool]? = some p → p.alive = true →
      p.locked = false → p.settle.state.shape ≠ some lease.shape →
      Step w (.dropTexture index ok) ((Storage.setPool { w with leases := w.leases.eraseIdx index }
        lease.pool { p.settle with state := p.settle.state.putBack lease.pooled lease.shape }).startCall
          (.dropping lease.pooled.bytes.leases))
  | dropPool {pool : ℕ} {p : TexturePool} : w.pools[pool]? = some p → p.alive = true →
      (∀ c ∈ w.calls, c.refers ≠ some pool) →
      Step w (.dropPool pool) ((w.setPool pool { p with
        alive := false
        state := .empty
        deferredDiscards := 0 }).startCall (.dropping p.freeLeases))
  | advance {i : ℕ} {c : Call} {w' : Storage} {ok : Bool} : w.calls[i]? = some c →
      CallStep w i c w' → Step w (.advance i ok) w'

variable {w w' : Storage}

theorem callStep_of_advance {i : ℕ} {ok : Bool} {c : Call} (h : w.advance i ok c = some w') :
    CallStep w i c w' := by
  cases c with
  | reserving session bytes =>
    simp only [Storage.advance] at h
    split at h
    · obtain rfl := Option.some.inj h
      exact .reserve ‹_›
    · obtain rfl := Option.some.inj h
      exact .refuseSession ‹_›
  | reserved session bytes =>
    simp only [Storage.advance] at h
    split at h
    · obtain rfl := Option.some.inj h
      exact .retain ‹_›
    · obtain rfl := Option.some.inj h
      exact .refuseGlobal ‹_›
  | acquiring pool shape bytes =>
    simp only [Storage.advance] at h
    split at h
    · cases h
    · rename_i p hp
      split at h
      · obtain rfl := Option.some.inj h
        exact .wouldBlock
      · split at h
        · cases h
        · rename_i hfree
          have hfree : p.locked = false := by simpa using hfree
          split at h
          · obtain rfl := Option.some.inj h
            exact .enter hp hfree ‹_›
          · obtain rfl := Option.some.inj h
            exact .reshape hp hfree
  | clearing pool shape bytes drops =>
    cases drops with
    | cons drop drops =>
      obtain rfl := Option.some.inj h
      exact .clear
    | nil =>
      simp only [Storage.advance] at h
      split at h
      · cases h
      · rename_i p hp
        split at h
        · obtain rfl := Option.some.inj h
          exact .reuse hp ‹_›
        · split at h
          · obtain rfl := Option.some.inj h
            exact .full hp
          · rename_i hroom
            obtain rfl := Option.some.inj h
            exact .charge hp (by omega)
  | charging pool shape session bytes =>
    simp only [Storage.advance] at h
    split at h
    · obtain rfl := Option.some.inj h
      exact .chargeSession ‹_›
    · obtain ⟨p, hp, rfl⟩ := Option.map_eq_some_iff.mp h
      exact .uncharged hp ‹_›
  | charged pool shape session bytes =>
    simp only [Storage.advance] at h
    split at h
    · obtain rfl := Option.some.inj h
      exact .chargeGlobal ‹_›
    · obtain rfl := Option.some.inj h
      exact .discharge ‹_›
  | creating pool shape session bytes =>
    simp only [Storage.advance] at h
    split at h
    · cases h
    · rename_i p hp
      split at h
      · obtain rfl := Option.some.inj h
        exact .create hp
      · obtain rfl := Option.some.inj h
        exact .createFails
  | closing pool drops =>
    cases drops with
    | cons drop drops =>
      obtain rfl := Option.some.inj h
      exact .closes
    | nil =>
      obtain ⟨p, hp, rfl⟩ := Option.map_eq_some_iff.mp h
      exact .closed hp
  | dropping drops =>
    cases drops with
    | cons drop drops =>
      obtain rfl := Option.some.inj h
      exact .drops
    | nil =>
      obtain rfl := Option.some.inj h
      exact .dropped

theorem step_of_dropTexture {index : ℕ} {ok : Bool} (h : w.dropTexture index ok = some w') :
    Step w (.dropTexture index ok) w' := by
  unfold Storage.dropTexture at h
  cases hlease : w.leases[index]? with
  | none =>
    rw [hlease] at h
    cases h
  | some lease =>
    rw [hlease] at h
    dsimp only at h
    cases hpool : w.pools[lease.pool]? with
    | none =>
      rw [hpool] at h
      cases h
    | some p =>
      rw [hpool] at h
      dsimp only at h
      split at h
      · rename_i hdead
        obtain rfl := Option.some.inj h
        exact .orphan hlease hpool (by simpa using hdead)
      · rename_i halive
        have halive : p.alive = true := by simpa using halive
        split at h
        · obtain rfl := Option.some.inj h
          exact .defer hlease hpool halive
        · split at h
          · cases h
          · rename_i hfree
            have hfree : p.locked = false := by simpa using hfree
            split at h
            · obtain rfl := Option.some.inj h
              exact .keep hlease hpool halive hfree ‹_›
            · obtain rfl := Option.some.inj h
              exact .discard hlease hpool halive hfree ‹_›

theorem step_of_perform {a : Access} (h : w.perform a = some w') : Step w a w' := by
  cases a with
  | reserve session bytes =>
    simp only [Storage.perform] at h
    split at h
    · obtain rfl := Option.some.inj h
      exact .reserve
    · cases h
  | dropBytes index =>
    obtain ⟨r, hr, rfl⟩ := Option.map_eq_some_iff.mp h
    exact .dropBytes hr
  | acquire pool descriptor =>
    simp only [Storage.perform] at h
    split at h
    · cases h
    · rename_i p hp
      split at h
      · cases h
      · rename_i halive
        split at h
        · cases h
        · split at h
          · obtain rfl := Option.some.inj h
            exact .nothing
          · obtain rfl := Option.some.inj h
            exact .acquire hp (by simpa using halive)
  | retire pool ok =>
    simp only [Storage.perform, Storage.retire] at h
    split at h
    · cases h
    · rename_i p hp
      split at h
      · cases h
      · rename_i halive
        split at h
        · obtain rfl := Option.some.inj h
          exact .nothing
        · split at h
          · cases h
          · rename_i hfree
            obtain rfl := Option.some.inj h
            exact .retire hp (by simpa using halive) (by simpa using hfree)
  | dropTexture index ok => exact step_of_dropTexture h
  | dropPool pool =>
    simp only [Storage.perform, Storage.dropPool] at h
    split at h
    · cases h
    · rename_i p hp
      split at h
      · cases h
      · rename_i hused
        obtain rfl := Option.some.inj h
        simp only [not_or, Bool.not_eq_true, Bool.not_eq_false', List.any_eq_false,
          decide_eq_true_eq] at hused
        exact .dropPool hp (by simpa using hused.1) hused.2
  | advance index ok =>
    obtain ⟨c, hc, hstep⟩ := Option.bind_eq_some_iff.mp h
    exact .advance hc (callStep_of_advance hstep)

end MadoPilot.Platform.WindowsStorage
