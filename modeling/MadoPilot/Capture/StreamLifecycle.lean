import MadoPilot.Lib.Census
import MadoPilot.Capture.StreamIdentity

/-!
# The lifecycle of one stream

Closing moves one way, the first terminal fault stays, and nothing is published or handed out once
the stream has left `Open`.  `LifecycleInv` adds to the stream's invariant what the waiting threads
and the drains know: the registered waiters are counted exactly, and a drain that has seen none will
not see another.

* `Act.waiters` : how a step changes the number of registered waiters;
* `lifecycleInv_reachable` : the invariant of the waiters and the drains;
* `leads_closed` : from any world that has left `Open`, an idle thread can drain the stream.
-/

namespace MadoPilot.Capture

open MadoPilot.Core MadoPilot.Lib

variable {τ : Type*}

/-- The thread is registered as a waiter. -/
def Pc.waiting : Pc → Prop
  | frameWaiting .. => True
  | _ => False

def Draining (inner : Inner) : Pc → Prop
  | .drainAdmit | .drainLoop _ | .drainWaiting _ => inner.lifecycle ≠ .opened
  | .drainDone _ => inner.lifecycle = .closed
  | .drainCommit _ | .drainFinal => inner.lifecycle ≠ .opened ∧ inner.waiters = 0
  | _ => True

/-- The frame a request has selected and not yet returned. -/
def Pc.candidate : Pc → Option Frame
  | frameCommit _ frame _ | frameFinal _ frame => some frame
  | _ => none

def Pc.attempt : Pc → Option Operation
  | drainLoop op | drainDone op | drainCommit op | drainWaiting op | frameLoop _ op
  | frameWaiting _ op | frameWoken _ op | frameCommit _ _ op | commitCommit _ op => some op
  | _ => none

/-- What an uninterrupted frame request is answered once the stream has left `Open`. -/
def Inner.endError (inner : Inner) : Error :=
  match inner.terminal with
  | some fault => fault.toError
  | none => CaptureFault.sessionClosed.toError

theorem Inner.commitFrame_of_not_opened {inner : Inner} {frame : Frame}
    (hs : frame.stamp.stream = inner.cursor.stream) (hl : inner.lifecycle ≠ .opened) :
    (inner.commitFrame frame).mapError CaptureFault.toError = .error inner.endError := by
  unfold commitFrame endError
  rw [if_neg (not_not.2 hs)]
  cases inner.terminal with
  | some fault => rfl
  | none => simp [hl, Except.mapError]

/-! ### What a step does to the lifecycle and the waiters -/

section Steps

variable {round : ℚ → Option ℚ} {stream : StreamId} {covers : Bool} {t : τ} {s s' : Shared τ}
  {pc pc' : Pc} {e : Event}

theorem PublishAct.frame (h : PublishAct round t s pc e s' pc') :
    s'.inner.lifecycle = s.inner.lifecycle ∧ s'.inner.terminal = s.inner.terminal ∧
      s'.inner.waiters = s.inner.waiters := by
  cases h <;> exact ⟨rfl, rfl, rfl⟩

theorem Act.lifecycle (h : Act round t s pc e s' pc') :
    s.inner.lifecycle.rank ≤ s'.inner.lifecycle.rank ∧
      (s'.inner.terminal = s.inner.terminal ∨
        s.inner.terminal = none ∧ s.inner.lifecycle ≠ .closed) := by
  rcases h.cases with hp | ⟨hq, -, -⟩
  · obtain ⟨hl, ht, -⟩ := hp.frame
    exact ⟨hl ▸ le_rfl, Or.inl ht⟩
  · exact ⟨hq.lifecycle, hq.terminal.imp_right fun h => ⟨h.1, h.2.1⟩⟩

theorem Act.waiters (h : Act round t s pc e s' pc') :
    (¬ pc.waiting ∧ ¬ pc'.waiting ∧ s'.inner.waiters = s.inner.waiters) ∨
      (¬ pc.waiting ∧ pc'.waiting ∧ s'.inner.waiters = s.inner.waiters + 1 ∧
        s.inner.lifecycle = .opened ∧ s'.inner.lifecycle = .opened) ∨
      (pc.waiting ∧ ¬ pc'.waiting ∧ s'.inner.waiters = s.inner.waiters - 1) := by
  cases h with
  | publish h => cases h <;> exact Or.inl ⟨id, id, rfl⟩
  | drop h => cases h <;> exact Or.inl ⟨id, id, rfl⟩
  | close h =>
    cases h with
    | drainFinal =>
      refine Or.inl ⟨id, id, ?_⟩
      change s.inner.close.waiters = s.inner.waiters
      unfold Inner.close
      split_ifs <;> rfl
    | _ => exact Or.inl ⟨id, id, rfl⟩
  | frame h =>
    cases h with
    | registers _ _ ho _ => exact Or.inr (Or.inl ⟨id, trivial, rfl, ho, ho⟩)
    | wakes => exact Or.inr (Or.inr ⟨trivial, id, rfl⟩)
    | _ => exact Or.inl ⟨id, id, rfl⟩

theorem Act.waiters_le (h : Act round t s pc e s' pc') (hl : s.inner.lifecycle ≠ .opened) :
    s'.inner.waiters ≤ s.inner.waiters := by
  rcases h.waiters with ⟨-, -, hw⟩ | ⟨-, -, -, ho, -⟩ | ⟨-, -, hw⟩
  · exact hw.le
  · exact absurd ho hl
  · omega

theorem Act.not_opened (h : Act round t s pc e s' pc') (hl : s.inner.lifecycle ≠ .opened) :
    s'.inner.lifecycle ≠ .opened := by
  rw [Lifecycle.ne_opened_iff_rank] at hl ⊢
  exact hl.trans h.lifecycle.1

theorem Act.closed (h : Act round t s pc e s' pc') (hl : s.inner.lifecycle = .closed) :
    s'.inner.lifecycle = .closed :=
  Lifecycle.eq_closed_of_rank (by simpa [hl, Lifecycle.rank] using h.lifecycle.1)

theorem Draining.of_act {pcu : Pc} (hd : Draining s.inner pcu) (h : Act round t s pc e s' pc') :
    Draining s'.inner pcu := by
  cases pcu with
  | drainAdmit | drainLoop | drainWaiting => exact h.not_opened hd
  | drainDone => exact h.closed hd
  | drainCommit | drainFinal =>
    exact ⟨h.not_opened hd.1, Nat.le_zero.1 (hd.2 ▸ h.waiters_le hd.1)⟩
  | _ => trivial

theorem Act.attempt (h : Act round t s pc e s' pc')
    (hprev : ∀ op, pc.attempt = some op → op.terminal = none) {op : Operation}
    (hop : pc'.attempt = some op) : op.terminal = none := by
  cases h with
  | publish h => cases h <;> cases hop
  | drop h => cases h <;> cases hop
  | close h =>
    cases h with
    | drainAdmitted seen hadmit =>
      cases hop
      exact (Operation.admitContext_eq_ok hadmit).2
    | drainWakes seen _ hcheck =>
      cases hop
      exact Operation.checkpoint_eq_ok hcheck ▸ hprev _ rfl
    | drainSeesClosed | drainSeesIdle | drainWaits => exact hprev _ hop
    | _ => cases hop
  | frame h =>
    cases h with
    | admitted seen hadmit | commitAdmitted seen hadmit =>
      cases hop
      exact (Operation.admitContext_eq_ok hadmit).2
    | retries seen hcheck =>
      cases hop
      exact Operation.checkpoint_eq_ok hcheck ▸ hprev _ rfl
    | selected | registers | wakes => exact hprev _ hop
    | _ => cases hop

theorem Act.draining (h : Act round t s pc e s' pc') (hd : Draining s.inner pc) :
    Draining s'.inner pc' := by
  have hkeep := hd.of_act h
  cases h with
  | publish h => cases h <;> trivial
  | drop h => cases h <;> trivial
  | frame h => cases h <;> trivial
  | close h =>
    cases h with
    | drainClose => exact s.inner.lifecycle.beginClose_ne_opened
    | drainSeesClosed _ hl => exact hl
    | drainSeesIdle _ _ hw => exact ⟨hd, hw⟩
    | drainAdmitted | drainWaits | drainWakes | drainCommits => exact hkeep
    | _ => trivial

theorem Act.closed_waiters (h : Act round t s pc e s' pc') (hd : Draining s.inner pc)
    (hc : s.inner.lifecycle = .closed → s.inner.waiters = 0) (hl : s'.inner.lifecycle = .closed) :
    s'.inner.waiters = 0 := by
  by_cases hb : s.inner.lifecycle = .closed
  · have hle := h.waiters_le (by simp [hb])
    have := hc hb
    omega
  · cases h with
    | publish h => exact absurd (h.frame.1.symm.trans hl) hb
    | drop h => cases h <;> exact absurd hl hb
    | frame h => cases h <;> exact absurd hl hb
    | close h =>
      cases h with
      | drainFinal =>
        have hcl : s.inner.close = { s.inner with lifecycle := .closed, latest := none } := if_pos hb
        change s.inner.close.waiters = 0
        rw [hcl]
        exact hd.2
      | terminate | close | drainClose => exact absurd (Lifecycle.beginClose_eq_closed.1 hl) hb
      | _ => exact absurd hl hb

end Steps

/-! ### The invariant of the waiters and the drains -/

structure LifecycleInv (stream : StreamId) (w : StreamWorld τ) : Prop where
  waiters : Census (fun t => (w.pc t).waiting) w.shared.inner.waiters
  closed : w.shared.inner.lifecycle = .closed → w.shared.inner.waiters = 0
  draining : ∀ t, Draining w.shared.inner (w.pc t)
  candidate : ∀ t frame, (w.pc t).candidate = some frame → frame.stamp.stream = stream
  attempt : ∀ t op, (w.pc t).attempt = some op → op.terminal = none

section Runs

variable {round : ℚ → Option ℚ} {stream : StreamId} {covers : Bool}
  {trail : List (StreamWorld τ × (τ × Event))} {w w' : StreamWorld τ} {t : τ} {s' : Shared τ}
  {pc' : Pc} {e : Event}

theorem Act.candidate (h : Act round t w.shared (w.pc t) e s' pc')
    (hw : StreamInv round stream covers w) (hi : LifecycleInv stream w) {frame : Frame}
    (hf : pc'.candidate = some frame) : frame.stamp.stream = stream := by
  have hprev := hi.candidate t
  generalize w.pc t = pc at h hprev
  cases h with
  | publish h => cases h <;> simp [Pc.candidate] at hf
  | drop h => cases h <;> simp [Pc.candidate] at hf
  | close h => cases h <;> simp [Pc.candidate] at hf
  | frame h =>
    cases h with
    | @selected sel op current hn ht ho hq =>
      obtain rfl : current = frame := by simpa [Pc.candidate] using hf
      have hsync := hw.synced hn (by simp [ho])
      have hlat : w.shared.inner.latest = some current := by
        unfold qualifying at hq
        cases hl : w.shared.inner.latest with
        | none => simp [hl] at hq
        | some c =>
          rw [hl] at hq
          cases sel with
          | latest => simpa using hq
          | newerThan stamp => simp only at hq; split at hq <;> simp_all
      cases hj : w.shared.journal with
      | nil => simp [hj, Synced, hlat] at hsync
      | cons a j =>
        simp only [hj, Synced, hlat, Option.some.injEq] at hsync
        exact hsync.1 ▸ (hw.formed a (hj ▸ List.mem_cons_self)).stream
    | commits => exact hprev _ hf
    | _ => simp [Pc.candidate] at hf

theorem lifecycleInv_start : LifecycleInv stream (StreamWorld.start τ stream covers) where
  waiters := Census.zero fun _ h => h
  closed h := by simp [StreamWorld.start, StreamState.build, Shared.inner] at h
  draining _ := trivial
  candidate _ _ h := by simp [StreamWorld.start, Pc.candidate] at h
  attempt _ _ h := by simp [StreamWorld.start, Pc.attempt] at h

theorem holder_eq_none (hw : StreamInv round stream covers w)
    (hl : w.shared.inner.lifecycle ≠ .opened) : w.shared.holder = none := by
  cases hh : w.shared.holder with
  | none => rfl
  | some t =>
    have hp := (hw.holder t).2 hh
    have hphase := hw.phase t
    generalize w.pc t = pc at hp hphase
    cases pc with
    | prepared | installed | settled | announced => exact absurd hphase.1.1 hl
    | _ => simp [Pc.publishing] at hp

variable [DecidableEq τ]

theorem waiters_move (h : Act round t w.shared (w.pc t) e s' pc')
    (hc : Census (fun u => (w.pc u).waiting) w.shared.inner.waiters) :
    Census (fun u => ((w.move t s' pc').pc u).waiting) s'.inner.waiters := by
  rcases h.waiters with ⟨hb, ha, hw⟩ | ⟨hb, ha, hw, -⟩ | ⟨hb, ha, hw⟩
  · exact hw ▸ hc.stay (iff_of_false ha hb)
  · exact hw ▸ hc.enter hb ha
  · exact hw ▸ hc.leave hb ha

theorem lifecycleInv_reachable (hw : (streamSystem round τ stream covers).Reachable w) :
    LifecycleInv stream w := by
  refine threads_invariant lifecycleInv_start (fun w t e s' pc' hr hi hact => ?_) hw
  refine ⟨waiters_move hact hi.waiters, hact.closed_waiters (hi.draining t) hi.closed, ?_, ?_, ?_⟩
  · exact w.forall_move t s' pc' (hact.draining (hi.draining t)) fun u _ =>
      (hi.draining u).of_act hact
  · exact w.forall_move t s' pc' (P := fun pc => ∀ frame, pc.candidate = some frame →
      frame.stamp.stream = stream) (fun _ => hact.candidate (streamInv_reachable hr) hi)
      fun u _ => hi.candidate u
  · exact w.forall_move t s' pc' (P := fun pc => ∀ op, pc.attempt = some op → op.terminal = none)
      (fun _ => hact.attempt (hi.attempt t)) fun u _ => hi.attempt u

/-! ### One way -/

/-- **The lifecycle and the terminal fault over a run.**  The lifecycle only moves forwards, a
recorded fault stays, and a closed stream records none. -/
theorem lifecycle_mono (hw : (streamSystem round τ stream covers).Reachable w)
    (h : (streamSystem round τ stream covers).Leads w w') :
    w.shared.inner.lifecycle.rank ≤ w'.shared.inner.lifecycle.rank ∧
      (∀ fault, w.shared.inner.terminal = some fault → w'.shared.inner.terminal = some fault) ∧
      (w.shared.inner.lifecycle = .closed →
        w'.shared.inner.terminal = w.shared.inner.terminal) := by
  refine h.mono (R := fun w w' : StreamWorld τ =>
    w.shared.inner.lifecycle.rank ≤ w'.shared.inner.lifecycle.rank ∧
      (∀ fault, w.shared.inner.terminal = some fault → w'.shared.inner.terminal = some fault) ∧
      (w.shared.inner.lifecycle = .closed → w'.shared.inner.terminal = w.shared.inner.terminal))
    (fun _ => ⟨le_rfl, fun _ => id, fun _ => rfl⟩) ?_ ?_ hw
  · rintro a b c ⟨hab, fab, cab⟩ ⟨hbc, fbc, cbc⟩
    refine ⟨hab.trans hbc, fun f hf => fbc f (fab f hf), fun hc => ?_⟩
    have hb : b.shared.inner.lifecycle = .closed :=
      Lifecycle.eq_closed_of_rank (by simpa [hc, Lifecycle.rank] using hab)
    exact (cbc hb).trans (cab hc)
  · rintro a ⟨t, e⟩ b - ⟨s', pc', hact, rfl⟩
    obtain ⟨hrank, hterm⟩ := hact.lifecycle
    refine ⟨hrank, fun f hf => ?_, fun hc => ?_⟩
    · rcases hterm with ht | ⟨hn, -⟩
      · exact ht.trans hf
      · simp [hn] at hf
    · rcases hterm with ht | ⟨-, hn⟩
      · exact ht
      · exact absurd hc hn

theorem published_eq_nil (hw : (streamSystem round τ stream covers).Reachable w)
    (hl : w.shared.inner.lifecycle ≠ .opened)
    (h : (streamSystem round τ stream covers).Path w trail w') : published (events trail) = [] := by
  suffices hs : published (events trail) = [] ∧ w'.shared.inner.lifecycle ≠ .opened from hs.1
  refine h.along (P := fun trail w' => published (events trail) = [] ∧
    w'.shared.inner.lifecycle ≠ .opened) ⟨rfl, hl⟩ ?_
  rintro trail v ⟨t, e⟩ - hpath ⟨hnil, hv⟩ ⟨s', pc', hact, rfl⟩
  have hinv := streamInv_reachable (hw.leads hpath.leads)
  refine ⟨?_, hact.not_opened hv⟩
  have hb : (v.pc t).publishing = false := by
    rw [← Bool.not_eq_true, hinv.holder t, holder_eq_none hinv hv]
    simp
  rw [events_append, published_append, hnil, events_singleton, List.nil_append]
  rcases hact.cases with hp | ⟨-, hb, ha⟩
  · generalize v.pc t = pc at hp hb
    cases hp with
    | refuse | begin => rfl
    | install | settle | announce | release => simp [Pc.publishing] at hb
  · exact (hact.quiet_event hb ha).1

/-! ### Requests and drains -/

/-- **A frame request on a stream that has left `Open`** is answered with the terminal fault or the
closed outcome, unless its own context answers an interruption. -/
theorem framed_of_not_opened {sel : FrameSelection} {seen : Option Interruption}
    {result : Except Error Frame} (hw : (streamSystem round τ stream covers).Reachable w)
    (hl : w.shared.inner.lifecycle ≠ .opened)
    (h : (streamSystem round τ stream covers).step w (t, .framed sel seen result) w') :
    result = .error (seen.elim w.shared.inner.endError Interruption.toError) := by
  obtain ⟨s', pc', hact, rfl⟩ := h
  have hi := lifecycleInv_reachable hw
  have hinv := streamInv_reachable hw
  have hcand := hi.candidate t
  have hop := hi.attempt t
  generalize w.pc t = pc at hact hcand hop
  cases hact with
  | publish h => cases h
  | drop h => cases h
  | close h => cases h
  | frame h =>
    cases h with
    | refused _ hseen =>
      obtain rfl := Operation.admitContext_eq_error hseen
      rfl
    | expires _ hseen =>
      obtain rfl := Operation.checkpoint_eq_error (hop _ rfl) hseen
      rfl
    | interrupted _ hseen =>
      obtain rfl := Operation.seen_of_commit (hop _ rfl) hseen
      rfl
    | terminal _ ht => simp [Inner.endError, ht]
    | notOpen _ ht => simp [Inner.endError, ht]
    | foreign _ _ ho => exact absurd ho hl
    | @final sel frame _ =>
      have hs : frame.stamp.stream = w.shared.inner.cursor.stream :=
        (hcand frame rfl).trans hinv.identity.symm
      have hc := Inner.commitFrame_of_not_opened hs hl
      cases hr : w.shared.inner.commitFrame frame with
      | ok u => simp [hr, Except.mapError] at hc
      | error f => simpa [hr, Except.mapError, Except.map] using hc

/-- **`commit_frame` on a stream that has left `Open`** is answered the same way, except for a frame
of another stream. -/
theorem committed_of_not_opened {frame : Frame} {seen : Option Interruption}
    {result : Except Error Unit} (hw : (streamSystem round τ stream covers).Reachable w)
    (hl : w.shared.inner.lifecycle ≠ .opened)
    (h : (streamSystem round τ stream covers).step w (t, .committed frame seen result) w') :
    result = .error (seen.elim (if frame.stamp.stream = stream then w.shared.inner.endError
      else CaptureFault.foreignStream.toError) Interruption.toError) := by
  obtain ⟨s', pc', hact, rfl⟩ := h
  have hid : w.shared.inner.cursor.stream = stream := (streamInv_reachable hw).identity
  have hop := (lifecycleInv_reachable hw).attempt t
  generalize w.pc t = pc at hact hop
  cases hact with
  | publish h => cases h
  | drop h => cases h
  | close h => cases h
  | frame h =>
    cases h with
    | commitRefused _ hseen =>
      obtain rfl := Operation.admitContext_eq_error hseen
      rfl
    | commitInterrupted _ hseen =>
      obtain rfl := Operation.seen_of_commit (hop _ rfl) hseen
      rfl
    | commitFinal =>
      rw [Option.elim_none]
      split_ifs with hs
      · exact Inner.commitFrame_of_not_opened (hs.trans hid.symm) hl
      · rw [← hid] at hs
        simp [Inner.commitFrame, hs, Except.mapError]

/-- **A drain that succeeds** was not interrupted, and leaves a closed stream without waiters. -/
theorem drained_ok {seen : Option Interruption}
    (hw : (streamSystem round τ stream covers).Reachable w)
    (h : (streamSystem round τ stream covers).step w (t, .drained seen (.ok ())) w') :
    seen = none ∧ w'.shared.inner.lifecycle = .closed ∧ w'.shared.inner.waiters = 0 := by
  have hi' := lifecycleInv_reachable (hw.step h)
  suffices hc : seen = none ∧ w'.shared.inner.lifecycle = .closed from ⟨hc.1, hc.2, hi'.closed hc.2⟩
  obtain ⟨s', pc', hact, rfl⟩ := h
  have hd := (lifecycleInv_reachable hw).draining t
  generalize w.pc t = pc at hact hd
  cases hact with
  | publish h => cases h
  | drop h => cases h
  | frame h => cases h
  | close h =>
    generalize he : Event.drained seen (.ok ()) = ev at h
    cases h with
    | drainDone =>
      obtain ⟨rfl, hok⟩ := Event.drained.inj he
      exact ⟨(Operation.commit_eq_ok hok.symm).2, hd⟩
    | drainFinal =>
      refine ⟨(Event.drained.inj he).1, ?_⟩
      change w.shared.inner.close.lifecycle = .closed
      unfold Inner.close
      split_ifs with hc
      · rfl
      · exact not_not.1 hc
    | _ => simp at he

/-- **A drain that fails** does so by its own context, and leaves the state under the mutex as it
was, past `Open`. -/
theorem drained_error {seen : Option Interruption} {error : Error}
    (hw : (streamSystem round τ stream covers).Reachable w)
    (h : (streamSystem round τ stream covers).step w (t, .drained seen (.error error)) w') :
    (∃ i, seen = some i ∧ error = i.toError) ∧ w'.shared.inner = w.shared.inner ∧
      w'.shared.inner.lifecycle ≠ .opened ∧ w'.pc t = .idle := by
  obtain ⟨s', pc', hact, rfl⟩ := h
  have hd := (lifecycleInv_reachable hw).draining t
  have hop := (lifecycleInv_reachable hw).attempt t
  generalize w.pc t = pc at hact hd hop
  cases hact with
  | publish h => cases h
  | drop h => cases h
  | frame h => cases h
  | close h =>
    generalize he : Event.drained seen (.error error) = ev at h
    cases h with
    | drainRefused _ hseen =>
      cases he
      exact ⟨⟨_, Operation.admitContext_eq_error hseen, rfl⟩, rfl, hd, by simp⟩
    | drainExpires _ _ hseen =>
      cases he
      exact ⟨⟨_, Operation.checkpoint_eq_error (hop _ rfl) hseen, rfl⟩, rfl, hd, by simp⟩
    | drainDone =>
      obtain ⟨rfl, herror⟩ := Event.drained.inj he
      refine ⟨Operation.commit_eq_error (hop _ rfl) herror.symm, rfl, ?_, by simp⟩
      simpa using fun ho => absurd (hd.symm.trans ho) (by simp)
    | drainInterrupted _ hseen =>
      cases he
      exact ⟨⟨_, Operation.seen_of_commit (hop _ rfl) hseen, rfl⟩, rfl, hd.1, by simp⟩
    | _ => simp at he

theorem leads_unattended (hw : (streamSystem round τ stream covers).Reachable w)
    (hl : w.shared.inner.lifecycle ≠ .opened) (ht : w.pc t = .idle) :
    ∃ v, (streamSystem round τ stream covers).Leads w v ∧ v.shared.inner.lifecycle ≠ .opened ∧
      v.shared.inner.waiters = 0 ∧ v.pc t = .idle := by
  generalize hn : w.shared.inner.waiters = n
  induction n generalizing w with
  | zero => exact ⟨w, .refl w, hl, hn, ht⟩
  | succ n ih =>
    have hi := lifecycleInv_reachable hw
    obtain ⟨u, hu⟩ := hi.waiters.exists_of_pos (by omega)
    have hfree := holder_eq_none (streamInv_reachable hw) hl
    cases hpc : w.pc u with
    | frameWaiting sel op =>
      have hne : t ≠ u := by
        rintro rfl
        simp [hpc] at ht
      have hstep : (streamSystem round τ stream covers).step w (u, .silent)
          (w.move u (w.shared.setWaiters (w.shared.inner.waiters - 1)) (.frameWoken sel op)) :=
        ⟨_, _, .frame (hpc ▸ .wakes hfree), rfl⟩
      obtain ⟨v, hv, hrest⟩ := ih (hw.step hstep) hl (by simpa [hne] using ht)
        (by change w.shared.inner.waiters - 1 = n; omega)
      exact ⟨v, hv.cons hstep, hrest⟩
    | _ => simp [hpc, Pc.waiting] at hu

theorem leads_closed (hw : (streamSystem round τ stream covers).Reachable w)
    (hl : w.shared.inner.lifecycle ≠ .opened) (ht : w.pc t = .idle) :
    ∃ v w', (streamSystem round τ stream covers).Leads w v ∧
      (streamSystem round τ stream covers).step v (t, .drained none (.ok ())) w' := by
  obtain ⟨v, hv, hlv, hz, hidle⟩ := leads_unattended hw hl ht
  have hfree := holder_eq_none (streamInv_reachable (hw.leads hv)) hlv
  -- both drains begin alike: `begin_close` changes nothing any more, and nobody interrupts them
  by_cases hc : v.shared.inner.lifecycle = .closed
  · have hsolo : Solo (Act round) t v.shared .idle [.silent, .silent, .silent, .silent]
        (v.shared.refuseDrops.setInner v.shared.inner.beginClose) (.drainDone ⟨none⟩) :=
      .cons (.close .drainCall) <| .cons (.close (.drainClose hfree)) <|
        .cons (.close (.drainAdmitted none rfl)) <|
        .cons (.close (.drainSeesClosed hfree (Lifecycle.beginClose_eq_closed.2 hc))) <| .nil ..
    obtain ⟨hu, hstep⟩ := (hidle ▸ hsolo).leads_step (.close (.drainDone none))
    exact ⟨_, _, hv.trans hu, hstep⟩
  · have hsolo : Solo (Act round) t v.shared .idle [.silent, .silent, .silent, .silent, .silent]
        (v.shared.refuseDrops.setInner v.shared.inner.beginClose) .drainFinal :=
      .cons (.close .drainCall) <| .cons (.close (.drainClose hfree)) <|
        .cons (.close (.drainAdmitted none rfl)) <|
        .cons (.close (.drainSeesIdle hfree (mt Lifecycle.beginClose_eq_closed.1 hc) hz)) <|
        .cons (.close (.drainCommits none rfl)) <| .nil ..
    obtain ⟨hu, hstep⟩ := (hidle ▸ hsolo).leads_step (.close (.drainFinal hfree))
    exact ⟨_, _, hv.trans hu, hstep⟩

theorem not_opened_of_closing
    (h : (streamSystem round τ stream covers).step w (t, .terminated) w' ∨
      (streamSystem round τ stream covers).step w (t, .closeBegun) w') :
    w'.shared.inner.lifecycle ≠ .opened := by
  rcases h with ⟨s', pc', hact, rfl⟩ | ⟨s', pc', hact, rfl⟩ <;> generalize w.pc t = pc at hact <;>
  · cases hact with
    | publish h => cases h
    | drop h => cases h
    | frame h => cases h
    | close h => cases h; exact w.shared.inner.lifecycle.beginClose_ne_opened

/-- **Stream lifecycle.**  In every reachable world the lifecycle only moves forwards and the first
terminal fault stays, closing is effective at once, and once the stream has left `Open` nothing is
published and every frame request is answered with the terminal fault or the closed outcome, unless
its own context answers an interruption or its frame is foreign.  A drain that succeeds leaves a
closed stream without waiters; one that its context interrupts changes nothing under the mutex, and
an idle thread can still drain the stream. -/
theorem stream_lifecycle (hw : (streamSystem round τ stream covers).Reachable w) :
    (∀ w', (streamSystem round τ stream covers).Leads w w' →
      w.shared.inner.lifecycle.rank ≤ w'.shared.inner.lifecycle.rank ∧
        (∀ fault, w.shared.inner.terminal = some fault → w'.shared.inner.terminal = some fault) ∧
        (w.shared.inner.lifecycle = .closed →
          w'.shared.inner.terminal = w.shared.inner.terminal)) ∧
      (∀ t w', (streamSystem round τ stream covers).step w (t, .terminated) w' ∨
        (streamSystem round τ stream covers).step w (t, .closeBegun) w' →
          w'.shared.inner.lifecycle ≠ .opened) ∧
      (w.shared.inner.lifecycle ≠ .opened →
        (∀ trail w', (streamSystem round τ stream covers).Path w trail w' →
          published (events trail) = []) ∧
        (∀ t sel seen result w',
          (streamSystem round τ stream covers).step w (t, .framed sel seen result) w' →
            result = .error (seen.elim w.shared.inner.endError Interruption.toError)) ∧
        (∀ t frame seen result w',
          (streamSystem round τ stream covers).step w (t, .committed frame seen result) w' →
            result = .error (seen.elim (if frame.stamp.stream = stream then w.shared.inner.endError
              else CaptureFault.foreignStream.toError) Interruption.toError)) ∧
        (∀ t, w.pc t = .idle → ∃ v w', (streamSystem round τ stream covers).Leads w v ∧
          (streamSystem round τ stream covers).step v (t, .drained none (.ok ())) w')) ∧
      (∀ t seen w', (streamSystem round τ stream covers).step w (t, .drained seen (.ok ())) w' →
        seen = none ∧ w'.shared.inner.lifecycle = .closed ∧ w'.shared.inner.waiters = 0 ∧
          ∀ u, ¬ (w'.pc u).waiting) ∧
      (∀ t seen error w',
        (streamSystem round τ stream covers).step w (t, .drained seen (.error error)) w' →
          (∃ i, seen = some i ∧ error = i.toError) ∧ w'.shared.inner = w.shared.inner ∧
            w'.shared.inner.lifecycle ≠ .opened ∧ w'.pc t = .idle) := by
  refine ⟨fun w' h => lifecycle_mono hw h, fun t w' h => not_opened_of_closing h, fun hl => ?_,
    fun t seen w' h => ?_, fun t seen error w' h => drained_error hw h⟩
  · exact ⟨fun trail w' h => published_eq_nil hw hl h,
      fun t sel seen result w' h => framed_of_not_opened hw hl h,
      fun t frame seen result w' h => committed_of_not_opened hw hl h,
      fun t ht => leads_closed hw hl ht⟩
  · obtain ⟨hseen, hc, hz⟩ := drained_ok hw h
    exact ⟨hseen, hc, hz, (lifecycleInv_reachable (hw.step h)).waiters.eq_zero_iff.1 hz⟩

end Runs

/-- A request that nothing interrupts, on a stream whose target was lost, reports the loss. -/
theorem stream_lifecycle_sample :
    ∃ w : StreamWorld Unit, (streamSystem some Unit ⟨1, 1⟩ false).Reachable w ∧
      w.shared.inner.terminal = some .targetLost ∧
      (∃ result w', (streamSystem some Unit ⟨1, 1⟩ false).step w
        ((), .framed .latest none result) w') ∧
      ∀ result w', (streamSystem some Unit ⟨1, 1⟩ false).step w ((), .framed .latest none result) w' →
        result = .error CaptureFault.targetLost.toError := by
  have hsolo : Solo (Act some) () (StreamWorld.start Unit ⟨1, 1⟩ false).shared .idle
      [.silent, .terminated, .silent, .silent] _ (.frameLoop .latest ⟨none⟩) :=
    .cons (.close (.terminateCall .targetLost)) <| .cons (.close (.terminate rfl)) <|
      .cons (.frame (.call .latest)) <| .cons (.frame (.admitted none rfl)) <| .nil ..
  obtain ⟨hl, hstep⟩ := hsolo.leads_step (.frame (.terminal rfl rfl))
  have hw := (System.Reachable.of_init rfl).leads (S := streamSystem some Unit ⟨1, 1⟩ false) hl
  exact ⟨_, hw, rfl, ⟨_, _, hstep⟩, fun result w' h =>
    ((stream_lifecycle hw).2.2.1 (by decide)).2.1 _ _ _ _ _ h⟩

/-- **Two exceptions.**  A frame request whose operation was cancelled reports the cancellation,
not the terminal fault; and an interrupted drain does not reopen a stream another one has closed. -/
theorem interrupted_outcomes :
    (¬ ∀ (w : StreamWorld Unit) t sel seen result w',
      (streamSystem some Unit ⟨1, 1⟩ false).Reachable w → w.shared.inner.lifecycle ≠ .opened →
      (streamSystem some Unit ⟨1, 1⟩ false).step w (t, .framed sel seen result) w' →
      result = .error w.shared.inner.endError) ∧
    (¬ ∀ (w : StreamWorld Unit) t seen error w',
      (streamSystem some Unit ⟨1, 1⟩ false).Reachable w →
      (streamSystem some Unit ⟨1, 1⟩ false).step w (t, .drained seen (.error error)) w' →
      w'.shared.inner.lifecycle = .closing) := by
  constructor
  · intro h
    have hsolo : Solo (Act some) () (StreamWorld.start Unit ⟨1, 1⟩ false).shared .idle
        [.silent, .terminated, .silent] _ (.frameAdmit .latest) :=
      .cons (.close (.terminateCall .targetLost)) <| .cons (.close (.terminate rfl)) <|
        .cons (.frame (.call .latest)) <| .nil ..
    obtain ⟨hv, hstep⟩ := hsolo.leads_step
      (.frame (.refused (some .cancelled) (i := .cancelled) rfl))
    have := h _ _ _ _ _ _ ((System.Reachable.of_init rfl).leads hv) (by decide) hstep
    exact absurd this (by decide)
  · intro h
    have hsolo : Solo (Act some) () (StreamWorld.start Unit ⟨1, 1⟩ false).shared .idle
        [.silent, .silent, .silent, .silent, .silent, .drained none (.ok ()), .silent, .silent] _
        .drainAdmit :=
      .cons (.close .drainCall) <| .cons (.close (.drainClose rfl)) <|
        .cons (.close (.drainAdmitted none rfl)) <|
        .cons (.close (.drainSeesIdle rfl (by decide) rfl)) <|
        .cons (.close (.drainCommits none rfl)) <| .cons (.close (.drainFinal rfl)) <|
        .cons (.close .drainCall) <| .cons (.close (.drainClose rfl)) <| .nil ..
    obtain ⟨hv, hstep⟩ := hsolo.leads_step
      (.close (.drainRefused (some .cancelled) (i := .cancelled) rfl))
    have := h _ _ _ _ _ ((System.Reachable.of_init rfl).leads hv) hstep
    exact absurd this (by decide)

end MadoPilot.Capture
