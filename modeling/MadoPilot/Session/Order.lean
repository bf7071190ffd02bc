import MadoPilot.Lib.Threads
import MadoPilot.Session.Calls

/-!
# What the result of a call says about close and termination

A session has two authorities, the flag `closing` and the lifecycle of its stream, and a call
consults them in separate steps.  Whatever the order of the steps, a successful call committed on an
open stream before close had begun; a call that is not past its first gate when close begins comes
to nothing; and a call that begins after a terminal fault ends with this fault.

* `Act.closing` : close does not come undone;
* `CallAct.shut` : what a call still does once close has begun;
* `Doomed.step`, `Doomed.enabled` : what a call still does once a terminal fault is recorded;
* `results_ordered` : the three together, for every run.
-/

namespace MadoPilot.Session

open MadoPilot.Core MadoPilot.Lib
open MadoPilot.Capture (Frame FrameSelection CaptureFault StreamWorld streamSystem)

variable {τ β : Type*} {config : Config} {round : ℚ → Option ℚ} {t : τ} {s s' : Shared τ}
  {pc pc' : Pc β} {e : Event β} {call : Call} {stage : Stage β}

/-! ### Places -/

def Stage.admitting : Stage β → Bool
  | observing | issuing | starting _ | closingSeen _ | refusing | framing _ => true
  | committing _ result _ | gate _ result => result.isNone
  | admitted _ | working _ => false

/-- The next step is a commit on the stream, under its mutex. -/
def Stage.commits : Stage β → Bool
  | framing (.frameFinal ..) | committing _ _ (.commitFinal _) => true
  | _ => false

def Event.returns : Event β → Bool
  | returned .. => true
  | _ => false

/-! ### What a step keeps -/

theorem Act.closing (h : Act config round t s pc e s' pc') (hc : s.closing = true) :
    s'.closing = true := by
  cases h with
  | call h => cases h <;> exact hc
  | close h =>
    cases h with
    | begin => rfl
    | _ => exact hc
  | adapter _ _ _ hs =>
    subst hs
    exact hc
  | issuesOther _ _ _ hs =>
    subst hs
    exact hc

theorem Act.of_call (h : Act config round t s (.call call stage) e s' pc') :
    CallAct config s (.call call stage) e s' pc' := by
  cases h with
  | call h => exact h
  | close h => cases h
  | adapter hpc => cases hpc
  | issuesOther hpc => cases hpc

theorem Act.of_answer (h : Act config round t s pc e s' pc')
    (he : (∃ seen result, e = .returned call seen result) ∨ ∃ frame, e = .backend call frame) :
    ∃ stage, pc = .call call stage ∧ CallAct config s pc e s' pc' := by
  cases h with
  | call h =>
    have hpc : ∃ stage, pc = .call call stage := by
      rcases he with ⟨seen, result, rfl⟩ | ⟨frame, rfl⟩ <;> cases h <;> exact ⟨_, rfl⟩
    obtain ⟨stage, hpc⟩ := hpc
    exact ⟨stage, hpc, h⟩
  | close h => rcases he with ⟨seen, result, rfl⟩ | ⟨frame, rfl⟩ <;> cases h
  | adapter _ _ hce => rcases he with ⟨seen, result, rfl⟩ | ⟨frame, rfl⟩ <;> cases hce
  | issuesOther _ _ hce => rcases he with ⟨seen, result, rfl⟩ | ⟨frame, rfl⟩ <;> cases hce

theorem Act.of_called (h : Act config round t s pc (.called call) s' pc') :
    s' = s ∧ pc' = .call call (call.enter config.diagnostics) := by
  cases h with
  | call h =>
    cases h
    exact ⟨rfl, rfl⟩
  | close h => cases h
  | adapter _ _ he => cases he
  | issuesOther _ _ he => cases he

theorem terminal_not_opened [DecidableEq τ] {stream : StreamId} {covers : Bool} {w : StreamWorld τ}
    (hw : (streamSystem round τ stream covers).Reachable w) (ht : w.shared.inner.terminal ≠ none) :
    w.shared.inner.lifecycle ≠ .opened := by
  revert ht
  refine threads_invariant (P := fun w : StreamWorld τ => w.shared.inner.terminal ≠ none →
    w.shared.inner.lifecycle ≠ .opened) (fun h => absurd rfl h) (fun w t e s' pc' _ hi hact ht => ?_) hw
  rw [World.move_shared] at ht ⊢
  rcases hact.cases with hp | ⟨hq, -, -⟩
  · obtain ⟨hl, hterm, -⟩ := hp.frame
    rw [hl]
    exact hi (hterm ▸ ht)
  · rcases hq.terminal with hsame | ⟨-, -, hopen⟩
    · exact hact.not_opened (hi (hsame ▸ ht))
    · exact hopen

/-! ### Commits -/

theorem live_of_commitFrame {inner : Capture.Inner} {frame : Frame}
    (h : inner.commitFrame frame = .ok ()) : inner.Live := by
  unfold Capture.Inner.commitFrame at h
  by_cases hs : frame.stamp.stream = inner.cursor.stream
  · rw [if_neg (not_not.mpr hs)] at h
    cases hterm : inner.terminal with
    | some fault => simp [hterm] at h
    | none =>
      by_cases hopen : inner.lifecycle = .opened
      · exact ⟨hopen, hterm⟩
      · simp [hterm, hopen] at h
  · simp [hs] at h

theorem framed_live {c c' : Capture.Shared τ} {cpc cpc' : Capture.Pc} {request : FrameSelection}
    {seen : Option Interruption} {frame : Frame}
    (h : Capture.FrameAct c cpc (.framed request seen (.ok frame)) c' cpc') :
    (Stage.framing cpc : Stage β).commits = true ∧ c.inner.Live := by
  generalize hr : Capture.Event.framed request seen (.ok frame) = e at h
  cases h with
  | @final sel named =>
    refine ⟨rfl, @live_of_commitFrame _ named ?_⟩
    obtain ⟨-, -, hok⟩ := Capture.Event.framed.inj hr
    cases hcommit : c.inner.commitFrame named with
    | ok => rfl
    | error fault =>
      rw [hcommit] at hok
      cases hok
  | _ => cases hr

theorem committed_live {c c' : Capture.Shared τ} {cpc cpc' : Capture.Pc} {frame named : Frame}
    {result : Option β} {seen : Option Interruption}
    (h : Capture.FrameAct c cpc (.committed named seen (.ok ())) c' cpc') :
    (Stage.committing frame result cpc).commits = true ∧ c.inner.Live := by
  generalize hr : Capture.Event.committed named seen (.ok ()) = e at h
  cases h with
  | @commitFinal frame =>
    refine ⟨rfl, @live_of_commitFrame _ frame ?_⟩
    obtain ⟨-, -, hok⟩ := Capture.Event.committed.inj hr
    cases hcommit : c.inner.commitFrame frame with
    | ok => rfl
    | error fault =>
      rw [hcommit] at hok
      cases hok
  | _ => cases hr

def Stage.atGate : Stage β → Bool
  | gate .. => true
  | _ => false

theorem Call.begin_atGate (call : Call) : (call.begin : Stage β).atGate = false := by
  cases call with
  | findTemplate frame => cases frame <;> rfl
  | _ => rfl

theorem Call.enter_atGate (call : Call) (b : Bool) : (call.enter b : Stage β).atGate = false := by
  unfold Call.enter
  split_ifs
  · rfl
  · exact call.begin_atGate

theorem CallAct.live (h : CallAct config s pc e s' pc') (hpc : pc' = .call call stage)
    (hgate : stage.atGate = true) :
    ∃ stage, pc = .call call stage ∧ stage.commits = true ∧ s.capture.inner.Live := by
  cases h with
  | framed h =>
    cases hpc
    exact ⟨_, rfl, framed_live h⟩
  | committed h =>
    cases hpc
    exact ⟨_, rfl, committed_live h⟩
  | call call =>
    cases hpc
    rw [call.enter_atGate] at hgate
    cases hgate
  | issued =>
    cases hpc
    rw [call.begin_atGate] at hgate
    cases hgate
  | _ =>
    cases hpc
    try cases hgate

/-! ### Once close has begun -/

theorem Call.begin_admitting (call : Call) : (call.begin : Stage β).admitting = true := by
  cases call with
  | findTemplate frame => cases frame <;> rfl
  | _ => rfl

theorem CallAct.shut (h : CallAct config s (.call call stage) e s' pc') (hc : s.closing = true)
    (ha : stage.admitting = true) :
    (e = .silent ∧ ∃ stage', pc' = .call call stage' ∧ stage'.admitting = true) ∨
      ∃ seen error, e = .returned call seen (.error error) := by
  generalize hpc : Pc.call call stage = pc at h
  cases h with
  | issued =>
    cases hpc
    exact Or.inl ⟨rfl, _, rfl, call.begin_admitting⟩
  | observeAdmitted | startsOpen | startsClosing | streamOpen | streamEnded | framing | framed =>
    cases hpc
    exact Or.inl ⟨rfl, _, rfl, rfl⟩
  | committing | committed =>
    cases hpc
    exact Or.inl ⟨rfl, _, rfl, ha⟩
  | gateReturns hopen | gateAdmits hopen => simp [hc] at hopen
  | unavailable | works | workFailed | worked =>
    cases hpc
    cases ha
  | call => cases hpc
  | _ =>
    cases hpc
    exact Or.inr ⟨_, _, rfl⟩

/-! ### Once a terminal fault is recorded -/

/-- The places of a call that begins after a terminal fault was recorded. -/
def Doomed (stream : StreamId) : Call → Stage β → Prop
  | call, .observing | call, .issuing => call.OfStream stream
  | _, .starting _ | _, .closingSeen _ | _, .framing (.frameAdmit _) => True
  | _, .framing (.frameLoop _ op) => op.terminal = none
  | _, .committing _ none (.commitAdmit frame) | _, .committing _ none (.commitFinal frame) =>
    frame.stamp.stream = stream
  | _, .committing _ none (.commitCommit frame op) =>
    frame.stamp.stream = stream ∧ op.terminal = none
  | _, _ => False

/-- The steps such a call still has before its last one. -/
def Stage.remaining : Stage β → ℕ
  | observing => 5
  | issuing => 4
  | starting _ => 3
  | closingSeen _ => 2
  | framing (.frameAdmit _) => 1
  | committing _ _ (.commitAdmit _) => 2
  | committing _ _ (.commitCommit ..) => 1
  | _ => 0

variable {stream : StreamId}

theorem Doomed.begin (h : call.OfStream stream) : Doomed stream call (call.begin : Stage β) := by
  cases call with
  | findTemplate frame =>
    cases frame with
    | latest => trivial
    | exact frame => exact h
  | acquireFrame => trivial
  | commitFrame | recognize | scanOcrZones => exact h

theorem Call.begin_remaining (call : Call) : (call.begin : Stage β).remaining ≤ 3 := by
  cases call with
  | findTemplate frame => cases frame <;> simp [Call.begin, Stage.remaining]
  | _ => simp [Call.begin, Stage.remaining]

theorem Doomed.enter (h : call.OfStream stream) (b : Bool) :
    Doomed stream call (call.enter b : Stage β) := by
  unfold Call.enter
  split_ifs
  · exact h
  · exact .begin h

theorem Call.enter_remaining (call : Call) (b : Bool) :
    (call.enter b : Stage β).remaining ≤ 5 := by
  unfold Call.enter
  split_ifs
  · exact le_rfl
  · exact call.begin_remaining.trans (by omega)

theorem Doomed.frame {c c' : Capture.Shared τ} {cpc cpc' : Capture.Pc} {ce : Capture.Event}
    {fault : CaptureFault} (hd : Doomed stream call (.framing cpc : Stage β))
    (hterm : c.inner.terminal = some fault) (h : Capture.FrameAct c cpc ce c' cpc') :
    (ce = .silent ∧ Doomed stream call (.framing cpc' : Stage β) ∧
        (Stage.framing cpc' : Stage β).remaining < (Stage.framing cpc : Stage β).remaining) ∨
      ∃ request seen, ce = .framed request seen
        (.error (seen.elim fault.toError Interruption.toError)) := by
  cases h with
  | refused _ hseen =>
    obtain rfl := Operation.admitContext_eq_error hseen
    exact Or.inr ⟨_, _, rfl⟩
  | admitted seen hadmit =>
    exact Or.inl ⟨rfl, (Operation.admitContext_eq_ok hadmit).2, Nat.lt_succ_self _⟩
  | terminal _ ht =>
    obtain rfl := Option.some.inj (hterm.symm.trans ht)
    exact Or.inr ⟨_, none, rfl⟩
  | notOpen _ ht | foreign _ ht | selected _ ht | registers _ ht =>
    rw [hterm] at ht
    cases ht
  | _ => cases hd

theorem Doomed.commit {c c' : Capture.Shared τ} {cpc cpc' : Capture.Pc} {ce : Capture.Event}
    {fault : CaptureFault} {frame : Frame} {result : Option β}
    (hd : Doomed stream call (.committing frame result cpc))
    (hterm : c.inner.terminal = some fault) (hstream : c.inner.cursor.stream = stream)
    (h : Capture.FrameAct c cpc ce c' cpc') :
    (ce = .silent ∧ Doomed stream call (.committing frame result cpc') ∧
        (Stage.committing frame result cpc').remaining <
          (Stage.committing frame result cpc).remaining) ∨
      ∃ named seen, ce = .committed named seen
        (.error (seen.elim fault.toError Interruption.toError)) := by
  cases result with
  | some => cases hd
  | none =>
    cases h with
    | commitRefused _ hseen =>
      obtain rfl := Operation.admitContext_eq_error hseen
      exact Or.inr ⟨_, _, rfl⟩
    | commitAdmitted seen hadmit =>
      exact Or.inl ⟨rfl, ⟨hd, (Operation.admitContext_eq_ok hadmit).2⟩, Nat.lt_succ_self _⟩
    | commitInterrupted _ hseen =>
      obtain rfl := Operation.seen_of_commit hd.2 hseen
      exact Or.inr ⟨_, _, rfl⟩
    | commitCommits => exact Or.inl ⟨rfl, hd.1, Nat.lt_succ_self _⟩
    | @commitFinal frame =>
      have hfails : c.inner.commitFrame frame = .error fault := by
        have hs : frame.stamp.stream = c.inner.cursor.stream := hd.trans hstream.symm
        unfold Capture.Inner.commitFrame
        rw [if_neg (not_not.mpr hs), hterm]
      rw [hfails]
      exact Or.inr ⟨_, none, rfl⟩
    | _ => cases hd

/-- How a doomed call ends: with the interruption that its own context answers, and otherwise with the
terminal fault, or without an identity for its diagnostics where these are exhausted. -/
def Ends (s : Shared τ) (fault : CaptureFault) (stage : Stage β) (seen : Option Interruption)
    (result : Except Error (Answer β)) : Prop :=
  result = .error (seen.elim fault.toError Interruption.toError) ∨
    seen = none ∧ stage = .issuing ∧ s.nextOperation = 0 ∧ result = .error operationsExhausted

section Doomed

variable {fault : CaptureFault} (hterm : s.capture.inner.terminal = some fault)
  (hstream : s.capture.inner.cursor.stream = stream)

include hterm hstream

theorem Doomed.step (hd : Doomed stream call stage)
    (hopen : s.capture.inner.lifecycle ≠ .opened)
    (h : CallAct config s (.call call stage) e s' pc') :
    (e = .silent ∧ ∃ stage', pc' = .call call stage' ∧ Doomed stream call stage' ∧
        stage'.remaining < stage.remaining) ∨
      ∃ seen result, e = .returned call seen result ∧ Ends s fault stage seen result := by
  generalize hpc : Pc.call call stage = pc at h
  cases h with
  | call => cases hpc
  | observeRefused _ hseen =>
    cases hpc
    obtain rfl := Operation.admitContext_eq_error hseen
    exact Or.inr ⟨_, _, rfl, Or.inl rfl⟩
  | observeAdmitted =>
    cases hpc
    exact Or.inl ⟨rfl, _, rfl, hd, Nat.lt_succ_self _⟩
  | exhausted h0 =>
    cases hpc
    exact Or.inr ⟨_, _, rfl, Or.inr ⟨rfl, rfl, h0, rfl⟩⟩
  | issued =>
    cases hpc
    exact Or.inl ⟨rfl, _, rfl, .begin hd, Nat.lt_succ_of_le call.begin_remaining⟩
  | startsOpen | startsClosing | streamEnded =>
    cases hpc
    exact Or.inl ⟨rfl, _, rfl, trivial, by simp [Stage.remaining]⟩
  | streamOpen _ ho => exact absurd ho hopen
  | framing h =>
    cases hpc
    rcases hd.frame hterm h with ⟨-, hd', hlt⟩ | ⟨_, _, he⟩
    · exact Or.inl ⟨rfl, _, rfl, hd', hlt⟩
    · cases he
  | framed h =>
    cases hpc
    rcases hd.frame hterm h with ⟨he, -⟩ | ⟨_, _, he⟩ <;> cases he
  | frameFailed h =>
    cases hpc
    rcases hd.frame hterm h with ⟨he, -⟩ | ⟨_, _, he⟩
    · cases he
    · cases he
      exact Or.inr ⟨_, _, rfl, Or.inl rfl⟩
  | committing h =>
    cases hpc
    rcases hd.commit hterm hstream h with ⟨-, hd', hlt⟩ | ⟨_, _, he⟩
    · exact Or.inl ⟨rfl, _, rfl, hd', hlt⟩
    · cases he
  | committed h =>
    cases hpc
    rcases hd.commit hterm hstream h with ⟨he, -⟩ | ⟨_, _, he⟩ <;> cases he
  | commitFailed h =>
    cases hpc
    rcases hd.commit hterm hstream h with ⟨he, -⟩ | ⟨_, _, he⟩
    · cases he
    · cases he
      exact Or.inr ⟨_, _, rfl, Or.inl rfl⟩
  | _ =>
    cases hpc
    cases hd

omit hstream in
theorem Doomed.enabled (hd : Doomed stream call stage) (hfree : s.capture.holder = none)
    (hopen : s.capture.inner.lifecycle ≠ .opened) :
    ∃ e s' pc', CallAct config s (.call call stage) e s' pc' ∧
      ∀ seen result, e = .returned call seen result → seen = none := by
  have hgo : ∀ {s' pc'}, CallAct config s (.call call stage) .silent s' pc' →
      ∃ e s' pc', CallAct config s (.call call stage) e s' pc' ∧
        ∀ seen result, e = .returned call seen result → seen = none :=
    fun h => ⟨_, _, _, h, fun _ _ he => (by cases he)⟩
  have hend : ∀ {result s' pc'}, CallAct config s (.call call stage) (.returned call none result) s' pc' →
      ∃ e s' pc', CallAct config s (.call call stage) e s' pc' ∧
        ∀ seen result, e = .returned call seen result → seen = none :=
    fun h => ⟨_, _, _, h, fun _ _ he => ((Event.returned.inj he).2.1).symm⟩
  cases stage with
  | observing => exact hgo (.observeAdmitted none rfl)
  | issuing =>
    by_cases h0 : s.nextOperation = 0
    · exact hend (.exhausted h0)
    · exact hgo (.issued h0)
  | starting request =>
    cases hc : s.closing with
    | true => exact hgo (.startsClosing hc)
    | false => exact hgo (.startsOpen hc)
  | closingSeen request => exact hgo (.streamEnded hfree hopen)
  | framing cpc =>
    cases cpc with
    | frameAdmit => exact hgo (.framing (.admitted none rfl))
    | frameLoop => exact hend (.frameFailed (.terminal hfree hterm))
    | _ => cases hd
  | committing frame result cpc =>
    cases result with
    | some => cases hd
    | none =>
      cases cpc with
      | commitAdmit => exact hgo (.committing (.commitAdmitted none rfl))
      | commitCommit named op =>
        have hpass : op.commit none () = .ok () := by
          unfold Operation.commit
          rw [hd.2]
        exact hgo (.committing (.commitCommits none hpass))
      | commitFinal named =>
        have hfinal := @Capture.FrameAct.commitFinal _ _ named hfree
        cases hcommit : s.capture.inner.commitFrame named with
        | ok =>
          rw [hcommit] at hfinal
          exact hgo (.committed hfinal)
        | error error =>
          rw [hcommit] at hfinal
          exact hend (.commitFailed hfinal)
      | _ => cases hd
  | _ => cases hd

end Doomed

/-! ### Runs -/

section Runs

variable [DecidableEq τ] {covers : Bool} {n : ℕ} {v v' w w' : SessionWorld τ β}
  {trail : List (SessionWorld τ β × (τ × Event β))}

structure LastCommit (trail : List (SessionWorld τ β × (τ × Event β))) (t : τ) (call : Call)
    (v : SessionWorld τ β) : Prop where
  /-- the thread has not moved since -/
  last : ∃ front e back, trail = front ++ (v, (t, e)) :: back ∧ ∀ y ∈ back, y.2.1 ≠ t
  /-- the step is a commit on the stream -/
  commit : ∃ stage, v.pc t = .call call stage ∧ stage.commits = true

theorem lastCommit_along
    (hp : (sessionSystem config round τ β stream covers n).Path
      (SessionWorld.start τ β stream covers n) trail w) (hpc : w.pc t = .call call stage)
    (hgate : stage.atGate = true) :
    ∃ v, LastCommit trail t call v ∧ v.shared.capture.inner.Live := by
  revert t call stage
  refine hp.along (P := fun trail w => ∀ {t call} {stage : Stage β}, w.pc t = .call call stage →
    stage.atGate = true → ∃ v, LastCommit trail t call v ∧ v.shared.capture.inner.Live)
    (fun hpc => by cases hpc) ?_
  rintro trail w ⟨u, e⟩ w' - hP ⟨s', pc', hact, rfl⟩ t call stage hpc hgate
  by_cases htu : t = u
  · subst htu
    rw [World.move_pc_self] at hpc
    subst hpc
    cases hact with
    | call h =>
      obtain ⟨stage', hpc, hcommit, hlive⟩ := h.live rfl hgate
      exact ⟨w, ⟨⟨trail, e, [], rfl, fun _ hy => (by cases hy)⟩, stage', hpc, hcommit⟩, hlive⟩
    | close h =>
      generalize hq : Pc.call call stage = q at h
      generalize w.pc (t, e).1 = p at h
      cases h <;> cases hq
    | adapter _ _ _ _ hpc' => cases hpc'
    | issuesOther hpc _ _ _ hpc' =>
      rw [hpc] at hpc'
      cases hpc'
  · rw [World.move_pc_of_ne _ _ _ _ htu] at hpc
    obtain ⟨v, ⟨⟨front, e', back, rfl, hback⟩, hcommit⟩, hlive⟩ := hP hpc hgate
    refine ⟨v, ⟨⟨front, e', back ++ [(w, (u, e))], by simp, ?_⟩, hcommit⟩, hlive⟩
    refine List.forall_mem_append.mpr ⟨hback, ?_⟩
    exact List.forall_mem_singleton.mpr fun hu => htu hu.symm

theorem closing_leads (hv : (sessionSystem config round τ β stream covers n).Reachable v)
    (h : (sessionSystem config round τ β stream covers n).Leads v w)
    (hc : v.shared.closing = true) : w.shared.closing = true := by
  refine h.preserves (P := fun w : SessionWorld τ β => w.shared.closing = true) ?_ hv hc
  rintro w ⟨t, e⟩ - - hw ⟨s', pc', hact, rfl⟩
  exact hact.closing hw

theorem terminal_leads {fault : CaptureFault}
    (hv : (sessionSystem config round τ β stream covers n).Reachable v)
    (h : (sessionSystem config round τ β stream covers n).Leads v w)
    (hterm : v.shared.capture.inner.terminal = some fault) :
    w.shared.capture.inner.terminal = some fault := by
  refine h.preserves (P := fun w : SessionWorld τ β =>
    w.shared.capture.inner.terminal = some fault) ?_ hv hterm
  rintro w ⟨t, e⟩ - - hw ⟨s', pc', hact, rfl⟩
  rw [World.move_shared]
  rcases hact.capture with ⟨hs, -⟩ | ⟨ce, hce⟩
  · exact hs ▸ hw
  · rcases hce.lifecycle.2 with hsame | ⟨hnone, -⟩
    · exact hsame.trans hw
    · rw [hnone] at hw
      cases hw

theorem ended_stream (hw : (sessionSystem config round τ β stream covers n).Reachable w)
    (hterm : w.shared.capture.inner.terminal ≠ none) :
    w.shared.capture.inner.cursor.stream = stream ∧
      w.shared.capture.inner.lifecycle ≠ .opened ∧ w.shared.capture.holder = none := by
  have hr := capture_reachable hw
  have hinv := Capture.streamInv_reachable hr
  have hopen := terminal_not_opened hr hterm
  exact ⟨hinv.identity, hopen, Capture.holder_eq_none hinv hopen⟩

theorem within_call {P : ℕ → Stage β → Prop}
    (hp : (sessionSystem config round τ β stream covers n).Path v trail w)
    (hinside : ∀ x ∈ trail, x.2.1 = t → x.2.2.returns = false) (hpc : v.pc t = .call call stage)
    (h₀ : P 0 stage)
    (hself : ∀ w k stage e s' pc', (sessionSystem config round τ β stream covers n).Leads v w →
      P k stage → CallAct config w.shared (.call call stage) e s' pc' → e.returns = false →
      ∃ stage', pc' = .call call stage' ∧ P (k + 1) stage') :
    ∃ stage, w.pc t = .call call stage ∧ P (own t trail).length stage := by
  revert hinside
  refine hp.along (P := fun trail w => (∀ x ∈ trail, x.2.1 = t → x.2.2.returns = false) →
    ∃ stage, w.pc t = .call call stage ∧ P (own t trail).length stage) (fun _ => ⟨_, hpc, h₀⟩) ?_
  rintro trail w ⟨u, e⟩ w' hpath hP ⟨s', pc', hact, rfl⟩ hinside
  obtain ⟨hbefore, hlast⟩ := List.forall_mem_append.mp hinside
  obtain ⟨stage, hw, hk⟩ := hP hbefore
  rw [own_snoc]
  by_cases hut : u = t
  · subst hut
    have hret : e.returns = false := hlast _ (List.mem_singleton_self _) rfl
    have hcall : CallAct config w.shared (.call call stage) e s' pc' := (hw ▸ hact).of_call
    obtain ⟨stage', rfl, hk'⟩ := hself w _ stage e s' pc' hpath.leads hk hcall hret
    refine ⟨stage', World.move_pc_self .., ?_⟩
    rw [if_pos rfl, List.length_append]
    exact hk'
  · refine ⟨stage, ?_, ?_⟩
    · rw [World.move_pc_of_ne _ _ _ _ (Ne.symm hut)]
      exact hw
    · rw [if_neg hut]
      exact hk

/-- **A call that close finds before its first gate** comes to nothing: it neither turns to the
backend nor succeeds. -/
theorem shut_call (hv : (sessionSystem config round τ β stream covers n).Reachable v)
    (hc : v.shared.closing = true) (hpc : v.pc t = .call call stage) (ha : stage.admitting = true)
    (hp : (sessionSystem config round τ β stream covers n).Path v trail w)
    (hinside : ∀ x ∈ trail, x.2.1 = t → x.2.2.returns = false)
    (h : (sessionSystem config round τ β stream covers n).step w (t, e) w') :
    (∀ call frame, e ≠ .backend call frame) ∧
      ∀ call seen answer, e ≠ .returned call seen (.ok answer) := by
  obtain ⟨s', pc', hact, rfl⟩ := h
  have hclosing : ∀ {w}, (sessionSystem config round τ β stream covers n).Leads v w →
      w.shared.closing = true := fun hl => closing_leads hv hl hc
  obtain ⟨stage', hw, hadmitting⟩ := within_call (P := fun _ stage => stage.admitting = true) hp
    hinside hpc ha fun w k stage e s' pc' hl hk hcall hret => by
      rcases hcall.shut (hclosing hl) hk with ⟨-, hnext⟩ | ⟨seen, error, rfl⟩
      · exact hnext
      · cases hret
  have hcall : CallAct config w.shared (.call call stage') e s' pc' := (hw ▸ hact).of_call
  rcases hcall.shut (hclosing hp.leads) hadmitting with ⟨rfl, -⟩ | ⟨seen, error, rfl⟩
  · exact ⟨fun _ _ => nofun, fun _ _ _ => nofun⟩
  · refine ⟨fun _ _ => nofun, fun _ _ _ he => ?_⟩
    cases he

/-- **A successful call** last committed when the stream was open and close had not begun. -/
theorem answered_call {seen : Option Interruption} {answer : Answer β}
    (hp : (sessionSystem config round τ β stream covers n).Path
      (SessionWorld.start τ β stream covers n) trail w)
    (h : (sessionSystem config round τ β stream covers n).step w
      (t, .returned call seen (.ok answer)) w') :
    ∃ v, LastCommit trail t call v ∧ v.shared.capture.inner.Live ∧ v.shared.closing = false := by
  obtain ⟨s', pc', hact, rfl⟩ := h
  obtain ⟨stage, hpc, hcall⟩ := hact.of_answer (Or.inl ⟨_, _, rfl⟩)
  have hgate : stage.atGate = true ∧ w.shared.closing = false := by
    rw [hpc] at hcall
    generalize hq : Pc.call call stage = q at hcall
    cases hcall with
    | gateReturns hopen =>
      cases hq
      exact ⟨rfl, hopen⟩
  obtain ⟨v, hlast, hlive⟩ := lastCommit_along hp hpc hgate.1
  refine ⟨v, hlast, hlive, ?_⟩
  obtain ⟨front, e, back, rfl, -⟩ := hlast.last
  obtain ⟨u, hfront, hu, hback⟩ := hp.around
  by_contra hc
  have hv : (sessionSystem config round τ β stream covers n).Reachable v := ⟨_, rfl, hfront.leads⟩
  have hw := closing_leads hv (.cons hu hback.leads) (by simpa using hc)
  rw [hgate.2] at hw
  cases hw

/-- **A call that begins after a terminal fault** ends with it: never more than five of its own
steps away from its last one, always able to go on, and ended otherwise only by what its own context answers
or for want of a diagnostic identity. -/
theorem doomed_call {fault : CaptureFault}
    (hv : (sessionSystem config round τ β stream covers n).Reachable v)
    (hterm : v.shared.capture.inner.terminal = some fault) (hcall : call.OfStream stream)
    (hbegin : (sessionSystem config round τ β stream covers n).step v (t, .called call) v')
    (hp : (sessionSystem config round τ β stream covers n).Path v' trail w)
    (hinside : ∀ x ∈ trail, x.2.1 = t → x.2.2.returns = false) :
    ∃ stage, w.pc t = .call call stage ∧ (own t trail).length ≤ 5 ∧
      (∃ e w', (sessionSystem config round τ β stream covers n).step w (t, e) w' ∧
        ∀ seen result, e = .returned call seen result → seen = none) ∧
      ∀ seen result w', (sessionSystem config round τ β stream covers n).step w
        (t, .returned call seen result) w' → Ends w.shared fault stage seen result := by
  have hv' := hv.step hbegin
  obtain ⟨s', pc', hact, rfl⟩ := hbegin
  obtain ⟨rfl, rfl⟩ := hact.of_called
  have hkept : ∀ {w}, (sessionSystem config round τ β stream covers n).Leads
      (v.move t v.shared (.call call (call.enter config.diagnostics))) w →
      w.shared.capture.inner.terminal = some fault ∧
        w.shared.capture.inner.cursor.stream = stream ∧
        w.shared.capture.inner.lifecycle ≠ .opened ∧ w.shared.capture.holder = none := by
    intro w hl
    have hw := terminal_leads hv' hl hterm
    exact ⟨hw, ended_stream (hv'.leads hl) (by simp [hw])⟩
  obtain ⟨stage, hpc, hd, hcount⟩ := within_call
    (P := fun k stage => Doomed stream call stage ∧ k + stage.remaining ≤ 5) hp hinside
    (World.move_pc_self ..) ⟨.enter hcall _, (Nat.zero_add _).trans_le (call.enter_remaining _)⟩
    fun w k stage e s' pc' hl hk hcall hret => by
      obtain ⟨hw, hs, hopen, -⟩ := hkept hl
      rcases hk.1.step hw hs hopen hcall with ⟨-, stage', hpc', hd', hlt⟩ | ⟨seen, result, rfl, -⟩
      · have hk' := hk.2
        exact ⟨stage', hpc', hd', by omega⟩
      · cases hret
  obtain ⟨hw, hs, hopen, hfree⟩ := hkept hp.leads
  refine ⟨stage, hpc, by omega, ?_, ?_⟩
  · obtain ⟨e, s', pc', hstep, hnot⟩ := hd.enabled hw hfree hopen
    exact ⟨e, _, ⟨s', pc', .call (hpc ▸ hstep), rfl⟩, hnot⟩
  · rintro seen result - ⟨s', pc', hact, rfl⟩
    have hstep : CallAct config w.shared (.call call stage) (.returned call seen result) s' pc' :=
      (hpc ▸ hact).of_call
    rcases hd.step hw hs hopen hstep with ⟨he, -⟩ | ⟨seen', result', he, hend⟩
    · cases he
    · obtain ⟨-, rfl, rfl⟩ := Event.returned.inj he
      exact hend

end Runs

/-! ### The law -/

section Law

variable (config : Config) (round : ℚ → Option ℚ) (τ β : Type*) [DecidableEq τ] (stream : StreamId)
  (covers : Bool) (n : ℕ)

structure ResultLaw : Prop where
  /-- a successful call last committed when no fault was recorded, the stream was open and close had
  not begun -/
  answered : ∀ trail w t call seen answer w',
    (sessionSystem config round τ β stream covers n).Path (SessionWorld.start τ β stream covers n)
      trail w →
    (sessionSystem config round τ β stream covers n).step w (t, .returned call seen (.ok answer)) w' →
    ∃ v, LastCommit trail t call v ∧ v.shared.capture.inner.terminal = none ∧
      v.shared.capture.inner.lifecycle = .opened ∧ v.shared.closing = false
  /-- a call that close finds before its first gate neither succeeds nor turns to the backend -/
  shut : ∀ v t call stage trail w e w',
    (sessionSystem config round τ β stream covers n).Reachable v → v.shared.closing = true →
    v.pc t = .call call stage → stage.admitting = true →
    (sessionSystem config round τ β stream covers n).Path v trail w →
    (∀ x ∈ trail, x.2.1 = t → x.2.2.returns = false) →
    (sessionSystem config round τ β stream covers n).step w (t, e) w' →
    (∀ call frame, e ≠ .backend call frame) ∧
      ∀ call seen answer, e ≠ .returned call seen (.ok answer)
  /-- a call on a frame of the stream that begins after a fault was recorded is at most five of its
  own steps from its last one, can always go on, and ends with what its own context answers, and where
  that does not interrupt it with this fault, or without a diagnostic identity -/
  faulted : ∀ v v' t call fault trail w,
    (sessionSystem config round τ β stream covers n).Reachable v →
    v.shared.capture.inner.terminal = some fault → call.OfStream stream →
    (sessionSystem config round τ β stream covers n).step v (t, .called call) v' →
    (sessionSystem config round τ β stream covers n).Path v' trail w →
    (∀ x ∈ trail, x.2.1 = t → x.2.2.returns = false) →
    ∃ stage, w.pc t = .call call stage ∧ (own t trail).length ≤ 5 ∧
      (∃ e w', (sessionSystem config round τ β stream covers n).step w (t, e) w' ∧
        ∀ seen result, e = .returned call seen result → seen = none) ∧
      ∀ seen result w', (sessionSystem config round τ β stream covers n).step w
        (t, .returned call seen result) w' → Ends w.shared fault stage seen result

/-- **Results are ordered against close and termination.** -/
theorem results_ordered : ResultLaw config round τ β stream covers n where
  answered trail w t call seen answer w' hp h := by
    obtain ⟨v, hlast, hlive, hopen⟩ := answered_call hp h
    exact ⟨v, hlast, hlive.2, hlive.1, hopen⟩
  shut v t call stage trail w e w' hv hc hpc ha hp hinside h := shut_call hv hc hpc ha hp hinside h
  faulted v v' t call fault trail w hv hterm hcall hbegin hp hinside :=
    doomed_call hv hterm hcall hbegin hp hinside

end Law

/-! ### One session -/

section Sample

theorem solo_adapter {c c' : Capture.Shared τ} {cpc cpc' : Capture.Pc} {es : List Capture.Event}
    (h : Solo (Capture.Act round) t c cpc es c' cpc') (s : Shared τ) (hs : s.capture = c) :
    Solo (Act config round) t s (.adapter cpc : Pc β) (es.map .capture) (s.setCapture c')
      (.adapter cpc') := by
  induction h generalizing s with
  | nil =>
    subst hs
    exact .nil ..
  | cons hact _ ih =>
    subst hs
    exact .cons (.adapter rfl hact rfl rfl rfl) (ih (s.setCapture _) rfl)

theorem solo_acquire {s : Shared τ} {frame : Frame} (hc : s.closing = false)
    (hfree : s.capture.holder = none) (hlive : s.capture.inner.Live)
    (hlatest : Capture.qualifying s.capture.inner .latest = .ok (some frame))
    (hcommit : s.capture.inner.commitFrame frame = .ok ()) :
    Solo (Act ⟨false, false⟩ round) t s (.adapter .idle : Pc Unit)
      [.called (.acquireFrame .latest), .silent, .silent, .silent, .silent, .silent] s
      (.call (.acquireFrame .latest) (.gate frame none)) := by
  have hfinal := @Capture.FrameAct.final _ _ .latest frame hfree
  rw [hcommit] at hfinal
  exact .cons (.call (.call _)) <| .cons (.call (.startsOpen hc)) <|
    .cons (.call (.framing (.admitted none rfl))) <|
    .cons (.call (.framing (.selected hfree hlive.2 hlive.1 hlatest))) <|
    .cons (.call (.framing (.commits none rfl))) <| .cons (.call (.framed hfinal)) <| .nil ..

theorem solo_lost {s : Shared τ} (hfree : s.capture.holder = none) :
    Solo (Act ⟨false, false⟩ round) t s (.adapter .idle : Pc Unit)
      [.capture .silent, .capture .terminated]
      (s.setCapture (s.capture.refuseDrops.setInner (s.capture.refuseDrops.inner.terminate .targetLost)))
      (.adapter .idle) :=
  .cons (.adapter rfl (.close (.terminateCall .targetLost)) rfl rfl rfl) <|
    .cons (.adapter rfl (.close (.terminate hfree)) rfl rfl rfl) <| .nil ..

theorem solo_framing {s : Shared τ} (hc : s.closing = false) :
    Solo (Act ⟨false, false⟩ round) t s
      (.call (.acquireFrame .latest) (Call.enter (.acquireFrame .latest) false) : Pc Unit)
      [.silent, .silent] s (.call (.acquireFrame .latest) (.framing (.frameLoop .latest ⟨none⟩))) :=
  .cons (.call (.startsOpen hc)) <| .cons (.call (.framing (.admitted none rfl))) <| .nil ..

abbrev sampleSystem (stream : StreamId) : System (SessionWorld Unit Unit) (Unit × Event Unit) :=
  sessionSystem ⟨false, false⟩ some Unit Unit stream false 1

theorem lost_call {w : SessionWorld Unit Unit} (hpc : w.pc () = .adapter .idle)
    (hc : w.shared.closing = false) (hfree : w.shared.capture.holder = none)
    (hlive : w.shared.capture.inner.Live) :
    ∃ v v' u u' inside, (sampleSystem ⟨1, 1⟩).Leads w v ∧
      v.shared.capture.inner.terminal = some .targetLost ∧
      (sampleSystem ⟨1, 1⟩).step v ((), .called (.acquireFrame .latest)) v' ∧
      (sampleSystem ⟨1, 1⟩).Path v' inside u ∧
      (∀ x ∈ inside, x.2.2.returns = false) ∧
      (sampleSystem ⟨1, 1⟩).step u ((), .returned (.acquireFrame .latest) none
        (.error CaptureFault.targetLost.toError)) u' ∧
      u.pc () ≠ .call (.acquireFrame .latest) .issuing := by
  have hrunning : w.shared.capture.inner.lifecycle ≠ .closed ∧ w.shared.capture.inner.terminal = none :=
    ⟨by rw [hlive.1]; decide, hlive.2⟩
  have hend : (w.shared.capture.refuseDrops.inner.terminate .targetLost).terminal = some .targetLost :=
    if_pos hrunning
  obtain ⟨before, hlost, -, hcall⟩ := (solo_lost hfree).path_step
    (.call (.call (.acquireFrame .latest))) (.nil w) rfl hpc
  have hframing : Solo (Act ⟨false, false⟩ some) () (w.shared.setCapture
      (w.shared.capture.refuseDrops.setInner (w.shared.capture.refuseDrops.inner.terminate .targetLost)))
      _ _ _ _ := solo_framing hc
  obtain ⟨inside, hinside, hes, hstep⟩ := hframing.path_step
    (.call (.frameFailed (.terminal hfree hend))) (.nil _) rfl (World.move_pc_self ..)
  refine ⟨_, _, _, _, inside, hlost.leads, hend, hcall, hinside, fun x hx => ?_, hstep, ?_⟩
  · have hsilent : x.2.2 ∈ events inside := List.mem_map_of_mem hx
    rw [hes] at hsilent
    simp only [events, List.map_nil, List.nil_append, List.mem_cons, List.not_mem_nil, or_false,
      or_self] at hsilent
    rw [hsilent]
    rfl
  · rw [World.move_pc_self]
    nofun

/-- A session that returns its first frame; a call after its target was lost ends with this fault. -/
theorem results_ordered_sample :
    ∃ (trail : List (SessionWorld Unit Unit × (Unit × Event Unit))) (w w' : SessionWorld Unit Unit)
      (frame : Frame),
      (sampleSystem ⟨1, 1⟩).Path (SessionWorld.start Unit Unit ⟨1, 1⟩ false 1) trail w ∧
      (sampleSystem ⟨1, 1⟩).step w ((), .returned (.acquireFrame .latest) none (.ok (.frame frame))) w' ∧
      (∃ v, LastCommit trail () (.acquireFrame .latest) v ∧ v.shared.capture.inner.terminal = none ∧
        v.shared.capture.inner.lifecycle = .opened ∧ v.shared.closing = false) ∧
      ∃ v v' u : SessionWorld Unit Unit, (sampleSystem ⟨1, 1⟩).Leads w' v ∧
        (sampleSystem ⟨1, 1⟩).step v ((), .called (.acquireFrame .latest)) v' ∧
        (sampleSystem ⟨1, 1⟩).Leads v' u ∧
        (∃ result u', (sampleSystem ⟨1, 1⟩).step u ((), .returned (.acquireFrame .latest) none result) u') ∧
        ∀ result u', (sampleSystem ⟨1, 1⟩).step u ((), .returned (.acquireFrame .latest) none result) u' →
          result = .error CaptureFault.targetLost.toError := by
  have law := results_ordered ⟨false, false⟩ some Unit Unit ⟨1, 1⟩ false 1
  have hpublish : Solo (Act ⟨false, false⟩ some) () _ (.adapter .idle : Pc Unit) _ _ _ :=
    solo_adapter (Capture.solo_publish some (t := ()) (r := Capture.narrow) rfl rfl)
      (SessionWorld.start Unit Unit ⟨1, 1⟩ false 1).shared rfl
  obtain ⟨trail, hp, -, hreturn⟩ := (hpublish.append (solo_acquire rfl rfl ⟨rfl, rfl⟩ rfl rfl)).path_step
    (.call (.gateReturns rfl rfl)) (.nil (SessionWorld.start Unit Unit ⟨1, 1⟩ false 1)) rfl rfl
  obtain ⟨w', hreturn, hpc, hc, hfree, hlive⟩ : ∃ w', (sampleSystem ⟨1, 1⟩).step _ _ w' ∧
      w'.pc () = .adapter .idle ∧ w'.shared.closing = false ∧ w'.shared.capture.holder = none ∧
      w'.shared.capture.inner.Live :=
    ⟨_, hreturn, World.move_pc_self .., rfl, rfl, rfl, rfl⟩
  obtain ⟨v, v', u, u', inside, hlost, hterm, hcall, hinside, hcalm, hend, hissued⟩ :=
    lost_call hpc hc hfree hlive
  have hv := (((System.Reachable.of_init rfl).leads hp.leads).step hreturn).leads hlost
  obtain ⟨stage, hpc, -, -, hends⟩ := law.faulted v v' () (.acquireFrame .latest) _ inside u hv
    hterm trivial hcall hinside
    fun x hx _ => hcalm x hx
  refine ⟨trail, _, _, _, hp, hreturn, law.answered _ _ _ _ _ _ _ hp hreturn, v, v', u, hlost, hcall,
    hinside.leads, ⟨_, u', hend⟩, fun result u' hstep => ?_⟩
  rcases hends none result u' hstep with hfault | ⟨-, rfl, -⟩
  · exact hfault
  · exact absurd hpc hissued

end Sample

/-- A call that nothing interrupts, begun after the target was lost, fails for want of a diagnostic
identity: the last one was issued to another session. -/
theorem exhausted_identities :
    ¬ ∀ (v w w' : SessionWorld Unit Unit) fault call stage result,
      (sessionSystem ⟨true, true⟩ some Unit Unit ⟨1, 1⟩ false u64Max).Reachable v →
      v.shared.capture.inner.terminal = some fault → call.OfStream ⟨1, 1⟩ →
      (sessionSystem ⟨true, true⟩ some Unit Unit ⟨1, 1⟩ false u64Max).step v ((), .called call) w →
      (sessionSystem ⟨true, true⟩ some Unit Unit ⟨1, 1⟩ false u64Max).Leads w w' →
      w'.pc () = .call call stage →
      (∃ w'', (sessionSystem ⟨true, true⟩ some Unit Unit ⟨1, 1⟩ false u64Max).step w'
        ((), .returned call none result) w'') →
      result = .error fault.toError := by
  intro h
  have hlost : Solo (Act ⟨true, true⟩ some) ()
      (SessionWorld.start Unit Unit ⟨1, 1⟩ false u64Max).shared (.adapter .idle : Pc Unit)
      [.silent, .capture .silent, .capture .terminated] _ (.adapter .idle) :=
    .cons (.issuesOther rfl (by decide) rfl rfl rfl) <|
      .cons (.adapter rfl (.close (.terminateCall .targetLost)) rfl rfl rfl) <|
      .cons (.adapter rfl (.close (.terminate rfl)) rfl rfl rfl) <| .nil ..
  obtain ⟨hv, hcall⟩ := hlost.leads_step (.call (.call (.acquireFrame .latest)))
  have hobserves : ∀ w : SessionWorld Unit Unit, w.pc () = .call (.acquireFrame .latest) .observing →
      (sessionSystem ⟨true, true⟩ some Unit Unit ⟨1, 1⟩ false u64Max).step w ((), .silent)
        (w.move () w.shared (.call (.acquireFrame .latest) .issuing)) :=
    fun w hpc => ⟨_, _, hpc ▸ .call (.observeAdmitted none rfl), rfl⟩
  have hends : ∀ w : SessionWorld Unit Unit, w.pc () = .call (.acquireFrame .latest) .issuing →
      w.shared.nextOperation = 0 →
      (sessionSystem ⟨true, true⟩ some Unit Unit ⟨1, 1⟩ false u64Max).step w
        ((), .returned (.acquireFrame .latest) none (.error operationsExhausted))
        (w.move () w.shared (.adapter .idle)) :=
    fun w hpc h0 => ⟨_, _, hpc ▸ .call (.exhausted h0), rfl⟩
  have := h _ _ _ .targetLost (.acquireFrame .latest) .issuing (.error operationsExhausted)
    ((System.Reachable.of_init rfl).leads hv) rfl trivial hcall
    (.single (hobserves _ (World.move_pc_self ..))) (World.move_pc_self ..)
    ⟨_, hends _ (World.move_pc_self ..) nextIdentity_max⟩
  exact absurd (Except.error.inj this) (by decide)

end MadoPilot.Session
