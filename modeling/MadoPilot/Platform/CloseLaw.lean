import MadoPilot.Platform.CloseInvariant

/-!
# The native close of a Windows session happens once

* `logs_along` : what the counters have to do with the run;
* `close_can_succeed` : a close of a session whose result is recorded may succeed;
* `native_close_once` : the law of the close.
-/

namespace MadoPilot.Platform.WindowsClose

open MadoPilot.Core MadoPilot.Capture MadoPilot.Lib

namespace Event

def isRemoval : Event → Bool
  | handlerRemoved => true
  | _ => false

def isRelease : Event → Bool
  | released => true
  | _ => false

def isFault : Event → Bool
  | returned (.error (.fault _)) => true
  | _ => false

end Event

section Runs

variable {τ : Type*} {t : τ} {s s' : Shared τ} {pc pc' : Pc} {e : Event}

theorem Act.logs (h : Act t s pc e s' pc') :
    s'.removed = s.removed + e.isRemoval.toNat ∧ s'.released = s.released + e.isRelease.toNat ∧
      s'.runtime.closeFaultReported.toNat =
        s.runtime.closeFaultReported.toNat + e.isFault.toNat := by
  cases h with
  | reports hflag =>
    refine ⟨rfl, rfl, ?_⟩
    rw [hflag]
    rfl
  | _ => exact ⟨rfl, rfl, rfl⟩

variable [DecidableEq τ] {w : CloseWorld τ}

theorem logs_along {trail : List (CloseWorld τ × (τ × Event))}
    (hw : (closeSystem τ).Path (CloseWorld.start τ) trail w) :
    (events trail).countP Event.isRemoval = w.shared.removed ∧
      (events trail).countP Event.isRelease = w.shared.released ∧
      (events trail).countP Event.isFault = w.shared.runtime.closeFaultReported.toNat := by
  refine threads_along (P := fun es w => es.countP Event.isRemoval = w.shared.removed ∧
    es.countP Event.isRelease = w.shared.released ∧
    es.countP Event.isFault = w.shared.runtime.closeFaultReported.toNat) ⟨rfl, rfl, rfl⟩ ?_ hw
  rintro es w t e s' pc' - ⟨hremoved, hreleased, hfaults⟩ hact
  have hlast : ∀ p : Event → Bool, (es ++ [e]).countP p = es.countP p + (p e).toNat := by
    intro p
    rw [List.countP_append, List.countP_singleton]
    cases p e <;> rfl
  obtain ⟨hremoves, hreleases, hreports⟩ := hact.logs
  rw [hlast, hlast, hlast, hremoved, hreleased, hfaults]
  exact ⟨hremoves.symm, hreleases.symm, hreports.symm⟩

end Runs

/-! ### A later close -/

section Later

variable {τ : Type*} {t : τ} {s : Shared τ} {result : Option CaptureFault}

theorem finish_solo (hresult : s.runtime.closeResult = some result)
    (htold : ∀ fault, result = some fault → s.runtime.closeFaultReported = true) :
    Solo Act t s .draining [.silent, .silent, .silent, .silent, .silent, .silent] s .finishing := by
  have hstarted : s.runtime.closeTask = true ∨ s.runtime.closeResult ≠ none := by
    refine Or.inr ?_
    rw [hresult]
    exact nofun
  have hsettles : Act t s (.settling result) .silent s .finishing := by
    cases result with
    | none => exact .clean
    | some fault => exact .toldBefore (htold fault rfl)
  exact .cons .drains <| .cons .admits <| .cons (.started hstarted) <| .cons (.recorded hresult) <|
    .cons .commits <| .cons hsettles (.nil ..)

/-- **A close that nothing interrupts gets to the end** once the result is recorded and its fault, if it
has one, has been returned. -/
theorem close_solo (halive : s.alive = true) (hgate : s.gate = none)
    (hresult : s.runtime.closeResult = some result)
    (htold : ∀ fault, result = some fault → s.runtime.closeFaultReported = true) :
    ∃ s' es, Solo Act t s .idle es s' .finishing := by
  cases hflag : s.runtime.frameHandlerRemoved with
  | true =>
    refine ⟨_, _, .cons (.call halive) <| .cons (.gate hgate) <| .cons (.removedBefore hflag) <|
      finish_solo hresult htold⟩
  | false =>
    have hmarks := Act.marksRemoved (t := t)
      (s := { s with calls := s.calls + 1, gate := some t }) hflag
    cases hresources : s.runtime.resources with
    | true =>
      have hnative : Act t { s with calls := s.calls + 1, gate := some t } .removing .silent
          { s with
            calls := s.calls + 1
            gate := some t
            runtime := { s.runtime with frameHandlerRemoved := true } } .removingNative := by
        have hpc := hmarks
        rw [if_pos (show s.runtime.resources = true from hresources)] at hpc
        exact hpc
      exact ⟨_, _, .cons (.call halive) <| .cons (.gate hgate) <| .cons hnative <|
        .cons .removes <| finish_solo hresult htold⟩
    | false =>
      have hskip : Act t { s with calls := s.calls + 1, gate := some t } .removing .silent
          { s with
            calls := s.calls + 1
            gate := some t
            runtime := { s.runtime with frameHandlerRemoved := true } } .draining := by
        have hpc := hmarks
        rw [if_neg (show ¬ s.runtime.resources = true by rw [hresources]; exact Bool.false_ne_true)] at hpc
        exact hpc
      exact ⟨_, _, .cons (.call halive) <| .cons (.gate hgate) <| .cons hskip <|
        finish_solo hresult htold⟩

end Later

/-! ### The law -/

section Law

variable {τ : Type*} [DecidableEq τ] {w : CloseWorld τ} {trail : List (CloseWorld τ × (τ × Event))}

structure CloseLaw (trail : List (CloseWorld τ × (τ × Event))) (w : CloseWorld τ) : Prop where
  /-- The resources are in one place: the runtime state, a job in the hands of a thread, a job in the
  queue, the quarantine or released. -/
  place : ∃ n, Census (fun t => (w.pc t).carries = true) n ∧
    w.shared.runtime.resources.toNat + n + w.shared.queue.length + w.shared.quarantined +
      (events trail).countP Event.isRelease = 1
  /-- The frame handler is removed once at most. -/
  removal : (events trail).countP Event.isRemoval ≤ 1
  /-- The frame handler is removed before the release. -/
  removes : ∀ t w', (closeSystem τ).step w (t, .handlerRemoved) w' →
    (events trail).countP Event.isRelease = 0
  releases : ∀ t w', (closeSystem τ).step w (t, .released) w' →
    (events trail).countP Event.isRemoval = 1 ∧ (events trail).countP Event.isRelease = 0
  /-- A refused send leaves the runtime state that the resources were taken from. -/
  refuses : ∀ t e error w', (closeSystem τ).step w (t, e) w' →
    e = .refused error ∨ e = .returned (.error (.refused error)) →
    ∃ earlier, (w.pc t = .restarting earlier ∨ w.pc t = .resending earlier ∨
        ∃ drop, w.pc t = .sending drop earlier) ∧
      earlier.resources = true ∧ w'.shared.runtime = earlier
  /-- The state kept aside is the one the resources were taken from. -/
  takes : ∀ t e drop earlier w', (closeSystem τ).step w (t, e) w' →
    w'.pc t = .sending drop earlier → earlier = w.shared.runtime
  /-- A recorded result never changes. -/
  result : ∀ label found w', (closeSystem τ).step w label w' →
    w.shared.runtime.closeResult = some found → w'.shared.runtime.closeResult = some found
  /-- A fault is returned once at most, and it is the recorded one. -/
  fault : (events trail).countP Event.isFault ≤ 1
  faults : ∀ t fault w', (closeSystem τ).step w (t, .returned (.error (.fault fault))) w' →
    w.shared.runtime.closeResult = some (some fault) ∧ (events trail).countP Event.isFault = 0
  /-- A close that succeeds has found a result, and its fault has been returned before. -/
  succeeds : ∀ t w', (closeSystem τ).step w (t, .returned (.ok ())) w' →
    ∃ found, w.shared.runtime.closeResult = some found ∧
      (found = none ∨ (events trail).countP Event.isFault = 1)
  /-- Once the fault has been returned, a close fails by an interruption alone, and may succeed. -/
  later : ∀ t error w', (events trail).countP Event.isFault = 1 →
    (closeSystem τ).step w (t, .returned (.error error)) w' → ∃ i, error = .interrupted i
  retries : ∀ t found, w.shared.alive = true → w.shared.gate = none → w.pc t = .idle →
    w.shared.runtime.closeResult = some found →
    (found = none ∨ (events trail).countP Event.isFault = 1) →
    ∃ v v', (closeSystem τ).Leads w v ∧ (closeSystem τ).step v (t, .returned (.ok ())) v'

theorem close_can_succeed {t : τ} {found : Option CaptureFault} (halive : w.shared.alive = true)
    (hgate : w.shared.gate = none) (hpc : w.pc t = .idle)
    (hresult : w.shared.runtime.closeResult = some found)
    (htold : ∀ fault, found = some fault → w.shared.runtime.closeFaultReported = true) :
    ∃ v v', (closeSystem τ).Leads w v ∧ (closeSystem τ).step v (t, .returned (.ok ())) v' := by
  obtain ⟨s', es, hsolo⟩ := close_solo (t := t) halive hgate hresult htold
  rw [← hpc] at hsolo
  obtain ⟨hleads, hstep⟩ : (closeSystem τ).Leads w _ ∧ (closeSystem τ).step _ _ _ :=
    Solo.leads_step hsolo Act.finishes
  exact ⟨_, _, hleads, hstep⟩

/-- **The native close happens once**: in every interleaving of closes, of the final drop, of refused
sends and of teardown workers. -/
theorem native_close_once (hw : (closeSystem τ).Path (CloseWorld.start τ) trail w) : CloseLaw trail w := by
  have hinv := inv_reachable ⟨_, rfl, hw.leads⟩
  obtain ⟨hremoved, hreleased, hfaults⟩ := logs_along hw
  obtain ⟨n, hcarries, hresources⟩ := hinv.resources
  obtain ⟨m, hremoves, hhandler⟩ := hinv.handler
  unfold Shared.held at hresources
  unfold Shared.handler at hhandler
  have hreported : (events trail).countP Event.isFault = 1 → w.shared.runtime.closeFaultReported = true := by
    intro hone
    rw [hfaults] at hone
    cases hflag : w.shared.runtime.closeFaultReported with
    | true => rfl
    | false =>
      rw [hflag] at hone
      cases hone
  refine ⟨⟨n, hcarries, by omega⟩, by omega, ?_, ?_, ?_, ?_, ?_, ?_, ?_, ?_, ?_, ?_⟩
  · rintro t w' ⟨s', pc', hact, rfl⟩
    have hcarrier := hcarries.pos (t := t)
    have hfits := hinv.fits t
    generalize w.pc t = pc at hact hcarrier hfits
    cases hact with
    | removes =>
      have hthere : w.shared.runtime.resources = true := hfits
      rw [hthere, Bool.toNat_true] at hresources
      omega
    | workRemoves =>
      have hpos := hcarrier rfl
      omega
  · rintro t w' ⟨s', pc', hact, rfl⟩
    have hcarrier := hcarries.pos (t := t)
    have hsent : (w.pc t).tears = true → w.shared.runtime.frameHandlerRemoved = true := by
      intro htears
      by_contra hflag
      rw [(hinv.unsent (by simpa using hflag)).2.2 t] at htears
      cases htears
    -- nobody is about to remove the handler: the resources are in the hands of this worker
    have hnobody : (w.pc t).carries = true → (w.pc t).removes = false → m = 0 := by
      intro hcarrying hdone
      refine hremoves.eq_zero_iff.mpr fun u hu => ?_
      have hne : u ≠ t := by
        rintro rfl
        rw [hdone] at hu
        cases hu
      have hcarriesu : (w.pc u).carries = true ∨ w.shared.runtime.resources = true := by
        have hfits := hinv.fits u
        cases hpcu : w.pc u with
        | working => exact Or.inl rfl
        | removingNative =>
          rw [hpcu] at hfits
          exact Or.inr hfits
        | _ =>
          rw [hpcu] at hu
          cases hu
      have hpos := hcarries.pos hcarrying
      rcases hcarriesu with hcarriesu | hthere
      · exact hne (hcarries.unique (by omega) hcarriesu hcarrying)
      · rw [hthere, Bool.toNat_true] at hresources
        omega
    generalize w.pc t = pc at hact hcarrier hsent hnobody
    cases hact with
    | workCloses =>
      have hpos := hcarrier rfl
      have hflag := hsent rfl
      have hzero := hnobody rfl rfl
      have hempty : w.shared.queue = [] := List.length_eq_zero_iff.mp (by omega)
      rw [hflag, hempty, hzero] at hhandler
      refine ⟨?_, by omega⟩
      rw [hremoved]
      simpa using hhandler
  · rintro t e error w' ⟨s', pc', hact, rfl⟩ he
    have hfits := hinv.fits t
    generalize w.pc t = pc at hact hfits
    cases hact with
    | unsent | unsentDrop =>
      exact ⟨_, Or.inr (Or.inr ⟨_, rfl⟩), hfits.2.had, hfits.2.restored⟩
    | restartFails => exact ⟨_, Or.inl rfl, hfits.had, hfits.restored⟩
    | unsentAgain => exact ⟨_, Or.inr (Or.inl rfl), hfits.had, hfits.restored⟩
    | _ =>
      rcases he with he | he
      · cases he
      · cases he
  · rintro t e drop earlier w' ⟨s', pc', hact, rfl⟩ hpc
    have hpc' : pc' = .sending drop earlier := (World.move_pc_self ..).symm.trans hpc
    have hafter : ∀ d, afterStart d ≠ .sending drop earlier := by
      intro d
      cases d <;> exact nofun
    generalize w.pc (t, e).1 = pc at hact
    cases hact with
    | takes =>
      obtain ⟨-, rfl⟩ := Pc.sending.inj hpc'
      rfl
    | marksRemoved =>
      split_ifs at hpc'
    | started | nothingLeft | sends => exact absurd hpc' (hafter _)
    | _ => cases hpc'
  · rintro label found w' ⟨s', pc', hact, rfl⟩ hfound
    exact hact.recorded_stays hfound
  · rw [hfaults]
    cases w.shared.runtime.closeFaultReported <;> decide
  · rintro t fault w' ⟨s', pc', hact, rfl⟩
    have hfits := hinv.fits t
    generalize w.pc t = pc at hact hfits
    cases hact with
    | reports hflag =>
      refine ⟨hfits, ?_⟩
      rw [hfaults, hflag]
      rfl
  · rintro t w' ⟨s', pc', hact, rfl⟩
    have hfits := hinv.fits t
    generalize w.pc t = pc at hact hfits
    cases hact with
    | finishes =>
      obtain ⟨found, hfound, htold⟩ := hfits
      refine ⟨found, hfound, htold.imp_right fun hflag => ?_⟩
      rw [hfaults, hflag]
      rfl
  · rintro t error w' hone ⟨s', pc', hact, rfl⟩
    have hflag := hreported hone
    obtain ⟨fault, hresult⟩ := hinv.told hflag
    have hnosend : ∀ {earlier : RuntimeState}, ¬ Took w.shared.runtime earlier := by
      intro earlier htook
      have hnone := htook.result
      rw [htook.now] at hresult
      rw [show earlier.closeResult = some (some fault) from hresult] at hnone
      cases hnone
    have hfits := hinv.fits t
    generalize w.pc t = pc at hact hfits
    cases hact with
    | unsent => exact absurd hfits.2 hnosend
    | restartFails | unsentAgain => exact absurd hfits hnosend
    | reports hopen =>
      rw [hflag] at hopen
      cases hopen
    | gateLate i | drainLate i | admitLate i | expires i | commitLate i | finishLate i => exact ⟨i, rfl⟩
  · intro t found halive hgate hpc hresult htold
    refine close_can_succeed halive hgate hpc hresult fun fault hfault => ?_
    rcases htold with hnone | hone
    · rw [hnone] at hfault
      cases hfault
    · exact hreported hone

end Law

/-- A close runs out of time while the worker tears the session down; the next one returns the fault, and
the one after it succeeds. -/
theorem native_close_once_sample :
    ∃ (trail : List (CloseWorld Bool × (Bool × Event))) (w : CloseWorld Bool),
      (events trail).filter (fun e => e.isRemoval || e.isRelease || e.isFault) =
        [.handlerRemoved, .released, .returned (.error (.fault .deviceRemoved))] ∧ CloseLaw trail w := by
  have hfirst : Solo Act true (CloseWorld.start Bool).shared .idle _ _ .idle :=
    .cons (.call rfl) <| .cons (.gate rfl) <| .cons (.marksRemoved rfl) <| .cons .removes <|
    .cons .drains <| .cons .admits <| .cons (.takes rfl rfl rfl) <| .cons .sends <|
    .cons (.empty rfl rfl rfl rfl) <| .cons (.expires .deadlineExceeded) (.nil ..)
  have hworker : Solo Act false
      ⟨⟨false, true, true, none, false⟩, none, 0, true, [⟨false, false⟩], none, true, 1, 0, 0⟩ .idle _ _
      .idle :=
    .cons (.work rfl) <| .cons .workSkips <| .cons .workDrains <|
    .cons (.workCloses (some .deviceRemoved)) <| .cons .workSends (.nil ..)
  have hsecond : Solo Act true
      ⟨⟨false, true, true, none, false⟩, none, 0, true, [], some (some .deviceRemoved), false, 1, 0, 1⟩
      .idle _ _ .idle :=
    .cons (.call rfl) <| .cons (.gate rfl) <| .cons (.removedBefore rfl) <| .cons .drains <|
    .cons .admits <| .cons (.started (Or.inl rfl)) <| .cons (.receives rfl rfl rfl) <|
    .cons .commits <| .cons (.reports rfl) (.nil ..)
  have hthird : Solo Act true
      ⟨⟨false, true, false, some (some .deviceRemoved), true⟩, none, 0, true, [], none, false, 1, 0, 1⟩
      .idle _ _ .idle :=
    .cons (.call rfl) <| .cons (.gate rfl) <| .cons (.removedBefore rfl) <| .cons .drains <|
    .cons .admits <| .cons (.started (Or.inr nofun)) <| .cons (.recorded rfl) <| .cons .commits <|
    .cons (.toldBefore rfl) <| .cons .finishes (.nil ..)
  obtain ⟨trail₁, hpath₁, hes₁⟩ := hfirst.path
    (System.Path.nil (S := closeSystem Bool) (CloseWorld.start Bool)) rfl rfl
  obtain ⟨trail₂, hpath₂, hes₂⟩ := hworker.path hpath₁ rfl rfl
  obtain ⟨trail₃, hpath₃, hes₃⟩ := hsecond.path hpath₂ rfl rfl
  obtain ⟨trail₄, hpath₄, hes₄⟩ := hthird.path hpath₃ rfl rfl
  refine ⟨trail₄, _, ?_, native_close_once hpath₄⟩
  rw [hes₄, hes₃, hes₂, hes₁]
  rfl

end MadoPilot.Platform.WindowsClose
