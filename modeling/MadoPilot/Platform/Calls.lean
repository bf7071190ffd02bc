import MadoPilot.Platform.Cleanup

/-!
# The driver's calls

A driver that writes down the calls it gets, and what the execute loop makes it write: the walk over
the routes opens routes, the loop over the events submits events of one route, cleanup releases on
that route.

* `submitEvents_calls` says which events the driver was asked for and which of them it completed;
* `selectRoute_calls` says which routes were refused on the way to the one that was opened;
* `Windows.recorded_logs` and `Macos.recorded_logs` are the two platforms' instances.
-/

namespace MadoPilot.Platform

open MadoPilot.Core MadoPilot.Input MadoPilot.Lib

/-- One call of the driver; for an event, whether the driver completed it. -/
inductive Call where
  | preflight (route : InputDelivery)
  | beginRoute (route : InputDelivery)
  | submit (route : InputDelivery) (event : InputEvent) (completed : Bool)
  | release (route : InputDelivery)
  deriving DecidableEq

namespace Call

def opens : Call → Option InputDelivery
  | preflight route | beginRoute route => some route
  | _ => none

def submits : Call → Option InputDelivery
  | submit route _ _ => some route
  | _ => none

def attempted : Call → Option InputEvent
  | submit _ event _ => some event
  | _ => none

def completed : Call → Option InputEvent
  | submit _ event true => some event
  | _ => none

end Call

/-- What is written down keeps to a property. -/
def Writes {X : Type*} (log : X → List Call) (P : Call → Prop) (x y : X) : Prop :=
  ∃ calls, log y = log x ++ calls ∧ ∀ call ∈ calls, P call

namespace Writes

variable {X : Type*} {log : X → List Call} {P : Call → Prop} {x y z : X}

lemma refl (x : X) : Writes log P x x := ⟨[], by simp, by simp⟩

lemma of_eq (h : log y = log x) : Writes log P x y := ⟨[], by simp [h], by simp⟩

lemma trans (h : Writes log P x y) (h' : Writes log P y z) : Writes log P x z := by
  obtain ⟨calls, hlog, hcalls⟩ := h
  obtain ⟨calls', hlog', hcalls'⟩ := h'
  refine ⟨calls ++ calls', by rw [hlog', hlog, List.append_assoc], ?_⟩
  intro call hcall
  rcases List.mem_append.mp hcall with hcall | hcall
  · exact hcalls call hcall
  · exact hcalls' call hcall

end Writes

/-! ### The loop over the events -/

section Waiting

variable {X L : Type*} {log : X → L} {c : Context X} {sleep : ℕ → X → X}

/-- Clock, token and sleep write nothing down. -/
structure Quiet (log : X → L) (c : Context X) (sleep : ℕ → X → X) : Prop where
  cancelled : ∀ x, log (c.cancelled x).2 = log x
  now : ∀ x, log (c.now x).2 = log x
  sleep : ∀ duration x, log (sleep duration x) = log x

lemma Quiet.interruption (h : Quiet log c sleep) (x : X) : log (c.interruption x).2 = log x := by
  unfold Context.interruption
  have hcancelled := h.cancelled x
  rcases hx : c.cancelled x with ⟨i, y⟩
  rw [hx] at hcancelled
  cases i with
  | true => exact hcancelled
  | false =>
    simp only at hcancelled ⊢
    cases c.deadline with
    | none => exact hcancelled
    | some deadline => exact (h.now y).trans hcancelled

lemma Quiet.waitUntil (h : Quiet log c sleep) (finish fuel : ℕ) (x : X) {r : Except InputFault Unit}
    {y : X} (hw : waitUntil c sleep finish fuel x = some (r, y)) : log y = log x := by
  induction fuel generalizing x with
  | zero => cases hw
  | succ fuel ih =>
    have hi := h.interruption x
    rcases hx : c.interruption x with ⟨i, x₁⟩
    rw [hx] at hi
    cases i with
    | some i =>
      rw [waitUntil_interrupted hx] at hw
      cases hw
      exact hi
    | none =>
      have hn := h.now x₁
      rcases hx₁ : c.now x₁ with ⟨now, x₂⟩
      rw [hx₁] at hn
      rw [waitUntil_read hx hx₁] at hw
      by_cases hfinish : finish ≤ now
      · rw [if_pos hfinish] at hw
        have hi' := h.interruption x₂
        rcases hx₂ : c.interruption x₂ with ⟨i, x₃⟩
        rw [hx₂] at hi' hw
        cases i <;>
        · cases hw
          exact hi'.trans (hn.trans hi)
      · rw [if_neg hfinish] at hw
        exact (ih _ hw).trans ((h.sleep _ x₂).trans (hn.trans hi))

lemma Quiet.waitDelay (h : Quiet log c sleep) (fuel delay : ℕ) (x : X) {r : Except InputFault Unit}
    {y : X} (hw : waitDelay c sleep fuel delay x = some (r, y)) : log y = log x := by
  have hi := h.interruption x
  rcases hx : c.interruption x with ⟨i, x₁⟩
  rw [hx] at hi
  cases i with
  | some i =>
    rw [waitDelay_interrupted hx] at hw
    cases hw
    exact hi
  | none =>
    have hn := h.now x₁
    rcases hx₁ : c.now x₁ with ⟨now, x₂⟩
    rw [hx₁] at hn
    rw [waitDelay_read hx hx₁] at hw
    cases hadd : instantAdd now delay with
    | none =>
      rw [hadd] at hw
      cases hw
      exact hn.trans hi
    | some finish =>
      rw [hadd] at hw
      exact (h.waitUntil finish fuel x₂ hw).trans (hn.trans hi)

end Waiting

section Submit

variable {S X F : Type*} [Failure F] {log : X → List Call} {c : Context X} {sleep : ℕ → X → X}
  {submit : InputEvent → S → X → Except F Unit × S × X} {route : InputDelivery}

lemma submitEvent_calls (h : Quiet log c sleep)
    (hsubmit : ∀ event s x, log (submit event s x).2.2 =
      log x ++ [.submit route event (submit event s x).1.isOk])
    (fuel : ℕ) (event : InputEvent) (s s' : S) (x y : X) {r : Except F Unit}
    (hr : submitEvent c sleep submit fuel event s x = some (r, s', y)) :
    ∃ calls, log y = log x ++ calls ∧
      (calls = [] ∧ (event.isDelay = true ∨ r.isOk = false) ∨
        event.isDelay = false ∧ calls = [.submit route event r.isOk]) := by
  cases hdelay : event.isDelay with
  | true =>
    cases event with
    | delay delay =>
      simp only [submitEvent, Option.map_eq_some_iff] at hr
      obtain ⟨⟨r', z⟩, hw, heq⟩ := hr
      cases heq
      exact ⟨[], by simpa using h.waitDelay fuel delay x hw, Or.inl ⟨rfl, Or.inl rfl⟩⟩
    | _ => cases hdelay
  | false =>
    have hi := h.interruption x
    rcases hx : c.interruption x with ⟨i, x₁⟩
    rw [hx] at hi
    cases i with
    | some i =>
      rw [submitEvent_interrupted hdelay hx] at hr
      cases hr
      exact ⟨[], by simpa using hi, Or.inl ⟨rfl, Or.inr rfl⟩⟩
    | none =>
      rw [submitEvent_native hdelay hx, Option.some.injEq] at hr
      have hs := hsubmit event s x₁
      have hi' : log x₁ = log x := hi
      rw [hr, hi'] at hs
      exact ⟨_, hs, Or.inr ⟨rfl, rfl⟩⟩

def nativeEvents (events : List InputEvent) : List InputEvent := events.filter (!·.isDelay)

/-- **The calls of a run over the events**: `k` of them are completed, the driver is asked for the
events in order and for none twice, and completes exactly those among the `k` that are not waits. -/
structure Submitted (route : InputDelivery) (events : List InputEvent) (k : ℕ)
    (calls : List Call) : Prop where
  count_le : k ≤ events.length
  on_route : ∀ call ∈ calls, call.submits = some route
  completed : calls.filterMap Call.completed = nativeEvents (events.take k)
  attempted : calls.filterMap Call.attempted <+: nativeEvents events

theorem submitEvents_calls (h : Quiet log c sleep)
    (hsubmit : ∀ event s x, log (submit event s x).2.2 =
      log x ++ [.submit route event (submit event s x).1.isOk])
    (fuel : ℕ) (events : List InputEvent) (n : ℕ) (s s' : S) (x y : X) {m : ℕ} {f : Option F}
    (hr : submitEvents c sleep submit fuel events n s x = some ((m, f), s', y)) :
    ∃ k calls, m = n + k ∧ log y = log x ++ calls ∧ Submitted route events k calls ∧
      (f = none → k = events.length) := by
  induction events generalizing n s x with
  | nil =>
    cases hr
    exact ⟨0, [], rfl, by simp, ⟨by simp, by simp, rfl, by simp⟩, fun _ => rfl⟩
  | cons event events ih =>
    unfold submitEvents at hr
    rcases hevent : submitEvent c sleep submit fuel event s x with _ | ⟨r, s₁, x₁⟩
    · rw [hevent] at hr
      cases hr
    rw [hevent] at hr
    obtain ⟨calls, hlog, hcalls⟩ := submitEvent_calls h hsubmit fuel event s s₁ x x₁ hevent
    cases r with
    | error failure =>
      cases hr
      refine ⟨0, calls, rfl, hlog, ⟨by simp, ?_, ?_, ?_⟩, by simp⟩
      · rcases hcalls with ⟨rfl, -⟩ | ⟨-, rfl⟩
        · simp
        · simp [Call.submits]
      · rcases hcalls with ⟨rfl, -⟩ | ⟨-, rfl⟩
        · rfl
        · rfl
      · rcases hcalls with ⟨rfl, -⟩ | ⟨hdelay, rfl⟩
        · simp
        · simp [Call.attempted, nativeEvents, hdelay]
    | ok u =>
      obtain ⟨k, calls', hm, hlog', hrest, hall⟩ := ih (n + 1) s₁ x₁ hr
      refine ⟨k + 1, calls ++ calls', by omega, by rw [hlog', hlog, List.append_assoc],
        ⟨?_, ?_, ?_, ?_⟩, ?_⟩
      · have := hrest.count_le
        rw [List.length_cons]
        omega
      · intro call hcall
        rcases List.mem_append.mp hcall with hcall | hcall
        · rcases hcalls with ⟨rfl, -⟩ | ⟨-, rfl⟩
          · cases hcall
          · rw [List.mem_singleton.mp hcall]
            rfl
        · exact hrest.on_route call hcall
      · rw [List.filterMap_append, hrest.completed, List.take_succ_cons]
        rcases hcalls with ⟨rfl, hdelay | hok⟩ | ⟨hdelay, rfl⟩
        · simp [nativeEvents, hdelay]
        · cases hok
        · simp [nativeEvents, hdelay, Call.completed, Except.isOk, Except.toBool]
      · rw [List.filterMap_append]
        rcases hcalls with ⟨rfl, hdelay | hok⟩ | ⟨hdelay, rfl⟩
        · simpa [nativeEvents, hdelay] using hrest.attempted
        · cases hok
        · simpa [nativeEvents, hdelay, Call.attempted] using hrest.attempted
      · intro hf
        rw [hall hf, List.length_cons]

end Submit

/-! ### The walk over the routes -/

def refusal (r : InputDelivery × InputFault) : InputAttempt := .refused r.1 r.2

lemma map_route_refusal (refusals : List (InputDelivery × InputFault)) :
    (refusals.map refusal).map InputAttempt.route = refusals.map Prod.fst := by
  rw [List.map_map]
  rfl

section Select

variable {S X : Type*} {log : X → List Call}

/-- What a walk over routes ends in, given the attempts before it: a route, after the refusals of
the routes before it, or the receipt of a sequence that no route took. -/
def Selected (target : TargetId) (prior : List InputAttempt)
    (refusals : List (InputDelivery × InputFault)) (tried : List InputDelivery) :
    Except InputReceipt (InputDelivery × SubmissionEvidence × List InputAttempt) → Prop
  | .ok (route, _, prior') =>
    prior' = prior ++ refusals.map refusal ∧ tried = refusals.map Prod.fst ++ [route]
  | .error receipt =>
    (∃ fault, receipt =
      (InputReceipt.unexecuted target fault).withPriorAttempts (prior ++ refusals.map refusal)) ∧
      tried = refusals.map Prod.fst

lemma Selected.cons {target : TargetId} {prior : List InputAttempt} {route : InputDelivery}
    {fault : InputFault} {refusals : List (InputDelivery × InputFault)} {tried : List InputDelivery}
    {r : Except InputReceipt (InputDelivery × SubmissionEvidence × List InputAttempt)}
    (h : Selected target (prior ++ [.refused route fault]) refusals tried r) :
    Selected target prior ((route, fault) :: refusals) (route :: tried) r := by
  cases r with
  | ok chosen =>
    obtain ⟨hprior, htried⟩ := h
    refine ⟨?_, by rw [htried]; rfl⟩
    rw [hprior, List.append_assoc]
    rfl
  | error receipt =>
    obtain ⟨⟨fault', hreceipt⟩, htried⟩ := h
    refine ⟨⟨fault', ?_⟩, by rw [htried]; rfl⟩
    rw [hreceipt, List.append_assoc]
    rfl

theorem selectRoute_calls {target : TargetId}
    {preflightRoute : InputDelivery → Except InputFault SubmissionEvidence}
    {probe : ℕ → InputDelivery → S → X → Except InputFault Unit × S × X}
    {stops : ℕ → InputDelivery → InputFault → Bool}
    (hprobe : ∀ index route s x,
      Writes log (fun call => call.opens = some route) x (probe index route s x).2.2)
    (index : ℕ) (routes : List InputDelivery) (prior : List InputAttempt) (last : InputFault)
    (s s' : S) (x y : X)
    {r : Except InputReceipt (InputDelivery × SubmissionEvidence × List InputAttempt)}
    (hr : selectRoute target preflightRoute probe stops index routes prior last s x = (r, s', y)) :
    ∃ refusals tried, tried <+: routes ∧ Selected target prior refusals tried r ∧
      Writes log (fun call => ∃ route ∈ tried, call.opens = some route) x y := by
  induction routes generalizing index prior last s x with
  | nil =>
    cases hr
    exact ⟨[], [], List.prefix_refl _, ⟨⟨last, by simp⟩, rfl⟩, .refl _⟩
  | cons route routes ih =>
    have hone : ∀ {y : X}, Writes log (fun call => call.opens = some route) x y →
        ∀ tried, Writes log (fun call => ∃ r ∈ route :: tried, call.opens = some r) x y := by
      intro y hw tried
      obtain ⟨calls, hlog, hcalls⟩ := hw
      exact ⟨calls, hlog, fun call hcall => ⟨route, by simp, hcalls call hcall⟩⟩
    have hrest : ∀ {x' : X} {fault : InputFault} {s₁ : S},
        Writes log (fun call => call.opens = some route) x x' →
        selectRoute target preflightRoute probe stops (index + 1) routes
          (prior ++ [.refused route fault]) fault s₁ x' = (r, s', y) →
        ∃ refusals tried, tried <+: route :: routes ∧ Selected target prior refusals tried r ∧
          Writes log (fun call => ∃ route ∈ tried, call.opens = some route) x y := by
      intro x' fault s₁ hw hr
      obtain ⟨refusals, tried, hprefix, hselected, calls, hlog, hcalls⟩ := ih _ _ _ _ _ hr
      refine ⟨(route, fault) :: refusals, route :: tried, List.prefix_cons_inj route |>.mpr hprefix,
        hselected.cons, (hone hw tried).trans ⟨calls, hlog, ?_⟩⟩
      intro call hcall
      obtain ⟨route', hmem, hopens⟩ := hcalls call hcall
      exact ⟨route', List.mem_cons_of_mem route hmem, hopens⟩
    unfold selectRoute at hr
    cases hpreflight : preflightRoute route with
    | error fault =>
      rw [hpreflight] at hr
      exact hrest (.refl x) hr
    | ok evidence =>
      rw [hpreflight] at hr
      have hw := hprobe index route s x
      rcases hx : probe index route s x with ⟨r', s₁, x'⟩
      rw [hx] at hw
      simp only [hx] at hr hw
      cases r' with
      | ok u =>
        cases hr
        exact ⟨[], [route], ⟨routes, rfl⟩, ⟨by simp, rfl⟩, hone hw []⟩
      | error fault =>
        simp only at hr
        by_cases hstops : stops index route fault = true
        · rw [if_pos hstops] at hr
          cases hr
          exact ⟨[(route, fault)], [route], ⟨routes, rfl⟩, ⟨⟨fault, rfl⟩, rfl⟩, hone hw []⟩
        · rw [if_neg hstops] at hr
          exact hrest hw hr

end Select

/-! ### Recorded drivers -/

section Recorded

variable {E : Type*}

def recordedContext (c : Context E) : Context (E × List Call) where
  cancelled x := ((c.cancelled x.1).1, (c.cancelled x.1).2, x.2)
  deadline := c.deadline
  now x := ((c.now x.1).1, (c.now x.1).2, x.2)

def recordedCall {α β : Type*} (f : E → α × β × E) (call : α → Call) (x : E × List Call) :
    α × β × (E × List Call) :=
  match f x.1 with
  | (a, b, e) => (a, b, (e, x.2 ++ [call a]))

def Windows.InputDriver.recorded (d : Windows.InputDriver E) :
    Windows.InputDriver (E × List Call) where
  preflight route focus x :=
    match d.preflight route focus x.1 with
    | (result, e) => (result, (e, x.2 ++ [.preflight route]))
  submit route focus event geometry s := recordedCall (d.submit route focus event geometry s)
    fun result => .submit route event result.isOk
  release route pressed s := recordedCall (d.release route pressed s) fun _ => .release route

def Macos.InputDriver.recorded (d : Macos.InputDriver E) :
    Macos.InputDriver (E × List Call) where
  preflight route focus early x :=
    match d.preflight route focus early x.1 with
    | (result, e) => (result, (e, x.2 ++ [.preflight route]))
  beginRoute route s := recordedCall (d.beginRoute route s) fun _ => .beginRoute route
  submit route focus event geometry s := recordedCall (d.submit route focus event geometry s)
    fun result => .submit route event result.isOk
  release route pressed s := recordedCall (d.release route pressed s) fun _ => .release route
  releasePending route s := recordedCall (d.releasePending route s) fun _ => .release route

lemma recordedContext_quiet (c : Context E) (sleep : ℕ → E → E) :
    Quiet Prod.snd (recordedContext c) (fun duration x => (sleep duration x.1, x.2)) :=
  ⟨fun _ => rfl, fun _ => rfl, fun _ _ => rfl⟩

/-- What the execute loop needs to know of a backend that writes its calls down. -/
structure Backend.Logs {S X F : Type*} (b : Backend S X F) (log : X → List Call) : Prop where
  probe : ∀ request index route s x,
    Writes log (fun call => call.opens = some route) x (b.probe request index route s x).2.2
  submit : ∀ request route event s x, log (b.submit request route event s x).2.2 =
    log x ++ [.submit route event (b.submit request route event s x).1.isOk]
  cleanup : ∀ request receipt stopped s x,
    Writes log (· = .release stopped.route) x (b.runCleanup request receipt stopped s x).2.2
  receipt : ∀ request receipt stopped s x, ∃ state released owed,
    (b.runCleanup request receipt stopped s x).1 =
      { receipt with cleanup := state, cleanupReleased := released, cleanupOwed := owed }

lemma cleanup_quiet {S : Type*} (c : Context E) (budget : CleanupBudget) (started : E × List Call)
    (x : S × (E × List Call)) :
    (cleanupInterruption (budget.context (recordedContext c) started).1 x).2.2.2 = x.2.2 := by
  have hquiet : Quiet (Prod.snd : E × List Call → List Call)
      (budget.context (recordedContext c) started).1 (fun _ e => e) :=
    ⟨fun _ => rfl, fun _ => rfl, fun _ _ => rfl⟩
  exact hquiet.interruption x.2

lemma withCleanupResult_eq (receipt : InputReceipt) (released owed : ℕ) (exhausted : Bool) :
    ∃ state released' owed', withCleanupResult receipt released owed exhausted =
      { receipt with cleanup := state, cleanupReleased := released', cleanupOwed := owed' } := by
  cases exhausted
  · exact ⟨_, _, _, rfl⟩
  · exact ⟨_, _, _, rfl⟩

theorem Windows.recorded_logs (d : Windows.InputDriver E) (c : Context E) :
    (Windows.backend d.recorded (recordedContext c)).Logs Prod.snd where
  probe request index route s x := ⟨[.preflight route], rfl, by simp [Call.opens]⟩
  submit _ _ _ _ _ := rfl
  cleanup request receipt stopped s x := by
    unfold Windows.backend Windows.runCleanup
    simp only
    split
    · exact .refl x
    · rw [Windows.cleanupLoop, Windows.releaseLoop_eq]
      refine Worklist.run_preserves
        (P := fun (y : Windows.DriverState × (E × List Call)) =>
          Writes Prod.snd (· = .release stopped.route) x y.2) ?_ ?_ _ _ _ (.of_eq rfl)
      · intro y hy
        exact hy.trans (.of_eq (cleanup_quiet c request.cleanup x y))
      · intro pressed y hy
        exact hy.trans ⟨[.release stopped.route], rfl, by simp⟩
  receipt request receipt stopped s x := by
    unfold Windows.backend Windows.runCleanup
    simp only
    split
    · exact ⟨_, _, _, rfl⟩
    · exact withCleanupResult_eq _ _ _ _

lemma Macos.cleanupLoop_preserves {X : Type*} {P : X → Prop} {maxEvents : ℕ}
    {interruption : X → Option Interruption × X}
    {release : PressedState → X → Except InputFault Unit × X}
    {releasePending : X → Except InputFault Bool × X}
    (hcheck : ∀ x, P x → P (interruption x).2) (hrelease : ∀ p x, P x → P (release p x).2)
    (hpending : ∀ x, P x → P (releasePending x).2) (pending : Bool) (held : List PressedState)
    (x : X) (hx : P x) :
    P (Macos.cleanupLoop maxEvents interruption release releasePending pending held x).2 := by
  have hloop : ∀ n y, P y → P (Macos.releaseLoop maxEvents interruption release held n y).2 := by
    intro n y hy
    rw [Macos.releaseLoop_eq maxEvents interruption (fun r => match r with
      | .held p => release p
      | .text => fun x => (.ok (), x)) held n y]
    refine Worklist.run_preserves hcheck ?_ _ _ _ hy
    intro r z hz
    cases r with
    | text => exact hz
    | held p => exact hrelease p z hz
  unfold Macos.cleanupLoop
  cases pending with
  | false => exact hloop 0 x hx
  | true =>
    rw [if_pos rfl]
    split
    · exact hx
    have hy := hcheck x hx
    rcases hix : interruption x with ⟨i, y⟩
    rw [hix] at hy
    cases i with
    | some i => exact hy
    | none =>
      have hz := hpending y hy
      rcases hry : releasePending y with ⟨r, z⟩
      rw [hry] at hz
      simp only [hry]
      rcases r with fault | _ | _
      · exact hz
      · exact hz
      · exact hloop 1 z hz

theorem Macos.recorded_logs (d : Macos.InputDriver E) (c : Context E) :
    (Macos.backend d.recorded (recordedContext c)).Logs Prod.snd where
  probe request index route s x := by
    rcases hp : d.preflight route request.focus (Macos.requireEarlyAuthority request index) x.1 with
      ⟨r, e⟩
    cases r with
    | error fault =>
      refine ⟨[.preflight route], ?_, by simp [Call.opens]⟩
      simp only [Macos.backend, Macos.probe, Macos.InputDriver.recorded, hp]
    | ok u =>
      refine ⟨[.preflight route, .beginRoute route], ?_, by simp [Call.opens]⟩
      rcases hb : d.beginRoute route s e with ⟨r, s₁, e₁⟩
      cases r <;>
        simp only [Macos.backend, Macos.probe, Macos.InputDriver.recorded, recordedCall, hp, hb,
          List.append_assoc, List.singleton_append]
  submit _ _ _ _ _ := rfl
  cleanup request receipt stopped s x := by
    unfold Macos.backend Macos.runCleanup
    simp only
    split
    · exact .refl x
    · refine Macos.cleanupLoop_preserves
        (P := fun (y : Macos.DriverState × (E × List Call)) =>
          Writes Prod.snd (· = .release stopped.route) x y.2) ?_ ?_ ?_ _ _ _ (.of_eq rfl)
      · intro y hy
        exact hy.trans (.of_eq (cleanup_quiet c request.cleanup x y))
      · intro pressed y hy
        exact hy.trans ⟨[.release stopped.route], rfl, by simp⟩
      · intro y hy
        exact hy.trans ⟨[.release stopped.route], rfl, by simp⟩
  receipt request receipt stopped s x := by
    unfold Macos.backend Macos.runCleanup
    simp only
    split
    · exact ⟨_, _, _, rfl⟩
    · exact withCleanupResult_eq _ _ _ _

end Recorded

end MadoPilot.Platform
