import MadoPilot.Platform.Calls

/-!
# The receipt of an admitted sequence

Every run of the execute loop on an admitted request returns one receipt, and the receipt tells what
the driver was asked for and what it completed.

* `execute_truthful`: whatever the driver, the clock and the token do, the receipt of a run is true;
* `execute_unique`, `execute_total`: there is one receipt, and the run comes to it where sleeping
  moves the clock on;
* `receipt_truth`: both, for the Windows and the macOS controller.
-/

namespace MadoPilot.Platform

open MadoPilot.Core MadoPilot.Input MadoPilot.Lib

/-! ### What a true receipt says -/

/-- **A true receipt** of a request, given the driver's calls.  The attempts are the refused routes
in the caller's order and then at most one attempt that may have run; the driver's calls open routes
among the attempts, then submit events on the last of them, then release on it; no event is
submitted twice, and the events that the driver completed are those among the first `submitted`
that are not waits. -/
structure Truthful (request : InputRequest) (receipt : InputReceipt) (calls : List Call) :
    Prop where
  attempts : ∃ (refusals : List (InputDelivery × InputFault)) (terminal : Option InputAttempt),
    receipt.attempts = refusals.map refusal ++ terminal.toList ∧
    (∀ a ∈ terminal, a.outcome ≠ .unexecuted ∧ a.submitted = receipt.submitted) ∧
    (terminal = none → receipt.submitted = 0)
  caller_order : receipt.attempts.map InputAttempt.route <+: request.delivery.routes
  effect_free : ∀ a ∈ receipt.attempts.dropLast, a.possibleNativeEffect = false
  calls_eq : ∃ opened submits releases, calls = opened ++ submits ++ releases ∧
    (∀ call ∈ opened, ∃ a ∈ receipt.attempts, call.opens = some a.route) ∧
    (∀ call ∈ submits, ∃ a, receipt.attempts.getLast? = some a ∧ call.submits = some a.route) ∧
    ∀ call ∈ releases, ∃ a, receipt.attempts.getLast? = some a ∧ call = .release a.route
  submitted_le : receipt.submitted ≤ request.sequence.events.length
  complete : receipt.outcome = .complete → receipt.submitted = request.sequence.events.length
  completed : calls.filterMap Call.completed =
    nativeEvents (request.sequence.events.take receipt.submitted)
  attempted : calls.filterMap Call.attempted <+: nativeEvents request.sequence.events

section Truth

variable {request : InputRequest} {receipt : InputReceipt} {calls : List Call}

lemma filterMap_attempted_eq_nil (h : ∀ call ∈ calls, call.submits = none) :
    calls.filterMap Call.attempted = [] ∧ calls.filterMap Call.completed = [] := by
  have hcase : ∀ call : Call, call.submits = none → call.attempted = none ∧ call.completed = none := by
    intro call hcall
    cases call with
    | submit route event completed => cases hcall
    | preflight route => exact ⟨rfl, rfl⟩
    | beginRoute route => exact ⟨rfl, rfl⟩
    | release route => exact ⟨rfl, rfl⟩
  constructor
  · exact List.filterMap_eq_nil_iff.mpr fun call hcall => (hcase call (h call hcall)).1
  · exact List.filterMap_eq_nil_iff.mpr fun call hcall => (hcase call (h call hcall)).2

lemma submits_of_opens {call : Call} {route : InputDelivery} (h : call.opens = some route) :
    call.submits = none := by
  cases call with
  | submit route event completed => cases h
  | preflight route => rfl
  | beginRoute route => rfl
  | release route => rfl

lemma effect_free_of_refusals (refusals : List (InputDelivery × InputFault))
    (terminal : List InputAttempt) (hterminal : terminal.length ≤ 1) :
    ∀ a ∈ (refusals.map refusal ++ terminal).dropLast, a.possibleNativeEffect = false := by
  intro a ha
  have hmem : a ∈ refusals.map refusal := by
    rcases terminal with _ | ⟨last, _ | ⟨other, rest⟩⟩
    · rw [List.append_nil] at ha
      exact List.dropLast_subset _ ha
    · rw [List.dropLast_concat] at ha
      exact ha
    · simp only [List.length_cons] at hterminal
      omega
  obtain ⟨r, -, rfl⟩ := List.mem_map.mp hmem
  rfl

lemma Truthful.of_refusals {fault : InputFault} {refusals : List (InputDelivery × InputFault)}
    (hroutes : refusals.map Prod.fst <+: request.delivery.routes)
    (hopens : ∀ call ∈ calls, ∃ route ∈ refusals.map Prod.fst, call.opens = some route) :
    Truthful request ((InputReceipt.unexecuted request.target fault).withPriorAttempts
      (refusals.map refusal)) calls := by
  have hattempts : ((InputReceipt.unexecuted request.target fault).withPriorAttempts
      (refusals.map refusal)).attempts = refusals.map refusal := List.append_nil _
  have hopening : ∀ call ∈ calls, call.submits = none := by
    intro call hcall
    obtain ⟨route, -, hroute⟩ := hopens call hcall
    exact submits_of_opens hroute
  have hnone := filterMap_attempted_eq_nil hopening
  constructor
  · exact ⟨refusals, none, rfl, by simp, fun _ => rfl⟩
  · rw [hattempts, map_route_refusal]
    exact hroutes
  · rw [hattempts]
    simpa using effect_free_of_refusals refusals [] (by simp)
  · refine ⟨calls, [], [], by simp, ?_, by simp, by simp⟩
    intro call hcall
    obtain ⟨route, hroute, hopen⟩ := hopens call hcall
    obtain ⟨r, hr, rfl⟩ := List.mem_map.mp hroute
    rw [hattempts]
    exact ⟨refusal r, List.mem_map_of_mem hr, hopen⟩
  · exact Nat.zero_le _
  · intro h
    cases h
  · rw [hnone.2]
    rfl
  · rw [hnone.1]
    exact List.nil_prefix

lemma Truthful.of_route (refusals : List (InputDelivery × InputFault)) {a : InputAttempt}
    {opened submits releases : List Call}
    (hattempts : receipt.attempts = refusals.map refusal ++ [a])
    (ha : (∃ fault, a = .refused a.route fault) ∧ receipt.submitted = 0 ∨
      a.outcome ≠ .unexecuted ∧ a.submitted = receipt.submitted)
    (hroutes : refusals.map Prod.fst ++ [a.route] <+: request.delivery.routes)
    (hopens : ∀ call ∈ opened, ∃ route ∈ refusals.map Prod.fst ++ [a.route],
      call.opens = some route)
    (hsubmits : Submitted a.route request.sequence.events receipt.submitted submits)
    (hreleases : ∀ call ∈ releases, call = .release a.route)
    (hcomplete : receipt.outcome = .complete →
      receipt.submitted = request.sequence.events.length) :
    Truthful request receipt (opened ++ submits ++ releases) := by
  have hmap : receipt.attempts.map InputAttempt.route = refusals.map Prod.fst ++ [a.route] := by
    rw [hattempts, List.map_append, map_route_refusal]
    rfl
  have hlast : receipt.attempts.getLast? = some a := by
    rw [hattempts, List.getLast?_append]
    rfl
  have hopening : ∀ call ∈ opened, call.submits = none := by
    intro call hcall
    obtain ⟨route, -, hroute⟩ := hopens call hcall
    exact submits_of_opens hroute
  have hreleasing : ∀ call ∈ releases, call.submits = none := by
    intro call hcall
    rw [hreleases call hcall]
    rfl
  have hopened := filterMap_attempted_eq_nil hopening
  have hreleased := filterMap_attempted_eq_nil hreleasing
  constructor
  · rcases ha with ⟨⟨fault, hfault⟩, hzero⟩ | hterminal
    · refine ⟨refusals ++ [(a.route, fault)], none, ?_, by simp, fun _ => hzero⟩
      rw [hattempts, List.map_append, Option.toList_none, List.append_nil]
      conv_lhs => rw [hfault]
      rfl
    · refine ⟨refusals, some a, hattempts, ?_, by simp⟩
      intro b hb
      cases hb
      exact hterminal
  · rw [hmap]
    exact hroutes
  · rw [hattempts]
    exact effect_free_of_refusals refusals [a] (by simp)
  · refine ⟨opened, submits, releases, rfl, ?_, ?_, ?_⟩
    · intro call hcall
      obtain ⟨route, hroute, hopen⟩ := hopens call hcall
      rw [← hmap] at hroute
      obtain ⟨b, hb, rfl⟩ := List.mem_map.mp hroute
      exact ⟨b, hb, hopen⟩
    · exact fun call hcall => ⟨a, hlast, hsubmits.on_route call hcall⟩
    · exact fun call hcall => ⟨a, hlast, hreleases call hcall⟩
  · exact hsubmits.count_le
  · exact hcomplete
  · rw [List.filterMap_append, List.filterMap_append, hopened.2, hreleased.2, List.nil_append,
      List.append_nil]
    exact hsubmits.completed
  · rw [List.filterMap_append, List.filterMap_append, hopened.1, hreleased.1, List.nil_append,
      List.append_nil]
    exact hsubmits.attempted

end Truth

/-! ### Every receipt is true -/

section Execute

variable {S X F : Type*} [Failure F] {b : Backend S X F} {log : X → List Call}
  {descriptor : InputDescriptor} {c : Context X} {sleep : ℕ → X → X}
  {gate : X → Except Error Unit × X} {request : InputRequest}

lemma stoppedReceipt_truthful (hlogs : b.Logs log) (stopped : StoppedSubmission F)
    {refusals : List (InputDelivery × InputFault)} {opened submits : List Call} (s : S) (x : X)
    (hprior : stopped.priorAttempts = refusals.map refusal)
    (hroutes : refusals.map Prod.fst ++ [stopped.route] <+: request.delivery.routes)
    (hopens : ∀ call ∈ opened, ∃ route ∈ refusals.map Prod.fst ++ [stopped.route],
      call.opens = some route)
    (hsubmits : Submitted stopped.route request.sequence.events stopped.submitted submits) :
    ∃ releases,
      log (stoppedReceipt request.target (b.runCleanup request) stopped s x).2.2 =
        log x ++ releases ∧
      Truthful request (stoppedReceipt request.target (b.runCleanup request) stopped s x).1
        (opened ++ submits ++ releases) := by
  unfold stoppedReceipt
  by_cases h : stopped.submitted = 0 ∧ Failure.currentEventMayHaveEffect stopped.failure = false
  · rw [if_pos h]
    refine ⟨[], by simp, .of_route refusals
      (a := .refused stopped.route (Failure.fault stopped.failure)) ?_ (Or.inl ⟨⟨_, rfl⟩, rfl⟩) hroutes hopens ?_ (by simp) ?_⟩
    · rw [hprior]
      exact List.append_nil _
    · rw [h.1] at hsubmits
      exact hsubmits
    · intro hcomplete
      cases hcomplete
  · rw [if_neg h]
    obtain ⟨calls, hlog, hcalls⟩ := hlogs.cleanup request
      ((InputReceipt.partialRun request.target stopped.route stopped.evidence stopped.submitted
        (Failure.currentEventMayHaveEffect stopped.failure)
        (Failure.fault stopped.failure)).withPriorAttempts stopped.priorAttempts) stopped s x
    obtain ⟨state, released, owed, hreceipt⟩ := hlogs.receipt request
      ((InputReceipt.partialRun request.target stopped.route stopped.evidence stopped.submitted
        (Failure.currentEventMayHaveEffect stopped.failure)
        (Failure.fault stopped.failure)).withPriorAttempts stopped.priorAttempts) stopped s x
    refine ⟨calls, hlog, ?_⟩
    rw [hreceipt]
    refine .of_route refusals (a := .partialRun stopped.route stopped.evidence stopped.submitted
      (Failure.currentEventMayHaveEffect stopped.failure) (Failure.fault stopped.failure)) ?_ (Or.inr ⟨by simp [InputAttempt.partialRun], rfl⟩) hroutes hopens
      hsubmits hcalls ?_
    · rw [← hprior]
      rfl
    · intro hcomplete
      cases hcomplete

theorem execute_truthful (hlogs : b.Logs log) (hquiet : Quiet log c sleep) {x x₁ y : X}
    (hvalid : descriptor.validate request = .ok ()) (hgate : gate x = (.ok (), x₁)) {fuel : ℕ}
    {r : Except Error InputReceipt}
    (hr : execute b descriptor c sleep gate fuel request x = some (r, y)) :
    ∃ receipt calls, r = .ok receipt ∧ log y = log x₁ ++ calls ∧
      Truthful request receipt calls := by
  unfold execute at hr
  simp only [hvalid, hgate] at hr
  rcases hselect : selectRoute request.target (descriptor.preflightRoute request) (b.probe request)
    (b.stops request) 0 request.delivery.routes [] .routeUnavailable b.initial x₁ with
    ⟨chosen, s, x₂⟩
  obtain ⟨refusals, tried, hprefix, hselected, opened, hlog, hopens⟩ :=
    selectRoute_calls (hlogs.probe request) _ _ _ _ _ _ _ _ hselect
  simp only [hselect] at hr
  cases chosen with
  | error receipt =>
    cases hr
    obtain ⟨⟨fault, rfl⟩, rfl⟩ := hselected
    exact ⟨_, opened, rfl, hlog, .of_refusals hprefix hopens⟩
  | ok chosen =>
    obtain ⟨route, evidence, prior⟩ := chosen
    obtain ⟨hprior, rfl⟩ := hselected
    rw [List.nil_append] at hprior
    simp only at hr
    rcases hsubmit : submitEvents c sleep (b.submit request route) fuel request.sequence.events 0 s
      x₂ with _ | ⟨⟨m, f⟩, s₁, x₃⟩
    · simp only [hsubmit] at hr
      cases hr
    obtain ⟨k, submits, hm, hlog', hsubmits, hall⟩ :=
      submitEvents_calls hquiet (hlogs.submit request route) _ _ _ _ _ _ _ hsubmit
    obtain rfl : m = k := by omega
    simp only [hsubmit] at hr
    cases f with
    | some failure =>
      obtain ⟨releases, hlog'', htruth⟩ := stoppedReceipt_truthful hlogs
        ⟨route, evidence, prior, m, failure⟩ s₁ x₃ hprior hprefix hopens hsubmits
      cases hr
      refine ⟨_, opened ++ submits ++ releases, rfl, ?_, htruth⟩
      rw [hlog'', hlog', hlog, List.append_assoc, List.append_assoc, List.append_assoc]
    | none =>
      cases hr
      refine ⟨_, opened ++ submits ++ [], rfl, ?_, .of_route refusals
        (a := .complete route evidence m) ?_ (Or.inr ⟨by simp [InputAttempt.complete], rfl⟩) hprefix
        hopens hsubmits (by simp) fun _ => hall rfl⟩
      · rw [hlog', hlog, List.append_nil, List.append_assoc]
      · rw [← hprior]
        rfl

end Execute

/-! ### There is one receipt -/

section Fuel

variable {S X F : Type*} [Failure F] {c : Context X} {sleep : ℕ → X → X}
  {submit : InputEvent → S → X → Except F Unit × S × X}

lemma waitUntil_mono {finish fuel fuel' : ℕ} (hle : fuel ≤ fuel') (x : X)
    {r : Except InputFault Unit × X} (h : waitUntil c sleep finish fuel x = some r) :
    waitUntil c sleep finish fuel' x = some r := by
  induction fuel generalizing fuel' x with
  | zero => cases h
  | succ fuel ih =>
    obtain ⟨fuel', rfl⟩ : ∃ n, fuel' = n + 1 := ⟨fuel' - 1, by omega⟩
    rcases hx : c.interruption x with ⟨i, x₁⟩
    cases i with
    | some i =>
      rw [waitUntil_interrupted hx] at h ⊢
      exact h
    | none =>
      rcases hx₁ : c.now x₁ with ⟨now, x₂⟩
      rw [waitUntil_read hx hx₁] at h ⊢
      by_cases hfinish : finish ≤ now
      · rw [if_pos hfinish] at h ⊢
        exact h
      · rw [if_neg hfinish] at h ⊢
        exact ih (by omega) _ h

lemma waitDelay_mono {delay fuel fuel' : ℕ} (hle : fuel ≤ fuel') (x : X)
    {r : Except InputFault Unit × X} (h : waitDelay c sleep fuel delay x = some r) :
    waitDelay c sleep fuel' delay x = some r := by
  rcases hx : c.interruption x with ⟨i, x₁⟩
  cases i with
  | some i =>
    rw [waitDelay_interrupted hx] at h ⊢
    exact h
  | none =>
    rcases hx₁ : c.now x₁ with ⟨now, x₂⟩
    rw [waitDelay_read hx hx₁] at h ⊢
    cases hadd : instantAdd now delay with
    | none =>
      rw [hadd] at h
      exact h
    | some finish =>
      rw [hadd] at h
      exact waitUntil_mono hle x₂ h

lemma submitEvent_mono {fuel fuel' : ℕ} (hle : fuel ≤ fuel') (event : InputEvent) (s : S) (x : X)
    {r : Except F Unit × S × X} (h : submitEvent c sleep submit fuel event s x = some r) :
    submitEvent c sleep submit fuel' event s x = some r := by
  cases event with
  | delay delay =>
    simp only [submitEvent, Option.map_eq_some_iff] at h ⊢
    obtain ⟨a, ha, hr⟩ := h
    exact ⟨a, waitDelay_mono hle x ha, hr⟩
  | _ => exact h

lemma submitEvents_mono {fuel fuel' : ℕ} (hle : fuel ≤ fuel') (events : List InputEvent) (n : ℕ)
    (s : S) (x : X) {r : (ℕ × Option F) × S × X}
    (h : submitEvents c sleep submit fuel events n s x = some r) :
    submitEvents c sleep submit fuel' events n s x = some r := by
  induction events generalizing n s x with
  | nil => exact h
  | cons event events ih =>
    unfold submitEvents at h ⊢
    rcases hevent : submitEvent c sleep submit fuel event s x with _ | ⟨r', s₁, x₁⟩
    · rw [hevent] at h
      cases h
    rw [hevent] at h
    rw [submitEvent_mono hle event s x hevent]
    cases r' with
    | error failure => exact h
    | ok u => exact ih (n + 1) s₁ x₁ h

variable {b : Backend S X F} {descriptor : InputDescriptor} {gate : X → Except Error Unit × X}
  {request : InputRequest}

theorem execute_mono {fuel fuel' : ℕ} (hle : fuel ≤ fuel') {x : X}
    {r : Except Error InputReceipt × X}
    (hr : execute b descriptor c sleep gate fuel request x = some r) :
    execute b descriptor c sleep gate fuel' request x = some r := by
  unfold execute at hr ⊢
  cases hvalid : descriptor.validate request with
  | error fault =>
    rw [hvalid] at hr
    exact hr
  | ok u =>
    simp only [hvalid] at hr ⊢
    rcases hgate : gate x with ⟨g, x₁⟩
    simp only [hgate] at hr ⊢
    cases g with
    | error error => exact hr
    | ok u =>
      simp only at hr ⊢
      rcases hselect : selectRoute request.target (descriptor.preflightRoute request)
        (b.probe request) (b.stops request) 0 request.delivery.routes [] .routeUnavailable b.initial
        x₁ with ⟨chosen, s, x₂⟩
      simp only [hselect] at hr ⊢
      cases chosen with
      | error receipt => exact hr
      | ok chosen =>
        obtain ⟨route, evidence, prior⟩ := chosen
        simp only at hr ⊢
        rcases hsubmit : submitEvents c sleep (b.submit request route) fuel request.sequence.events
          0 s x₂ with _ | r'
        · simp only [hsubmit] at hr
          cases hr
        · rw [submitEvents_mono hle _ 0 s x₂ hsubmit]
          rw [hsubmit] at hr
          exact hr

theorem execute_unique {fuel fuel' : ℕ} {x : X} {r r' : Except Error InputReceipt × X}
    (hr : execute b descriptor c sleep gate fuel request x = some r)
    (hr' : execute b descriptor c sleep gate fuel' request x = some r') : r = r' := by
  have h := execute_mono (Nat.le_max_left fuel fuel') hr
  rw [execute_mono (Nat.le_max_right fuel fuel') hr'] at h
  exact (Option.some.inj h).symm

/-- A clock that sleeping moves on: its readings keep up with `time`, which never goes back. -/
structure Advancing (c : Context X) (sleep : ℕ → X → X) (time : X → ℕ) : Prop where
  cancelled : ∀ x, time x ≤ time (c.cancelled x).2
  now : ∀ x, time x ≤ time (c.now x).2
  reading : ∀ x, time x ≤ (c.now x).1
  sleep : ∀ duration x, time x + duration ≤ time (sleep duration x)

variable {time : X → ℕ}

lemma Advancing.interruption (h : Advancing c sleep time) (x : X) :
    time x ≤ time (c.interruption x).2 := by
  have hcancelled := h.cancelled x
  unfold Context.interruption
  rcases hx : c.cancelled x with ⟨i, y⟩
  rw [hx] at hcancelled
  cases i with
  | true => exact hcancelled
  | false =>
    simp only at hcancelled ⊢
    cases c.deadline with
    | none => exact hcancelled
    | some deadline => exact hcancelled.trans (h.now y)

lemma Advancing.waitUntil_total (h : Advancing c sleep time) (finish : ℕ) (x : X) :
    ∃ fuel r, waitUntil c sleep finish fuel x = some r := by
  -- each round of the loop leaves less of the wait, by the time that it slept
  induction hk : finish - time x using Nat.strong_induction_on generalizing x with
  | _ k ih =>
    have hi := h.interruption x
    rcases hx : c.interruption x with ⟨i, x₁⟩
    rw [hx] at hi
    cases i with
    | some i => exact ⟨1, _, waitUntil_interrupted hx⟩
    | none =>
      have hn := h.now x₁
      have hread := h.reading x₁
      rcases hx₁ : c.now x₁ with ⟨now, x₂⟩
      rw [hx₁] at hn hread
      simp only at hi hn hread
      by_cases hfinish : finish ≤ now
      · rcases hx₂ : c.interruption x₂ with ⟨i, x₃⟩
        cases i with
        | some i =>
          refine ⟨1, (.error (.ofInterruption i), x₃), ?_⟩
          rw [waitUntil_read hx hx₁, if_pos hfinish, hx₂]
        | none =>
          refine ⟨1, (.ok (), x₃), ?_⟩
          rw [waitUntil_read hx hx₁, if_pos hfinish, hx₂]
      · have hslept := h.sleep (min (finish - now) delayPollInterval) x₂
        have hpositive : 0 < min (finish - now) delayPollInterval := by
          unfold delayPollInterval
          omega
        obtain ⟨fuel, r, hr⟩ := ih
          (finish - time (sleep (min (finish - now) delayPollInterval) x₂)) (by omega) _ rfl
        refine ⟨fuel + 1, r, ?_⟩
        rw [waitUntil_read hx hx₁, if_neg hfinish]
        exact hr

lemma Advancing.waitDelay_total (h : Advancing c sleep time) (delay : ℕ) (x : X) :
    ∃ fuel r, waitDelay c sleep fuel delay x = some r := by
  rcases hx : c.interruption x with ⟨i, x₁⟩
  cases i with
  | some i => exact ⟨0, _, waitDelay_interrupted hx⟩
  | none =>
    rcases hx₁ : c.now x₁ with ⟨now, x₂⟩
    cases hadd : instantAdd now delay with
    | none => exact ⟨0, (.error .deadlineExceeded, x₂), by rw [waitDelay_read hx hx₁, hadd]⟩
    | some finish =>
      obtain ⟨fuel, r, hr⟩ := h.waitUntil_total finish x₂
      exact ⟨fuel, r, by rw [waitDelay_read hx hx₁, hadd]; exact hr⟩

lemma Advancing.submitEvent_total (h : Advancing c sleep time) (event : InputEvent) (s : S) (x : X) :
    ∃ fuel r, submitEvent c sleep submit fuel event s x = some r := by
  cases hdelay : event.isDelay with
  | true =>
    cases event with
    | delay delay =>
      obtain ⟨fuel, r, hr⟩ := h.waitDelay_total delay x
      exact ⟨fuel, (r.1.mapError Failure.beforeEvent, s, r.2), by
        simp only [submitEvent, hr, Option.map_some]⟩
    | _ => cases hdelay
  | false =>
    rcases hx : c.interruption x with ⟨i, x₁⟩
    cases i with
    | some i => exact ⟨0, _, submitEvent_interrupted hdelay hx⟩
    | none => exact ⟨0, _, submitEvent_native hdelay hx⟩

lemma Advancing.submitEvents_total (h : Advancing c sleep time) (events : List InputEvent) (n : ℕ)
    (s : S) (x : X) : ∃ fuel r, submitEvents c sleep submit fuel events n s x = some r := by
  induction events generalizing n s x with
  | nil => exact ⟨0, _, rfl⟩
  | cons event events ih =>
    have hnext : ∃ fuel r, submitEvent c sleep submit fuel event s x = some r :=
      h.submitEvent_total event s x
    obtain ⟨fuel, ⟨r, s₁, x₁⟩, hevent⟩ := hnext
    cases r with
    | error failure =>
      refine ⟨fuel, ((n, some failure), s₁, x₁), ?_⟩
      rw [submitEvents, hevent]
    | ok u =>
      obtain ⟨fuel', r, hrest⟩ := ih (n + 1) s₁ x₁
      refine ⟨max fuel fuel', r, ?_⟩
      rw [submitEvents, submitEvent_mono (Nat.le_max_left fuel fuel') event s x hevent]
      exact submitEvents_mono (Nat.le_max_right fuel fuel') events (n + 1) s₁ x₁ hrest

theorem Advancing.execute_total (h : Advancing c sleep time) (x : X) :
    ∃ fuel r, execute b descriptor c sleep gate fuel request x = some r := by
  unfold execute
  cases hvalid : descriptor.validate request with
  | error fault => exact ⟨0, _, rfl⟩
  | ok u =>
    rcases gate x with ⟨g, x₁⟩
    cases g with
    | error error => exact ⟨0, _, rfl⟩
    | ok u =>
      rcases hselect : selectRoute request.target (descriptor.preflightRoute request)
        (b.probe request) (b.stops request) 0 request.delivery.routes [] .routeUnavailable b.initial
        x₁ with ⟨chosen, s, x₂⟩
      simp only [hselect]
      cases chosen with
      | error receipt => exact ⟨0, _, rfl⟩
      | ok chosen =>
        obtain ⟨route, evidence, prior⟩ := chosen
        have hevents : ∃ fuel r, submitEvents c sleep (b.submit request route) fuel
            request.sequence.events 0 s x₂ = some r :=
          h.submitEvents_total request.sequence.events 0 s x₂
        obtain ⟨fuel, ⟨⟨m, f⟩, s₁, x₃⟩, hr⟩ := hevents
        refine ⟨fuel, ?_⟩
        simp only [hr]
        cases f with
        | some failure => exact ⟨_, rfl⟩
        | none => exact ⟨_, rfl⟩

end Fuel

/-! ### Both controllers -/

section Platforms

variable {E : Type*}

/-- The runs of an execute loop return one receipt, and it is true. -/
structure ReturnsOneTruthfulReceipt (request : InputRequest)
    (run : ℕ → Option (Except Error InputReceipt × (E × List Call))) (waitsEnd : Prop) : Prop where
  truthful : ∀ fuel r x, run fuel = some (r, x) →
    ∃ receipt, r = .ok receipt ∧ Truthful request receipt x.2
  unique : ∀ fuel fuel' r r', run fuel = some r → run fuel' = some r' → r = r'
  returns : waitsEnd → ∃ fuel r, run fuel = some r

def recordedGate (gate : E → Except Error Unit × E) (x : E × List Call) :
    Except Error Unit × (E × List Call) :=
  match gate x.1 with
  | (result, e) => (result, (e, x.2))

def recordedSleep (sleep : ℕ → E → E) (duration : ℕ) (x : E × List Call) : E × List Call :=
  (sleep duration x.1, x.2)

lemma Advancing.recorded {c : Context E} {sleep : ℕ → E → E} {time : E → ℕ}
    (h : Advancing c sleep time) :
    Advancing (recordedContext c) (recordedSleep sleep) (fun x => time x.1) :=
  ⟨fun x => h.cancelled x.1, fun x => h.now x.1, fun x => h.reading x.1,
    fun duration x => h.sleep duration x.1⟩

lemma execute_returns {S F : Type*} [Failure F] {b : Backend S (E × List Call) F}
    (hlogs : b.Logs Prod.snd) {descriptor : InputDescriptor} {c : Context E} {sleep : ℕ → E → E}
    {gate : E → Except Error Unit × E} {request : InputRequest} {e e₁ : E}
    (hvalid : descriptor.validate request = .ok ()) (hgate : gate e = (.ok (), e₁)) :
    ReturnsOneTruthfulReceipt request
      (fun fuel => execute b descriptor (recordedContext c) (recordedSleep sleep)
        (recordedGate gate) fuel request (e, []))
      (∃ time, Advancing c sleep time) where
  truthful fuel r x hr := by
    have hgate' : recordedGate gate (e, []) = (.ok (), (e₁, [])) := by
      unfold recordedGate
      rw [hgate]
    obtain ⟨receipt, calls, hreceipt, hlog, htruth⟩ :=
      execute_truthful hlogs (recordedContext_quiet c sleep) hvalid hgate' hr
    rw [List.nil_append] at hlog
    exact ⟨receipt, hreceipt, hlog ▸ htruth⟩
  unique _ _ _ _ hr hr' := execute_unique hr hr'
  returns := by
    rintro ⟨time, h⟩
    exact h.recorded.execute_total (e, [])

/-- **Receipt truth.**  On every request that is valid and admitted, against every driver, clock and
token, the Windows and the macOS controller each return one receipt, and it is true. -/
theorem receipt_truth (w : Windows.InputDriver E) (m : Macos.InputDriver E) (c : Context E)
    (sleep : ℕ → E → E) (gate : E → Except Error Unit × E) (descriptor : InputDescriptor)
    (request : InputRequest) (e e₁ : E) (hvalid : descriptor.validate request = .ok ())
    (hgate : gate e = (.ok (), e₁)) :
    ReturnsOneTruthfulReceipt request
      (fun fuel => Windows.execute w.recorded (recordedContext c) descriptor (recordedSleep sleep)
        (recordedGate gate) fuel request (e, []))
      (∃ time, Advancing c sleep time) ∧
    ReturnsOneTruthfulReceipt request
      (fun fuel => Macos.execute m.recorded (recordedContext c) descriptor (recordedSleep sleep)
        (recordedGate gate) fuel request (e, []))
      (∃ time, Advancing c sleep time) :=
  ⟨execute_returns (Windows.recorded_logs w c) hvalid hgate,
    execute_returns (Macos.recorded_logs m c) hvalid hgate⟩

end Platforms

/-! ### A key press, a wait and a key release -/

/-- Shift down, one nanosecond, Shift up, on the system route or else the process route. -/
def tapRequest : InputRequest where
  target := ⟨firstOrdinal, "windows", firstOrdinal⟩
  sequence := ⟨[.keyPress (.modifier .shift), .delay 1, .keyRelease (.modifier .shift)], by decide,
    by decide, by decide⟩
  delivery := ⟨[.system, .processDirected], by decide, by decide⟩
  focus := .preserve
  pointerGeometry := ⟨.reprojectCurrent, none⟩
  cleanup := .contract

def tapDescriptor : InputDescriptor where
  target := tapRequest.target
  capability := (InputCapability.none.withPair .keyboard .system .supported
    .systemInputAdmission).withPair .keyboard .processDirected .supported .targetQueueAdmission
  maxEvents := Input.maxEvents

def sleepClock : Context ℕ := ⟨fun e => (false, e), none, fun e => (e, e)⟩

lemma sleepClock_advancing : Advancing sleepClock (fun duration e => e + duration) id :=
  ⟨fun _ => Nat.le_refl _, fun _ => Nat.le_refl _, fun _ => Nat.le_refl _, fun _ _ => Nat.le_refl _⟩

def tapWindows : Windows.InputDriver ℕ where
  preflight route _ e := (if route = .system then .error .policyRefused else .ok (), e)
  submit _ _ _ _ s e := (.ok (), s, e)
  release _ _ s e := (.ok (), s, e)

def tapMacos : Macos.InputDriver ℕ where
  preflight _ _ _ e := (.ok (), e)
  beginRoute _ s e := (.ok (), s, e)
  submit _ _ _ _ s e := (.ok (), s, e)
  release _ _ s e := (.ok (), s, e)
  releasePending _ s e := (.ok true, s, e)

/-- `receipt_truth` on both drivers: both come to a true receipt. -/
theorem receipt_truth_sample :
    (∃ fuel receipt x, Windows.execute tapWindows.recorded (recordedContext sleepClock) tapDescriptor
      (recordedSleep fun duration e => e + duration) (recordedGate fun e => (.ok (), e)) fuel
      tapRequest (0, []) = some (.ok receipt, x) ∧ Truthful tapRequest receipt x.2) ∧
    ∃ fuel receipt x, Macos.execute tapMacos.recorded (recordedContext sleepClock) tapDescriptor
      (recordedSleep fun duration e => e + duration) (recordedGate fun e => (.ok (), e)) fuel
      tapRequest (0, []) = some (.ok receipt, x) ∧ Truthful tapRequest receipt x.2 := by
  have h := receipt_truth tapWindows tapMacos sleepClock (fun duration e => e + duration)
    (fun e => (.ok (), e)) tapDescriptor tapRequest 0 0 rfl rfl
  constructor
  · obtain ⟨fuel, ⟨r, x⟩, hr⟩ := h.1.returns ⟨id, sleepClock_advancing⟩
    obtain ⟨receipt, rfl, htruth⟩ := h.1.truthful fuel r x hr
    exact ⟨fuel, receipt, x, hr, htruth⟩
  · obtain ⟨fuel, ⟨r, x⟩, hr⟩ := h.2.returns ⟨id, sleepClock_advancing⟩
    obtain ⟨receipt, rfl, htruth⟩ := h.2.truthful fuel r x hr
    exact ⟨fuel, receipt, x, hr, htruth⟩

/-- **A wait is submitted without the driver**: three events are submitted, and the driver completed
two. -/
theorem wait_counts_as_submitted :
    ∃ receipt x, Windows.execute tapWindows.recorded (recordedContext sleepClock) tapDescriptor
      (recordedSleep fun duration e => e + duration) (recordedGate fun e => (.ok (), e)) 2
      tapRequest (0, []) = some (.ok receipt, x) ∧
      receipt.submitted = 3 ∧ (x.2.filterMap Call.completed).length = 2 :=
  ⟨_, _, rfl, rfl, rfl⟩

end MadoPilot.Platform
