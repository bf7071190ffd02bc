import MadoPilot.Platform.ReceiptTruth

/-!
# What a receipt says about native effect

A driver that notes every event that reaches it, with whether it completed the event or cannot rule
out that the event had effect.  A receipt tells the effect truly when it is unexecuted exactly if no
noted event had one, and reports a possible native effect exactly if some noted event had.

* `Noted.accounts`: a receipt counts the completed events, waits among them, and the failure's own
  doubt;
* `effect_told_iff`: so the receipt of a run, on either platform, tells the truth exactly when no wait
  at the beginning runs out, or the native event after the waits has an effect, or may have had one;
* `waited_then_refused`: a wait and a refused key press are reported as a partial run.
-/

namespace MadoPilot.Platform

open MadoPilot.Core MadoPilot.Input MadoPilot.Lib

/-- An event that reached the driver, and whether the driver's answer leaves an effect possible. -/
structure Reached where
  event : InputEvent
  effect : Bool

/-- A completed event had effect; a failed one as its failure says. -/
def answerEffect {F : Type*} [Failure F] : Except F Unit → Bool
  | .ok () => true
  | .error failure => Failure.currentEventMayHaveEffect failure

/-- **A receipt tells the native effect** of the events that reached the driver. -/
structure TellsEffect (receipt : InputReceipt) (reached : List Reached) : Prop where
  unexecuted : receipt.outcome = .unexecuted ↔ ∀ a ∈ reached, a.effect = false
  possible : receipt.possibleNativeEffect = true ↔ ∃ a ∈ reached, a.effect = true

lemma possibleNativeEffect_iff (receipt : InputReceipt) :
    receipt.possibleNativeEffect = true ↔
      receipt.submitted ≠ 0 ∨ receipt.partialNativeEffect = true := by
  unfold InputReceipt.possibleNativeEffect
  rw [Bool.or_eq_true, decide_eq_true_iff]

/-! ### The events that reach the driver -/

section Submit

variable {S X F : Type*} [Failure F] {notes : X → List Reached} {c : Context X}
  {sleep : ℕ → X → X} {submit : InputEvent → S → X → Except F Unit × S × X}

def Noting (notes : X → List Reached) (submit : InputEvent → S → X → Except F Unit × S × X) :
    Prop :=
  ∀ event s x, notes (submit event s x).2.2 =
    notes x ++ [⟨event, answerEffect (submit event s x).1⟩]

/-- What is noted of some events when `k` of them were completed and `f` stopped the rest. -/
structure Noted (events : List InputEvent) (k : ℕ) (f : Option F) (noted : List Reached) : Prop where
  count_le : k ≤ events.length
  all : f = none → k = events.length
  effect : (∃ a ∈ noted, a.effect = true) ↔
    (∃ event ∈ events.take k, event.isDelay = false) ∨
      ∃ failure ∈ f, Failure.currentEventMayHaveEffect failure = true

lemma submitEvent_notes (hquiet : Quiet notes c sleep) (hnoting : Noting notes submit) (fuel : ℕ)
    (event : InputEvent) (s s' : S) (x y : X) {r : Except F Unit}
    (hr : submitEvent c sleep submit fuel event s x = some (r, s', y)) :
    ∃ noted, notes y = notes x ++ noted ∧
      ((∃ a ∈ noted, a.effect = true) ↔
        answerEffect r = true ∧ (r.isOk = true → event.isDelay = false)) := by
  cases hdelay : event.isDelay with
  | true =>
    cases event with
    | delay delay =>
      simp only [submitEvent, Option.map_eq_some_iff] at hr
      obtain ⟨⟨r', z⟩, hw, heq⟩ := hr
      cases heq
      refine ⟨[], by simpa using hquiet.waitDelay fuel delay x hw, ?_⟩
      cases r' with
      | ok u => simp [Except.mapError, Except.isOk, Except.toBool]
      | error fault => simp [Except.mapError, answerEffect, Failure.beforeEvent_effect]
    | _ => cases hdelay
  | false =>
    have hi := hquiet.interruption x
    rcases hx : c.interruption x with ⟨i, x₁⟩
    rw [hx] at hi
    cases i with
    | some i =>
      rw [submitEvent_interrupted hdelay hx] at hr
      cases hr
      refine ⟨[], by simpa using hi, ?_⟩
      simp [answerEffect, Failure.beforeEvent_effect]
    | none =>
      rw [submitEvent_native hdelay hx, Option.some.injEq] at hr
      have hs := hnoting event s x₁
      have hi' : notes x₁ = notes x := hi
      rw [hr, hi'] at hs
      exact ⟨_, hs, by simp⟩

theorem submitEvents_notes (hquiet : Quiet notes c sleep) (hnoting : Noting notes submit) (fuel : ℕ)
    (events : List InputEvent) (n : ℕ) (s s' : S) (x y : X) {m : ℕ} {f : Option F}
    (hr : submitEvents c sleep submit fuel events n s x = some ((m, f), s', y)) :
    ∃ k noted, m = n + k ∧ notes y = notes x ++ noted ∧ Noted events k f noted := by
  induction events generalizing n s x with
  | nil =>
    cases hr
    exact ⟨0, [], rfl, by simp, ⟨Nat.le_refl 0, fun _ => rfl, by simp⟩⟩
  | cons event events ih =>
    unfold submitEvents at hr
    rcases hevent : submitEvent c sleep submit fuel event s x with _ | ⟨r, s₁, x₁⟩
    · rw [hevent] at hr
      cases hr
    rw [hevent] at hr
    obtain ⟨noted, hnotes, heffect⟩ :=
      submitEvent_notes hquiet hnoting fuel event s s₁ x x₁ hevent
    cases r with
    | error failure =>
      cases hr
      refine ⟨0, noted, rfl, hnotes, ⟨Nat.zero_le _, by simp, ?_⟩⟩
      rw [heffect]
      simp [answerEffect, Except.isOk, Except.toBool]
    | ok u =>
      obtain ⟨k, noted', hm, hnotes', hrest⟩ := ih (n + 1) s₁ x₁ hr
      refine ⟨k + 1, noted ++ noted', by omega, by rw [hnotes', hnotes, List.append_assoc],
        ⟨?_, ?_, ?_⟩⟩
      · have := hrest.count_le
        rw [List.length_cons]
        omega
      · intro hf
        rw [hrest.all hf, List.length_cons]
      · have hfirst : (∃ a ∈ noted, a.effect = true) ↔ event.isDelay = false := by
          rw [heffect]
          simp [answerEffect, Except.isOk, Except.toBool]
        have hsplit : (∃ a ∈ noted ++ noted', a.effect = true) ↔
            (∃ a ∈ noted, a.effect = true) ∨ ∃ a ∈ noted', a.effect = true := by
          simp only [List.mem_append, or_and_right, exists_or]
        rw [hsplit, hfirst, hrest.effect, List.take_succ_cons, List.exists_mem_cons_iff, or_assoc]

end Submit

/-! ### What follows the waits -/

section Follows

variable {S X F : Type*} [Failure F]

/-- The wait comes to its end: neither the token nor the deadline cuts it short. -/
def WaitsOut (c : Context X) (sleep : ℕ → X → X) (delay : ℕ) (x x' : X) : Prop :=
  ∃ fuel, waitDelay c sleep fuel delay x = some (.ok (), x')

/-- The waits before the first native event come to their ends, and that event reaches the driver,
which completes it or cannot rule out that it had effect. -/
inductive TakesEffect (c : Context X) (sleep : ℕ → X → X)
    (submit : InputEvent → S → X → Except F Unit × S × X) : List InputEvent → S → X → Prop
  | wait {delay : ℕ} {events : List InputEvent} {s : S} {x x' : X} : WaitsOut c sleep delay x x' →
      TakesEffect c sleep submit events s x' → TakesEffect c sleep submit (.delay delay :: events) s x
  | native {event : InputEvent} {events : List InputEvent} {s : S} {x x' : X} : event.isDelay = false →
      c.interruption x = (none, x') → answerEffect (submit event s x').1 = true →
      TakesEffect c sleep submit (event :: events) s x

def WaitsFirst (c : Context X) (sleep : ℕ → X → X) (events : List InputEvent) (x : X) : Prop :=
  ∃ delay rest x', events = .delay delay :: rest ∧ WaitsOut c sleep delay x x'

/-- The driver opens a route of the plan, after refusals that leave the later routes open. -/
inductive Opens (b : Backend S X F) (descriptor : InputDescriptor) (request : InputRequest) :
    ℕ → List InputDelivery → S → X → InputDelivery → S → X → Prop
  | opens {index : ℕ} {route : InputDelivery} {routes : List InputDelivery}
      {evidence : SubmissionEvidence} {s s' : S} {x x' : X} :
      descriptor.preflightRoute request route = .ok evidence →
      b.probe request index route s x = (.ok (), s', x') →
      Opens b descriptor request index (route :: routes) s x route s' x'
  | unfit {index : ℕ} {route chosen : InputDelivery} {routes : List InputDelivery} {fault : InputFault}
      {s s' : S} {x x' : X} : descriptor.preflightRoute request route = .error fault →
      Opens b descriptor request (index + 1) routes s x chosen s' x' →
      Opens b descriptor request index (route :: routes) s x chosen s' x'
  | refused {index : ℕ} {route chosen : InputDelivery} {routes : List InputDelivery}
      {evidence : SubmissionEvidence} {fault : InputFault} {s s₁ s' : S} {x x₁ x' : X} :
      descriptor.preflightRoute request route = .ok evidence →
      b.probe request index route s x = (.error fault, s₁, x₁) →
      b.stops request index route fault = false →
      Opens b descriptor request (index + 1) routes s₁ x₁ chosen s' x' →
      Opens b descriptor request index (route :: routes) s x chosen s' x'

/-- **What follows the waits has an effect.**  If the gate lets the request in, the driver opens a route
and a wait at the beginning of the sequence comes to its end, then so do the waits after it, and the
first native event is completed or may have had effect. -/
def EffectFollows (b : Backend S X F) (descriptor : InputDescriptor) (c : Context X)
    (sleep : ℕ → X → X) (gate : X → Except Error Unit × X) (request : InputRequest) (x : X) : Prop :=
  ∀ x₁ route s x₂, gate x = (.ok (), x₁) →
    Opens b descriptor request 0 request.delivery.routes b.initial x₁ route s x₂ →
    WaitsFirst c sleep request.sequence.events x₂ →
    TakesEffect c sleep (b.submit request route) request.sequence.events s x₂

variable {c : Context X} {sleep : ℕ → X → X} {submit : InputEvent → S → X → Except F Unit × S × X}

lemma WaitsOut.unique {delay fuel : ℕ} {x x' y : X} {r : Except InputFault Unit}
    (h : WaitsOut c sleep delay x x') (hw : waitDelay c sleep fuel delay x = some (r, y)) :
    r = .ok () ∧ y = x' := by
  obtain ⟨fuel', hfuel'⟩ := h
  have h₁ := waitDelay_mono (Nat.le_max_left fuel fuel') x hw
  have h₂ := waitDelay_mono (Nat.le_max_right fuel fuel') x hfuel'
  obtain ⟨rfl, rfl⟩ := Prod.mk.inj (Option.some.inj (h₁.symm.trans h₂))
  exact ⟨rfl, rfl⟩

/-- A wait takes the time to its end, or nothing follows it. -/
lemma takesEffect_wait {delay fuel : ℕ} {events : List InputEvent} {s : S} {x y : X}
    {r : Except InputFault Unit} (hw : waitDelay c sleep fuel delay x = some (r, y)) :
    TakesEffect c sleep submit (.delay delay :: events) s x ↔
      r = .ok () ∧ TakesEffect c sleep submit events s y := by
  constructor
  · rintro (⟨hout, htakes⟩ | ⟨hnative, -, -⟩)
    · obtain ⟨rfl, rfl⟩ := hout.unique hw
      exact ⟨rfl, htakes⟩
    · cases hnative
  · rintro ⟨rfl, htakes⟩
    exact .wait ⟨fuel, hw⟩ htakes

lemma waitsFirst_wait {delay fuel : ℕ} {events : List InputEvent} {x y : X}
    {r : Except InputFault Unit} (hw : waitDelay c sleep fuel delay x = some (r, y)) :
    WaitsFirst c sleep (.delay delay :: events) x ↔ r = .ok () := by
  constructor
  · rintro ⟨_, _, x', hevents, hout⟩
    cases hevents
    exact (hout.unique hw).1
  · rintro rfl
    exact ⟨delay, events, y, rfl, fuel, hw⟩

/-- A native event decides, unless the context is interrupted before it. -/
lemma takesEffect_native {event : InputEvent} {events : List InputEvent} {s : S} {x y : X}
    {i : Option Interruption} (hdelay : event.isDelay = false) (hx : c.interruption x = (i, y)) :
    TakesEffect c sleep submit (event :: events) s x ↔
      i = none ∧ answerEffect (submit event s y).1 = true := by
  constructor
  · rintro (⟨hout, -⟩ | ⟨-, hfree, heffect⟩)
    · cases hdelay
    · obtain ⟨rfl, rfl⟩ := Prod.mk.inj (hx.symm.trans hfree)
      exact ⟨rfl, heffect⟩
  · rintro ⟨rfl, heffect⟩
    exact .native hdelay hx heffect

lemma not_waitsFirst_native {event : InputEvent} {events : List InputEvent} {x : X}
    (hdelay : event.isDelay = false) : ¬ WaitsFirst c sleep (event :: events) x := by
  rintro ⟨delay, rest, x', hevents, -⟩
  cases hevents
  cases hdelay

theorem submitEvents_follows (fuel : ℕ) (events : List InputEvent) (n : ℕ) (s s' : S) (x y : X)
    {m : ℕ} {f : Option F}
    (hr : submitEvents c sleep submit fuel events n s x = some ((m, f), s', y)) :
    ∃ k, m = n + k ∧
      (TakesEffect c sleep submit events s x ↔ (∃ event ∈ events.take k, event.isDelay = false) ∨
        ∃ failure ∈ f, Failure.currentEventMayHaveEffect failure = true) ∧
      (WaitsFirst c sleep events x ↔ k ≠ 0 ∧ ∃ delay rest, events = .delay delay :: rest) := by
  induction events generalizing n s x with
  | nil =>
    cases hr
    refine ⟨0, rfl, iff_of_false (fun h => by cases h) (by simp), iff_of_false ?_ fun h => h.1 rfl⟩
    rintro ⟨delay, rest, x', hevents, -⟩
    cases hevents
  | cons event events ih =>
    unfold submitEvents at hr
    cases hdelay : event.isDelay with
    | true =>
      cases event with
      | delay delay =>
        unfold submitEvent at hr
        rcases hw : waitDelay c sleep fuel delay x with _ | ⟨r, x₁⟩
        · simp only [hw, Option.map_none] at hr
          cases hr
        simp only [hw, Option.map_some] at hr
        rw [takesEffect_wait hw, waitsFirst_wait hw]
        cases r with
        | error fault =>
          cases hr
          refine ⟨0, rfl, iff_of_false ?_ (by simp [Failure.beforeEvent_effect]),
            iff_of_false ?_ fun h => h.1 rfl⟩
          · rintro ⟨hok, -⟩
            cases hok
          · rintro ⟨⟩
        | ok u =>
          obtain ⟨k, hm, heffect, -⟩ := ih (n + 1) s x₁ hr
          refine ⟨k + 1, by omega, ?_, iff_of_true rfl ⟨Nat.succ_ne_zero k, delay, events, rfl⟩⟩
          rw [heffect, List.take_succ_cons, List.exists_mem_cons_iff, hdelay]
          simp
      | _ => cases hdelay
    | false =>
      have hwaits (k : ℕ) : (WaitsFirst c sleep (event :: events) x ↔
          k ≠ 0 ∧ ∃ delay rest, event :: events = .delay delay :: rest) := by
        refine iff_of_false (not_waitsFirst_native hdelay) ?_
        rintro ⟨-, delay, rest, hevents⟩
        cases hevents
        cases hdelay
      rcases hx : c.interruption x with ⟨i, x₁⟩
      rw [takesEffect_native hdelay hx]
      cases i with
      | some i =>
        rw [submitEvent_interrupted hdelay hx] at hr
        cases hr
        refine ⟨0, rfl, iff_of_false ?_ (by simp [Failure.beforeEvent_effect]), hwaits 0⟩
        rintro ⟨hnone, -⟩
        cases hnone
      | none =>
        rw [submitEvent_native hdelay hx] at hr
        rcases hs : submit event s x₁ with ⟨r, s₁, x₂⟩
        rw [hs] at hr
        cases r with
        | error failure =>
          cases hr
          exact ⟨0, rfl, by simp [answerEffect], hwaits 0⟩
        | ok u =>
          obtain ⟨k, hm, -⟩ := ih (n + 1) s₁ x₂ hr
          refine ⟨k + 1, by omega, ?_, hwaits (k + 1)⟩
          rw [List.take_succ_cons, List.exists_mem_cons_iff]
          exact iff_of_true ⟨rfl, rfl⟩ (Or.inl (Or.inl hdelay))

end Follows

/-! ### What a receipt counts -/

section Execute

variable {S X F : Type*} [Failure F] {b : Backend S X F} {notes : X → List Reached}
  {descriptor : InputDescriptor} {c : Context X} {sleep : ℕ → X → X}
  {gate : X → Except Error Unit × X} {request : InputRequest}

structure Backend.Notes (b : Backend S X F) (notes : X → List Reached) : Prop where
  probe : ∀ request index route s x, notes (b.probe request index route s x).2.2 = notes x
  submit : ∀ request route, Noting notes (b.submit request route)
  cleanup : ∀ request receipt stopped s x,
    notes (b.runCleanup request receipt stopped s x).2.2 = notes x
  receipt : ∀ request receipt stopped s x, ∃ state released owed,
    (b.runCleanup request receipt stopped s x).1 =
      { receipt with cleanup := state, cleanupReleased := released, cleanupOwed := owed }

/-- **What a receipt counts**: `k` completed events, waits among them, and whether the event after
them may have had effect. -/
structure Accounts (events : List InputEvent) (receipt : InputReceipt) (k : ℕ) (doubt : Bool)
    (noted : List Reached) : Prop where
  unexecuted : receipt.outcome = .unexecuted ↔ k = 0 ∧ doubt = false
  possible : receipt.possibleNativeEffect = true ↔ k ≠ 0 ∨ doubt = true
  effect : (∃ a ∈ noted, a.effect = true) ↔
    (∃ event ∈ events.take k, event.isDelay = false) ∨ doubt = true

lemma selectRoute_notes (target : TargetId)
    (preflightRoute : InputDelivery → Except InputFault SubmissionEvidence)
    {probe : ℕ → InputDelivery → S → X → Except InputFault Unit × S × X}
    (stops : ℕ → InputDelivery → InputFault → Bool)
    (hprobe : ∀ index route s x, notes (probe index route s x).2.2 = notes x) (index : ℕ)
    (routes : List InputDelivery) (prior : List InputAttempt) (last : InputFault) (s : S) (x : X) :
    notes (selectRoute target preflightRoute probe stops index routes prior last s x).2.2 =
      notes x := by
  induction routes generalizing index prior last s x with
  | nil => rfl
  | cons route routes ih =>
    unfold selectRoute
    cases preflightRoute route with
    | error fault => exact ih _ _ _ _ _
    | ok evidence =>
      have hnotes := hprobe index route s x
      rcases hx : probe index route s x with ⟨r, s₁, x₁⟩
      rw [hx] at hnotes
      simp only at hnotes ⊢
      cases r with
      | ok u => exact hnotes
      | error fault =>
        simp only
        split
        · exact hnotes
        · exact (ih _ _ _ _ _).trans hnotes

lemma selectRoute_error {target : TargetId}
    {preflightRoute : InputDelivery → Except InputFault SubmissionEvidence}
    {probe : ℕ → InputDelivery → S → X → Except InputFault Unit × S × X}
    {stops : ℕ → InputDelivery → InputFault → Bool} {index : ℕ} {routes : List InputDelivery}
    {prior : List InputAttempt} {last : InputFault} {s s' : S} {x y : X} {receipt : InputReceipt}
    (h : selectRoute target preflightRoute probe stops index routes prior last s x =
      (.error receipt, s', y)) :
    ∃ fault attempts,
      receipt = (InputReceipt.unexecuted target fault).withPriorAttempts attempts := by
  induction routes generalizing index prior last s x with
  | nil =>
    cases h
    exact ⟨last, prior, rfl⟩
  | cons route routes ih =>
    unfold selectRoute at h
    cases hpreflight : preflightRoute route with
    | error fault =>
      rw [hpreflight] at h
      exact ih h
    | ok evidence =>
      rw [hpreflight] at h
      rcases hx : probe index route s x with ⟨r, s₁, x₁⟩
      simp only [hx] at h
      cases r with
      | ok u => cases h
      | error fault =>
        simp only at h
        split at h
        · cases h
          exact ⟨fault, _, rfl⟩
        · exact ih h

lemma stoppedReceipt_accounts (hnotes : b.Notes notes) (request : InputRequest) {events : List InputEvent}
    (stopped : StoppedSubmission F) (s : S) (x : X) {noted : List Reached}
    (heffect : (∃ a ∈ noted, a.effect = true) ↔
      (∃ event ∈ events.take stopped.submitted, event.isDelay = false) ∨
        Failure.currentEventMayHaveEffect stopped.failure = true) :
    Accounts events (stoppedReceipt request.target (b.runCleanup request) stopped s x).1
      stopped.submitted (Failure.currentEventMayHaveEffect stopped.failure) noted ∧
    notes (stoppedReceipt request.target (b.runCleanup request) stopped s x).2.2 = notes x := by
  unfold stoppedReceipt
  by_cases h : stopped.submitted = 0 ∧ Failure.currentEventMayHaveEffect stopped.failure = false
  · rw [if_pos h]
    refine ⟨⟨iff_of_true rfl h, ?_, heffect⟩, rfl⟩
    rw [h.1, h.2]
    exact possibleNativeEffect_iff _
  · rw [if_neg h]
    obtain ⟨state, released, owed, hreceipt⟩ := hnotes.receipt request
      ((InputReceipt.partialRun request.target stopped.route stopped.evidence stopped.submitted
        (Failure.currentEventMayHaveEffect stopped.failure)
        (Failure.fault stopped.failure)).withPriorAttempts stopped.priorAttempts) stopped s x
    refine ⟨⟨?_, ?_, heffect⟩, hnotes.cleanup request _ stopped s x⟩
    · rw [hreceipt]
      refine iff_of_false ?_ h
      intro hunexecuted
      cases hunexecuted
    · rw [hreceipt]
      exact possibleNativeEffect_iff _

def doubt : Option F → Bool
  | some failure => Failure.currentEventMayHaveEffect failure
  | none => false

lemma Noted.accounts (hnotes : b.Notes notes) {route : InputDelivery} {evidence : SubmissionEvidence}
    {prior : List InputAttempt} {fuel m : ℕ} {f : Option F} {s s₁ : S} {x x₁ x₂ x₃ y : X}
    {noted : List Reached} {receipt : InputReceipt}
    (hnoted : Noted request.sequence.events m f noted)
    (hvalid : descriptor.validate request = .ok ()) (hgate : gate x = (.ok (), x₁))
    (hselect : selectRoute request.target (descriptor.preflightRoute request) (b.probe request)
      (b.stops request) 0 request.delivery.routes [] .routeUnavailable b.initial x₁ =
        (.ok (route, evidence, prior), s, x₂))
    (hsubmit : submitEvents c sleep (b.submit request route) fuel request.sequence.events 0 s x₂ =
      some ((m, f), s₁, x₃))
    (hr : execute b descriptor c sleep gate fuel request x = some (.ok receipt, y)) :
    Accounts request.sequence.events receipt m (doubt f) noted ∧ notes y = notes x₃ := by
  unfold execute at hr
  simp only [hvalid, hgate, hselect, hsubmit] at hr
  cases f with
  | some failure =>
    have heffect : (∃ a ∈ noted, a.effect = true) ↔
        (∃ event ∈ request.sequence.events.take m, event.isDelay = false) ∨
          Failure.currentEventMayHaveEffect failure = true := by simpa using hnoted.effect
    have hstopped := stoppedReceipt_accounts hnotes request
      ⟨route, evidence, prior, m, failure⟩ s₁ x₃ heffect
    rcases hcleanup : stoppedReceipt request.target (b.runCleanup request)
      ⟨route, evidence, prior, m, failure⟩ s₁ x₃ with ⟨stopped, s₂, x₄⟩
    rw [hcleanup] at hstopped
    simp only [hcleanup] at hr
    cases hr
    exact hstopped
  | none =>
    cases hr
    have hpos : m ≠ 0 := by
      rw [hnoted.all rfl]
      exact fun hzero => request.sequence.nonempty (List.length_eq_zero_iff.mp hzero)
    refine ⟨⟨?_, ?_, by simpa [doubt] using hnoted.effect⟩, rfl⟩
    · exact iff_of_false (fun h => by cases h) (fun h => hpos h.1)
    · exact possibleNativeEffect_iff _

omit [Failure F] in
theorem opens_iff (prior : List InputAttempt) (last : InputFault) {index : ℕ}
    {routes : List InputDelivery} {route : InputDelivery} {s s' : S} {x x' : X} :
    Opens b descriptor request index routes s x route s' x' ↔
      ∃ evidence tried, selectRoute request.target (descriptor.preflightRoute request) (b.probe request)
        (b.stops request) index routes prior last s x = (.ok (route, evidence, tried), s', x') := by
  constructor
  · intro h
    induction h generalizing prior last with
    | @opens _ _ _ evidence _ _ _ _ hfit hopen =>
      refine ⟨evidence, prior, ?_⟩
      unfold selectRoute
      rw [hfit]
      simp only [hopen]
    | unfit hunfit _ ih =>
      unfold selectRoute
      rw [hunfit]
      exact ih _ _
    | refused hfit hrefused hgoes _ ih =>
      unfold selectRoute
      rw [hfit]
      simp only [hrefused, hgoes]
      exact ih _ _
  · rintro ⟨evidence, tried, h⟩
    induction routes generalizing index prior last s x with
    | nil => cases h
    | cons first routes ih =>
      unfold selectRoute at h
      cases hfit : descriptor.preflightRoute request first with
      | error fault =>
        rw [hfit] at h
        exact .unfit hfit (ih _ _ h)
      | ok fits =>
        rw [hfit] at h
        rcases hprobe : b.probe request index first s x with ⟨r, s₁, x₁⟩
        simp only [hprobe] at h
        cases r with
        | ok u =>
          cases h
          exact .opens hfit hprobe
        | error fault =>
          simp only at h
          cases hstops : b.stops request index first fault with
          | true =>
            rw [if_pos hstops] at h
            cases h
          | false =>
            rw [if_neg (by rw [hstops]; decide)] at h
            exact .refused hfit hprobe hstops (ih _ _ h)

lemma Accounts.tells_iff {events : List InputEvent} {receipt : InputReceipt} {k : ℕ} {doubt : Bool}
    {noted : List Reached} (h : Accounts events receipt k doubt noted) :
    TellsEffect receipt noted ↔ (k ≠ 0 → ∃ a ∈ noted, a.effect = true) := by
  have hnone : (∀ a ∈ noted, a.effect = false) ↔ ¬ ∃ a ∈ noted, a.effect = true := by
    simp only [not_exists, not_and, Bool.not_eq_true]
  have hdoubt : doubt = true → ∃ a ∈ noted, a.effect = true := fun hd => h.effect.mpr (Or.inr hd)
  constructor
  · exact fun htells hk => htells.possible.mp (h.possible.mpr (Or.inl hk))
  · intro hcounts
    have heffect : (k ≠ 0 ∨ doubt = true) ↔ ∃ a ∈ noted, a.effect = true := by
      refine ⟨fun hk => hk.elim hcounts hdoubt, fun ha => ?_⟩
      rcases h.effect.mp ha with ⟨event, hevent, -⟩ | hd
      · refine Or.inl fun hzero => ?_
        rw [hzero, List.take_zero] at hevent
        cases hevent
      · exact Or.inr hd
    refine ⟨?_, h.possible.trans heffect⟩
    rw [h.unexecuted, hnone, ← heffect, not_or, not_not, Bool.not_eq_true]

/-- The route and the state in which it is opened are those of the one walk over the plan. -/
theorem effectFollows_opened {x x₁ x₂ : X} {s : S} {route : InputDelivery}
    {evidence : SubmissionEvidence} {prior : List InputAttempt} (hgate : gate x = (.ok (), x₁))
    (hselect : selectRoute request.target (descriptor.preflightRoute request) (b.probe request)
      (b.stops request) 0 request.delivery.routes [] .routeUnavailable b.initial x₁ =
        (.ok (route, evidence, prior), s, x₂)) :
    EffectFollows b descriptor c sleep gate request x ↔
      (WaitsFirst c sleep request.sequence.events x₂ →
        TakesEffect c sleep (b.submit request route) request.sequence.events s x₂) := by
  constructor
  · exact fun h => h x₁ route s x₂ hgate ((opens_iff _ _).mpr ⟨evidence, prior, hselect⟩)
  · intro h x₁' route' s' x₂' hgate' hopens
    rw [hgate] at hgate'
    obtain rfl := (Prod.mk.inj hgate').2
    obtain ⟨evidence', tried, hopened⟩ := (opens_iff [] .routeUnavailable).mp hopens
    rw [hselect] at hopened
    cases hopened
    exact h

theorem effectFollows_unopened {x x₁ x₂ : X} {s : S} {receipt : InputReceipt}
    (hgate : gate x = (.ok (), x₁))
    (hselect : selectRoute request.target (descriptor.preflightRoute request) (b.probe request)
      (b.stops request) 0 request.delivery.routes [] .routeUnavailable b.initial x₁ =
        (.error receipt, s, x₂)) : EffectFollows b descriptor c sleep gate request x := by
  intro x₁' route s' x₂' hgate' hopens
  rw [hgate] at hgate'
  obtain rfl := (Prod.mk.inj hgate').2
  obtain ⟨evidence, tried, hopened⟩ := (opens_iff [] .routeUnavailable).mp hopens
  rw [hselect] at hopened
  cases hopened

/-- **When the receipt of a run tells the effect**, whatever the driver, the clock and the token do. -/
theorem execute_told_iff (hnotes : b.Notes notes) (hquiet : Quiet notes c sleep)
    (hgate : ∀ x, notes (gate x).2 = notes x) {fuel : ℕ} {x y : X} {receipt : InputReceipt}
    (hx : notes x = []) (hr : execute b descriptor c sleep gate fuel request x = some (.ok receipt, y)) :
    TellsEffect receipt (notes y) ↔ EffectFollows b descriptor c sleep gate request x := by
  have hrun := hr
  unfold execute at hrun
  cases hvalid : descriptor.validate request with
  | error fault =>
    rw [hvalid] at hrun
    cases hrun
  | ok u =>
    have hg := hgate x
    rcases hgx : gate x with ⟨g, x₁⟩
    rw [hgx] at hg
    simp only [hvalid, hgx] at hrun hg
    cases g with
    | error error => cases hrun
    | ok u =>
      have hs := selectRoute_notes request.target (descriptor.preflightRoute request)
        (b.stops request) (hnotes.probe request) 0 request.delivery.routes [] .routeUnavailable b.initial x₁
      rcases hselect : selectRoute request.target (descriptor.preflightRoute request)
        (b.probe request) (b.stops request) 0 request.delivery.routes [] .routeUnavailable b.initial
        x₁ with ⟨chosen, s, x₂⟩
      rw [hselect] at hs
      simp only [hselect] at hrun hs
      cases chosen with
      | error refused =>
        -- no route is opened, and nothing reaches the driver
        cases hrun
        obtain ⟨fault, attempts, rfl⟩ := selectRoute_error hselect
        rw [hs, hg, hx]
        refine iff_of_true ⟨iff_of_true rfl (by simp), ?_⟩ (effectFollows_unopened hgx hselect)
        rw [possibleNativeEffect_iff]
        simp [InputReceipt.unexecuted, InputReceipt.withPriorAttempts]
      | ok chosen =>
        obtain ⟨route, evidence, prior⟩ := chosen
        simp only at hrun
        rcases hsubmit : submitEvents c sleep (b.submit request route) fuel request.sequence.events
          0 s x₂ with _ | ⟨⟨m, f⟩, s₁, x₃⟩
        · simp only [hsubmit] at hrun
          cases hrun
        obtain ⟨k, noted, hm, hlog, hnoted⟩ := submitEvents_notes hquiet (hnotes.submit request route)
          fuel _ 0 s s₁ x₂ x₃ hsubmit
        obtain rfl : m = k := by omega
        obtain ⟨haccounts, hy⟩ := hnoted.accounts hnotes hvalid hgx hselect hsubmit hr
        obtain ⟨k, hk, htakes, hwaits⟩ := submitEvents_follows fuel _ 0 s s₁ x₂ x₃ hsubmit
        obtain rfl : m = k := by omega
        rw [hy, hlog, hs, hg, hx, List.nil_append, haccounts.tells_iff,
          effectFollows_opened hgx hselect, hwaits, htakes, ← hnoted.effect]
        constructor
        · rintro hcounts ⟨hk, -⟩
          exact hcounts hk
        · intro hcounts hk
          cases hevents : request.sequence.events with
          | nil => exact absurd hevents request.sequence.nonempty
          | cons event events =>
            cases hdelay : event.isDelay with
            | true =>
              cases event with
              | delay delay => exact hcounts ⟨hk, delay, events, hevents⟩
              | _ => cases hdelay
            | false =>
              -- a native event was completed first
              refine hnoted.effect.mpr (Or.inl ⟨event, ?_, hdelay⟩)
              obtain ⟨j, rfl⟩ := Nat.exists_eq_succ_of_ne_zero hk
              rw [hevents, List.take_succ_cons]
              exact List.mem_cons_self

end Execute

/-! ### Both controllers -/

section Platforms

variable {E G : Type*}

def besideContext (c : Context E) : Context (E × G) where
  cancelled x := ((c.cancelled x.1).1, (c.cancelled x.1).2, x.2)
  deadline := c.deadline
  now x := ((c.now x.1).1, (c.now x.1).2, x.2)

def besideGate (gate : E → Except Error Unit × E) (x : E × G) : Except Error Unit × (E × G) :=
  ((gate x.1).1, (gate x.1).2, x.2)

def besideSleep (sleep : ℕ → E → E) (duration : ℕ) (x : E × G) : E × G := (sleep duration x.1, x.2)

lemma besideContext_quiet (c : Context E) (sleep : ℕ → E → E) :
    Quiet (Prod.snd : E × G → G) (besideContext c) (besideSleep sleep) :=
  ⟨fun _ => rfl, fun _ => rfl, fun _ _ => rfl⟩

def notedSubmit {S F : Type*} [Failure F] (event : InputEvent) (f : E → Except F Unit × S × E)
    (x : E × List Reached) : Except F Unit × S × (E × List Reached) :=
  ((f x.1).1, (f x.1).2.1, (f x.1).2.2, x.2 ++ [⟨event, answerEffect (f x.1).1⟩])

def besideCall {α β : Type*} (f : E → α × β × E) (x : E × G) : α × β × (E × G) :=
  ((f x.1).1, (f x.1).2.1, (f x.1).2.2, x.2)

def Windows.InputDriver.noting (d : Windows.InputDriver E) :
    Windows.InputDriver (E × List Reached) where
  preflight route focus x := ((d.preflight route focus x.1).1, (d.preflight route focus x.1).2, x.2)
  submit route focus event geometry s := notedSubmit event (d.submit route focus event geometry s)
  release route pressed s := besideCall (d.release route pressed s)

def Macos.InputDriver.noting (d : Macos.InputDriver E) : Macos.InputDriver (E × List Reached) where
  preflight route focus early x :=
    ((d.preflight route focus early x.1).1, (d.preflight route focus early x.1).2, x.2)
  beginRoute route s := besideCall (d.beginRoute route s)
  submit route focus event geometry s := notedSubmit event (d.submit route focus event geometry s)
  release route pressed s := besideCall (d.release route pressed s)
  releasePending route s := besideCall (d.releasePending route s)

lemma cleanup_notes_quiet {S : Type*} (c : Context E) (budget : CleanupBudget)
    (started : E × List Reached) (x : S × (E × List Reached)) :
    (cleanupInterruption (budget.context (besideContext c) started).1 x).2.2.2 = x.2.2 := by
  have hquiet : Quiet (Prod.snd : E × List Reached → List Reached)
      (budget.context (besideContext c) started).1 (fun _ e => e) :=
    ⟨fun _ => rfl, fun _ => rfl, fun _ _ => rfl⟩
  exact hquiet.interruption x.2

theorem Windows.noting_notes (d : Windows.InputDriver E) (c : Context E) :
    (Windows.backend d.noting (besideContext c)).Notes Prod.snd where
  probe _ _ _ _ _ := rfl
  submit _ _ _ _ _ := rfl
  cleanup request receipt stopped s x := by
    unfold Windows.backend Windows.runCleanup
    simp only
    split
    · rfl
    · rw [Windows.cleanupLoop, Windows.releaseLoop_eq]
      refine Worklist.run_preserves
        (P := fun (y : Windows.DriverState × (E × List Reached)) => y.2.2 = x.2) ?_ ?_ _ _ _ rfl
      · intro y hy
        exact (cleanup_notes_quiet c request.cleanup x y).trans hy
      · intro pressed y hy
        exact hy
  receipt request receipt stopped s x := by
    unfold Windows.backend Windows.runCleanup
    simp only
    split
    · exact ⟨_, _, _, rfl⟩
    · exact withCleanupResult_eq _ _ _ _

theorem Macos.noting_notes (d : Macos.InputDriver E) (c : Context E) :
    (Macos.backend d.noting (besideContext c)).Notes Prod.snd where
  probe request index route s x := by
    rcases hp : d.preflight route request.focus (Macos.requireEarlyAuthority request index) x.1 with
      ⟨r, e⟩
    cases r with
    | error fault => simp only [Macos.backend, Macos.probe, Macos.InputDriver.noting, hp]
    | ok u =>
      rcases hb : d.beginRoute route s e with ⟨r, s₁, e₁⟩
      cases r <;>
        simp only [Macos.backend, Macos.probe, Macos.InputDriver.noting, besideCall, hp, hb]
  submit _ _ _ _ _ := rfl
  cleanup request receipt stopped s x := by
    unfold Macos.backend Macos.runCleanup
    simp only
    split
    · rfl
    · refine Macos.cleanupLoop_preserves
        (P := fun (y : Macos.DriverState × (E × List Reached)) => y.2.2 = x.2) ?_ ?_ ?_ _ _ _ rfl
      · intro y hy
        exact (cleanup_notes_quiet c request.cleanup x y).trans hy
      · intro pressed y hy
        exact hy
      · intro y hy
        exact hy
  receipt request receipt stopped s x := by
    unfold Macos.backend Macos.runCleanup
    simp only
    split
    · exact ⟨_, _, _, rfl⟩
    · exact withCleanupResult_eq _ _ _ _

end Platforms

section Truth

/-- A Windows driver that opens every route and refuses every event. -/
def refusingWindows : Windows.InputDriver ℕ where
  preflight _ _ e := (.ok (), e)
  submit _ _ _ _ s e := (.error (.beforeEvent .submissionFailed), s, e)
  release _ _ s e := (.ok (), s, e)

/-- A macOS driver that opens every route and refuses every event. -/
def refusingMacos : Macos.InputDriver ℕ where
  preflight _ _ _ e := (.ok (), e)
  beginRoute _ s e := (.ok (), s, e)
  submit _ _ _ _ s e := (.error (.beforeEvent .submissionFailed), s, e)
  release _ _ s e := (.ok (), s, e)
  releasePending _ s e := (.ok true, s, e)

/-- **When the receipts tell the effect.**  On either platform, the receipt of a run tells the native
effect exactly if what follows the waits at the beginning has one: no route is opened, the sequence does
not begin with a wait, that wait is cut short, or the first native event after the waits is completed or
may have had effect. -/
theorem effect_told_iff {E : Type} (descriptor : InputDescriptor) (request : InputRequest)
    (c : Context E) (sleep : ℕ → E → E) (gate : E → Except Error Unit × E) (fuel : ℕ) (e : E)
    (receipt : InputReceipt) (y : E × List Reached) :
    (∀ d : Windows.InputDriver E, Windows.execute d.noting (besideContext c) descriptor
        (besideSleep sleep) (besideGate gate) fuel request (e, []) = some (.ok receipt, y) →
      (TellsEffect receipt y.2 ↔ EffectFollows (Windows.backend d.noting (besideContext c)) descriptor
        (besideContext c) (besideSleep sleep) (besideGate gate) request (e, []))) ∧
    ∀ d : Macos.InputDriver E, Macos.execute d.noting (besideContext c) descriptor
        (besideSleep sleep) (besideGate gate) fuel request (e, []) = some (.ok receipt, y) →
      (TellsEffect receipt y.2 ↔ EffectFollows (Macos.backend d.noting (besideContext c)) descriptor
        (besideContext c) (besideSleep sleep) (besideGate gate) request (e, [])) :=
  ⟨fun d hr => execute_told_iff (Windows.noting_notes d c) (besideContext_quiet c sleep) (fun _ => rfl) rfl
      hr,
    fun d hr => execute_told_iff (Macos.noting_notes d c) (besideContext_quiet c sleep) (fun _ => rfl) rfl
      hr⟩

/-! ### A wait and a refused key press -/

def waitingRequest : InputRequest where
  target := tapRequest.target
  sequence := ⟨[.delay 1, .keyPress (.modifier .shift)], by decide, by decide, by decide⟩
  delivery := tapRequest.delivery
  focus := .preserve
  pointerGeometry := ⟨.reprojectCurrent, none⟩
  cleanup := .contract

lemma refused_not_told (receipt : InputReceipt) (hpossible : receipt.possibleNativeEffect = true) :
    ¬ TellsEffect receipt [⟨.keyPress (.modifier .shift), false⟩] := by
  intro htells
  obtain ⟨a, ha, heffect⟩ := htells.possible.mp hpossible
  rw [List.mem_singleton.mp ha] at heffect
  cases heffect

/-- The key press after the wait is told where the driver completes it, and is told wrongly where the
driver refuses it. -/
theorem effect_told_sample :
    (∃ receipt y, Windows.execute tapWindows.noting (besideContext sleepClock) tapDescriptor
      (besideSleep fun duration e => e + duration) (besideGate fun e => (.ok (), e)) 2 waitingRequest
      (0, []) = some (.ok receipt, y) ∧ receipt.outcome = .complete ∧ TellsEffect receipt y.2) ∧
    (∃ receipt y, Macos.execute tapMacos.noting (besideContext sleepClock) tapDescriptor
      (besideSleep fun duration e => e + duration) (besideGate fun e => (.ok (), e)) 2 waitingRequest
      (0, []) = some (.ok receipt, y) ∧ receipt.outcome = .complete ∧ TellsEffect receipt y.2) ∧
    ¬ EffectFollows (Windows.backend refusingWindows.noting (besideContext sleepClock)) tapDescriptor
      (besideContext sleepClock) (besideSleep fun duration e => e + duration)
      (besideGate fun e => (.ok (), e)) waitingRequest (0, []) := by
  have hiff := fun receipt y => effect_told_iff tapDescriptor waitingRequest sleepClock
    (fun duration e => e + duration) (fun e => (.ok (), e)) 2 0 receipt y
  refine ⟨⟨_, _, rfl, rfl, ((hiff _ _).1 tapWindows rfl).mpr ?_⟩,
    ⟨_, _, rfl, rfl, ((hiff _ _).2 tapMacos rfl).mpr ?_⟩, fun hfollows => ?_⟩
  · intro x₁ route s x₂ hgate hopens _
    cases hgate
    obtain ⟨evidence, tried, hopened⟩ := (opens_iff [] .routeUnavailable).mp hopens
    cases hopened
    exact .wait ⟨2, rfl⟩ (.native rfl rfl rfl)
  · intro x₁ route s x₂ hgate hopens _
    cases hgate
    obtain ⟨evidence, tried, hopened⟩ := (opens_iff [] .routeUnavailable).mp hopens
    cases hopened
    exact .wait ⟨2, rfl⟩ (.native rfl rfl rfl)
  · exact refused_not_told _ rfl (((hiff _ _).1 refusingWindows rfl).mpr hfollows)

/-- **A wait before a refused key press is a partial run**: the key press is refused before it has
effect, and both receipts are partial and report a possible native effect. -/
theorem waited_then_refused :
    (∃ receipt y, Windows.execute refusingWindows.noting (besideContext sleepClock) tapDescriptor
      (besideSleep fun duration e => e + duration) (besideGate fun e => (.ok (), e)) 2 waitingRequest
      (0, []) = some (.ok receipt, y) ∧ receipt.outcome = .partialRun ∧
        receipt.possibleNativeEffect = true ∧ ¬ TellsEffect receipt y.2) ∧
    ∃ receipt y, Macos.execute refusingMacos.noting (besideContext sleepClock) tapDescriptor
      (besideSleep fun duration e => e + duration) (besideGate fun e => (.ok (), e)) 2 waitingRequest
      (0, []) = some (.ok receipt, y) ∧ receipt.outcome = .partialRun ∧
        receipt.possibleNativeEffect = true ∧ ¬ TellsEffect receipt y.2 :=
  ⟨⟨_, _, rfl, rfl, rfl, refused_not_told _ rfl⟩, ⟨_, _, rfl, rfl, rfl, refused_not_told _ rfl⟩⟩

end Truth

end MadoPilot.Platform
