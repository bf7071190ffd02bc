import MadoPilot.Platform.EffectTruth
import MadoPilot.Platform.WindowMessage

/-!
# The record of the window-message driver

The driver's record of keys and buttons keeps step with the held states of the sequence, and its
failures tell what they leave behind.

* `submit_spec`: what one submission does, on any source that tells what it accepted;
* `native_faithful`: the native source does;
* `window_message_law`: over whole runs the record is the sequence's held list; a failure without
  effect accepted nothing and changed nothing; a failed press is recorded exactly when the failure
  says that it may be left pressed.
-/

namespace MadoPilot.Platform.WindowMessage

open MadoPilot.Core MadoPilot.Input MadoPilot.Lib
open MadoPilot.Platform.Windows (SubmissionFailure)

/-! ### The record and the held list -/

def asKey : PressedState → Option Key
  | .key k => some k
  | .button _ => none

def asButton : PressedState → Option PointerButton
  | .button b => some b
  | .key _ => none

lemma eq_of_asKey {x : PressedState} {k : Key} (h : asKey x = some k) : x = .key k := by
  cases x with
  | key k' => exact congrArg _ (Option.some.inj h)
  | button b => cases h

lemma eq_of_asButton {x : PressedState} {b : PointerButton} (h : asButton x = some b) :
    x = .button b := by
  cases x with
  | button b' => exact congrArg _ (Option.some.inj h)
  | key k => cases h

lemma map_removeLastWhere {α β : Type*} [DecidableEq β] (name : α → β) (x : β) (entries : List α) :
    (removeLastWhere (fun entry => decide (name entry = x)) entries).map name =
      Holding.eraseLast (entries.map name) x := by
  have herase : ∀ entries : List α,
      (entries.eraseP fun entry => decide (name entry = x)).map name =
        (entries.map name).erase x := by
    intro entries
    induction entries with
    | nil => rfl
    | cons entry entries ih =>
      by_cases hx : name entry = x
      · rw [List.eraseP_cons_of_pos (by simpa using hx), List.map_cons, hx, List.erase_cons_head]
      · rw [List.eraseP_cons_of_neg (by simpa using hx), List.map_cons, List.map_cons,
          List.erase_cons_tail (by simpa using hx), ih]
  unfold removeLastWhere Holding.eraseLast
  rw [List.map_reverse, herase, List.map_reverse]

section Record

variable {G : Type*} {s : DriverState G} {list : List PressedState}

/-- **The record agrees with a list of held states**, in the order of their presses. -/
structure DriverState.Agrees (s : DriverState G) (list : List PressedState) : Prop where
  keys : s.keys.map SystemKeyState.logical = list.filterMap asKey
  buttons : s.buttons.map SystemButtonState.logical = list.filterMap asButton

def DriverState.WellFormed (s : DriverState G) : Prop :=
  ∀ entry ∈ s.buttons, (buttonMessage entry.physical true).isOk = true

def Recorded (s : DriverState G) (x : PressedState) (s' : DriverState G) : Prop :=
  match x with
  | .button b => ∃ physical, s' = s.pushButton ⟨b, physical⟩
  | .key k => ∃ entry : SystemKeyState, entry.logical = k ∧ s' = s.pushKey entry

lemma Recorded.ne {x : PressedState} {s' : DriverState G} (h : Recorded s x s') : s' ≠ s := by
  cases x with
  | button b =>
    obtain ⟨physical, rfl⟩ := h
    intro hsame
    have hlength := congrArg (fun s => s.buttons.length) hsame
    simp [DriverState.pushButton] at hlength
  | key k =>
    obtain ⟨entry, -, rfl⟩ := h
    intro hsame
    have hlength := congrArg (fun s => s.keys.length) hsame
    simp [DriverState.pushKey] at hlength

namespace DriverState.Agrees

lemma initial : (DriverState.initial : DriverState G).Agrees [] := ⟨rfl, rfl⟩

lemma pushKey (h : s.Agrees list) (entry : SystemKeyState) :
    (s.pushKey entry).Agrees (list ++ [.key entry.logical]) := by
  constructor
  · unfold DriverState.pushKey
    rw [List.map_append, h.keys, List.filterMap_append]
    rfl
  · rw [List.filterMap_append]
    exact h.buttons.trans (List.append_nil _).symm

lemma pushButton (h : s.Agrees list) (entry : SystemButtonState) :
    (s.pushButton entry).Agrees (list ++ [.button entry.logical]) := by
  constructor
  · rw [List.filterMap_append]
    exact h.keys.trans (List.append_nil _).symm
  · unfold DriverState.pushButton
    rw [List.map_append, h.buttons, List.filterMap_append]
    rfl

lemma removeKey (h : s.Agrees list) (key : Key) :
    (s.removeKey key).Agrees (Holding.eraseLast list (.key key)) := by
  constructor
  · unfold DriverState.removeKey
    rw [map_removeLastWhere, h.keys,
      Holding.filterMap_eraseLast (rfl : asKey (.key key) = some key) (fun _ => eq_of_asKey)]
  · rw [Holding.filterMap_eraseLast_none rfl]
    exact h.buttons

lemma removeButton (h : s.Agrees list) (button : PointerButton) :
    (s.removeButton button).Agrees (Holding.eraseLast list (.button button)) := by
  constructor
  · rw [Holding.filterMap_eraseLast_none rfl]
    exact h.keys
  · unfold DriverState.removeButton
    rw [map_removeLastWhere, h.buttons,
      Holding.filterMap_eraseLast (rfl : asButton (.button button) = some button)
        (fun _ => eq_of_asButton)]

lemma movePointer (h : s.Agrees list) (pointer : Option (PointerState G)) :
    ({ s with pointer := pointer } : DriverState G).Agrees list := ⟨h.keys, h.buttons⟩

end DriverState.Agrees

namespace DriverState.WellFormed

lemma pushButton (h : s.WellFormed) {entry : SystemButtonState}
    (hentry : (buttonMessage entry.physical true).isOk = true) : (s.pushButton entry).WellFormed := by
  intro other hother
  rcases List.mem_append.mp hother with hother | hother
  · exact h other hother
  · rw [List.mem_singleton.mp hother]
    exact hentry

lemma removeButton (h : s.WellFormed) (button : PointerButton) : (s.removeButton button).WellFormed := by
  intro other hother
  unfold DriverState.removeButton removeLastWhere at hother
  rw [List.mem_reverse] at hother
  exact h other (List.mem_reverse.mp (List.mem_of_mem_eraseP hother))

end DriverState.WellFormed

end Record

lemma buttonMessage_isOk (physical : UInt8) (pressed : Bool) :
    (buttonMessage physical pressed).isOk = (buttonMessage physical true).isOk := by
  unfold buttonMessage
  split_ifs <;> rfl

/-! ### A source that tells what it accepted -/

section Submit

variable {G E : Type*} {source : WindowMessageSource G E} {accepted : E → List MessageUnit}

/-- **A source that tells what it accepted**: buttons resolve to the three physical ones, an accepted
unit is counted, and a refused one leaves nothing behind unless its failure says so. -/
structure WindowMessageSource.Faithful (source : WindowMessageSource G E)
    (accepted : E → List MessageUnit) : Prop where
  clientPoint : ∀ screen e, accepted (source.clientPoint screen e).2 = accepted e
  screenPoint : ∀ screen e, accepted (source.screenPoint screen e).2 = accepted e
  resolveButton : ∀ button e, accepted (source.resolveButton button e).2 = accepted e
  resolveKey : ∀ key e, accepted (source.resolveKey key e).2 = accepted e
  physical : ∀ button e e' physical, source.resolveButton button e = (.ok physical, e') →
    physical ∈ [physicalLeft, physicalRight, physicalMiddle]
  posted : ∀ unit expected e e', source.post unit expected e = (.ok (), e') →
    accepted e' = accepted e ++ [unit]
  refused : ∀ unit expected e e' failure, source.post unit expected e = (.error failure, e') →
    failure.currentEventMayLeavePressedState = failure.currentEventMayHaveEffect ∧
      (failure.currentEventMayHaveEffect = false → accepted e' = accepted e)

structure Submission (accepted : E → List MessageUnit) (event : InputEvent) (s : DriverState G)
    (e : E) (r : Except SubmissionFailure Unit) (s' : DriverState G) (e' : E) : Prop where
  wellFormed : s'.WellFormed
  done : r = .ok () → ∀ list, s.Agrees list →
    s'.Agrees (Holding.hold InputEvent.presses InputEvent.releases list event)
  harmless : ∀ failure, r = .error failure → failure.currentEventMayHaveEffect = false →
    accepted e' = accepted e ∧ s' = s
  pressed : ∀ failure x, r = .error failure → event.presses = some x →
    (Recorded s x s' ↔ failure.currentEventMayLeavePressedState = true) ∧
      (s' = s ↔ failure.currentEventMayLeavePressedState = false)

variable {event : InputEvent} {s s' : DriverState G} {e e' : E}

lemma Submission.kept {failure : SubmissionFailure} (hs : s.WellFormed)
    (haccepted : failure.currentEventMayHaveEffect = false → accepted e' = accepted e)
    (hleave : event.presses ≠ none → failure.currentEventMayLeavePressedState = false) :
    Submission accepted event s e (.error failure) s e' where
  wellFormed := hs
  done h := by cases h
  harmless _ h hnone := by
    cases h
    exact ⟨haccepted hnone, rfl⟩
  pressed _ x h hx := by
    cases h
    have hfalse := hleave (by rw [hx]; exact Option.some_ne_none x)
    rw [hfalse]
    exact ⟨iff_of_false (fun hr => hr.ne rfl) Bool.false_ne_true, iff_of_true rfl rfl⟩

lemma Submission.before {fault : InputFault} (hs : s.WellFormed) (haccepted : accepted e' = accepted e) :
    Submission accepted event s e (.error (.beforeEvent fault)) s e' :=
  .kept hs (fun _ => haccepted) fun _ => rfl

lemma Submission.left {failure : SubmissionFailure} {x : PressedState} (hs : s'.WellFormed)
    (hpress : event.presses = some x) (hrecorded : Recorded s x s')
    (heffect : failure.currentEventMayHaveEffect = true)
    (hleave : failure.currentEventMayLeavePressedState = true) :
    Submission accepted event s e (.error failure) s' e' where
  wellFormed := hs
  done h := by cases h
  harmless _ h hnone := by
    cases h
    rw [heffect] at hnone
    cases hnone
  pressed _ y h hy := by
    cases h
    rw [hpress] at hy
    cases hy
    rw [hleave]
    refine ⟨iff_of_true hrecorded rfl, iff_of_false hrecorded.ne ?_⟩
    exact fun h => Bool.false_ne_true h.symm

lemma Submission.completed (hs : s'.WellFormed) (hagrees : ∀ list, s.Agrees list →
      s'.Agrees (Holding.hold InputEvent.presses InputEvent.releases list event)) :
    Submission accepted event s e (.ok ()) s' e' where
  wellFormed := hs
  done _ := hagrees
  harmless _ h := by cases h
  pressed _ _ h := by cases h

namespace WindowMessageSource.Faithful

lemma postUnits_refused (h : source.Faithful accepted) {expected : Option G}
    {units : List MessageUnit} {any : Bool} {failure : SubmissionFailure}
    (hr : postUnits source expected units any e = (.error failure, e')) :
    failure.currentEventMayLeavePressedState = failure.currentEventMayHaveEffect ∧
      (failure.currentEventMayHaveEffect = false → any = false ∧ accepted e' = accepted e) := by
  induction units generalizing any e with
  | nil => cases hr
  | cons unit units ih =>
    unfold postUnits at hr
    rcases hpost : source.post unit expected e with ⟨r, e₁⟩
    rw [hpost] at hr
    cases r with
    | ok u =>
      obtain ⟨hleave, hnone⟩ := ih hr
      refine ⟨hleave, fun heffect => ?_⟩
      cases (hnone heffect).1
    | error failure' =>
      obtain ⟨hleave, hnone⟩ := h.refused _ _ _ _ _ hpost
      simp only at hr
      by_cases hduring : any = true ∨ failure'.currentEventMayHaveEffect = true
      · rw [if_pos hduring] at hr
        cases hr
        exact ⟨rfl, fun heffect => by cases heffect⟩
      · rw [if_neg hduring] at hr
        cases hr
        refine ⟨hleave, fun heffect => ⟨?_, hnone heffect⟩⟩
        exact Bool.eq_false_iff.mpr fun hany => hduring (Or.inl hany)

lemma physicalButton_accepted (h : source.Faithful accepted) (button : PointerButton) (e : E) :
    accepted (physicalButton source button s e).2 = accepted e := by
  unfold physicalButton
  split
  · rfl
  · exact h.resolveButton button e

lemma physicalButton_isOk (h : source.Faithful accepted) (hs : s.WellFormed) {button : PointerButton}
    {physical : UInt8} (hr : physicalButton source button s e = (.ok physical, e')) :
    (buttonMessage physical true).isOk = true := by
  unfold physicalButton at hr
  split at hr
  · rename_i current hfound
    cases hr
    exact hs current (List.mem_reverse.mp (List.mem_of_find?_eq_some hfound))
  · have hphysical := h.physical _ _ _ _ hr
    simp only [List.mem_cons, List.not_mem_nil, or_false] at hphysical
    rcases hphysical with rfl | rfl | rfl <;> rfl

lemma resolvedKey_accepted (h : source.Faithful accepted) (key : Key) (e : E) :
    accepted (resolvedKey source key s e).2 = accepted e := by
  unfold resolvedKey
  split
  · rfl
  · exact h.resolveKey key e

variable (h : source.Faithful accepted) (hs : s.WellFormed) {r : Except SubmissionFailure Unit}
include h hs

lemma submitMove_spec {position : Core.Point} {pointer : Option (PointerState G)}
    (hr : submitMove source pointer s e = (r, s', e')) :
    Submission accepted (.pointerMove position) s e r s' e' := by
  unfold submitMove at hr
  cases pointer with
  | none =>
    cases hr
    exact .before hs rfl
  | some pointer =>
    have hpoint := h.clientPoint pointer.screen e
    rcases hx : source.clientPoint pointer.screen e with ⟨point, e₁⟩
    rw [hx] at hpoint
    simp only [hx] at hr
    cases point with
    | error fault =>
      cases hr
      exact .before hs hpoint
    | ok point =>
      simp only at hr
      rcases hpost : postUnits source pointer.expectedGeometry [mouseMove point (mouseState s)] false
        e₁ with ⟨posted, e₂⟩
      simp only [hpost] at hr
      cases posted with
      | error failure =>
        cases hr
        obtain ⟨-, hnone⟩ := h.postUnits_refused hpost
        exact .kept hs (fun heffect => (hnone heffect).2.trans hpoint) fun hpress => (hpress rfl).elim
      | ok u =>
        cases hr
        exact .completed hs fun list hlist => hlist.movePointer (some pointer)

lemma submitButton_spec {button : PointerButton} {pressed : Bool} {pointer : Option (PointerState G)}
    (hr : submitButton source button pressed pointer s e = (r, s', e')) :
    Submission accepted (if pressed then .pointerPress button else .pointerRelease button) s e r s'
      e' := by
  unfold submitButton at hr
  cases pointer with
  | none =>
    cases hr
    exact .before hs rfl
  | some pointer =>
    have hpoint := h.clientPoint pointer.screen e
    rcases hx : source.clientPoint pointer.screen e with ⟨point, e₁⟩
    rw [hx] at hpoint
    simp only [hx] at hr
    cases point with
    | error fault =>
      cases hr
      exact .before hs hpoint
    | ok point =>
      have hresolved := h.physicalButton_accepted (s := s) button e₁
      rcases hbutton : physicalButton source button s e₁ with ⟨physical, e₂⟩
      rw [hbutton] at hresolved
      simp only [hbutton] at hr
      cases physical with
      | error fault =>
        cases hr
        exact .before hs (hresolved.trans hpoint)
      | ok physical =>
        have hphysical := h.physicalButton_isOk hs hbutton
        simp only at hr
        rcases hmove : source.post (mouseMove point (mouseState s)) pointer.expectedGeometry e₂ with
          ⟨moved, e₃⟩
        simp only [hmove] at hr
        cases moved with
        | error failure =>
          cases hr
          obtain ⟨-, hnone⟩ := h.refused _ _ _ _ _ hmove
          exact .kept hs (fun heffect => (hnone heffect).trans (hresolved.trans hpoint)) fun _ => rfl
        | ok u =>
          have hmessage := buttonMessage_isOk physical pressed
          rw [hphysical] at hmessage
          cases hunit : buttonMessage physical pressed with
          | error fault =>
            rw [hunit] at hmessage
            cases hmessage
          | ok message =>
            simp only [buttonUnit, hunit, Except.map] at hr
            rcases hpost : source.post ⟨message, (mouseStateAfterButton s physical pressed).toUInt64,
              packedLParam point.1 point.2⟩ pointer.expectedGeometry e₃ with ⟨posted, e₄⟩
            simp only [hpost] at hr
            cases posted with
            | error failure =>
              obtain ⟨hleave, -⟩ := h.refused _ _ _ _ _ hpost
              simp only at hr
              cases heffect : failure.currentEventMayHaveEffect with
              | false =>
                rw [heffect, if_neg Bool.false_ne_true] at hr
                cases hr
                exact .kept hs (fun hnone => by cases hnone) fun _ => rfl
              | true =>
                rw [heffect, if_pos rfl] at hr
                cases pressed with
                | true =>
                  cases hr
                  exact .left (hs.pushButton hphysical) rfl ⟨physical, rfl⟩ heffect
                    (hleave.trans heffect)
                | false =>
                  cases hr
                  refine .kept hs (fun hnone => ?_) fun _ => rfl
                  exact Bool.false_ne_true (hnone.symm.trans heffect) |>.elim
            | ok u =>
              cases pressed with
              | true =>
                cases hr
                exact .completed (hs.pushButton hphysical) fun list hlist =>
                  hlist.pushButton ⟨button, physical⟩
              | false =>
                cases hr
                exact .completed (hs.removeButton button) fun list hlist => hlist.removeButton button

lemma submitScroll_spec {horizontal vertical : Int16} {pointer : Option (PointerState G)}
    (hr : submitScroll source horizontal vertical pointer s e = (r, e')) :
    Submission accepted (.pointerScroll horizontal vertical) s e r s e' := by
  unfold submitScroll at hr
  cases pointer with
  | none =>
    cases hr
    exact .before hs rfl
  | some pointer =>
    have hpoint := h.screenPoint pointer.screen e
    rcases hx : source.screenPoint pointer.screen e with ⟨screen, e₁⟩
    rw [hx] at hpoint
    simp only [hx] at hr
    cases screen with
    | error fault =>
      cases hr
      exact .before hs hpoint
    | ok screen =>
      simp only at hr
      cases hunits : scrollUnits horizontal vertical (mouseState s) screen with
      | error fault =>
        simp only [hunits] at hr
        cases hr
        exact .before hs hpoint
      | ok units =>
        simp only [hunits] at hr
        cases r with
        | error failure =>
          obtain ⟨-, hnone⟩ := h.postUnits_refused hr
          exact .kept hs (fun heffect => (hnone heffect).2.trans hpoint) fun hpress => (hpress rfl).elim
        | ok u => exact .completed hs fun list hlist => hlist

lemma submitKey_spec {key : Key} {pressed : Bool}
    (hr : submitKey source key pressed s e = (r, s', e')) :
    Submission accepted (if pressed then .keyPress key else .keyRelease key) s e r s' e' := by
  unfold submitKey at hr
  have hresolved := h.resolvedKey_accepted (s := s) key e
  rcases hkey : resolvedKey source key s e with ⟨resolved, e₁⟩
  rw [hkey] at hresolved
  simp only [hkey] at hr
  cases resolved with
  | error fault =>
    cases hr
    exact .before hs hresolved
  | ok resolved =>
    simp only at hr
    rcases hpost : postUnits source none
      [keyUnit resolved pressed (findLast (fun entry => entry.logical = key) s.keys).isSome] false e₁
      with ⟨posted, e₂⟩
    simp only [hpost] at hr
    cases posted with
    | error failure =>
      obtain ⟨hleave, hnone⟩ := h.postUnits_refused hpost
      have haccepted : failure.currentEventMayHaveEffect = false → accepted e₂ = accepted e :=
        fun heffect => (hnone heffect).2.trans hresolved
      cases pressed with
      | false =>
        cases hr
        exact .kept hs haccepted fun _ => rfl
      | true =>
        cases heffect : failure.currentEventMayHaveEffect with
        | false =>
          simp only [heffect, if_true, if_neg Bool.false_ne_true] at hr
          cases hr
          exact .kept hs haccepted fun _ => hleave.trans heffect
        | true =>
          simp only [heffect, if_true] at hr
          cases hr
          exact .left hs rfl ⟨_, rfl, rfl⟩ heffect (hleave.trans heffect)
    | ok u =>
      cases pressed with
      | true =>
        cases hr
        exact .completed hs fun list hlist => hlist.pushKey _
      | false =>
        cases hr
        exact .completed hs fun list hlist => hlist.removeKey key

lemma submitText_spec {text : String} (hr : submitText source text e = (r, e')) :
    Submission accepted (.text text) s e r s e' := by
  unfold submitText at hr
  cases r with
  | error failure =>
    obtain ⟨-, hnone⟩ := h.postUnits_refused hr
    exact .kept hs (fun heffect => (hnone heffect).2) fun hpress => (hpress rfl).elim
  | ok u => exact .completed hs fun list hlist => hlist

theorem submit_spec {event : InputEvent} {pointer : Option (PointerState G)}
    (hr : submit source event pointer s e = (r, s', e')) :
    Submission accepted event s e r s' e' := by
  unfold submit at hr
  cases event with
  | pointerMove position => exact h.submitMove_spec hs hr
  | pointerPress button => exact h.submitButton_spec hs hr
  | pointerRelease button => exact h.submitButton_spec hs hr
  | pointerScroll horizontal vertical =>
    rcases hscroll : submitScroll source horizontal vertical pointer s e with ⟨r, e₁⟩
    simp only [hscroll] at hr
    cases hr
    exact h.submitScroll_spec hs hscroll
  | keyPress key => exact h.submitKey_spec hs hr
  | keyRelease key => exact h.submitKey_spec hs hr
  | text text =>
    rcases htext : submitText source text e with ⟨r, e₁⟩
    simp only [htext] at hr
    cases hr
    exact h.submitText_spec hs htext
  | delay duration =>
    cases hr
    exact .before hs rfl

end WindowMessageSource.Faithful

lemma release_wellFormed (hs : s.WellFormed) {x : PressedState} {r : Except InputFault Unit}
    (hr : release source x s e = (r, s', e')) : s'.WellFormed := by
  cases x with
  | key key =>
    unfold release releaseKey at hr
    rcases hkey : resolvedKey source key s e with ⟨resolved, e₁⟩
    simp only [hkey] at hr
    cases resolved with
    | error fault =>
      cases hr
      exact hs
    | ok resolved =>
      simp only at hr
      split at hr
      · cases hr
        exact hs
      · cases hr
        exact hs
  | button button =>
    unfold release releaseButton at hr
    cases hpointer : s.pointer with
    | none =>
      simp only [hpointer] at hr
      cases hr
      exact hs
    | some pointer =>
      simp only [hpointer] at hr
      repeat' split at hr
      all_goals
        cases hr
        first
          | exact hs
          | exact hs.removeButton button

/-! ### Whole runs -/

/-- The states that submissions and releases bring the driver to. -/
inductive Reachable (source : WindowMessageSource G E) : DriverState G → Prop where
  | initial : Reachable source .initial
  | submit {s s' : DriverState G} {event : InputEvent} {pointer : Option (PointerState G)} {e e' : E}
      {r : Except SubmissionFailure Unit} : Reachable source s →
      submit source event pointer s e = (r, s', e') → Reachable source s'
  | release {s s' : DriverState G} {x : PressedState} {e e' : E} {r : Except InputFault Unit} :
      Reachable source s → release source x s e = (r, s', e') → Reachable source s'

lemma Reachable.wellFormed (h : source.Faithful accepted) {s : DriverState G}
    (hs : Reachable source s) : s.WellFormed := by
  induction hs with
  | initial => exact fun entry hentry => by cases hentry
  | submit hs hr ih => exact (h.submit_spec ih hr).wellFormed
  | release hs hr ih => exact release_wellFormed ih hr

lemma Reachable.submitAll {steps : List (InputEvent × Option (PointerState G))} {s s' : DriverState G}
    {e e' : E} {r : Except SubmissionFailure Unit} (hs : Reachable source s)
    (hr : submitAll source steps s e = (r, s', e')) : Reachable source s' := by
  induction steps generalizing s e with
  | nil =>
    cases hr
    exact hs
  | cons step steps ih =>
    obtain ⟨event, pointer⟩ := step
    unfold WindowMessage.submitAll at hr
    rcases hsubmit : WindowMessage.submit source event pointer s e with ⟨r₁, s₁, e₁⟩
    rw [hsubmit] at hr
    cases r₁ with
    | error failure =>
      cases hr
      exact hs.submit hsubmit
    | ok u => exact ih (hs.submit hsubmit) hr

theorem submitAll_agrees (h : source.Faithful accepted)
    {steps : List (InputEvent × Option (PointerState G))} (hs : s.WellFormed)
    {list : List PressedState} (hlist : s.Agrees list)
    (hr : submitAll source steps s e = (.ok (), s', e')) :
    s'.Agrees ((steps.map Prod.fst).foldl
      (Holding.hold InputEvent.presses InputEvent.releases) list) := by
  induction steps generalizing s e list with
  | nil =>
    cases hr
    exact hlist
  | cons step steps ih =>
    obtain ⟨event, pointer⟩ := step
    unfold submitAll at hr
    rcases hsubmit : submit source event pointer s e with ⟨r, s₁, e₁⟩
    simp only [hsubmit] at hr
    have hone := h.submit_spec hs hsubmit
    cases r with
    | error failure => cases hr
    | ok u => exact ih hone.wellFormed (hone.done rfl list hlist) hr

/-- **The record of the driver**, over every run and every reachable state. -/
structure DriverLaw (source : WindowMessageSource G E) (accepted : E → List MessageUnit) : Prop where
  /-- after any events that were all submitted -/
  held : ∀ (steps : List (InputEvent × Option (PointerState G))) (e e' : E) (s' : DriverState G),
    submitAll source steps .initial e = (.ok (), s', e') →
      s'.keys.map SystemKeyState.logical = (held (steps.map Prod.fst)).filterMap asKey ∧
      s'.buttons.map SystemButtonState.logical = (held (steps.map Prod.fst)).filterMap asButton
  /-- after the first `n` events of a sequence -/
  heldAfter : ∀ (sequence : InputSequence) (n : ℕ)
    (steps : List (InputEvent × Option (PointerState G))) (e e' : E) (s' : DriverState G),
    steps.map Prod.fst = sequence.events.take n →
    submitAll source steps .initial e = (.ok (), s', e') →
      s'.keys.map SystemKeyState.logical = (sequence.heldAfter n).reverse.filterMap asKey ∧
      s'.buttons.map SystemButtonState.logical =
        (sequence.heldAfter n).reverse.filterMap asButton
  /-- a failure without effect -/
  harmless : ∀ s, Reachable source s → ∀ event pointer e failure s' e',
    submit source event pointer s e = (.error failure, s', e') →
    failure.currentEventMayHaveEffect = false → accepted e' = accepted e ∧ s' = s
  /-- a failed press -/
  pressed : ∀ s, Reachable source s → ∀ event pointer e failure s' e' x,
    submit source event pointer s e = (.error failure, s', e') → event.presses = some x →
    (Recorded s x s' ↔ failure.currentEventMayLeavePressedState = true) ∧
      (s' = s ↔ failure.currentEventMayLeavePressedState = false)

theorem WindowMessageSource.Faithful.driverLaw (h : source.Faithful accepted) :
    DriverLaw source accepted where
  held steps e e' s' hr :=
    have hall := submitAll_agrees h (Reachable.initial.wellFormed h) .initial hr
    ⟨hall.keys, hall.buttons⟩
  heldAfter sequence n steps e e' s' hsteps hr := by
    have hall := submitAll_agrees h (Reachable.initial.wellFormed h) .initial hr
    rw [InputSequence.heldAfter_eq, List.reverse_reverse, ← hsteps]
    exact ⟨hall.keys, hall.buttons⟩
  harmless _ hs _ _ _ failure _ _ hr := (h.submit_spec (hs.wellFormed h) hr).harmless failure rfl
  pressed _ hs _ _ _ failure _ _ x hr :=
    (h.submit_spec (hs.wellFormed h) hr).pressed failure x rfl

end Submit

/-! ### The native source -/

section Native

variable {G E : Type*}

def NativeWindow.recording (w : NativeWindow G E) : NativeWindow G (E × List MessageUnit) where
  messagePoint screen client x :=
    ((w.messagePoint screen client x.1).1, (w.messagePoint screen client x.1).2, x.2)
  swapButton x := ((w.swapButton x.1).1, (w.swapButton x.1).2, x.2)
  resolveVirtualKey key x := ((w.resolveVirtualKey key x.1).1, (w.resolveVirtualKey key x.1).2, x.2)
  revalidate focus expected x :=
    ((w.revalidate focus expected x.1).1, (w.revalidate focus expected x.1).2, x.2)
  postMessage unit x := ((w.postMessage unit x.1).1, (w.postMessage unit x.1).2,
    x.2 ++ if (w.postMessage unit x.1).1.isOk then [unit] else [])

lemma operationFault_accepted (c : Context E) (x : E × List MessageUnit) :
    (operationFault (besideContext c) x).2.2 = x.2 := by
  have hquiet := (besideContext_quiet c (fun _ e => e)).interruption x
  unfold operationFault
  rcases hx : (besideContext c).interruption x with ⟨i, y⟩
  rw [hx] at hquiet
  cases i with
  | some i => exact hquiet
  | none => exact hquiet

lemma commitWindowMessage_accepted (w : NativeWindow G E) (c : Context E) (focus : FocusPolicy)
    (unit : MessageUnit) (expected : Option G) (x y : E × List MessageUnit)
    (r : Except SubmissionFailure Unit)
    (hr : commitWindowMessage w.recording (besideContext c) focus unit expected x = (r, y)) :
    (r = .ok () → y.2 = x.2 ++ [unit]) ∧
    ∀ failure, r = .error failure →
      failure.currentEventMayLeavePressedState = failure.currentEventMayHaveEffect ∧
      (failure.currentEventMayHaveEffect = false → y.2 = x.2) := by
  have hbefore : ∀ {fault : InputFault} {z : E × List MessageUnit}, z.2 = x.2 →
      ((.error (.beforeEvent fault), z) : Except SubmissionFailure Unit × _) = (r, y) →
      (r = .ok () → y.2 = x.2 ++ [unit]) ∧
      ∀ failure, r = .error failure →
        failure.currentEventMayLeavePressedState = failure.currentEventMayHaveEffect ∧
        (failure.currentEventMayHaveEffect = false → y.2 = x.2) := by
    intro fault z hz heq
    cases heq
    refine ⟨fun h => (by cases h), fun failure hfailure => ?_⟩
    cases hfailure
    exact ⟨rfl, fun _ => hz⟩
  have hduring : ∀ {fault : InputFault} {z : E × List MessageUnit},
      ((.error (.duringEvent fault), z) : Except SubmissionFailure Unit × _) = (r, y) →
      (r = .ok () → y.2 = x.2 ++ [unit]) ∧
      ∀ failure, r = .error failure →
        failure.currentEventMayLeavePressedState = failure.currentEventMayHaveEffect ∧
        (failure.currentEventMayHaveEffect = false → y.2 = x.2) := by
    intro fault z heq
    cases heq
    refine ⟨fun h => (by cases h), fun failure hfailure => ?_⟩
    cases hfailure
    exact ⟨rfl, fun heffect => (by cases heffect)⟩
  unfold commitWindowMessage at hr
  have h₁ := operationFault_accepted c x
  rcases hx₁ : operationFault (besideContext c) x with ⟨r₁, x₁⟩
  rw [hx₁] at h₁
  simp only [hx₁] at hr
  cases r₁ with
  | error fault => exact hbefore h₁ hr
  | ok u =>
    simp only at hr
    have h₂ : (w.recording.revalidate focus expected x₁).2.2 = x₁.2 := rfl
    rcases hx₂ : w.recording.revalidate focus expected x₁ with ⟨r₂, x₂⟩
    rw [hx₂] at h₂
    simp only [hx₂] at hr
    cases r₂ with
    | error fault => exact hbefore (h₂.trans h₁) hr
    | ok u =>
      simp only at hr
      have h₃ := operationFault_accepted c x₂
      rcases hx₃ : operationFault (besideContext c) x₂ with ⟨r₃, x₃⟩
      rw [hx₃] at h₃
      simp only [hx₃] at hr
      have hsame : x₃.2 = x.2 := h₃.trans (h₂.trans h₁)
      cases r₃ with
      | error fault => exact hbefore hsame hr
      | ok u =>
        simp only at hr
        have hpost : (w.recording.postMessage unit x₃).2.2 =
            x₃.2 ++ if (w.recording.postMessage unit x₃).1.isOk then [unit] else [] := rfl
        rcases hx₄ : w.recording.postMessage unit x₃ with ⟨r₄, x₄⟩
        rw [hx₄] at hpost
        simp only [hx₄] at hr
        have h₅ : (w.recording.revalidate focus expected x₄).2.2 = x₄.2 := rfl
        rcases hx₅ : w.recording.revalidate focus expected x₄ with ⟨r₅, x₅⟩
        rw [hx₅] at h₅
        cases r₄ with
        | error fault =>
          have hkept : x₄.2 = x.2 := by
            rw [hpost, hsame]
            exact List.append_nil _
          simp only [hx₅] at hr
          cases r₅ with
          | error lost => exact hbefore (h₅.trans hkept) hr
          | ok u => exact hbefore (h₅.trans hkept) hr
        | ok u =>
          simp only [hx₅] at hr
          cases r₅ with
          | error fault => exact hduring hr
          | ok u =>
            simp only at hr
            have h₆ := operationFault_accepted c x₅
            rcases hx₆ : operationFault (besideContext c) x₅ with ⟨r₆, x₆⟩
            rw [hx₆] at h₆
            simp only [hx₆] at hr
            cases r₆ with
            | error fault => exact hduring hr
            | ok u =>
              cases hr
              refine ⟨fun _ => ?_, fun failure hfailure => (by cases hfailure)⟩
              have hposted : x₄.2 = x₃.2 ++ [unit] := hpost
              rw [h₆, h₅, hposted, hsame]

lemma buttonNumber_mem (button : PointerButton) (swapped : Bool) :
    buttonNumber button swapped ∈ [physicalLeft, physicalRight, physicalMiddle] := by
  cases button <;> cases swapped <;> decide

theorem native_faithful (w : NativeWindow G E) (c : Context E) (focus : FocusPolicy) :
    (nativeSource w.recording (besideContext c) focus).Faithful Prod.snd where
  clientPoint _ _ := rfl
  screenPoint _ _ := rfl
  resolveButton _ _ := rfl
  resolveKey _ _ := rfl
  physical button x y physical hr := by
    obtain ⟨hphysical, -⟩ := Prod.mk.inj hr
    rw [← Except.ok.inj hphysical]
    exact buttonNumber_mem button _
  posted unit expected x y hr :=
    (commitWindowMessage_accepted w c focus unit expected x y _ hr).1 rfl
  refused unit expected x y failure hr :=
    (commitWindowMessage_accepted w c focus unit expected x y _ hr).2 failure rfl

/-- **The driver's record keeps step.**  On every source that tells what it accepted, the record is
the held list of the submitted events, a failure without effect leaves everything as it was, and a
failed press is recorded exactly if its failure says so; and the native source is such a source. -/
theorem window_message_law :
    (∀ (source : WindowMessageSource G E) (accepted : E → List MessageUnit),
      source.Faithful accepted → DriverLaw source accepted) ∧
    ∀ (w : NativeWindow G E) (c : Context E) (focus : FocusPolicy),
      (nativeSource w.recording (besideContext c) focus).Faithful Prod.snd :=
  ⟨fun _ _ h => h.driverLaw, native_faithful⟩

end Native

/-! ### A window whose queue is full once -/

def openWindow : NativeWindow Unit ℕ where
  messagePoint _ _ e := (.ok (0, 0), e)
  swapButton e := (false, e)
  resolveVirtualKey _ e := (.ok ⟨0x10, 0x2a, false⟩, e)
  revalidate _ _ e := (.ok (), e)
  postMessage _ e := (if e = 3 then .error .policyRefused else .ok (), e + 1)

def openSource : WindowMessageSource Unit (ℕ × List MessageUnit) :=
  nativeSource openWindow.recording (besideContext sleepClock) .preserve

/-- Two keys are pressed and the first is released; the press of a third is refused. -/
theorem window_message_law_sample :
    ∃ (s : DriverState Unit) (x : ℕ × List MessageUnit) (failure : SubmissionFailure)
      (s' : DriverState Unit) (x' : ℕ × List MessageUnit),
      submitAll openSource [(.keyPress .enter, none), (.keyPress .tab, none), (.keyRelease .enter, none)]
        .initial (0, []) = (.ok (), s, x) ∧ s.keys.map SystemKeyState.logical = [.tab] ∧
      submit openSource (.keyPress .escape) none s x = (.error failure, s', x') ∧
      x.2.length = 3 ∧ x'.2 = x.2 ∧ s' = s := by
  have hlaw : DriverLaw openSource Prod.snd :=
    window_message_law.1 _ _ (native_faithful openWindow sleepClock .preserve)
  let steps : List (InputEvent × Option (PointerState Unit)) :=
    [(.keyPress .enter, none), (.keyPress .tab, none), (.keyRelease .enter, none)]
  let reached := submitAll openSource steps .initial (0, [])
  have hsteps : submitAll openSource steps .initial (0, []) = (.ok (), reached.2.1, reached.2.2) := rfl
  let refused := submit openSource (.keyPress .escape) none reached.2.1 reached.2.2
  have hrefused : refused = (.error (.beforeEvent .policyRefused), refused.2.1, refused.2.2) := rfl
  obtain ⟨haccepted, hsame⟩ :=
    hlaw.harmless _ (Reachable.initial.submitAll hsteps) _ _ _ _ _ _ hrefused rfl
  exact ⟨_, _, _, _, _, hsteps, (hlaw.held _ _ _ _ hsteps).1, hrefused, rfl, haccepted, hsame⟩

end MadoPilot.Platform.WindowMessage
