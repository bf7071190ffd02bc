import MadoPilot.Lib.Mutex
import MadoPilot.Onnx.SessionSlot

/-!
# The law of the session slot

The callers of a slot follow the custody machine, whatever the order of their steps, whichever bodies
panic and however often the mutex is found contended.

* `Located.step` : one step of a caller, and where the value is after it;
* `slot_follows_custody` : whole runs;
* `refusal_step`, `closed_step` : refusals change nothing, and close is final;
* `session_slot` : the law.
-/

namespace MadoPilot.Onnx

open MadoPilot.Lib

variable {τ T : Type*} [DecidableEq τ] {t : τ} {s s' : SessionSlot T} {pc pc' : Pc T} {e : Event T}
  {w w' : SlotWorld τ T} {c : Custody τ T}

/-! ### Sections -/

theorem admit_eq_ok {contended : Bool} {v : T} (hs : s.poisoned = false)
    (h : s.admission contended = (.ok v, s')) :
    s.state = .opened v ∧ s' = { s with state := .running } := by
  obtain ⟨state, poisoned⟩ := s
  obtain rfl : poisoned = false := hs
  unfold SessionSlot.admission at h
  cases contended with
  | true => cases h
  | false =>
    cases state with
    | opened u =>
      cases h
      exact ⟨rfl, rfl⟩
    | running => cases h
    | closed => cases h

theorem admit_eq_error {contended : Bool} {fault : OnnxBackendFault} (hs : s.poisoned = false)
    (h : s.admission contended = (.error fault, s')) :
    s' = s ∧ (fault = .busy ∧ (contended = true ∨ s.state = .running) ∨
      fault = .closed ∧ s.state = .closed) := by
  obtain ⟨state, poisoned⟩ := s
  obtain rfl : poisoned = false := hs
  unfold SessionSlot.admission at h
  cases contended with
  | true =>
    cases h
    exact ⟨rfl, Or.inl ⟨rfl, Or.inl rfl⟩⟩
  | false =>
    cases state with
    | opened u => cases h
    | running =>
      cases h
      exact ⟨rfl, Or.inl ⟨rfl, Or.inr rfl⟩⟩
    | closed =>
      cases h
      exact ⟨rfl, Or.inr ⟨rfl, rfl⟩⟩

theorem close_eq_ok {contended : Bool} {v : T} (hs : s.poisoned = false)
    (h : s.close contended = (.ok (some v), s')) :
    s.state = .opened v ∧ s' = { s with state := .closed } := by
  obtain ⟨state, poisoned⟩ := s
  obtain rfl : poisoned = false := hs
  unfold SessionSlot.close at h
  cases contended with
  | true => cases h
  | false =>
    cases state with
    | opened u =>
      cases h
      exact ⟨rfl, rfl⟩
    | running => cases h
    | closed => cases h

theorem close_keeps {contended : Bool} {result : Except OnnxBackendFault (Option T)}
    (hs : s.poisoned = false) (h : s.close contended = (result, s'))
    (hr : (Event.closed result).moves = false) :
    s' = s ∧ (result = .error .busy ∧ (contended = true ∨ s.state = .running) ∨
      result = .ok none ∧ s.state = .closed) := by
  obtain ⟨state, poisoned⟩ := s
  obtain rfl : poisoned = false := hs
  unfold SessionSlot.close at h
  cases contended with
  | true =>
    cases h
    exact ⟨rfl, Or.inl ⟨rfl, Or.inl rfl⟩⟩
  | false =>
    cases state with
    | opened u =>
      cases h
      cases hr
    | running =>
      cases h
      exact ⟨rfl, Or.inl ⟨rfl, Or.inr rfl⟩⟩
    | closed =>
      cases h
      exact ⟨rfl, Or.inr ⟨rfl, rfl⟩⟩

/-! ### Where the value is -/

def Custody.state : Custody τ T → BackendState T
  | slot v => .opened v
  | caller _ => .running
  | gone => .closed

def Custody.holder : Custody τ T → Option τ
  | caller t => some t
  | slot _ | gone => none

structure Located (c : Custody τ T) (w : SlotWorld τ T) : Prop where
  sound : w.shared.poisoned = false
  state : w.shared.state = c.state
  callers : Mutex.Fits c.holder fun t => (w.pc t).holds

omit [DecidableEq τ] in
theorem Located.start (v : T) : Located (.slot v) (SlotWorld.start τ v) :=
  ⟨rfl, rfl, Mutex.Fits.start⟩

omit [DecidableEq τ] in
theorem Located.slot_of_opened (h : Located c w) {v : T} (hs : w.shared.state = .opened v) :
    c = .slot v := by
  rw [h.state] at hs
  cases c with
  | slot => cases hs; rfl
  | caller => cases hs
  | gone => cases hs

omit [DecidableEq τ] in
theorem Located.gone_of_closed (h : Located c w) (hs : w.shared.state = .closed) : c = .gone := by
  rw [h.state] at hs
  cases c with
  | slot => cases hs
  | caller => cases hs
  | gone => rfl

omit [DecidableEq τ] in
theorem Located.caller_of_holds (h : Located c w) (ht : (w.pc t).holds = true) : c = .caller t := by
  have hholder : c.holder = some t := (h.callers t).mp ht
  cases c with
  | slot => cases hholder
  | caller => cases hholder; rfl
  | gone => cases hholder

theorem Located.move {c' : Custody τ T} (h : Located c w) (hp : s'.poisoned = false)
    (hs : s'.state = c'.state)
    (hm : Mutex.Move t c.holder (w.pc t).holds c'.holder pc'.holds) :
    Located c' (w.move t s' pc') := by
  refine ⟨hp, hs, ?_⟩
  have hsame : (fun u => ((w.move t s' pc').pc u).holds) =
      Function.update (fun u => (w.pc u).holds) t pc'.holds := Function.comp_update Pc.holds w.pc t pc'
  rw [hsame]
  exact h.callers.move hm

theorem Located.keep (h : Located c w) (hs : s' = w.shared) (hpc : pc'.holds = (w.pc t).holds) :
    Located c (w.move t s' pc') := by
  subst hs
  refine h.move h.sound h.state ?_
  rw [hpc]
  exact .stay ..

theorem Located.step (h : Located c w) (ha : Act w.shared (w.pc t) e s' pc') :
    ∃ c', Custody.Step c (t, e) c' ∧ Located c' (w.move t s' pc') := by
  generalize hpc : w.pc t = pc at ha
  cases ha with
  | @admits _ v contended hadmit =>
    obtain ⟨hopen, rfl⟩ := admit_eq_ok h.sound hadmit
    obtain rfl := h.slot_of_opened hopen
    refine ⟨.caller t, .admitted v t, h.move h.sound rfl ?_⟩
    rw [hpc]
    exact .lock
  | refuse contended hadmit =>
    obtain ⟨hsame, -⟩ := admit_eq_error h.sound hadmit
    exact ⟨c, .keep c rfl, h.keep hsame (by rw [hpc])⟩
  | finish v' panicking => exact ⟨c, .keep c rfl, h.keep rfl (by rw [hpc]; rfl)⟩
  | @restore v =>
    obtain rfl := h.caller_of_holds (t := t) (by rw [hpc]; rfl)
    refine ⟨.slot v, .restored v t, h.move h.sound rfl ?_⟩
    rw [hpc]
    exact .unlock _
  | @destroy v =>
    obtain rfl := h.caller_of_holds (t := t) (by rw [hpc]; rfl)
    refine ⟨.gone, .destroyed v t, h.move h.sound rfl ?_⟩
    rw [hpc]
    exact .unlock _
  | @close _ result contended hclose =>
    cases hmoves : (Event.closed result).moves with
    | false =>
      obtain ⟨hsame, -⟩ := close_keeps h.sound hclose hmoves
      exact ⟨c, .keep c hmoves, h.keep hsame (by rw [hpc])⟩
    | true =>
      obtain ⟨v, rfl⟩ : ∃ v, result = .ok (some v) := by
        rcases result with fault | _ | v
        · cases hmoves
        · cases hmoves
        · exact ⟨v, rfl⟩
      obtain ⟨hopen, rfl⟩ := close_eq_ok h.sound hclose
      obtain rfl := h.slot_of_opened hopen
      refine ⟨.gone, .released v t, h.move h.sound rfl ?_⟩
      rw [hpc]
      exact .stay ..

/-! ### Runs -/

theorem slot_follows_custody {v : T} {trail : List (SlotWorld τ T × (τ × Event T))}
    (h : (slotSystem τ v).Path (SlotWorld.start τ v) trail w) :
    ∃ trail' c, (Custody.machine τ v).Path (.slot v) trail' c ∧
      trail'.map Prod.snd = trail.map Prod.snd ∧ Located c w := by
  refine h.simulated (R := Located) (fun c w label w' hloc hstep => ?_) (.start v)
  obtain ⟨s', pc', hact, rfl⟩ := hstep
  exact hloc.step hact

theorem located {v : T} (h : (slotSystem τ v).Reachable w) : ∃ c, Located c w := by
  obtain ⟨_, rfl, trail, hpath⟩ := h
  obtain ⟨-, c, -, -, hloc⟩ := slot_follows_custody hpath
  exact ⟨c, hloc⟩

theorem closed_step {v : T} {label : τ × Event T} (h : (slotSystem τ v).Reachable w)
    (hs : (slotSystem τ v).step w label w') (hc : w.shared.state = .closed) :
    w'.shared.state = .closed := by
  obtain ⟨c, hloc⟩ := located h
  obtain ⟨s', pc', hact, rfl⟩ := hs
  obtain ⟨c', hstep, hloc'⟩ := hloc.step hact
  obtain rfl := hloc.gone_of_closed hc
  obtain ⟨rfl, -⟩ := hstep.gone
  exact hloc'.state

def Event.refuses : Event T → Bool
  | refused _ | closed (.error _) => true
  | _ => false

theorem refusal_step {v : T} (h : (slotSystem τ v).Reachable w)
    (hs : (slotSystem τ v).step w (t, e) w') (he : e.refuses = true) :
    w' = w ∧ (e = .refused .busy ∨ e = .closed (.error .busy) ∨
      e = .refused .closed ∧ w.shared.state = .closed) := by
  obtain ⟨c, hloc⟩ := located h
  obtain ⟨s', pc', hact, rfl⟩ := hs
  have hidle : s' = w.shared → pc' = w.pc t → w.move t s' pc' = w := by
    rintro rfl rfl
    exact w.move_self t
  generalize hpc : w.pc t = pc at hact hidle
  cases hact with
  | refuse contended hadmit =>
    obtain ⟨hsame, ⟨rfl, -⟩ | ⟨rfl, hclosed⟩⟩ := admit_eq_error hloc.sound hadmit
    · exact ⟨hidle hsame rfl, Or.inl rfl⟩
    · exact ⟨hidle hsame rfl, Or.inr (Or.inr ⟨rfl, hclosed⟩)⟩
  | @close _ result contended hclose =>
    have hmoves : (Event.closed result).moves = false := by
      cases result with
      | error => rfl
      | ok => cases he
    obtain ⟨hsame, ⟨rfl, -⟩ | ⟨rfl, -⟩⟩ := close_keeps hloc.sound hclose hmoves
    · exact ⟨hidle hsame rfl, Or.inr (Or.inl rfl)⟩
    · cases he
  | admits => cases he
  | finish => cases he
  | restore => cases he
  | destroy => cases he

theorem destroyed_step {v u : T} (hs : (slotSystem τ v).step w (t, .destroyed u) w') :
    w.pc t = .dropping u true := by
  obtain ⟨s', pc', hact, -⟩ := hs
  generalize w.pc t = pc at hact
  cases hact
  rfl

/-- **The session slot.**  In every run, whichever bodies panic and whenever the mutex is found
contended: the value changes hands as the custody machine says, from the slot to one admitted call or
one close at a time, and back, or, where a body panicked, to nobody; at most one caller has it; `Closed`
stays; and a refusal of admission or close changes nothing. -/
theorem session_slot {v : T} {trail : List (SlotWorld τ T × (τ × Event T))}
    (h : (slotSystem τ v).Path (SlotWorld.start τ v) trail w) :
    (∃ trail' c, (Custody.machine τ v).Path (.slot v) trail' c ∧
      trail'.map Prod.snd = trail.map Prod.snd ∧ Located c w) ∧
    (∀ t u, (w.pc t).holds = true → (w.pc u).holds = true → t = u) ∧
    (∀ t u w', (slotSystem τ v).step w (t, .destroyed u) w' → w.pc t = .dropping u true) ∧
    (w.shared.state = .closed → ∀ w', (slotSystem τ v).Leads w w' → w'.shared.state = .closed) ∧
    ∀ t e w', (slotSystem τ v).step w (t, e) w' → e.refuses = true →
      w' = w ∧ (e = .refused .busy ∨ e = .closed (.error .busy) ∨
        e = .refused .closed ∧ w.shared.state = .closed) := by
  have hreach : (slotSystem τ v).Reachable w := ⟨_, rfl, h.leads⟩
  obtain ⟨c, hloc⟩ := located hreach
  refine ⟨slot_follows_custody h, ?_, ?_, ?_, ?_⟩
  · intro t u ht hu
    exact hloc.callers.unique ht hu
  · intro t u w' hs
    exact destroyed_step hs
  · intro hc w' hleads
    refine hleads.preserves (P := fun w => w.shared.state = .closed) ?_ hreach hc
    exact fun _ _ _ hr hP hs => closed_step hr hs hP
  · intro t e w' hs he
    exact refusal_step hreach hs he

/-- A body panics while another caller is turned away. -/
theorem session_slot_sample :
    ∃ w : SlotWorld Bool ℕ, w.shared.state = .closed ∧
      ∀ w', (slotSystem Bool 7).Leads w w' → w'.shared.state = .closed := by
  let w₀ := SlotWorld.start Bool 7
  let w₁ := w₀.move true ⟨.running, false⟩ (.body 7)
  let w₂ := w₁.move false ⟨.running, false⟩ .idle
  let w₃ := w₂.move true ⟨.running, false⟩ (.dropping 8 true)
  have h₁ : (slotSystem Bool 7).step w₀ (true, .admitted 7) w₁ := ⟨_, _, .admits false rfl, rfl⟩
  have h₂ : (slotSystem Bool 7).step w₁ (false, .refused .busy) w₂ := ⟨_, _, .refuse false rfl, rfl⟩
  have h₃ : (slotSystem Bool 7).step w₂ (true, .finished true) w₃ := ⟨_, _, .finish 8 true, rfl⟩
  have h₄ : (slotSystem Bool 7).step w₃ (true, .destroyed 8) (w₃.move true ⟨.closed, false⟩ .idle) :=
    ⟨_, _, .destroy, rfl⟩
  have hpath := ((((System.Path.nil w₀).snoc h₁).snoc h₂).snoc h₃).snoc h₄
  exact ⟨_, rfl, (session_slot hpath).2.2.2.1 rfl⟩

end MadoPilot.Onnx
