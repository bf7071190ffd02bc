import MadoPilot.Capture.StreamLifecycle

/-!
# The calls of one session

Any number of threads call `acquire_frame`, `commit_frame`, `recognize`, `scan_ocr_zones`,
`find_template` and `close` on one session, while others work on its stream.  A step is one access to
what the threads share (the stream of `Capture.StreamMachine`, the flag `closing`, the identities of
the diagnostic stream), one consultation of the caller's operation context, or one step of caller
or backend work.

* `Act.capture` : a step of the session is at most one step of its stream;
* `capture_reachable` : the stream of a session is a stream.
-/

namespace MadoPilot.Session

open MadoPilot.Core MadoPilot.Lib
open MadoPilot.Capture (Frame FrameSelection CaptureFault StreamWorld streamSystem)

/-! ### Calls -/

inductive SearchFrame where
  | latest
  | exact (frame : Frame)
  deriving DecidableEq

/-- The visual operations of a session. -/
inductive Call where
  | acquireFrame (request : FrameSelection)
  | commitFrame (frame : Frame)
  | recognize (frame : Frame)
  | scanOcrZones (frame : Frame)
  | findTemplate (frame : SearchFrame)
  deriving DecidableEq

/-- What they return; `β` is what a matcher or a recognizer answers. -/
inductive Answer (β : Type*) where
  | frame (frame : Frame)
  | committed
  | recognized (result : β)
  | found (frame : Frame) (result : β)

/-- Where a call stands.  `result` is the backend's answer once there is one. -/
inductive Stage (β : Type*) where
  /-- `observe`: the operation admission and the identity -/
  | observing
  | issuing
  /-- `acquire`: `close_started()`, `lifecycle()`, and the refusal of a closing session -/
  | starting (request : FrameSelection)
  | closingSeen (request : FrameSelection)
  | refusing
  /-- inside the stream's `frame` and `commit_frame` -/
  | framing (pc : Capture.Pc)
  | committing (frame : Frame) (result : Option β) (pc : Capture.Pc)
  /-- `commit_while_open` -/
  | gate (frame : Frame) (result : Option β)
  /-- before and inside the backend -/
  | admitted (frame : Frame)
  | working (frame : Frame)

inductive CloseStage where
  | watcher
  | observing
  | issuing
  | input
  | capture (input : Except Error Unit)
  | draining (input : Except Error Unit) (pc : Capture.Pc)

/-- Where a thread stands: at work on the stream itself, in a call, or in a close. -/
inductive Pc (β : Type*) where
  | adapter (pc : Capture.Pc)
  | call (call : Call) (stage : Stage β)
  | close (stage : CloseStage)

/-- What a step makes observable.  `seen` is what the caller's context answered in the step that ends
the call, if it was asked there. -/
inductive Event (β : Type*) where
  | silent
  | capture (e : Capture.Event)
  | called (call : Call)
  | backend (call : Call) (frame : Frame)
  | returned (call : Call) (seen : Option Interruption) (result : Except Error (Answer β))
  | closed (result : Except Error Unit)

namespace Call

def observed : Call → Bool
  | commitFrame _ => false
  | _ => true

def usesOcr : Call → Bool
  | recognize _ | scanOcrZones _ => true
  | _ => false

variable {β : Type*}

/-- The first stage after `observe`. -/
def begin : Call → Stage β
  | acquireFrame request => .starting request
  | commitFrame frame | recognize frame | scanOcrZones frame | findTemplate (.exact frame) =>
    .committing frame none (.commitAdmit frame)
  | findTemplate .latest => .starting .latest

def enter (call : Call) (diagnostics : Bool) : Stage β :=
  if diagnostics && call.observed then .observing else call.begin

/-- What a call returns once a commit has passed the gate, if it was its last one. -/
def answer (call : Call) (frame : Frame) (result : Option β) : Option (Answer β) :=
  match call, result with
  | acquireFrame _, _ => some (.frame frame)
  | commitFrame _, _ => some .committed
  | _, none => none
  | findTemplate _, some b => some (.found frame b)
  | _, some b => some (.recognized b)

def OfStream (stream : StreamId) : Call → Prop
  | commitFrame frame | recognize frame | scanOcrZones frame | findTemplate (.exact frame) =>
    frame.stamp.stream = stream
  | _ => True

end Call

/-! ### Threads -/

/-- What the threads share.  `nextOperation` is the counter of the diagnostic identities, which the
engine's other sessions draw from as well. -/
structure Shared (τ : Type*) where
  capture : Capture.Shared τ
  closing : Bool
  nextOperation : ℕ

/-- What is installed in a session: diagnostics and a recognizer. -/
structure Config where
  diagnostics : Bool
  ocr : Bool

/-- The counter after an identity was issued; zero once the identities are exhausted. -/
def nextIdentity (current : ℕ) : ℕ := if current = u64Max then 0 else current + 1

@[simp] theorem nextIdentity_max : nextIdentity u64Max = 0 := if_pos rfl

/-- `issue_operation` on a counter at zero. -/
def operationsExhausted : Error :=
  ⟨.limitExceeded, "diagnostic operation identity space is exhausted"⟩

def backendUnavailable : Error := ⟨.visionFailed, "OCR backend is not available"⟩

section Acts

variable {τ β : Type*}

def Shared.setCapture (s : Shared τ) (c : Capture.Shared τ) : Shared τ := { s with capture := c }

/-- The steps of the visual operations. -/
inductive CallAct (config : Config) : Shared τ → Pc β → Event β → Shared τ → Pc β → Prop
  | call {s : Shared τ} (call : Call) :
      CallAct config s (.adapter .idle) (.called call) s (.call call (call.enter config.diagnostics))
  | observeRefused {s : Shared τ} {call : Call} (seen : Option Interruption) {i : Interruption} :
      Operation.admitContext seen = .error i →
      CallAct config s (.call call .observing) (.returned call seen (.error i.toError)) s (.adapter .idle)
  | observeAdmitted {s : Shared τ} {call : Call} (seen : Option Interruption) {op : Operation} :
      Operation.admitContext seen = .ok op →
      CallAct config s (.call call .observing) .silent s (.call call .issuing)
  | exhausted {s : Shared τ} {call : Call} : s.nextOperation = 0 →
      CallAct config s (.call call .issuing) (.returned call none (.error operationsExhausted)) s
        (.adapter .idle)
  | issued {s : Shared τ} {call : Call} : s.nextOperation ≠ 0 →
      CallAct config s (.call call .issuing) .silent
        { s with nextOperation := nextIdentity s.nextOperation } (.call call call.begin)
  | startsOpen {s : Shared τ} {call : Call} {request : FrameSelection} : s.closing = false →
      CallAct config s (.call call (.starting request)) .silent s
        (.call call (.framing (.frameAdmit request)))
  | startsClosing {s : Shared τ} {call : Call} {request : FrameSelection} : s.closing = true →
      CallAct config s (.call call (.starting request)) .silent s (.call call (.closingSeen request))
  | streamOpen {s : Shared τ} {call : Call} {request : FrameSelection} :
      s.capture.holder = none → s.capture.inner.lifecycle = .opened →
      CallAct config s (.call call (.closingSeen request)) .silent s (.call call .refusing)
  | streamEnded {s : Shared τ} {call : Call} {request : FrameSelection} :
      s.capture.holder = none → s.capture.inner.lifecycle ≠ .opened →
      CallAct config s (.call call (.closingSeen request)) .silent s
        (.call call (.framing (.frameAdmit request)))
  | refuseInterrupted {s : Shared τ} {call : Call} (seen : Option Interruption) {i : Interruption} :
      Operation.admitContext seen = .error i →
      CallAct config s (.call call .refusing) (.returned call seen (.error i.toError)) s (.adapter .idle)
  | refuse {s : Shared τ} {call : Call} (seen : Option Interruption) {op : Operation} :
      Operation.admitContext seen = .ok op →
      CallAct config s (.call call .refusing)
        (.returned call none (.error CaptureFault.sessionClosed.toError)) s (.adapter .idle)
  | framing {s : Shared τ} {call : Call} {pc pc' : Capture.Pc} {c : Capture.Shared τ} :
      Capture.FrameAct s.capture pc .silent c pc' →
      CallAct config s (.call call (.framing pc)) .silent (s.setCapture c) (.call call (.framing pc'))
  | framed {s : Shared τ} {call : Call} {pc : Capture.Pc} {c : Capture.Shared τ}
      {request : FrameSelection} {seen : Option Interruption} {frame : Frame} :
      Capture.FrameAct s.capture pc (.framed request seen (.ok frame)) c .idle →
      CallAct config s (.call call (.framing pc)) .silent (s.setCapture c)
        (.call call (.gate frame none))
  | frameFailed {s : Shared τ} {call : Call} {pc : Capture.Pc} {c : Capture.Shared τ}
      {request : FrameSelection} {seen : Option Interruption} {error : Error} :
      Capture.FrameAct s.capture pc (.framed request seen (.error error)) c .idle →
      CallAct config s (.call call (.framing pc)) (.returned call seen (.error error)) (s.setCapture c)
        (.adapter .idle)
  | committing {s : Shared τ} {call : Call} {frame : Frame} {result : Option β}
      {pc pc' : Capture.Pc} {c : Capture.Shared τ} :
      Capture.FrameAct s.capture pc .silent c pc' →
      CallAct config s (.call call (.committing frame result pc)) .silent (s.setCapture c)
        (.call call (.committing frame result pc'))
  | committed {s : Shared τ} {call : Call} {frame named : Frame} {result : Option β}
      {pc : Capture.Pc} {c : Capture.Shared τ} {seen : Option Interruption} :
      Capture.FrameAct s.capture pc (.committed named seen (.ok ())) c .idle →
      CallAct config s (.call call (.committing frame result pc)) .silent (s.setCapture c)
        (.call call (.gate frame result))
  | commitFailed {s : Shared τ} {call : Call} {frame named : Frame} {result : Option β}
      {pc : Capture.Pc} {c : Capture.Shared τ} {seen : Option Interruption} {error : Error} :
      Capture.FrameAct s.capture pc (.committed named seen (.error error)) c .idle →
      CallAct config s (.call call (.committing frame result pc)) (.returned call seen (.error error))
        (s.setCapture c) (.adapter .idle)
  | gateClosed {s : Shared τ} {call : Call} {frame : Frame} {result : Option β} :
      s.closing = true →
      CallAct config s (.call call (.gate frame result))
        (.returned call none (.error CaptureFault.sessionClosed.toError)) s (.adapter .idle)
  | gateReturns {s : Shared τ} {call : Call} {frame : Frame} {result : Option β}
      {answer : Answer β} : s.closing = false → call.answer frame result = some answer →
      CallAct config s (.call call (.gate frame result)) (.returned call none (.ok answer)) s
        (.adapter .idle)
  | gateAdmits {s : Shared τ} {call : Call} {frame : Frame} {result : Option β} :
      s.closing = false → call.answer frame result = none →
      CallAct config s (.call call (.gate frame result)) .silent s (.call call (.admitted frame))
  | unavailable {s : Shared τ} {call : Call} {frame : Frame} :
      call.usesOcr = true → config.ocr = false →
      CallAct config s (.call call (.admitted frame)) (.returned call none (.error backendUnavailable)) s
        (.adapter .idle)
  | works {s : Shared τ} {call : Call} {frame : Frame} :
      (call.usesOcr = true → config.ocr = true) →
      CallAct config s (.call call (.admitted frame)) (.backend call frame) s
        (.call call (.working frame))
  | workFailed {s : Shared τ} {call : Call} {frame : Frame} (seen : Option Interruption) (error : Error) :
      CallAct config s (.call call (.working frame)) (.returned call seen (.error error)) s
        (.adapter .idle)
  | worked {s : Shared τ} {call : Call} {frame : Frame} (result : β) :
      CallAct config s (.call call (.working frame)) .silent s
        (.call call (.committing frame (some result) (.commitAdmit frame)))

def andThen (input capture : Except Error Unit) : Except Error Unit :=
  match input with
  | .ok () => capture
  | .error error => .error error

/-- The steps of `close`. -/
inductive CloseAct (config : Config) : Shared τ → Pc β → Event β → Shared τ → Pc β → Prop
  | begin {s : Shared τ} :
      CloseAct config s (.adapter .idle) .silent { s with closing := true } (.close .watcher)
  | watcher {s : Shared τ} :
      CloseAct config s (.close .watcher) .silent s
        (.close (if config.diagnostics then .observing else .input))
  | observeRefused {s : Shared τ} (seen : Option Interruption) {i : Interruption} :
      Operation.admitContext seen = .error i →
      CloseAct config s (.close .observing) (.closed (.error i.toError)) s (.adapter .idle)
  | observeAdmitted {s : Shared τ} (seen : Option Interruption) {op : Operation} :
      Operation.admitContext seen = .ok op →
      CloseAct config s (.close .observing) .silent s (.close .issuing)
  | exhausted {s : Shared τ} : s.nextOperation = 0 →
      CloseAct config s (.close .issuing) (.closed (.error operationsExhausted)) s (.adapter .idle)
  | issued {s : Shared τ} : s.nextOperation ≠ 0 →
      CloseAct config s (.close .issuing) .silent
        { s with nextOperation := nextIdentity s.nextOperation } (.close .input)
  | input {s : Shared τ} (result : Except Error Unit) :
      CloseAct config s (.close .input) .silent s (.close (.capture result))
  | capture {s : Shared τ} {input : Except Error Unit} :
      CloseAct config s (.close (.capture input)) .silent (s.setCapture s.capture.refuseDrops)
        (.close (.draining input .drainClosing))
  | draining {s : Shared τ} {input : Except Error Unit} {pc pc' : Capture.Pc}
      {c : Capture.Shared τ} : Capture.CloseAct s.capture pc .silent c pc' →
      CloseAct config s (.close (.draining input pc)) .silent (s.setCapture c)
        (.close (.draining input pc'))
  | drained {s : Shared τ} {input result : Except Error Unit} {pc : Capture.Pc}
      {c : Capture.Shared τ} {seen : Option Interruption} :
      Capture.CloseAct s.capture pc (.drained seen result) c .idle →
      CloseAct config s (.close (.draining input pc)) (.closed (andThen input result))
        (s.setCapture c) (.adapter .idle)

/-- One step of the thread `t`, seen from the thread. -/
inductive Act (config : Config) (round : ℚ → Option ℚ) (t : τ) (s : Shared τ) (pc : Pc β)
    (e : Event β) (s' : Shared τ) (pc' : Pc β) : Prop
  | call (h : CallAct config s pc e s' pc')
  | close (h : CloseAct config s pc e s' pc')
  | adapter {cpc cpc' : Capture.Pc} {ce : Capture.Event} {c : Capture.Shared τ}
      (hpc : pc = .adapter cpc) (h : Capture.Act round t s.capture cpc ce c cpc')
      (he : e = .capture ce) (hs : s' = s.setCapture c) (hpc' : pc' = .adapter cpc')
  | issuesOther (hpc : pc = .adapter .idle) (hnext : s.nextOperation ≠ 0) (he : e = .silent)
      (hs : s' = { s with nextOperation := nextIdentity s.nextOperation }) (hpc' : pc' = pc)

end Acts

abbrev SessionWorld (τ β : Type*) := World τ (Shared τ) (Pc β)

/-- A session on a fresh stream, with diagnostics that may have issued identities before. -/
def SessionWorld.start (τ β : Type*) (stream : StreamId) (covers : Bool) (nextOperation : ℕ) :
    SessionWorld τ β :=
  ⟨⟨(StreamWorld.start τ stream covers).shared, false, nextOperation⟩, fun _ => .adapter .idle⟩

abbrev sessionSystem (config : Config) (round : ℚ → Option ℚ) (τ β : Type*) [DecidableEq τ]
    (stream : StreamId) (covers : Bool) (nextOperation : ℕ) :
    System (SessionWorld τ β) (τ × Event β) :=
  threads (Act config round) (SessionWorld.start τ β stream covers nextOperation)

/-! ### The stream of a session -/

section Capture

variable {τ β : Type*} {config : Config} {round : ℚ → Option ℚ} {t : τ} {s s' : Shared τ}
  {pc pc' : Pc β} {e : Event β}

/-- Where the thread stands on the stream. -/
def Pc.capture : Pc β → Capture.Pc
  | .adapter pc | .call _ (.framing pc) | .call _ (.committing _ _ pc) | .close (.draining _ pc) => pc
  | _ => .idle

def streamOf (w : SessionWorld τ β) : StreamWorld τ :=
  ⟨w.shared.capture, fun t => (w.pc t).capture⟩

theorem Call.begin_capture (call : Call) :
    (Pc.call call (call.begin : Stage β)).capture = .idle ∨
      ∃ frame, (Pc.call call (call.begin : Stage β)).capture = .commitAdmit frame := by
  cases call with
  | acquireFrame => exact Or.inl rfl
  | commitFrame frame | recognize frame | scanOcrZones frame => exact Or.inr ⟨frame, rfl⟩
  | findTemplate frame =>
    cases frame with
    | latest => exact Or.inl rfl
    | exact frame => exact Or.inr ⟨frame, rfl⟩

theorem Call.begins (call : Call) (c : Capture.Shared τ) :
    (Pc.call call (call.begin : Stage β)).capture = .idle ∨
      Capture.Act round t c .idle .silent c (Pc.call call (call.begin : Stage β)).capture := by
  rcases @Call.begin_capture β call with h | ⟨frame, h⟩
  · exact Or.inl h
  · rw [h]
    exact Or.inr (.frame (.commitCall frame))

theorem Act.capture (h : Act config round t s pc e s' pc') :
    (s'.capture = s.capture ∧ pc'.capture = pc.capture) ∨
      ∃ ce, Capture.Act round t s.capture pc.capture ce s'.capture pc'.capture := by
  cases h with
  | call h =>
    cases h with
    | call call =>
      unfold Call.enter
      split_ifs
      · exact Or.inl ⟨rfl, rfl⟩
      · exact (call.begins s.capture).imp (fun hb => ⟨rfl, hb⟩) fun ha => ⟨_, ha⟩
    | @issued call => exact (call.begins s.capture).imp (fun hb => ⟨rfl, hb⟩) fun ha => ⟨_, ha⟩
    | startsOpen | streamEnded => exact Or.inr ⟨_, .frame (.call _)⟩
    | framing h | framed h | frameFailed h | committing h | committed h | commitFailed h =>
      exact Or.inr ⟨_, .frame h⟩
    | worked => exact Or.inr ⟨_, .frame (.commitCall _)⟩
    | _ => exact Or.inl ⟨rfl, rfl⟩
  | close h =>
    cases h with
    | watcher =>
      refine Or.inl ⟨rfl, ?_⟩
      cases config.diagnostics <;> rfl
    | capture => exact Or.inr ⟨_, .close .drainCall⟩
    | draining h | drained h => exact Or.inr ⟨_, .close h⟩
    | _ => exact Or.inl ⟨rfl, rfl⟩
  | adapter hpc h he hs hpc' =>
    subst hpc hs hpc'
    exact Or.inr ⟨_, h⟩
  | issuesOther hpc _ he hs hpc' =>
    subst hs hpc'
    exact Or.inl ⟨rfl, rfl⟩

variable [DecidableEq τ] {stream : StreamId} {covers : Bool} {n : ℕ} {w : SessionWorld τ β}

theorem streamOf_move (w : SessionWorld τ β) (t : τ) (s' : Shared τ) (pc' : Pc β) :
    streamOf (w.move t s' pc') =
      (streamOf w).move t s'.capture pc'.capture := by
  unfold streamOf World.move
  congr 1
  exact Function.comp_update Pc.capture w.pc t pc'

theorem capture_reachable (hw : (sessionSystem config round τ β stream covers n).Reachable w) :
    (streamSystem round τ stream covers).Reachable (streamOf w) := by
  have h₀ : (streamSystem round τ stream covers).Reachable
      (streamOf (SessionWorld.start τ β stream covers n)) := .of_init rfl
  refine threads_invariant (P := fun w => (streamSystem round τ stream covers).Reachable (streamOf w))
    h₀ (fun w t e s' pc' _ hr hact => ?_) hw
  rw [streamOf_move w]
  rcases hact.capture with ⟨hs, hpc⟩ | ⟨ce, hce⟩
  · rw [hs, hpc]
    have hsame : (streamOf w).move t w.shared.capture (w.pc t).capture =
        streamOf w := World.move_self (streamOf w) t
    exact hsame.symm ▸ hr
  · have hstep : (streamSystem round τ stream covers).step (streamOf w) (t, ce)
        ((streamOf w).move t s'.capture pc'.capture) := ⟨_, _, hce, rfl⟩
    exact hr.step hstep

end Capture

end MadoPilot.Session
