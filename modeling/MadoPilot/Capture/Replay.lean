import MadoPilot.Lib.Mutex
import MadoPilot.Capture.StreamLifecycle

/-!
# One open replay session

Any number of threads call `frame`, `commit_frame` and `close` on one `ReplaySession`, which the
first of them opened.  A request for a frame newer than a stamp claims the head of the sequence,
compares the maintained frame while it holds the claim, commits its operation, and publishes what it
claimed; a claim that is dropped before it published returns its frame to the head.

A step is one access to what the threads share (the stream of `Capture.StreamMachine`, the mutex
around the remaining frames) or one consultation of the caller's operation context.  `try_lock` on
the remaining frames may find the mutex taken at any time.

* `Act.capture` : a step of the session is at most one step of its stream;
* `capture_reachable` : the stream of a replay session is a stream.
-/

namespace MadoPilot.Replay

open MadoPilot.Core MadoPilot.Lib
open MadoPilot.Capture (Frame FrameDescriptor FrameSelection CaptureFault Continuity Publication
  Request StreamWorld streamSystem)

/-! ### Frames of the source -/

/-- One frame a replay target will publish; its constructor has checked the length of the pixels. -/
structure ReplayFrame where
  descriptor : FrameDescriptor
  placement : Option TargetPlacement
  capturedAt : ℕ
  continuity : Continuity
  pixels : List UInt8
  pixels_len : pixels.length = descriptor.byteLen
  deriving DecidableEq

namespace ReplayFrame

def intoPublication (f : ReplayFrame) : Publication :=
  ⟨f.capturedAt, f.descriptor, f.placement, f.pixels, f.continuity⟩

def fromPublication (p : Publication) (h : p.pixels.length = p.descriptor.byteLen) : ReplayFrame :=
  ⟨p.descriptor, p.placement, p.capturedAt, p.continuity, p.pixels, h⟩

/-- What the stream is asked to publish. -/
def request (f : ReplayFrame) : Request := .bytes f.intoPublication

theorem request_injective : Function.Injective request := by
  intro f g h
  cases f
  cases g
  simp only [request, intoPublication, Request.bytes.injEq, Publication.mk.injEq] at h
  obtain ⟨rfl, rfl, rfl, rfl, rfl⟩ := h
  rfl

end ReplayFrame

/-- The refusal of a target one of whose frames contradicts its own declared placement. -/
def validatePlacements (round : ℚ → Option ℚ) : List ReplayFrame → Except CaptureFault Unit
  | [] => .ok ()
  | f :: frames =>
    match f.placement with
    | none => validatePlacements round frames
    | some placement =>
      match TransformSnapshot.withTarget round 0 f.descriptor.extent placement with
      | .error _ => .error .inconsistentDescriptor
      | .ok _ => validatePlacements round frames

/-- The part of a replay sequence that has not been published yet. -/
structure Remainder where
  frames : List ReplayFrame
  reserved : Bool

/-- `maintained_after` on the state under the stream mutex. -/
def maintainedAfter (inner : Capture.Inner) : Option FrameStamp → Except CaptureFault (Option Frame)
  | none => .ok none
  | some stamp =>
    match inner.latest with
    | none => .ok none
    | some current =>
      match current.stamp.order stamp with
      | .error _ => .error .foreignStream
      | .ok .after => .ok (some current)
      | .ok _ => .ok none

/-! ### Threads -/

/-- Who asked for an advance: `open`, with its own attempt, or a request for a newer frame. -/
inductive Caller where
  | opening (op : Operation)
  | newerThan (stamp : FrameStamp)

def Caller.newer : Caller → Option FrameStamp
  | opening _ => none
  | newerThan stamp => some stamp

inductive Advance where
  | admits
  /-- the loop of `reserve`: before `try_reserve`, and before the checkpoint -/
  | claiming (op : Operation)
  | polling (op : Operation)
  /-- before `maintained_after`: holding the claim, and after the sequence was found exhausted -/
  | compare (op : Operation) (f : ReplayFrame)
  | ended
  /-- before `attempt.commit(reserved)` -/
  | commit (op : Operation) (f : ReplayFrame)
  /-- inside `publish_recoverable` -/
  | publishing (f : ReplayFrame) (pc : Capture.Pc)
  /-- before `Reservation::drop`, with the claimed frame and without it -/
  | restore (f : ReplayFrame) (result : Except Error Frame)
  | release (frame : Frame)
  /-- the advance has its result -/
  | done (result : Except Error Frame)

/-- Where a thread stands. -/
inductive Pc where
  /-- idle, or inside the stream's `frame`, `commit_frame` or `drain` -/
  | stream (pc : Capture.Pc)
  /-- in `frame`, before `lifecycle()` and before `current()` -/
  | lifecycle (stamp : FrameStamp)
  | current (stamp : FrameStamp)
  | advance (caller : Caller) (stage : Advance)
  /-- in `frame`, inside the `commit_frame` of the advanced frame -/
  | confirm (stamp : FrameStamp) (frame : Frame) (pc : Capture.Pc)
  /-- in `open`, before its own commit -/
  | openCommit (op : Operation)

/-- What a step makes observable.  `seen` is what the caller's context answered, if the step asked it. -/
inductive Event where
  | silent
  | consulted (seen : Option Interruption)
  | capture (e : Capture.Event)
  | asked (stamp : FrameStamp)
  | answered (stamp : FrameStamp) (seen : Option Interruption) (result : Except Error Frame)
  | opened (seen : Option Interruption) (result : Except Error Unit)

/-- How far `open` has come. -/
inductive Phase where
  | fresh | opening | opened | abandoned
  deriving DecidableEq

structure Shared (τ : Type*) where
  capture : Capture.Shared τ
  remaining : Remainder
  phase : Phase

section Acts

variable {τ : Type*}

def Shared.setCapture (s : Shared τ) (c : Capture.Shared τ) : Shared τ := { s with capture := c }

def Shared.claim (s : Shared τ) (frames : List ReplayFrame) : Shared τ :=
  { s with remaining := ⟨frames, true⟩ }

/-- `Reservation::drop`. -/
def Shared.dropClaim (s : Shared τ) (frame : Option ReplayFrame) : Shared τ :=
  { s with remaining := ⟨frame.toList ++ s.remaining.frames, false⟩ }

/-- The steps of `advance` and `reserve`. -/
inductive AdvanceAct (round : ℚ → Option ℚ) (t : τ) (s : Shared τ) (caller : Caller) :
    Advance → Event → Shared τ → Advance → Prop
  | refused (seen : Option Interruption) {i : Interruption} :
      Operation.admitContext seen = .error i →
      AdvanceAct round t s caller .admits (.consulted seen) s (.done (.error i.toError))
  | admitted (seen : Option Interruption) {op : Operation} :
      Operation.admitContext seen = .ok op →
      AdvanceAct round t s caller .admits (.consulted seen) s (.claiming op)
  /-- another advance owns the head, or `try_lock` would block -/
  | declines {op : Operation} :
      AdvanceAct round t s caller (.claiming op) .silent s (.polling op)
  | claims {op : Operation} {f : ReplayFrame} {frames : List ReplayFrame} :
      s.remaining.reserved = false → s.remaining.frames = f :: frames →
      AdvanceAct round t s caller (.claiming op) .silent (s.claim frames) (.compare op f)
  | exhausted {op : Operation} : s.remaining.reserved = false → s.remaining.frames = [] →
      AdvanceAct round t s caller (.claiming op) .silent s .ended
  | polls {op op' : Operation} (seen : Option Interruption) : op.checkpoint seen = (.ok (), op') →
      AdvanceAct round t s caller (.polling op) (.consulted seen) s (.claiming op')
  | expires {op op' : Operation} (seen : Option Interruption) {i : Interruption} :
      op.checkpoint seen = (.error i, op') →
      AdvanceAct round t s caller (.polling op) (.consulted seen) s (.done (.error i.toError))
  | unanswered {op : Operation} {f : ReplayFrame} : (caller.newer = none ∨ s.capture.holder = none) →
      maintainedAfter s.capture.inner caller.newer = .ok none →
      AdvanceAct round t s caller (.compare op f) .silent s (.commit op f)
  | maintained {op : Operation} {f : ReplayFrame} {frame : Frame} : s.capture.holder = none →
      maintainedAfter s.capture.inner caller.newer = .ok (some frame) →
      AdvanceAct round t s caller (.compare op f) .silent s (.restore f (.ok frame))
  | foreign {op : Operation} {f : ReplayFrame} {fault : CaptureFault} : s.capture.holder = none →
      maintainedAfter s.capture.inner caller.newer = .error fault →
      AdvanceAct round t s caller (.compare op f) .silent s (.restore f (.error fault.toError))
  | endsUnanswered : (caller.newer = none ∨ s.capture.holder = none) →
      maintainedAfter s.capture.inner caller.newer = .ok none →
      AdvanceAct round t s caller .ended .silent s (.done (.error CaptureFault.streamEnded.toError))
  | endsMaintained {frame : Frame} : s.capture.holder = none →
      maintainedAfter s.capture.inner caller.newer = .ok (some frame) →
      AdvanceAct round t s caller .ended .silent s (.done (.ok frame))
  | endsForeign {fault : CaptureFault} : s.capture.holder = none →
      maintainedAfter s.capture.inner caller.newer = .error fault →
      AdvanceAct round t s caller .ended .silent s (.done (.error fault.toError))
  | interrupted {op : Operation} {f : ReplayFrame} (seen : Option Interruption) {i : Interruption} :
      op.commit seen f = .error i →
      AdvanceAct round t s caller (.commit op f) (.consulted seen) s (.restore f (.error i.toError))
  | commits {op : Operation} {f : ReplayFrame} (seen : Option Interruption) : op.commit seen f = .ok f →
      AdvanceAct round t s caller (.commit op f) (.consulted seen) s (.publishing f .idle)
  | refuses {f : ReplayFrame} {c : Capture.Shared τ} {p : Publication} {error : Error}
      (hp : p.pixels.length = p.descriptor.byteLen) : p = f.intoPublication →
      Capture.PublishAct round t s.capture .idle (.refused (.bytes p) error) c .idle →
      AdvanceAct round t s caller (.publishing f .idle) (.capture (.refused (.bytes p) error))
        (s.setCapture c) (.restore (.fromPublication p hp) (.error error))
  | begins {f : ReplayFrame} {c : Capture.Shared τ} {p : Capture.Prepared} :
      Capture.PublishAct round t s.capture .idle .silent c (.prepared f.request p) →
      AdvanceAct round t s caller (.publishing f .idle) .silent (s.setCapture c)
        (.publishing f (.prepared f.request p))
  | publishes {f : ReplayFrame} {pc pc' : Capture.Pc} {e : Capture.Event} {c : Capture.Shared τ} :
      pc ≠ .idle → pc' ≠ .idle → Capture.PublishAct round t s.capture pc e c pc' →
      AdvanceAct round t s caller (.publishing f pc) (.capture e) (s.setCapture c) (.publishing f pc')
  | published {f : ReplayFrame} {pc : Capture.Pc} {r : Request} {frame : Frame}
      {c : Capture.Shared τ} : Capture.PublishAct round t s.capture pc (.published r frame) c .idle →
      AdvanceAct round t s caller (.publishing f pc) (.capture (.published r frame)) (s.setCapture c)
        (.release frame)
  | restores {f : ReplayFrame} {result : Except Error Frame} :
      AdvanceAct round t s caller (.restore f result) .silent (s.dropClaim (some f)) (.done result)
  | releases {frame : Frame} :
      AdvanceAct round t s caller (.release frame) .silent (s.dropClaim none) (.done (.ok frame))

/-- The steps of `frame`, `commit_frame` and `close` outside an advance. -/
inductive CallAct : Shared τ → Pc → Event → Shared τ → Pc → Prop
  | latest {s : Shared τ} : s.phase = .opened →
      CallAct s (.stream .idle) .silent s (.stream (.frameAdmit .latest))
  | asks {s : Shared τ} (stamp : FrameStamp) : s.phase = .opened →
      CallAct s (.stream .idle) (.asked stamp) s (.lifecycle stamp)
  | notOpen {s : Shared τ} {stamp : FrameStamp} : s.capture.holder = none →
      s.capture.inner.lifecycle ≠ .opened →
      CallAct s (.lifecycle stamp) .silent s (.stream (.frameAdmit (.newerThan stamp)))
  | isOpen {s : Shared τ} {stamp : FrameStamp} : s.capture.holder = none →
      s.capture.inner.lifecycle = .opened →
      CallAct s (.lifecycle stamp) .silent s (.current stamp)
  | noCurrent {s : Shared τ} {stamp : FrameStamp} : s.capture.holder = none →
      s.capture.inner.latest = none →
      CallAct s (.current stamp) .silent s (.stream (.frameAdmit (.newerThan stamp)))
  | foreign {s : Shared τ} {stamp : FrameStamp} {frame : Frame} {fault : IdentityFault} :
      s.capture.holder = none → s.capture.inner.latest = some frame →
      frame.stamp.order stamp = .error fault →
      CallAct s (.current stamp) (.answered stamp none (.error CaptureFault.foreignStream.toError)) s
        (.stream .idle)
  | already {s : Shared τ} {stamp : FrameStamp} {frame : Frame} :
      s.capture.holder = none → s.capture.inner.latest = some frame →
      frame.stamp.order stamp = .ok .after →
      CallAct s (.current stamp) .silent s (.stream (.frameAdmit (.newerThan stamp)))
  | advances {s : Shared τ} {stamp : FrameStamp} {frame : Frame} {order : FrameOrder} :
      s.capture.holder = none → s.capture.inner.latest = some frame →
      frame.stamp.order stamp = .ok order → order ≠ .after →
      CallAct s (.current stamp) .silent s (.advance (.newerThan stamp) .admits)
  | fails {s : Shared τ} {stamp : FrameStamp} {error : Error} :
      CallAct s (.advance (.newerThan stamp) (.done (.error error)))
        (.answered stamp none (.error error)) s (.stream .idle)
  | confirms {s : Shared τ} {stamp : FrameStamp} {frame : Frame} :
      CallAct s (.advance (.newerThan stamp) (.done (.ok frame))) .silent s
        (.confirm stamp frame (.commitAdmit frame))
  | confirming {s : Shared τ} {stamp : FrameStamp} {frame : Frame} {pc pc' : Capture.Pc}
      {c : Capture.Shared τ} : Capture.FrameAct s.capture pc .silent c pc' →
      CallAct s (.confirm stamp frame pc) .silent (s.setCapture c) (.confirm stamp frame pc')
  | confirmed {s : Shared τ} {stamp : FrameStamp} {frame named : Frame} {pc : Capture.Pc}
      {c : Capture.Shared τ} {seen : Option Interruption} :
      Capture.FrameAct s.capture pc (.committed named seen (.ok ())) c .idle →
      CallAct s (.confirm stamp frame pc) (.answered stamp seen (.ok frame)) (s.setCapture c)
        (.stream .idle)
  | unconfirmed {s : Shared τ} {stamp : FrameStamp} {frame named : Frame} {pc : Capture.Pc}
      {c : Capture.Shared τ} {seen : Option Interruption} {error : Error} :
      Capture.FrameAct s.capture pc (.committed named seen (.error error)) c .idle →
      CallAct s (.confirm stamp frame pc) (.answered stamp seen (.error error)) (s.setCapture c)
        (.stream .idle)
  | commitCall {s : Shared τ} (frame : Frame) : s.phase = .opened →
      CallAct s (.stream .idle) .silent s (.stream (.commitAdmit frame))
  | close {s : Shared τ} : s.phase = .opened →
      CallAct s (.stream .idle) .silent (s.setCapture s.capture.refuseDrops) (.stream .drainClosing)
  | framing {s : Shared τ} {pc pc' : Capture.Pc} {e : Capture.Event} {c : Capture.Shared τ} :
      pc ≠ .idle → Capture.FrameAct s.capture pc e c pc' →
      CallAct s (.stream pc) (.capture e) (s.setCapture c) (.stream pc')
  | draining {s : Shared τ} {pc pc' : Capture.Pc} {e : Capture.Event} {c : Capture.Shared τ} :
      pc ≠ .idle → Capture.CloseAct s.capture pc e c pc' →
      CallAct s (.stream pc) (.capture e) (s.setCapture c) (.stream pc')

/-- The steps of `open`, from the session it has built to the session it returns. -/
inductive OpenAct : Shared τ → Pc → Event → Shared τ → Pc → Prop
  | opens {s : Shared τ} (seen : Option Interruption) {op : Operation} : s.phase = .fresh →
      Operation.admitContext seen = .ok op →
      OpenAct s (.stream .idle) (.consulted seen) { s with phase := .opening }
        (.advance (.opening op) .admits)
  | fails {s : Shared τ} {op : Operation} {error : Error} :
      OpenAct s (.advance (.opening op) (.done (.error error))) (.opened none (.error error))
        { s with phase := .abandoned } (.stream .idle)
  | advanced {s : Shared τ} {op : Operation} {frame : Frame} :
      OpenAct s (.advance (.opening op) (.done (.ok frame))) .silent s (.openCommit op)
  | interrupted {s : Shared τ} {op : Operation} (seen : Option Interruption) {i : Interruption} :
      op.commit seen () = .error i →
      OpenAct s (.openCommit op) (.opened seen (.error i.toError)) { s with phase := .abandoned }
        (.stream .idle)
  | opened {s : Shared τ} {op : Operation} (seen : Option Interruption) : op.commit seen () = .ok () →
      OpenAct s (.openCommit op) (.opened seen (.ok ())) { s with phase := .opened } (.stream .idle)

/-- One step of the thread `t`, seen from the thread. -/
inductive Act (round : ℚ → Option ℚ) (t : τ) (s : Shared τ) (pc : Pc) (e : Event) (s' : Shared τ)
    (pc' : Pc) : Prop
  | call (h : CallAct s pc e s' pc')
  | opening (h : OpenAct s pc e s' pc')
  | advance {caller : Caller} {stage stage' : Advance} (hpc : pc = .advance caller stage)
      (h : AdvanceAct round t s caller stage e s' stage') (hpc' : pc' = .advance caller stage')

end Acts

abbrev ReplayWorld (τ : Type*) := World τ (Shared τ) Pc

/-- A session over `source` that `open` has built. -/
def ReplayWorld.start (τ : Type*) (stream : StreamId) (source : List ReplayFrame) : ReplayWorld τ :=
  ⟨⟨(StreamWorld.start τ stream true).shared, ⟨source, false⟩, .fresh⟩, fun _ => .stream .idle⟩

abbrev replaySystem (round : ℚ → Option ℚ) (τ : Type*) [DecidableEq τ] (stream : StreamId)
    (source : List ReplayFrame) : System (ReplayWorld τ) (τ × Event) :=
  threads (Act round) (ReplayWorld.start τ stream source)

/-! ### The stream of a replay session -/

section Capture

variable {τ : Type*} {round : ℚ → Option ℚ} {t : τ} {s s' : Shared τ} {pc pc' : Pc} {e : Event}

def Pc.capture : Pc → Capture.Pc
  | .stream pc | .advance _ (.publishing _ pc) | .confirm _ _ pc => pc
  | _ => .idle

def streamOf (w : ReplayWorld τ) : StreamWorld τ :=
  ⟨w.shared.capture, fun t => (w.pc t).capture⟩

theorem Act.capture (h : Act round t s pc e s' pc') :
    (s'.capture = s.capture ∧ pc'.capture = pc.capture) ∨
      ∃ ce, Capture.Act round t s.capture pc.capture ce s'.capture pc'.capture := by
  cases h with
  | call h =>
    cases h with
    | latest | notOpen | noCurrent | already => exact Or.inr ⟨_, .frame (.call _)⟩
    | confirms | commitCall => exact Or.inr ⟨_, .frame (.commitCall _)⟩
    | close => exact Or.inr ⟨_, .close .drainCall⟩
    | framing _ h | confirming h | confirmed h | unconfirmed h => exact Or.inr ⟨_, .frame h⟩
    | draining _ h => exact Or.inr ⟨_, .close h⟩
    | _ => exact Or.inl ⟨rfl, rfl⟩
  | opening h => cases h <;> exact Or.inl ⟨rfl, rfl⟩
  | advance hpc h hpc' =>
    subst hpc hpc'
    cases h with
    | refuses _ _ h | begins h | publishes _ _ h | published h => exact Or.inr ⟨_, .publish h⟩
    | _ => exact Or.inl ⟨rfl, rfl⟩

variable [DecidableEq τ] {stream : StreamId} {source : List ReplayFrame} {w : ReplayWorld τ}

theorem streamOf_move (w : ReplayWorld τ) (t : τ) (s' : Shared τ) (pc' : Pc) :
    streamOf (w.move t s' pc') = (streamOf w).move t s'.capture pc'.capture := by
  unfold streamOf World.move
  congr 1
  exact Function.comp_update Pc.capture w.pc t pc'

theorem capture_reachable (hw : (replaySystem round τ stream source).Reachable w) :
    (streamSystem round τ stream true).Reachable (streamOf w) := by
  have h₀ : (streamSystem round τ stream true).Reachable
      (streamOf (ReplayWorld.start τ stream source)) := .of_init rfl
  refine threads_invariant (P := fun w => (streamSystem round τ stream true).Reachable (streamOf w))
    h₀ (fun w t e s' pc' _ hr hact => ?_) hw
  rw [streamOf_move w]
  rcases hact.capture with ⟨hs, hpc⟩ | ⟨ce, hce⟩
  · rw [hs, hpc]
    have hsame : (streamOf w).move t w.shared.capture (w.pc t).capture = streamOf w :=
      World.move_self (streamOf w) t
    exact hsame.symm ▸ hr
  · have hstep : (streamSystem round τ stream true).step (streamOf w) (t, ce)
        ((streamOf w).move t s'.capture pc'.capture) := ⟨_, _, hce, rfl⟩
    exact hr.step hstep

end Capture

end MadoPilot.Replay
