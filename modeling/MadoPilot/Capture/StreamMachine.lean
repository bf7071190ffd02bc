import MadoPilot.Lib.Threads
import MadoPilot.Lib.Journal
import MadoPilot.Capture.Stream

/-!
# Threads on one stream

Any number of threads call `publish_recoverable`, `publish_storage_with`, `try_record_drop`,
`terminate`, `begin_close`, `drain`, `frame` and `commit_frame` on one `StreamState`.  A step is one
access to what the threads share: a section under the stream mutex, an access to one of the atomics,
or one consultation of the caller's operation context.  A publication keeps the mutex over several
steps, because the drop counter it settles is an atomic that recorders reach without the mutex.

The shared part also keeps, for the statements, the journal of published frames and the number of
drops recorded.  A frame enters the journal when its commit settles the drop counter: the mutex is
still held, so no reader has seen the frame before.
-/

namespace MadoPilot.Capture

open MadoPilot.Core MadoPilot.Lib

/-! ### The sections under the mutex -/

namespace Inner

/-- The section of `terminate`. -/
def terminate (inner : Inner) (fault : CaptureFault) : Inner :=
  { inner with
    terminal := if inner.lifecycle ≠ .closed ∧ inner.terminal = none then some fault
      else inner.terminal
    lifecycle := inner.lifecycle.beginClose }

/-- The section of `begin_close`. -/
def beginClose (inner : Inner) : Inner := { inner with lifecycle := inner.lifecycle.beginClose }

/-- The last section of `drain`. -/
def close (inner : Inner) : Inner :=
  if inner.lifecycle ≠ .closed then { inner with lifecycle := .closed, latest := none } else inner

/-- The section of `commit_frame_after_operation`. -/
def commitFrame (inner : Inner) (frame : Frame) : Except CaptureFault Unit :=
  if frame.stamp.stream ≠ inner.cursor.stream then .error .foreignStream
  else
    match inner.terminal with
    | some terminal => .error terminal
    | none => if inner.lifecycle ≠ .opened then .error .sessionClosed else .ok ()

end Inner

inductive FrameSelection where
  | latest
  | newerThan (stamp : FrameStamp)
  deriving DecidableEq

/-- The published frame that satisfies a selection, if one already has. -/
def qualifying (inner : Inner) (selection : FrameSelection) : Except CaptureFault (Option Frame) :=
  match inner.latest with
  | none => .ok none
  | some current =>
    match selection with
    | .latest => .ok (some current)
    | .newerThan stamp =>
      match current.stamp.order stamp with
      | .ok .after => .ok (some current)
      | .ok _ => .ok none
      | .error _ => .error .foreignStream

/-! ### Threads -/

/-- Where a thread stands in its call. -/
inductive Pc where
  | idle
  /-- a publication holding the mutex: prepared, installed, drops settled, `published_any` stored -/
  | prepared (r : Request) (p : Prepared)
  | installed (r : Request) (p : Prepared)
  | settled (r : Request) (p : Prepared)
  | announced (r : Request) (p : Prepared)
  /-- `try_record_drop` after its first and its second load -/
  | dropAccepted
  | dropPublished
  /-- `terminate` and `begin_close` after their store to `accepting_drops` -/
  | terminating (fault : CaptureFault)
  | closing
  /-- `drain` -/
  | drainClosing
  | drainAdmit
  | drainLoop (op : Operation)
  | drainDone (op : Operation)
  | drainCommit (op : Operation)
  | drainFinal
  | drainWaiting (op : Operation)
  /-- `frame` -/
  | frameAdmit (selection : FrameSelection)
  | frameLoop (selection : FrameSelection) (op : Operation)
  | frameWaiting (selection : FrameSelection) (op : Operation)
  | frameWoken (selection : FrameSelection) (op : Operation)
  | frameCommit (selection : FrameSelection) (frame : Frame) (op : Operation)
  | frameFinal (selection : FrameSelection) (frame : Frame)
  /-- `commit_frame` -/
  | commitAdmit (frame : Frame)
  | commitCommit (frame : Frame) (op : Operation)
  | commitFinal (frame : Frame)
  deriving DecidableEq

/-- What a step makes observable: a call's return value, or the commit hook.  `seen` is what the
caller's context answered in the step that ends the call, if it was asked there. -/
inductive Event where
  | silent
  | refused (r : Request) (error : Error)
  | observed (frame : Frame)
  | published (r : Request) (frame : Frame)
  | dropped (result : Except Error Bool)
  | terminated
  | closeBegun
  | drained (seen : Option Interruption) (result : Except Error Unit)
  | framed (selection : FrameSelection) (seen : Option Interruption) (result : Except Error Frame)
  | committed (frame : Frame) (seen : Option Interruption) (result : Except Error Unit)

structure Entry where
  request : Request
  frame : Frame
  deriving DecidableEq

/-- What the threads share.  `holder` is the publication that holds the mutex between its steps;
`journal` (newest first), `recorded` and `discarded` are kept for the statements. -/
structure Shared (τ : Type*) where
  state : StreamState
  holder : Option τ
  journal : List Entry
  recorded : ℕ
  discarded : ℕ

namespace Shared

variable {τ : Type*} (s : Shared τ)

def inner : Inner := s.state.inner

def setInner (i : Inner) : Shared τ := { s with state := { s.state with inner := i } }

/-- The new frame belongs to another epoch than the last journalled one. -/
def opensEpoch (p : Prepared) : Bool := s.journal.head?.any fun e => e.frame.stamp.epoch ≠ p.stamp.epoch

/-- `fetch_sub` of the consumed drops, and the journal entry of the frame. -/
def settle (r : Request) (p : Prepared) : Shared τ :=
  { s with
    state := { s.state with
      pendingDrops := if p.consumedDrops > 0 then wrappingSub u64Max s.state.pendingDrops p.consumedDrops
        else s.state.pendingDrops }
    journal := ⟨r, p.frame r⟩ :: s.journal
    discarded := if s.opensEpoch p then s.discarded + p.consumedDrops else s.discarded }

end Shared

section Acts

variable (round : ℚ → Option ℚ) {τ : Type*}

inductive PublishAct (t : τ) : Shared τ → Pc → Event → Shared τ → Pc → Prop
  | refuse {s : Shared τ} {r : Request} {error : Error} :
      s.holder = none → r.prepare round s.state = .error error →
      PublishAct t s .idle (.refused r error) s .idle
  | begin {s : Shared τ} {r : Request} {p : Prepared} :
      s.holder = none → r.prepare round s.state = .ok p →
      PublishAct t s .idle .silent { s with holder := some t } (.prepared r p)
  | install {s : Shared τ} {r : Request} {p : Prepared} :
      PublishAct t s (.prepared r p) (.observed (p.frame r))
        (s.setInner (s.inner.install p (p.frame r))) (.installed r p)
  | settle {s : Shared τ} {r : Request} {p : Prepared} :
      PublishAct t s (.installed r p) .silent (s.settle r p) (.settled r p)
  | announce {s : Shared τ} {r : Request} {p : Prepared} :
      PublishAct t s (.settled r p) .silent
        { s with state := { s.state with publishedAny := true } } (.announced r p)
  | release {s : Shared τ} {r : Request} {p : Prepared} :
      PublishAct t s (.announced r p) (.published r (p.frame r)) { s with holder := none } .idle

/-- The steps of `try_record_drop`. -/
inductive DropAct : Shared τ → Pc → Event → Shared τ → Pc → Prop
  | notAccepting {s : Shared τ} : s.state.acceptingDrops = false →
      DropAct s .idle (.dropped (.error CaptureFault.sessionClosed.toError)) s .idle
  | accepting {s : Shared τ} : s.state.acceptingDrops = true →
      DropAct s .idle .silent s .dropAccepted
  | nonePublished {s : Shared τ} : s.state.publishedAny = false →
      DropAct s .dropAccepted (.dropped (.ok false)) s .idle
  | somePublished {s : Shared τ} : s.state.publishedAny = true →
      DropAct s .dropAccepted .silent s .dropPublished
  | exhausted {s : Shared τ} : checkedAdd u64Max s.state.pendingDrops 1 = none →
      DropAct s .dropPublished
        (.dropped (.error ⟨.limitExceeded, "pending frame drops exhausted"⟩)) s .idle
  | record {s : Shared τ} {n : ℕ} : checkedAdd u64Max s.state.pendingDrops 1 = some n →
      DropAct s .dropPublished (.dropped (.ok true))
        { s with state := { s.state with pendingDrops := n }, recorded := s.recorded + 1 } .idle

/-- `accepting_drops.store(false)`. -/
def Shared.refuseDrops (s : Shared τ) : Shared τ :=
  { s with state := { s.state with acceptingDrops := false } }

/-- The steps of `terminate`, `begin_close` and `drain`. -/
inductive CloseAct : Shared τ → Pc → Event → Shared τ → Pc → Prop
  | terminateCall {s : Shared τ} (fault : CaptureFault) :
      CloseAct s .idle .silent s.refuseDrops (.terminating fault)
  | terminate {s : Shared τ} {fault : CaptureFault} : s.holder = none →
      CloseAct s (.terminating fault) .terminated (s.setInner (s.inner.terminate fault)) .idle
  | closeCall {s : Shared τ} : CloseAct s .idle .silent s.refuseDrops .closing
  | close {s : Shared τ} : s.holder = none →
      CloseAct s .closing .closeBegun (s.setInner s.inner.beginClose) .idle
  | drainCall {s : Shared τ} : CloseAct s .idle .silent s.refuseDrops .drainClosing
  | drainClose {s : Shared τ} : s.holder = none →
      CloseAct s .drainClosing .silent (s.setInner s.inner.beginClose) .drainAdmit
  | drainRefused {s : Shared τ} (seen : Option Interruption) {i : Interruption} :
      Operation.admitContext seen = .error i →
      CloseAct s .drainAdmit (.drained seen (.error i.toError)) s .idle
  | drainAdmitted {s : Shared τ} (seen : Option Interruption) {op : Operation} :
      Operation.admitContext seen = .ok op → CloseAct s .drainAdmit .silent s (.drainLoop op)
  | drainSeesClosed {s : Shared τ} {op : Operation} :
      s.holder = none → s.inner.lifecycle = .closed →
      CloseAct s (.drainLoop op) .silent s (.drainDone op)
  | drainSeesIdle {s : Shared τ} {op : Operation} :
      s.holder = none → s.inner.lifecycle ≠ .closed → s.inner.waiters = 0 →
      CloseAct s (.drainLoop op) .silent s (.drainCommit op)
  | drainWaits {s : Shared τ} {op : Operation} :
      s.holder = none → s.inner.lifecycle ≠ .closed → s.inner.waiters ≠ 0 →
      CloseAct s (.drainLoop op) .silent s (.drainWaiting op)
  | drainDone {s : Shared τ} {op : Operation} (seen : Option Interruption) :
      CloseAct s (.drainDone op) (.drained seen ((op.commit seen ()).mapError Interruption.toError))
        s .idle
  | drainInterrupted {s : Shared τ} {op : Operation} (seen : Option Interruption)
      {i : Interruption} : op.commit seen () = .error i →
      CloseAct s (.drainCommit op) (.drained seen (.error i.toError)) s .idle
  | drainCommits {s : Shared τ} {op : Operation} (seen : Option Interruption) :
      op.commit seen () = .ok () → CloseAct s (.drainCommit op) .silent s .drainFinal
  | drainFinal {s : Shared τ} : s.holder = none →
      CloseAct s .drainFinal (.drained none (.ok ())) (s.setInner s.inner.close) .idle
  | drainExpires {s : Shared τ} {op op' : Operation} (seen : Option Interruption)
      {i : Interruption} : s.holder = none → op.checkpoint seen = (.error i, op') →
      CloseAct s (.drainWaiting op) (.drained seen (.error i.toError)) s .idle
  | drainWakes {s : Shared τ} {op op' : Operation} (seen : Option Interruption) :
      s.holder = none → op.checkpoint seen = (.ok (), op') →
      CloseAct s (.drainWaiting op) .silent s (.drainLoop op')

/-- A section that changes only the number of registered waiters. -/
def Shared.setWaiters (s : Shared τ) (n : ℕ) : Shared τ :=
  s.setInner { s.inner with waiters := n }

/-- The steps of `frame` and `commit_frame`. -/
inductive FrameAct : Shared τ → Pc → Event → Shared τ → Pc → Prop
  | call {s : Shared τ} (sel : FrameSelection) : FrameAct s .idle .silent s (.frameAdmit sel)
  | refused {s : Shared τ} {sel : FrameSelection} (seen : Option Interruption) {i : Interruption} :
      Operation.admitContext seen = .error i →
      FrameAct s (.frameAdmit sel) (.framed sel seen (.error i.toError)) s .idle
  | admitted {s : Shared τ} {sel : FrameSelection} (seen : Option Interruption) {op : Operation} :
      Operation.admitContext seen = .ok op → FrameAct s (.frameAdmit sel) .silent s (.frameLoop sel op)
  | terminal {s : Shared τ} {sel : FrameSelection} {op : Operation} {fault : CaptureFault} :
      s.holder = none → s.inner.terminal = some fault →
      FrameAct s (.frameLoop sel op) (.framed sel none (.error fault.toError)) s .idle
  | notOpen {s : Shared τ} {sel : FrameSelection} {op : Operation} :
      s.holder = none → s.inner.terminal = none → s.inner.lifecycle ≠ .opened →
      FrameAct s (.frameLoop sel op) (.framed sel none (.error CaptureFault.sessionClosed.toError)) s
        .idle
  | foreign {s : Shared τ} {sel : FrameSelection} {op : Operation} {fault : CaptureFault} :
      s.holder = none → s.inner.terminal = none → s.inner.lifecycle = .opened →
      qualifying s.inner sel = .error fault →
      FrameAct s (.frameLoop sel op) (.framed sel none (.error fault.toError)) s .idle
  | selected {s : Shared τ} {sel : FrameSelection} {op : Operation} {frame : Frame} :
      s.holder = none → s.inner.terminal = none → s.inner.lifecycle = .opened →
      qualifying s.inner sel = .ok (some frame) →
      FrameAct s (.frameLoop sel op) .silent s (.frameCommit sel frame op)
  | registers {s : Shared τ} {sel : FrameSelection} {op : Operation} :
      s.holder = none → s.inner.terminal = none → s.inner.lifecycle = .opened →
      qualifying s.inner sel = .ok none →
      FrameAct s (.frameLoop sel op) .silent (s.setWaiters (s.inner.waiters + 1))
        (.frameWaiting sel op)
  | wakes {s : Shared τ} {sel : FrameSelection} {op : Operation} : s.holder = none →
      FrameAct s (.frameWaiting sel op) .silent (s.setWaiters (s.inner.waiters - 1))
        (.frameWoken sel op)
  | expires {s : Shared τ} {sel : FrameSelection} {op op' : Operation} (seen : Option Interruption)
      {i : Interruption} : op.checkpoint seen = (.error i, op') →
      FrameAct s (.frameWoken sel op) (.framed sel seen (.error i.toError)) s .idle
  | retries {s : Shared τ} {sel : FrameSelection} {op op' : Operation}
      (seen : Option Interruption) : op.checkpoint seen = (.ok (), op') →
      FrameAct s (.frameWoken sel op) .silent s (.frameLoop sel op')
  | interrupted {s : Shared τ} {sel : FrameSelection} {frame : Frame} {op : Operation}
      (seen : Option Interruption) {i : Interruption} : op.commit seen frame = .error i →
      FrameAct s (.frameCommit sel frame op) (.framed sel seen (.error i.toError)) s .idle
  | commits {s : Shared τ} {sel : FrameSelection} {frame : Frame} {op : Operation}
      (seen : Option Interruption) : op.commit seen frame = .ok frame →
      FrameAct s (.frameCommit sel frame op) .silent s (.frameFinal sel frame)
  | final {s : Shared τ} {sel : FrameSelection} {frame : Frame} : s.holder = none →
      FrameAct s (.frameFinal sel frame)
        (.framed sel none
          (((s.inner.commitFrame frame).map fun _ => frame).mapError CaptureFault.toError)) s .idle
  | commitCall {s : Shared τ} (frame : Frame) : FrameAct s .idle .silent s (.commitAdmit frame)
  | commitRefused {s : Shared τ} {frame : Frame} (seen : Option Interruption) {i : Interruption} :
      Operation.admitContext seen = .error i →
      FrameAct s (.commitAdmit frame) (.committed frame seen (.error i.toError)) s .idle
  | commitAdmitted {s : Shared τ} {frame : Frame} (seen : Option Interruption) {op : Operation} :
      Operation.admitContext seen = .ok op →
      FrameAct s (.commitAdmit frame) .silent s (.commitCommit frame op)
  | commitInterrupted {s : Shared τ} {frame : Frame} {op : Operation}
      (seen : Option Interruption) {i : Interruption} : op.commit seen () = .error i →
      FrameAct s (.commitCommit frame op) (.committed frame seen (.error i.toError)) s .idle
  | commitCommits {s : Shared τ} {frame : Frame} {op : Operation} (seen : Option Interruption) :
      op.commit seen () = .ok () → FrameAct s (.commitCommit frame op) .silent s (.commitFinal frame)
  | commitFinal {s : Shared τ} {frame : Frame} : s.holder = none →
      FrameAct s (.commitFinal frame)
        (.committed frame none ((s.inner.commitFrame frame).mapError CaptureFault.toError)) s .idle

/-- One step of the thread `t`, seen from the thread. -/
inductive Act (t : τ) (s : Shared τ) (pc : Pc) (e : Event) (s' : Shared τ) (pc' : Pc) : Prop
  | publish (h : PublishAct round t s pc e s' pc')
  | drop (h : DropAct s pc e s' pc')
  | close (h : CloseAct s pc e s' pc')
  | frame (h : FrameAct s pc e s' pc')

end Acts

abbrev StreamWorld (τ : Type*) := World τ (Shared τ) Pc

def StreamWorld.start (τ : Type*) (stream : StreamId) (coversTarget : Bool) : StreamWorld τ :=
  ⟨⟨.build stream coversTarget, none, [], 0, 0⟩, fun _ => .idle⟩

abbrev streamSystem (round : ℚ → Option ℚ) (τ : Type*) [DecidableEq τ] (stream : StreamId)
    (coversTarget : Bool) : System (StreamWorld τ) (τ × Event) :=
  threads (Act round) (StreamWorld.start τ stream coversTarget)

end MadoPilot.Capture
