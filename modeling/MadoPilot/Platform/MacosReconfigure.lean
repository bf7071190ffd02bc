import Mathlib.Data.List.Basic
import MadoPilot.Core.Transform
import MadoPilot.Lib.Threads

/-!
# Reconfiguration requests on macOS

Sample callbacks leave the extent they want in an atomic slot and wake the worker through a channel that
holds one token.  A step is one access to the slot, the flag or the channel, or one native call.  The
worker is the thread `none`; the callbacks, and whoever shuts the requests down, are the others.

* `surfaceRequest_valid`, `decodeExtent_encodeExtent` : what is requested fits the slot;
* `reconfigure_loses_nothing` : the law of the requests.
-/

namespace MadoPilot.Platform.MacosReconfigure

open MadoPilot.Core MadoPilot.Lib

/-! ### The slot -/

def u32Max : ℕ := 2 ^ 32 - 1

def encodeExtent (extent : PixelExtent) : ℕ := extent.width <<< 32 ||| extent.height

def decodeExtent (encoded : ℕ) : Option PixelExtent :=
  let width := encoded >>> 32
  let height := encoded &&& u32Max
  if width > 0 ∧ height > 0 then some ⟨width, height⟩ else none

structure Valid (extent : PixelExtent) : Prop where
  width : 0 < extent.width ∧ extent.width ≤ u32Max
  height : 0 < extent.height ∧ extent.height ≤ u32Max

theorem encodeExtent_eq {extent : PixelExtent} (h : Valid extent) :
    encodeExtent extent = extent.width * 2 ^ 32 + extent.height := by
  have hlt : extent.height < 2 ^ 32 := by
    have hle := h.height.2
    unfold u32Max at hle
    omega
  unfold encodeExtent
  rw [← Nat.shiftLeft_add_eq_or_of_lt hlt, Nat.shiftLeft_eq]

theorem decodeExtent_encodeExtent {extent : PixelExtent} (h : Valid extent) :
    decodeExtent (encodeExtent extent) = some extent ∧ encodeExtent extent ≠ 0 := by
  have hheight := h.height
  have hwidth := h.width
  unfold u32Max at hheight hwidth
  have hhigh : encodeExtent extent >>> 32 = extent.width := by
    rw [encodeExtent_eq h, Nat.shiftRight_eq_div_pow]
    omega
  have hlow : encodeExtent extent &&& u32Max = extent.height := by
    unfold u32Max
    rw [encodeExtent_eq h, Nat.and_two_pow_sub_one_eq_mod]
    omega
  refine ⟨?_, ?_⟩
  · unfold decodeExtent
    simp only [hhigh, hlow]
    exact if_pos ⟨hwidth.1, hheight.1⟩
  · rw [encodeExtent_eq h]
    omega

theorem decodeExtent_zero : decodeExtent 0 = none := by decide

/-! ### What a sample asks for -/

inductive TargetKind where
  | window | display
  deriving DecidableEq

structure FrameInfo where
  contentWidth : UInt32
  contentHeight : UInt32
  surfaceWidth : UInt32
  surfaceHeight : UInt32
  recommendedSurface : Bool
  recommendedSurfaceWidth : UInt32
  recommendedSurfaceHeight : UInt32

namespace FrameInfo

def maxSurfaceExtent : ℕ := 32768

def maxSurfaceBytes : ℕ := 268435456

def positive (width height : UInt32) : Option PixelExtent :=
  if width > 0 ∧ height > 0 then some ⟨width.toNat, height.toNat⟩ else none

def extent (info : FrameInfo) : Option PixelExtent := positive info.contentWidth info.contentHeight

def surfaceExtent (info : FrameInfo) : Option PixelExtent :=
  positive info.surfaceWidth info.surfaceHeight

def recommendedSurfaceExtent (info : FrameInfo) : Option PixelExtent :=
  if info.recommendedSurface = false ∨ info.recommendedSurfaceWidth = 0 ∨
      info.recommendedSurfaceHeight = 0 ∨ info.recommendedSurfaceWidth.toNat > maxSurfaceExtent ∨
      info.recommendedSurfaceHeight.toNat > maxSurfaceExtent then none
  else
    if info.recommendedSurfaceWidth.toNat * info.recommendedSurfaceHeight.toNat * 4 ≤
        maxSurfaceBytes then
      some ⟨info.recommendedSurfaceWidth.toNat, info.recommendedSurfaceHeight.toNat⟩
    else none

end FrameInfo

def surfaceRequest (kind : TargetKind) (info : FrameInfo) : Option PixelExtent :=
  info.surfaceExtent.bind fun surface =>
    match kind with
    | .window =>
      info.recommendedSurfaceExtent.bind fun wanted =>
        if wanted.width > surface.width ∨ wanted.height > surface.height then some wanted else none
    | .display =>
      info.extent.bind fun content => if content ≠ surface then some content else none

theorem valid_of_pos {width height : UInt32} (hwidth : 0 < width.toNat) (hheight : 0 < height.toNat) :
    Valid ⟨width.toNat, height.toNat⟩ := by
  have hw : width.toNat < 2 ^ 32 := width.toNat_lt
  have hh : height.toNat < 2 ^ 32 := height.toNat_lt
  refine ⟨⟨hwidth, ?_⟩, hheight, ?_⟩
  · unfold u32Max
    show width.toNat ≤ _
    omega
  · unfold u32Max
    show height.toNat ≤ _
    omega

theorem extent_valid {info : FrameInfo} {extent : PixelExtent} (h : info.extent = some extent) :
    Valid extent := by
  unfold FrameInfo.extent FrameInfo.positive at h
  split_ifs at h with hpos
  obtain rfl := Option.some.inj h
  exact valid_of_pos (UInt32.lt_iff_toNat_lt.mp hpos.1) (UInt32.lt_iff_toNat_lt.mp hpos.2)

theorem recommended_valid {info : FrameInfo} {extent : PixelExtent}
    (h : info.recommendedSurfaceExtent = some extent) : Valid extent := by
  unfold FrameInfo.recommendedSurfaceExtent at h
  split_ifs at h with hnone hbytes
  obtain rfl := Option.some.inj h
  simp only [not_or] at hnone
  have hpos : ∀ n : UInt32, ¬ n = 0 → 0 < n.toNat := by
    intro n hn
    exact Nat.pos_of_ne_zero fun hzero => hn (UInt32.toNat_inj.mp hzero)
  exact valid_of_pos (hpos _ hnone.2.1) (hpos _ hnone.2.2.1)

theorem surfaceRequest_valid {kind : TargetKind} {info : FrameInfo} {extent : PixelExtent}
    (h : surfaceRequest kind info = some extent) : Valid extent := by
  unfold surfaceRequest at h
  obtain ⟨surface, -, h⟩ := Option.bind_eq_some_iff.mp h
  cases kind with
  | window =>
    obtain ⟨wanted, hwanted, h⟩ := Option.bind_eq_some_iff.mp h
    split_ifs at h
    exact Option.some.inj h ▸ recommended_valid hwanted
  | display =>
    obtain ⟨content, hcontent, h⟩ := Option.bind_eq_some_iff.mp h
    split_ifs at h
    exact Option.some.inj h ▸ extent_valid hcontent

/-! ### The parties -/

/-- What the parties share.  `receiver` says that the worker has not given the channel up, `core` that
the session core lives; `requested`, `taken` and `applied` are kept for the statements, oldest first. -/
structure Shared where
  wanted : ℕ
  shutdown : Bool
  token : Bool
  receiver : Bool
  core : Bool
  requested : List PixelExtent
  taken : List PixelExtent
  applied : List PixelExtent

/-- `try_send` of a token: it is queued afterwards unless the receiver is gone. -/
def Shared.trySend (s : Shared) : Shared := { s with token := s.token || s.receiver }

inductive ReconfigurePublication where
  | published | coalesced | rejected
  deriving DecidableEq

/-- Where a callback stands in `request`, or another thread in `shutdown`. -/
inductive ProducerPc where
  | idle
  | ready (extent : PixelExtent)
  | swapped (previous : ℕ)
  | waking (previous : ℕ)
  | disconnected
  | clearing
  | shuttingClear
  | shuttingWake

inductive WorkerPc where
  | looping
  | receiving
  | woken
  | swapping
  | upgrading (extent : PixelExtent)
  | applying (extent : PixelExtent)
  | failing
  | failingClear
  | failingWake
  | draining
  | rechecking
  | resending
  | exited

inductive Pc where
  | producer (pc : ProducerPc)
  | worker (pc : WorkerPc)

/-- What a step shows. -/
inductive Event where
  | silent
  | requested (extent : PixelExtent)
  | answered (publication : ReconfigurePublication)
  | applied (extent : PixelExtent)

section Acts

/-- The steps of a callback, and of whoever calls `shutdown` and then lets go of the core. -/
inductive ProducerAct : Shared → ProducerPc → Event → Shared → ProducerPc → Prop
  | refused {s : Shared} (kind : TargetKind) (info : FrameInfo) {extent : PixelExtent} :
      surfaceRequest kind info = some extent → s.shutdown = true →
      ProducerAct s .idle (.answered .rejected) s .idle
  | request {s : Shared} (kind : TargetKind) (info : FrameInfo) {extent : PixelExtent} :
      surfaceRequest kind info = some extent → s.shutdown = false →
      ProducerAct s .idle .silent s (.ready extent)
  | swap {s : Shared} {extent : PixelExtent} :
      ProducerAct s (.ready extent) (.requested extent)
        { s with wanted := encodeExtent extent, requested := s.requested ++ [extent] }
        (.swapped s.wanted)
  | late {s : Shared} {previous : ℕ} : s.shutdown = true →
      ProducerAct s (.swapped previous) .silent s .clearing
  | proceeds {s : Shared} {previous : ℕ} : s.shutdown = false →
      ProducerAct s (.swapped previous) .silent s (.waking previous)
  | wakes {s : Shared} {previous : ℕ} : s.receiver = true →
      ProducerAct s (.waking previous)
        (.answered (if previous = 0 then .published else .coalesced)) s.trySend .idle
  | disconnects {s : Shared} {previous : ℕ} : s.receiver = false →
      ProducerAct s (.waking previous) .silent s .disconnected
  | gives {s : Shared} : ProducerAct s .disconnected .silent { s with shutdown := true } .clearing
  | clears {s : Shared} :
      ProducerAct s .clearing (.answered .rejected) { s with wanted := 0 } .idle
  | shutsAgain {s : Shared} : s.shutdown = true → ProducerAct s .idle .silent s .idle
  | shuts {s : Shared} : s.shutdown = false →
      ProducerAct s .idle .silent { s with shutdown := true } .shuttingClear
  | shutClears {s : Shared} : ProducerAct s .shuttingClear .silent { s with wanted := 0 } .shuttingWake
  | shutWakes {s : Shared} : ProducerAct s .shuttingWake .silent s.trySend .idle
  /-- Whoever drops the core has called `shutdown`. -/
  | dropsCore {s : Shared} : s.shutdown = true →
      ProducerAct s .idle .silent { s with core := false } .idle

/-- The steps of `run_reconfigure_worker`. -/
inductive WorkerAct : Shared → WorkerPc → Event → Shared → WorkerPc → Prop
  | stops {s : Shared} : s.shutdown = true →
      WorkerAct s .looping .silent { s with receiver := false } .exited
  | loops {s : Shared} : s.shutdown = false → WorkerAct s .looping .silent s .receiving
  | receives {s : Shared} : s.token = true →
      WorkerAct s .receiving .silent { s with token := false } .woken
  | timesOut {s : Shared} : s.token = false → s.core = true →
      WorkerAct s .receiving .silent s .looping
  | orphaned {s : Shared} : s.token = false → s.core = false →
      WorkerAct s .receiving .silent { s with receiver := false } .exited
  | wokenLate {s : Shared} : s.shutdown = true →
      WorkerAct s .woken .silent { s with receiver := false } .exited
  | wakes {s : Shared} : s.shutdown = false → WorkerAct s .woken .silent s .swapping
  | swap {s : Shared} {extent : PixelExtent} : decodeExtent s.wanted = some extent →
      WorkerAct s .swapping .silent { s with wanted := 0, taken := s.taken ++ [extent] }
        (.upgrading extent)
  | swapNothing {s : Shared} : decodeExtent s.wanted = none →
      WorkerAct s .swapping .silent { s with wanted := 0 } .looping
  | upgrades {s : Shared} {extent : PixelExtent} : s.core = true →
      WorkerAct s (.upgrading extent) .silent s (.applying extent)
  | coreGone {s : Shared} {extent : PixelExtent} : s.core = false →
      WorkerAct s (.upgrading extent) .silent { s with receiver := false } .exited
  | applies {s : Shared} {extent : PixelExtent} :
      WorkerAct s (.applying extent) (.applied extent) { s with applied := s.applied ++ [extent] }
        .draining
  | exhausts {s : Shared} {extent : PixelExtent} :
      WorkerAct s (.applying extent) (.applied extent) { s with applied := s.applied ++ [extent] }
        .failing
  | failsAgain {s : Shared} : s.shutdown = true →
      WorkerAct s .failing .silent { s with receiver := false } .exited
  | fails {s : Shared} : s.shutdown = false →
      WorkerAct s .failing .silent { s with shutdown := true } .failingClear
  | failClears {s : Shared} : WorkerAct s .failingClear .silent { s with wanted := 0 } .failingWake
  | failWakes {s : Shared} :
      WorkerAct s .failingWake .silent { s.trySend with receiver := false } .exited
  | drains {s : Shared} : WorkerAct s .draining .silent { s with token := false } .rechecking
  | settles {s : Shared} : s.wanted = 0 → WorkerAct s .rechecking .silent s .looping
  | rechecks {s : Shared} : s.wanted ≠ 0 → WorkerAct s .rechecking .silent s .resending
  | resends {s : Shared} : WorkerAct s .resending .silent s.trySend .looping

/-- One step of a party. -/
inductive Act {τ : Type*} : Option τ → Shared → Pc → Event → Shared → Pc → Prop
  | producer {s s' : Shared} {pc pc' : ProducerPc} {e : Event} (t : τ) :
      ProducerAct s pc e s' pc' → Act (some t) s (.producer pc) e s' (.producer pc')
  | worker {s s' : Shared} {pc pc' : WorkerPc} {e : Event} :
      WorkerAct s pc e s' pc' → Act none s (.worker pc) e s' (.worker pc')

abbrev ReconfigureWorld (τ : Type*) := World (Option τ) Shared Pc

/-- The parties of a session whose worker was spawned, or was not: then the requests are shut down. -/
def ReconfigureWorld.start (τ : Type*) (spawned : Bool) : ReconfigureWorld τ :=
  ⟨⟨0, !spawned, false, spawned, true, [], [], []⟩, fun
    | none => .worker (if spawned then .looping else .exited)
    | some _ => .producer .idle⟩

abbrev reconfigureSystem (τ : Type*) [DecidableEq τ] (spawned : Bool) :
    System (ReconfigureWorld τ) (Option τ × Event) :=
  threads Act (ReconfigureWorld.start τ spawned)

end Acts

end MadoPilot.Platform.MacosReconfigure
