import Mathlib.Data.PNat.Basic
import MadoPilot.Core.Operation

/-!
# Stream epochs, frame sequences and frame stamps

The identity of a published frame and the cursor that assigns it.  Epochs, sequences and geometry
revisions are `u64` values, kept as natural numbers with the source's checked additions.
-/

namespace MadoPilot.Core

open MadoPilot.Lib

/-- A rule about identity that could not be satisfied. -/
inductive IdentityFault where
  | foreignEngine | foreignProvider | exhausted | sequenceExhausted | epochExhausted
  | streamMismatch
  deriving DecidableEq, Repr

namespace IdentityFault

def status : IdentityFault → Status
  | foreignEngine | foreignProvider | streamMismatch => .invalidArgument
  | exhausted | sequenceExhausted | epochExhausted => .limitExceeded

def detail : IdentityFault → String
  | foreignEngine => "identity was issued by another engine"
  | foreignProvider => "identity was issued by another provider"
  | exhausted => "identity space is exhausted"
  | sequenceExhausted => "stream frame sequence is exhausted"
  | epochExhausted => "stream epoch counter is exhausted"
  | streamMismatch => "frame identities belong to different streams"

def toError (f : IdentityFault) : Error := ⟨f.status, f.detail⟩

end IdentityFault

/-- The first of the engines, and the first of the handles that an engine issues. -/
def firstOrdinal : ℕ+ := 1

structure StreamId where
  engine : ℕ+
  ordinal : ℕ+
  deriving DecidableEq

def StreamId.first : StreamId := ⟨firstOrdinal, firstOrdinal⟩

inductive FrameOrder where
  | before | same | after
  deriving DecidableEq, Repr

/-- The complete public identity of one published frame. -/
structure FrameStamp where
  stream : StreamId
  epoch : ℕ
  sequence : ℕ
  geometry : ℕ
  deriving DecidableEq

namespace FrameStamp

/-- Orders two frames from one stream by epoch and then sequence. -/
def order (a b : FrameStamp) : Except IdentityFault FrameOrder :=
  if a.stream ≠ b.stream then .error .streamMismatch
  else if a.epoch < b.epoch then .ok .before
  else if b.epoch < a.epoch then .ok .after
  else if a.sequence < b.sequence then .ok .before
  else if b.sequence < a.sequence then .ok .after
  else .ok .same

/-- `a` was published strictly before `b` in one stream: the strict order of `(epoch, sequence)`. -/
def Precedes (a b : FrameStamp) : Prop :=
  a.epoch < b.epoch ∨ (a.epoch = b.epoch ∧ a.sequence < b.sequence)

instance (a b : FrameStamp) : Decidable (a.Precedes b) := by unfold Precedes; infer_instance

theorem Precedes.trans {a b c : FrameStamp} (h : a.Precedes b) (h' : b.Precedes c) : a.Precedes c := by
  unfold Precedes at *
  omega

theorem Precedes.ne {a b : FrameStamp} (h : a.Precedes b) : a ≠ b := by
  rintro rfl
  unfold Precedes at h
  omega

theorem order_eq_before {a b : FrameStamp} :
    a.order b = .ok .before ↔ a.stream = b.stream ∧ a.Precedes b := by
  unfold order Precedes
  split_ifs <;> simp_all <;> omega

theorem order_eq_after {a b : FrameStamp} :
    a.order b = .ok .after ↔ a.stream = b.stream ∧ b.Precedes a := by
  unfold order Precedes
  split_ifs <;> simp_all <;> omega

end FrameStamp

/-- The next geometry revision, unless the counter is exhausted. -/
def nextRevision (geometry : ℕ) : Option ℕ := checkedAdd u64Max geometry 1

/-- Assigns epochs and sequences for one stream's published frames.  `nextSequence` is `none` once
the epoch is exhausted. -/
structure StreamCursor where
  stream : StreamId
  epoch : ℕ
  nextSequence : Option ℕ
  deriving DecidableEq

namespace StreamCursor

/-- A cursor at epoch zero, before any frame has been published. -/
def new (stream : StreamId) : StreamCursor := ⟨stream, 0, some 0⟩

def publish (c : StreamCursor) (geometry : ℕ) : Except IdentityFault (FrameStamp × StreamCursor) :=
  match c.nextSequence with
  | none => .error .sequenceExhausted
  | some sequence =>
    .ok (⟨c.stream, c.epoch, sequence, geometry⟩,
      { c with nextSequence := checkedAdd u64Max sequence 1 })

/-- Advances past `count` unpublished observations. -/
def skip (c : StreamCursor) (count : ℕ) : Except IdentityFault StreamCursor :=
  if count = 0 then .ok c
  else
    match c.nextSequence with
    | none => .error .sequenceExhausted
    | some sequence =>
      match checkedAdd u64Max sequence count with
      | none => .error .sequenceExhausted
      | some next => .ok { c with nextSequence := some next }

/-- Begins a later epoch after a discontinuity, resetting the sequence. -/
def beginEpoch (c : StreamCursor) : Except IdentityFault StreamCursor :=
  match checkedAdd u64Max c.epoch 1 with
  | none => .error .epochExhausted
  | some epoch => .ok { c with epoch := epoch, nextSequence := some 0 }

/-! ### What a cursor operation that succeeds has done -/

theorem publish_eq_ok {c c' : StreamCursor} {geometry : ℕ} {stamp : FrameStamp} :
    c.publish geometry = .ok (stamp, c') ↔
      ∃ n, c.nextSequence = some n ∧ stamp = ⟨c.stream, c.epoch, n, geometry⟩ ∧
        c' = { c with nextSequence := checkedAdd u64Max n 1 } := by
  unfold publish
  cases h : c.nextSequence with
  | none => simp
  | some n => simp [eq_comm]

theorem skip_eq_ok {c c' : StreamCursor} {count : ℕ} (h : c.skip count = .ok c') :
    c'.stream = c.stream ∧ c'.epoch = c.epoch ∧
      c'.nextSequence = c.nextSequence.map (· + count) := by
  unfold skip at h
  split_ifs at h with h0
  · cases h
    simp [h0]
  · cases hn : c.nextSequence with
    | none => simp [hn] at h
    | some n =>
      simp only [hn] at h
      cases ha : checkedAdd u64Max n count with
      | none => simp [ha] at h
      | some m =>
        simp only [ha, Except.ok.injEq] at h
        subst h
        simp [(checkedAdd_eq_some.1 ha).1]

theorem beginEpoch_eq_ok {c c' : StreamCursor} :
    c.beginEpoch = .ok c' ↔
      c.epoch + 1 ≤ u64Max ∧ c' = { c with epoch := c.epoch + 1, nextSequence := some 0 } := by
  unfold beginEpoch
  cases h : checkedAdd u64Max c.epoch 1 with
  | none =>
    have := checkedAdd_eq_none.1 h
    simp only [reduceCtorEq, false_iff, not_and]
    omega
  | some e =>
    obtain ⟨rfl, hle⟩ := checkedAdd_eq_some.1 h
    simp [hle, eq_comm]

end StreamCursor

end MadoPilot.Core
