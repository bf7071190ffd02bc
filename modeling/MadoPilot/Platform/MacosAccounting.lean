import MadoPilot.Lib.Census
import MadoPilot.Lib.Tally
import MadoPilot.Platform.MacosReconfigure
import Mathlib.Data.List.Nodup

/-!
# The counters of reconfiguration requests

Every request for a reconfiguration ends in one of four ways: the worker takes its extent, a later
request replaces it, it is rejected, or it still waits in the slot.  `Reconfigure` counts the second
and the third.  A step is one access to the slot, the flag, the channel or a counter, and any thread
may request, shut the requests down, or do what the worker does.

A request is named by the number of requests before it.  The `Books` say which requests the
counters stand for; a thread that has to count a request and has not done so yet *owes* it.

* `Act.totals` : what one step books;
* `totals_along` : the counters of every run, up to the emptied slots that were miscounted;
* `Act.once` : where a slot is emptied as it should be, a request is in one place only;
* `accounting_law` : the law of the counters.
-/

namespace MadoPilot.Platform.MacosAccounting

open MadoPilot.Core MadoPilot.Lib
open MadoPilot.Platform.MacosReconfigure (TargetKind FrameInfo surfaceRequest surfaceRequest_valid
  encodeExtent decodeExtent Valid decodeExtent_encodeExtent decodeExtent_zero ReconfigurePublication)

/-! ### The parties -/

/-- The requests behind the counters: `holder` made the extent in the slot, `taken` are those the
worker took, `coalesced` and `rejected` those the counters stand for. -/
structure Books where
  calls : ℕ
  holder : Option ℕ
  taken : List ℕ
  coalesced : List ℕ
  rejected : List ℕ

/-- What the parties share.  `receiver` says that the worker has not given the channel up; the `books`
are kept for the statements. -/
structure Reconfigure where
  wanted : ℕ
  shutdown : Bool
  token : Bool
  receiver : Bool
  coalesced : ℕ
  rejected : ℕ
  books : Books

/-- A request that has published its extent, what its swap found in the slot, and who had put it
there. -/
structure Swapped where
  request : ℕ
  previous : ℕ
  replaced : Option ℕ

/-- Where a thread stands.  `due` is the request it counts next. -/
inductive Pc where
  | idle
  | publishing (request : ℕ) (extent : PixelExtent)
  | published (swap : Swapped)
  | waking (swap : Swapped)
  | disconnected (swap : Swapped)
  /-- The request is late: it empties the slot. -/
  | clearing (swap : Swapped)
  | rejecting (due : Option ℕ)
  | coalescing (due : Option ℕ)
  /-- `request_reconfigure` has the stream record a drop; whether it did is not read. -/
  | dropping (publication : ReconfigurePublication)
  | shuttingClear
  | shuttingReject (due : Option ℕ)
  | shuttingWake

/-- What a step shows. -/
inductive Event where
  | silent
  | called
  /-- A request empties the slot: whether it finds an extent there, and whether its swap had. -/
  | cleared (found replaced : Bool)
  | answered (publication : ReconfigurePublication)
  deriving DecidableEq

namespace Reconfigure

variable (s : Reconfigure)

/-- `try_send` of a token: it is queued afterwards unless the receiver is gone. -/
def trySend : Reconfigure := { s with token := s.token || s.receiver }

def call : Reconfigure := { s with books := { s.books with calls := s.books.calls + 1 } }

/-- `wanted.swap` of a request. -/
def publish (request : ℕ) (extent : PixelExtent) : Reconfigure :=
  { s with wanted := encodeExtent extent, books := { s.books with holder := some request } }

/-- The slot is emptied. -/
def clear : Reconfigure := { s with wanted := 0, books := { s.books with holder := none } }

def reject (due : Option ℕ) : Reconfigure :=
  { s with
    rejected := s.rejected + 1
    books := { s.books with rejected := s.books.rejected ++ due.toList } }

def coalesce (due : Option ℕ) : Reconfigure :=
  { s with
    coalesced := s.coalesced + 1
    books := { s.books with coalesced := s.books.coalesced ++ due.toList } }

/-- `wanted.swap(0)` of the worker that finds an extent. -/
def take : Reconfigure :=
  { s with
    wanted := 0
    books := { s.books with holder := none, taken := s.books.taken ++ s.books.holder.toList } }

end Reconfigure

/-- The request that the rejection of a late request stands for: whose extent the slot holds, or the
one it replaced, or itself. -/
def Swapped.due (swap : Swapped) (holder : Option ℕ) : Option ℕ :=
  (holder.or swap.replaced).or (some swap.request)

/-- The steps of `request_reconfigure`, of `shutdown`, and of the worker. -/
inductive Act : Reconfigure → Pc → Event → Reconfigure → Pc → Prop
  | refused {s : Reconfigure} (kind : TargetKind) (info : FrameInfo) {extent : PixelExtent} :
      surfaceRequest kind info = some extent → s.shutdown = true →
      Act s .idle .called s.call (.rejecting (some s.books.calls))
  | request {s : Reconfigure} (kind : TargetKind) (info : FrameInfo) {extent : PixelExtent} :
      surfaceRequest kind info = some extent → s.shutdown = false →
      Act s .idle .called s.call (.publishing s.books.calls extent)
  | swap {s : Reconfigure} {request : ℕ} {extent : PixelExtent} :
      Act s (.publishing request extent) .silent (s.publish request extent)
        (.published ⟨request, s.wanted, s.books.holder⟩)
  | late {s : Reconfigure} {swap : Swapped} : s.shutdown = true →
      Act s (.published swap) .silent s (.clearing swap)
  | proceeds {s : Reconfigure} {swap : Swapped} : s.shutdown = false →
      Act s (.published swap) .silent s (.waking swap)
  | wakes {s : Reconfigure} {swap : Swapped} : s.receiver = true → swap.previous = 0 →
      Act s (.waking swap) (.answered .published) s.trySend .idle
  | wakesAgain {s : Reconfigure} {swap : Swapped} : s.receiver = true → swap.previous ≠ 0 →
      Act s (.waking swap) .silent s.trySend (.coalescing swap.replaced)
  | coalesces {s : Reconfigure} {due : Option ℕ} :
      Act s (.coalescing due) .silent (s.coalesce due) (.dropping .coalesced)
  | disconnects {s : Reconfigure} {swap : Swapped} : s.receiver = false →
      Act s (.waking swap) .silent s (.disconnected swap)
  | gives {s : Reconfigure} {swap : Swapped} :
      Act s (.disconnected swap) .silent { s with shutdown := true } (.clearing swap)
  | clears {s : Reconfigure} {swap : Swapped} :
      Act s (.clearing swap) (.cleared (s.wanted != 0) (swap.previous != 0)) s.clear
        (.rejecting (swap.due s.books.holder))
  | rejects {s : Reconfigure} {due : Option ℕ} :
      Act s (.rejecting due) .silent (s.reject due) (.dropping .rejected)
  | drops {s : Reconfigure} {publication : ReconfigurePublication} :
      Act s (.dropping publication) (.answered publication) s .idle
  | shutsAgain {s : Reconfigure} : s.shutdown = true → Act s .idle .silent s .idle
  | shuts {s : Reconfigure} : s.shutdown = false →
      Act s .idle .silent { s with shutdown := true } .shuttingClear
  | shutFinds {s : Reconfigure} : s.wanted ≠ 0 →
      Act s .shuttingClear .silent s.clear (.shuttingReject s.books.holder)
  | shutFindsNothing {s : Reconfigure} : s.wanted = 0 →
      Act s .shuttingClear .silent s.clear .shuttingWake
  | shutRejects {s : Reconfigure} {due : Option ℕ} :
      Act s (.shuttingReject due) .silent (s.reject due) .shuttingWake
  | shutWakes {s : Reconfigure} : Act s .shuttingWake .silent s.trySend .idle
  | receives {s : Reconfigure} : s.token = true →
      Act s .idle .silent { s with token := false } .idle
  | takes {s : Reconfigure} {extent : PixelExtent} : decodeExtent s.wanted = some extent →
      Act s .idle .silent s.take .idle
  | takesNothing {s : Reconfigure} : decodeExtent s.wanted = none →
      Act s .idle .silent s.clear .idle
  | leaves {s : Reconfigure} : Act s .idle .silent { s with receiver := false } .idle

abbrev AccountingWorld (τ : Type*) := World τ Reconfigure Pc

def AccountingWorld.start (τ : Type*) : AccountingWorld τ :=
  ⟨⟨0, false, false, true, 0, 0, ⟨0, none, [], [], []⟩⟩, fun _ => .idle⟩

abbrev accountingSystem (τ : Type*) [DecidableEq τ] : System (AccountingWorld τ) (τ × Event) :=
  threads (fun _ => Act) (AccountingWorld.start τ)

/-! ### What holds of the slot and of a thread -/

def Pc.due : Pc → Option ℕ
  | .publishing request _ => some request
  | .published swap | .waking swap | .disconnected swap | .clearing swap => swap.replaced
  | .rejecting due | .coalescing due | .shuttingReject due => due
  | _ => none

def Pc.owes (pc : Pc) : Bool := pc.due.isSome

/-- A swap that found an extent knows who made it, and no other does. -/
def Swapped.Sound (swap : Swapped) : Prop := swap.replaced.isSome = (swap.previous != 0)

/-- What holds of a thread's place. -/
def Pc.Sound : Pc → Prop
  | .publishing _ extent => Valid extent
  | .published swap | .waking swap | .disconnected swap | .clearing swap => swap.Sound
  | .rejecting due | .coalescing due | .shuttingReject due => due.isSome = true
  | _ => True

structure Reconfigure.Sound (s : Reconfigure) : Prop where
  slot : s.wanted = 0 ∨ ∃ extent, Valid extent ∧ s.wanted = encodeExtent extent
  holder : s.books.holder.isSome = (s.wanted != 0)
  coalesced : s.coalesced = s.books.coalesced.length
  rejected : s.rejected = s.books.rejected.length

variable {s s' : Reconfigure} {pc pc' : Pc} {e : Event}

theorem Swapped.due_isSome (swap : Swapped) (holder : Option ℕ) : (swap.due holder).isSome = true := by
  unfold Swapped.due
  rw [Option.isSome_or, Option.isSome_some, Bool.or_true]

theorem Reconfigure.Sound.wanted_eq_zero (h : s.Sound) (hnone : decodeExtent s.wanted = none) :
    s.wanted = 0 := by
  rcases h.slot with hzero | ⟨extent, hvalid, hwanted⟩
  · exact hzero
  · rw [hwanted, (decodeExtent_encodeExtent hvalid).1] at hnone
    cases hnone

theorem Reconfigure.Sound.wanted_ne_zero {extent : PixelExtent}
    (hsome : decodeExtent s.wanted = some extent) : s.wanted ≠ 0 := by
  intro hzero
  rw [hzero, decodeExtent_zero] at hsome
  cases hsome

theorem length_concat_toList {l : List ℕ} {due : Option ℕ} (h : due.isSome = true) :
    (l ++ due.toList).length = l.length + 1 := by
  obtain ⟨request, rfl⟩ := Option.isSome_iff_exists.mp h
  simp

theorem Act.keeps (h : Act s pc e s' pc') (hs : s.Sound) (hpc : pc.Sound) : s'.Sound ∧ pc'.Sound := by
  have hclear : s.clear.Sound := ⟨Or.inl rfl, rfl, hs.coalesced, hs.rejected⟩
  have hreject : ∀ due : Option ℕ, due.isSome = true → (s.reject due).Sound := by
    intro due hdue
    refine ⟨hs.slot, hs.holder, hs.coalesced, ?_⟩
    show s.rejected + 1 = (s.books.rejected ++ due.toList).length
    rw [length_concat_toList hdue, hs.rejected]
  cases h with
  | refused => exact ⟨⟨hs.slot, hs.holder, hs.coalesced, hs.rejected⟩, rfl⟩
  | request kind info hrequest =>
    exact ⟨⟨hs.slot, hs.holder, hs.coalesced, hs.rejected⟩, surfaceRequest_valid hrequest⟩
  | @swap request extent =>
    have hvalid : Valid extent := hpc
    refine ⟨⟨Or.inr ⟨extent, hvalid, rfl⟩, ?_, hs.coalesced, hs.rejected⟩, hs.holder⟩
    have hne : encodeExtent extent ≠ 0 := (decodeExtent_encodeExtent hvalid).2
    show true = (encodeExtent extent != 0)
    exact (bne_iff_ne.mpr hne).symm
  | late => exact ⟨hs, hpc⟩
  | proceeds => exact ⟨hs, hpc⟩
  | wakes => exact ⟨⟨hs.slot, hs.holder, hs.coalesced, hs.rejected⟩, trivial⟩
  | @wakesAgain swap _ hprevious =>
    refine ⟨⟨hs.slot, hs.holder, hs.coalesced, hs.rejected⟩, ?_⟩
    have hsound : swap.replaced.isSome = (swap.previous != 0) := hpc
    show swap.replaced.isSome = true
    rw [hsound]
    exact bne_iff_ne.mpr hprevious
  | @coalesces due =>
    refine ⟨⟨hs.slot, hs.holder, ?_, hs.rejected⟩, trivial⟩
    show s.coalesced + 1 = (s.books.coalesced ++ due.toList).length
    rw [length_concat_toList hpc, hs.coalesced]
  | disconnects => exact ⟨hs, hpc⟩
  | gives => exact ⟨⟨hs.slot, hs.holder, hs.coalesced, hs.rejected⟩, hpc⟩
  | @clears swap => exact ⟨hclear, swap.due_isSome s.books.holder⟩
  | @rejects due => exact ⟨hreject due hpc, trivial⟩
  | drops => exact ⟨hs, trivial⟩
  | shutsAgain => exact ⟨hs, trivial⟩
  | shuts => exact ⟨⟨hs.slot, hs.holder, hs.coalesced, hs.rejected⟩, trivial⟩
  | shutFinds hwanted =>
    refine ⟨hclear, ?_⟩
    show s.books.holder.isSome = true
    rw [hs.holder]
    exact bne_iff_ne.mpr hwanted
  | shutFindsNothing => exact ⟨hclear, trivial⟩
  | @shutRejects due => exact ⟨hreject due hpc, trivial⟩
  | shutWakes => exact ⟨⟨hs.slot, hs.holder, hs.coalesced, hs.rejected⟩, trivial⟩
  | receives => exact ⟨⟨hs.slot, hs.holder, hs.coalesced, hs.rejected⟩, trivial⟩
  | takes => exact ⟨⟨Or.inl rfl, rfl, hs.coalesced, hs.rejected⟩, trivial⟩
  | takesNothing => exact ⟨hclear, trivial⟩
  | leaves => exact ⟨⟨hs.slot, hs.holder, hs.coalesced, hs.rejected⟩, trivial⟩

/-! ### The totals -/

/-- The requests counted, with the one that waits in the slot. -/
def Reconfigure.accounted (s : Reconfigure) : ℕ :=
  s.books.taken.length + s.coalesced + s.rejected + (s.wanted != 0).toNat

/-- A late request that finds the slot empty as its swap did counts a request twice. -/
def Event.double : Event → Bool
  | .cleared found replaced => !found && !replaced
  | _ => false

/-- A late request that finds the slot full as its swap did leaves a request uncounted. -/
def Event.missed : Event → Bool
  | .cleared found replaced => found && replaced
  | _ => false

theorem toNat_owes {due : Option ℕ} (h : due.isSome = true) : due.isSome.toNat = 1 := by rw [h]; rfl

theorem Reconfigure.clear_accounted (s : Reconfigure) :
    s.clear.accounted + (s.wanted != 0).toNat = s.accounted := rfl

theorem Act.totals (h : Act s pc e s' pc') (hs : s.Sound) (hpc : pc.Sound) :
    s'.books.calls + e.double.toNat + (s.accounted + pc.owes.toNat) =
      s.books.calls + e.missed.toNat + (s'.accounted + pc'.owes.toNat) := by
  have hreject : ∀ due : Option ℕ, (s.reject due).accounted = s.accounted + 1 := by
    intro due
    show s.books.taken.length + s.coalesced + (s.rejected + 1) + (s.wanted != 0).toNat = _
    unfold Reconfigure.accounted
    omega
  cases h with
  | refused =>
    show s.books.calls + 1 + 0 + (s.accounted + 0) = s.books.calls + 0 + (s.accounted + 1)
    omega
  | request =>
    show s.books.calls + 1 + 0 + (s.accounted + 0) = s.books.calls + 0 + (s.accounted + 1)
    omega
  | @swap request extent =>
    -- The request comes into the slot, and its thread owes the one that was there.
    have hne : (encodeExtent extent != 0) = true :=
      bne_iff_ne.mpr (decodeExtent_encodeExtent hpc).2
    have hslot : (s.publish request extent).accounted + (s.wanted != 0).toNat = s.accounted + 1 := by
      show s.books.taken.length + s.coalesced + s.rejected + (encodeExtent extent != 0).toNat + _ = _
      rw [hne]
      unfold Reconfigure.accounted
      simp only [Bool.toNat_true]
      omega
    show s.books.calls + 0 + (s.accounted + 1) = s.books.calls + 0 +
      ((s.publish request extent).accounted + s.books.holder.isSome.toNat)
    rw [hs.holder]
    omega
  | late => rfl
  | proceeds => rfl
  | @wakes swap _ hprevious =>
    have hsound : swap.replaced.isSome = (swap.previous != 0) := hpc
    have hnone : swap.replaced.isSome = false := by
      rw [hsound, hprevious]
      rfl
    show s.books.calls + 0 + (s.accounted + swap.replaced.isSome.toNat) =
      s.books.calls + 0 + (s.accounted + 0)
    rw [hnone]
    rfl
  | wakesAgain => rfl
  | @coalesces due =>
    have hcoalesce : (s.coalesce due).accounted = s.accounted + 1 := by
      show s.books.taken.length + (s.coalesced + 1) + s.rejected + (s.wanted != 0).toNat = _
      unfold Reconfigure.accounted
      omega
    show s.books.calls + 0 + (s.accounted + due.isSome.toNat) =
      s.books.calls + 0 + ((s.coalesce due).accounted + 0)
    rw [toNat_owes hpc, hcoalesce]
  | disconnects => rfl
  | gives => rfl
  | @clears swap =>
    -- The thread owes the request it replaced, and afterwards the one its rejection stands for.
    have hslot := s.clear_accounted
    have hsound : swap.replaced.isSome = (swap.previous != 0) := hpc
    show s.books.calls + (Event.cleared (s.wanted != 0) (swap.previous != 0)).double.toNat +
        (s.accounted + swap.replaced.isSome.toNat) =
      s.books.calls + (Event.cleared (s.wanted != 0) (swap.previous != 0)).missed.toNat +
        (s.clear.accounted + (swap.due s.books.holder).isSome.toNat)
    rw [swap.due_isSome, hsound]
    generalize (swap.previous != 0) = replaced
    generalize (s.wanted != 0) = found at hslot
    cases found <;> cases replaced <;> simp [Event.double, Event.missed] at hslot ⊢ <;> omega
  | @rejects due =>
    show s.books.calls + 0 + (s.accounted + due.isSome.toNat) =
      s.books.calls + 0 + ((s.reject due).accounted + 0)
    rw [toNat_owes hpc, hreject due]
  | drops => rfl
  | shutsAgain => rfl
  | shuts => rfl
  | shutFinds hwanted =>
    have hslot := s.clear_accounted
    show s.books.calls + 0 + (s.accounted + 0) =
      s.books.calls + 0 + (s.clear.accounted + s.books.holder.isSome.toNat)
    rw [hs.holder]
    omega
  | shutFindsNothing hwanted =>
    have hslot := s.clear_accounted
    rw [hwanted] at hslot
    show s.books.calls + 0 + (s.accounted + 0) = s.books.calls + 0 + (s.clear.accounted + 0)
    rw [← hslot]
    rfl
  | @shutRejects due =>
    show s.books.calls + 0 + (s.accounted + due.isSome.toNat) =
      s.books.calls + 0 + ((s.reject due).accounted + 0)
    rw [toNat_owes hpc, hreject due]
  | shutWakes => rfl
  | receives => rfl
  | @takes extent hsome =>
    have hwanted : (s.wanted != 0) = true := bne_iff_ne.mpr (Reconfigure.Sound.wanted_ne_zero hsome)
    have hholder : s.books.holder.isSome = true := hs.holder.trans hwanted
    have htake : s.take.accounted = s.accounted := by
      show (s.books.taken ++ s.books.holder.toList).length + s.coalesced + s.rejected + 0 = _
      rw [length_concat_toList hholder]
      unfold Reconfigure.accounted
      rw [hwanted, Bool.toNat_true]
      omega
    show s.books.calls + 0 + (s.accounted + 0) = s.books.calls + 0 + (s.take.accounted + 0)
    rw [htake]
  | takesNothing hnone =>
    have hslot := s.clear_accounted
    rw [hs.wanted_eq_zero hnone] at hslot
    show s.books.calls + 0 + (s.accounted + 0) = s.books.calls + 0 + (s.clear.accounted + 0)
    rw [← hslot]
    rfl
  | leaves => rfl

/-! ### Each request in one place -/

/-- The requests counted, with the one that waits in the slot. -/
def Books.located (b : Books) : List ℕ := b.taken ++ b.coalesced ++ b.rejected ++ b.holder.toList

theorem Swapped.due_toList (swap : Swapped) {holder : Option ℕ}
    (h : holder.isSome = !swap.replaced.isSome) :
    (swap.due holder).toList = holder.toList ++ swap.replaced.toList := by
  unfold Swapped.due
  cases hreplaced : swap.replaced with
  | none =>
    rw [hreplaced] at h
    obtain ⟨request, rfl⟩ := Option.isSome_iff_exists.mp h
    rfl
  | some request =>
    rw [hreplaced] at h
    obtain rfl : holder = none := Option.isSome_eq_false_iff.mp h |> Option.isNone_iff_eq_none.mp
    rfl

theorem Act.once (h : Act s pc e s' pc') (hs : s.Sound) (hpc : pc.Sound) (hdouble : e.double = false)
    (hmissed : e.missed = false) (r : ℕ) :
    (List.range s'.books.calls).count r + (s.books.located.count r + pc.due.toList.count r) =
      (List.range s.books.calls).count r + (s'.books.located.count r + pc'.due.toList.count r) := by
  have hcall : (List.range s.call.books.calls).count r =
      (List.range s.books.calls).count r + [s.books.calls].count r := by
    show (List.range (s.books.calls + 1)).count r = _
    rw [List.range_succ, List.count_append]
  have hclear : s.clear.books.located.count r + s.books.holder.toList.count r =
      s.books.located.count r := by
    show (s.books.taken ++ s.books.coalesced ++ s.books.rejected ++ []).count r + _ = _
    rw [List.append_nil]
    exact List.count_append.symm
  have hreject : ∀ due : Option ℕ, (s.reject due).books.located.count r =
      s.books.located.count r + due.toList.count r := by
    intro due
    show (s.books.taken ++ s.books.coalesced ++ (s.books.rejected ++ due.toList) ++
      s.books.holder.toList).count r = _
    unfold Books.located
    simp only [List.count_append]
    omega
  cases h with
  | refused =>
    show (List.range s.call.books.calls).count r + (s.books.located.count r + [].count r) =
      _ + (s.books.located.count r + [s.books.calls].count r)
    rw [hcall, List.count_nil]
    omega
  | request =>
    show (List.range s.call.books.calls).count r + (s.books.located.count r + [].count r) =
      _ + (s.books.located.count r + [s.books.calls].count r)
    rw [hcall, List.count_nil]
    omega
  | @swap request extent =>
    have hslot : (s.publish request extent).books.located.count r =
        s.clear.books.located.count r + [request].count r := by
      show (s.books.taken ++ s.books.coalesced ++ s.books.rejected ++ [request]).count r =
        (s.books.taken ++ s.books.coalesced ++ s.books.rejected ++ []).count r + _
      rw [List.append_nil, List.count_append]
    show _ + (s.books.located.count r + [request].count r) = _ +
      ((s.publish request extent).books.located.count r + s.books.holder.toList.count r)
    rw [hslot, ← hclear]
    show (List.range s.books.calls).count r + _ = _
    omega
  | late => rfl
  | proceeds => rfl
  | @wakes swap _ hprevious =>
    have hsound : swap.replaced.isSome = (swap.previous != 0) := hpc
    have hnone : swap.replaced = none := by
      rw [hprevious] at hsound
      exact Option.isNone_iff_eq_none.mp (Option.isSome_eq_false_iff.mp hsound)
    show (List.range s.books.calls).count r + (s.books.located.count r + swap.replaced.toList.count r)
      = _ + (s.books.located.count r + [].count r)
    rw [hnone]
    rfl
  | wakesAgain => rfl
  | @coalesces due =>
    have hcoalesce : (s.coalesce due).books.located.count r =
        s.books.located.count r + due.toList.count r := by
      show (s.books.taken ++ (s.books.coalesced ++ due.toList) ++ s.books.rejected ++
        s.books.holder.toList).count r = _
      unfold Books.located
      simp only [List.count_append]
      omega
    show (List.range s.books.calls).count r + (_ + due.toList.count r) =
      _ + ((s.coalesce due).books.located.count r + 0)
    rw [hcoalesce]
    rfl
  | disconnects => rfl
  | gives => rfl
  | @clears swap =>
    have hsound : swap.replaced.isSome = (swap.previous != 0) := hpc
    have hone : s.books.holder.isSome = !swap.replaced.isSome := by
      rw [hs.holder, hsound]
      simp only [Event.double, Event.missed] at hdouble hmissed
      generalize (swap.previous != 0) = replaced at hdouble hmissed ⊢
      generalize (s.wanted != 0) = found at hdouble hmissed ⊢
      cases found <;> cases replaced <;> simp at hdouble hmissed ⊢
    show (List.range s.books.calls).count r + (_ + swap.replaced.toList.count r) =
      _ + (s.clear.books.located.count r + (swap.due s.books.holder).toList.count r)
    rw [swap.due_toList hone, List.count_append, ← hclear]
    omega
  | @rejects due =>
    show (List.range s.books.calls).count r + (_ + due.toList.count r) =
      _ + ((s.reject due).books.located.count r + 0)
    rw [hreject due]
    rfl
  | drops => rfl
  | shutsAgain => rfl
  | shuts => rfl
  | shutFinds =>
    show (List.range s.books.calls).count r + (_ + 0) =
      _ + (s.clear.books.located.count r + s.books.holder.toList.count r)
    rw [hclear]
    rfl
  | shutFindsNothing hwanted =>
    have hholder : s.books.holder.isSome = false := by rw [hs.holder, hwanted]; rfl
    have hnone : s.books.holder = none :=
      Option.isNone_iff_eq_none.mp (Option.isSome_eq_false_iff.mp hholder)
    rw [hnone] at hclear
    show (List.range s.books.calls).count r + (_ + 0) = _ + (s.clear.books.located.count r + 0)
    rw [← hclear]
    rfl
  | @shutRejects due =>
    show (List.range s.books.calls).count r + (_ + due.toList.count r) =
      _ + ((s.reject due).books.located.count r + 0)
    rw [hreject due]
    rfl
  | shutWakes => rfl
  | receives => rfl
  | takes =>
    have htake : s.take.books.located.count r = s.books.located.count r := by
      show (s.books.taken ++ s.books.holder.toList ++ s.books.coalesced ++ s.books.rejected ++
        []).count r = _
      unfold Books.located
      simp only [List.count_append, List.count_nil]
      omega
    show (List.range s.books.calls).count r + (_ + 0) = _ + (s.take.books.located.count r + 0)
    rw [htake]
  | takesNothing hnone =>
    have hholder : s.books.holder.isSome = false := by
      rw [hs.holder, hs.wanted_eq_zero hnone]
      rfl
    have hnone : s.books.holder = none :=
      Option.isNone_iff_eq_none.mp (Option.isSome_eq_false_iff.mp hholder)
    rw [hnone] at hclear
    show (List.range s.books.calls).count r + (_ + 0) = _ + (s.clear.books.located.count r + 0)
    rw [← hclear]
    rfl
  | leaves => rfl

/-! ### Runs -/

section Runs

variable {τ : Type*} [DecidableEq τ] {w : AccountingWorld τ}
variable {trail : List (AccountingWorld τ × (τ × Event))}

/-- The slot, the counters and every thread's place. -/
def Sound (w : AccountingWorld τ) : Prop := w.shared.Sound ∧ ∀ t, (w.pc t).Sound

omit [DecidableEq τ] in
theorem Sound.start : Sound (AccountingWorld.start τ) :=
  ⟨⟨Or.inl rfl, rfl, rfl, rfl⟩, fun _ => trivial⟩

theorem Sound.move {t : τ} (h : Sound w) (hact : Act w.shared (w.pc t) e s' pc') :
    Sound (w.move t s' pc') := by
  obtain ⟨hs, ht⟩ := hact.keeps h.1 (h.2 t)
  exact ⟨hs, w.forall_move t s' pc' ht fun u _ => h.2 u⟩

theorem sound (h : (accountingSystem τ).Reachable w) : Sound w :=
  @threads_invariant τ _ _ _ _ (fun _ => Act) _ _ .start (fun _ _ _ _ _ _ hw hact => hw.move hact) _ h

/-- The requests that were counted twice, and those that were not counted. -/
def doubles (es : List Event) : ℕ := es.countP Event.double

def misses (es : List Event) : ℕ := es.countP Event.missed

theorem totals_along (h : (accountingSystem τ).Path (AccountingWorld.start τ) trail w) :
    ∃ owed, Census (fun t => (w.pc t).owes = true) owed ∧
      w.shared.books.calls + doubles (events trail) =
        w.shared.accounted + owed + misses (events trail) := by
  refine @threads_along τ _ _ _ _ (fun _ => Act) _ (fun es w =>
    ∃ owed, Census (fun t => (w.pc t).owes = true) owed ∧
      w.shared.books.calls + doubles es = w.shared.accounted + owed + misses es) ?_ ?_ _ _ h
  · exact ⟨0, .zero fun _ => Bool.false_ne_true, rfl⟩
  · rintro es w t e s' pc' hreach ⟨owed, hcensus, htotal⟩ hact
    obtain ⟨hs, ht⟩ := sound hreach
    have hstep := hact.totals hs (ht t)
    obtain ⟨owed', hcensus', hmove⟩ := hcensus.move (t := t) (a := pc')
    refine ⟨owed', hcensus', ?_⟩
    show s'.books.calls + (es ++ [e]).countP _ = s'.accounted + owed' + (es ++ [e]).countP _
    unfold doubles misses at htotal
    rw [countP_concat, countP_concat]
    omega

/-- Every slot that a request of the run emptied held an extent exactly when the slot had held none
before the request's own. -/
def Cleared (es : List Event) : Prop :=
  ∀ found replaced, Event.cleared found replaced ∈ es → found = !replaced

omit [DecidableEq τ] in
theorem Cleared.exact {es : List Event} (h : Cleared es) {e : Event} (he : e ∈ es) :
    e.double = false ∧ e.missed = false := by
  cases e with
  | cleared found replaced =>
    obtain rfl := h found replaced he
    cases replaced <;> exact ⟨rfl, rfl⟩
  | _ => exact ⟨rfl, rfl⟩

theorem Cleared.counts {es : List Event} (h : Cleared es) : doubles es = 0 ∧ misses es = 0 := by
  constructor
  · refine List.countP_eq_zero.mpr fun e he => ?_
    rw [(h.exact he).1]
    exact Bool.false_ne_true
  · refine List.countP_eq_zero.mpr fun e he => ?_
    rw [(h.exact he).2]
    exact Bool.false_ne_true

/-- **Each request of a run is in one place**: counted, in the slot, or with the thread that has to
count it. -/
theorem located_along (h : (accountingSystem τ).Path (AccountingWorld.start τ) trail w)
    (hcleared : Cleared (events trail)) (r : ℕ) :
    ∃ held, Census (fun t => ((w.pc t).due == some r) = true) held ∧
      (List.range w.shared.books.calls).count r = w.shared.books.located.count r + held := by
  have halong : Cleared (events trail) →
      ∃ held, Census (fun t => ((w.pc t).due == some r) = true) held ∧
        (List.range w.shared.books.calls).count r = w.shared.books.located.count r + held := by
    refine @threads_along τ _ _ _ _ (fun _ => Act) _ (fun es w => Cleared es →
      ∃ held, Census (fun t => ((w.pc t).due == some r) = true) held ∧
        (List.range w.shared.books.calls).count r = w.shared.books.located.count r + held) ?_ ?_ _ _ h
    · exact fun _ => ⟨0, .zero fun _ => Bool.false_ne_true, rfl⟩
    · intro es w t e s' pc' hreach hw hact hes
      obtain ⟨held, hcensus, hheld⟩ := hw fun found replaced he =>
        hes found replaced (List.mem_append_left _ he)
      obtain ⟨hs, ht⟩ := sound hreach
      obtain ⟨hdouble, hmissed⟩ := hes.exact (List.mem_append_right _ (List.mem_singleton_self e))
      have hstep := hact.once hs (ht t) hdouble hmissed r
      have hdue : ∀ due : Option ℕ, due.toList.count r = (due == some r).toNat := by
        intro due
        cases due with
        | none => rfl
        | some x =>
          show [x].count r = (x == r).toNat
          rw [List.count_singleton]
          cases x == r <;> rfl
      obtain ⟨held', hcensus', hmove⟩ :=
        Census.move (b := fun pc : Pc => pc.due == some r) (t := t) (a := pc') hcensus
      refine ⟨held', hcensus', ?_⟩
      show (List.range s'.books.calls).count r = s'.books.located.count r + held'
      rw [hdue, hdue] at hstep
      omega
  exact halong hcleared

def Returned (w : AccountingWorld τ) : Prop := ∀ t, w.pc t = .idle

theorem totals_returned (h : (accountingSystem τ).Path (AccountingWorld.start τ) trail w)
    (hidle : Returned w) :
    w.shared.books.calls + doubles (events trail) = w.shared.accounted + misses (events trail) := by
  obtain ⟨owed, hcensus, htotal⟩ := totals_along h
  have hnone : owed = 0 := by
    refine hcensus.eq_zero_iff.mpr fun t howes => ?_
    rw [hidle t] at howes
    exact Bool.false_ne_true howes
  omega

theorem located_returned (h : (accountingSystem τ).Path (AccountingWorld.start τ) trail w)
    (hcleared : Cleared (events trail)) (hidle : Returned w) :
    w.shared.books.located.Perm (List.range w.shared.books.calls) := by
  refine List.perm_iff_count.mpr fun r => ?_
  obtain ⟨held, hheld, hcount⟩ := located_along h hcleared r
  have hnone : held = 0 := by
    refine hheld.eq_zero_iff.mpr fun t hdue => ?_
    rw [hidle t] at hdue
    exact Bool.false_ne_true hdue
  omega

/-- **The counters account for the requests.**  In every run, the requests and those that were counted
twice are those that the worker took, the coalesced, the rejected, the pending one, those that a thread
still has to count and those that no one counted; so once all calls have returned the counters are right
exactly when as many requests were counted twice as were not counted.

Where every slot that a late request empties holds an extent exactly when the request's own swap had
found none, no request is counted twice or forgotten, and each is in one place once all calls have
returned. -/
theorem accounting_law (h : (accountingSystem τ).Path (AccountingWorld.start τ) trail w) :
    let s := w.shared
    let counted := s.books.taken.length + s.coalesced + s.rejected + (s.wanted != 0).toNat
    (∃ owed, Census (fun t => (w.pc t).owes = true) owed ∧
      s.books.calls + doubles (events trail) = counted + owed + misses (events trail)) ∧
    (Returned w → (s.books.calls = counted ↔ doubles (events trail) = misses (events trail))) ∧
    (Cleared (events trail) →
      (∃ owed, Census (fun t => (w.pc t).owes = true) owed ∧ s.books.calls = counted + owed) ∧
      (Returned w → s.books.calls = counted ∧
        (s.books.taken ++ s.books.coalesced ++ s.books.rejected ++ s.books.holder.toList).Perm
          (List.range s.books.calls) ∧
        s.coalesced = s.books.coalesced.length ∧ s.rejected = s.books.rejected.length ∧
        s.books.holder.isSome = (s.wanted != 0))) := by
  intro s counted
  have hs : s.Sound := (sound ⟨_, rfl, h.leads⟩).1
  obtain ⟨owed, hcensus, htotal⟩ := totals_along h
  have hbooks : s.books.calls + doubles (events trail) = counted + owed + misses (events trail) := htotal
  have hreturned : Returned w →
      s.books.calls + doubles (events trail) = counted + misses (events trail) := totals_returned h
  clear_value counted
  refine ⟨⟨owed, hcensus, hbooks⟩, fun hidle => ?_, fun hcleared => ?_⟩
  · have hequal := hreturned hidle
    omega
  · obtain ⟨hdoubles, hmisses⟩ := hcleared.counts
    have howed : s.books.calls = counted + owed := by omega
    refine ⟨⟨owed, hcensus, howed⟩, fun hidle => ?_⟩
    have hequal := hreturned hidle
    have hcalls : s.books.calls = counted := by omega
    exact ⟨hcalls, located_returned h hcleared hidle, hs.coalesced, hs.rejected, hs.holder⟩

end Runs

/-! ### Two threads -/

def larger : FrameInfo := ⟨2, 2, 1, 1, false, 0, 0⟩

theorem surfaceRequest_larger : surfaceRequest .display larger = some ⟨2, 2⟩ := by decide

def requested : Reconfigure :=
  ⟨encodeExtent ⟨2, 2⟩, false, false, true, 0, 0, ⟨1, some 0, [], [], []⟩⟩

theorem request_solo : Solo (fun _ : Bool => Act) true (AccountingWorld.start Bool).shared .idle
    [.called, .silent] requested (.published ⟨0, 0, none⟩) :=
  .cons (.request .display larger surfaceRequest_larger rfl) (.cons .swap (.nil _ _))

/-- A late request that empties its own slot is counted once. -/
theorem accounting_law_late : ∃ trail, ∃ w : AccountingWorld Bool,
    (accountingSystem Bool).Path (AccountingWorld.start Bool) trail w ∧
      events trail = [.called, .silent, .silent, .silent, .cleared true false, .silent,
        .answered .rejected, .silent, .silent] ∧ Returned w ∧
      w.shared.books.rejected = [0] ∧
      w.shared.books.calls = w.shared.books.taken.length + w.shared.coalesced + w.shared.rejected +
        (w.shared.wanted != 0).toNat := by
  have hshuts : Solo (fun _ : Bool => Act) false requested .idle [.silent]
      { requested with shutdown := true } .shuttingClear :=
    .cons (.shuts rfl) (.nil _ _)
  have hlate : Solo (fun _ : Bool => Act) true { requested with shutdown := true }
      (.published ⟨0, 0, none⟩) [.silent, .cleared true false, .silent, .answered .rejected]
      ⟨0, true, false, true, 0, 1, ⟨1, none, [], [], [0]⟩⟩ .idle :=
    .cons (.late rfl) (.cons .clears (.cons .rejects (.cons .drops (.nil _ _))))
  have hwakes : Solo (fun _ : Bool => Act) false
      ⟨0, true, false, true, 0, 1, ⟨1, none, [], [], [0]⟩⟩ .shuttingClear [.silent, .silent]
      ⟨0, true, true, true, 0, 1, ⟨1, none, [], [], [0]⟩⟩ .idle :=
    .cons (.shutFindsNothing rfl) (.cons .shutWakes (.nil _ _))
  obtain ⟨trail₁, hpath₁, hes₁⟩ := request_solo.path
    (System.Path.nil (S := accountingSystem Bool) (AccountingWorld.start Bool)) rfl rfl
  obtain ⟨trail₂, hpath₂, hes₂⟩ := hshuts.path hpath₁ rfl rfl
  obtain ⟨trail₃, hpath₃, hes₃⟩ := hlate.path hpath₂ rfl rfl
  obtain ⟨trail₄, hpath₄, hes₄⟩ := hwakes.path hpath₃ rfl rfl
  have hes : events trail₄ = [.called, .silent, .silent, .silent, .cleared true false, .silent,
      .answered .rejected, .silent, .silent] := by
    rw [hes₄, hes₃, hes₂, hes₁]
    rfl
  have hcleared : Cleared (events trail₄) := by
    rw [hes]
    intro found replaced hmem
    simp only [List.mem_cons, reduceCtorEq, List.not_mem_nil, false_or, or_false,
      Event.cleared.injEq] at hmem
    rw [hmem.1, hmem.2]
    rfl
  have hlaw := ((accounting_law hpath₄).2.2 hcleared).2
  refine ⟨trail₄, _, hpath₄, hes, ?_, rfl, (hlaw ?_).1⟩ <;>
  · intro u
    cases u <;> rfl

/-- A request and a shutdown may both count the request: the shutdown empties the slot and rejects what
it finds there, and the request, which is late, is rejected once more. -/
theorem late_request_counted_twice : ¬ ∀ w : AccountingWorld Bool,
    (accountingSystem Bool).Reachable w → Returned w →
      w.shared.books.calls = w.shared.books.taken.length + w.shared.coalesced + w.shared.rejected +
        (w.shared.wanted != 0).toNat := by
  intro hall
  have hshutdown : Solo (fun _ : Bool => Act) false requested .idle
      [.silent, .silent, .silent, .silent]
      ⟨0, true, true, true, 0, 1, ⟨1, none, [], [], [0]⟩⟩ .idle :=
    .cons (.shuts rfl) (.cons (.shutFinds (by decide)) (.cons .shutRejects
      (.cons .shutWakes (.nil _ _))))
  have hlate : Solo (fun _ : Bool => Act) true
      ⟨0, true, true, true, 0, 1, ⟨1, none, [], [], [0]⟩⟩ (.published ⟨0, 0, none⟩)
      [.silent, .cleared false false, .silent, .answered .rejected]
      ⟨0, true, true, true, 0, 2, ⟨1, none, [], [], [0, 0]⟩⟩ .idle :=
    .cons (.late rfl) (.cons .clears (.cons .rejects (.cons .drops (.nil _ _))))
  obtain ⟨trail₁, hpath₁, -⟩ := request_solo.path
    (System.Path.nil (S := accountingSystem Bool) (AccountingWorld.start Bool)) rfl rfl
  obtain ⟨trail₂, hpath₂, -⟩ := hshutdown.path hpath₁ rfl rfl
  obtain ⟨trail₃, hpath₃, -⟩ := hlate.path hpath₂ rfl rfl
  have hcount := hall _ ⟨_, rfl, hpath₃.leads⟩ fun u => by cases u <;> rfl
  have hwrong : ¬ (1 : ℕ) = 0 + 0 + 2 + 0 := by decide
  exact hwrong hcount

end MadoPilot.Platform.MacosAccounting
