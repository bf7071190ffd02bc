import MadoPilot.Capture.MappingCache
import MadoPilot.Lib.Threads

/-!
# Mappings of one frame

Threads call `map_region` on one frame.  A step is one section under the mutex of the frame's cache, one
consultation of the caller's context, one call into the frame's storage, or the copy.

The storage is immutable: it holds the same pixels for as long as it exists, and either always or never
on the CPU.

* `MappingLaw` : what holds of a run;
* `mapping_is_reference` : it does.
-/

namespace MadoPilot.Capture

open MadoPilot.Core MadoPilot.Lib

/-- A frame, its identity, and what its storage holds: the pixels, and whether the CPU can read them as
they are. -/
structure MapSource where
  frame : Frame
  number : ℕ
  pixels : List UInt8
  resident : Bool
  stored : ∀ d bytes, frame.storage = .cpu d bytes → pixels = bytes ∧ resident = true
  length : pixels.length = frame.descriptor.byteLen

/-- The pixels of a mapping: the frame's own, or what the mapping obtained for itself. -/
inductive MappingStorage where
  | shared (bytes : List UInt8)
  | owned (bytes : List UInt8)
  deriving DecidableEq

def MappingStorage.bytes : MappingStorage → List UInt8
  | shared bytes | owned bytes => bytes

/-- A CPU-readable image owned by the caller. -/
structure CpuMapping where
  stamp : FrameStamp
  sourceInstance : ℕ
  transform : TransformSnapshot
  region : PixelRect
  descriptor : FrameDescriptor
  storage : MappingStorage
  deriving DecidableEq

/-- What the callers of one frame share: its cache, and the copies that were ever made. -/
structure Mappings where
  entries : MappingCache
  copies : List (List UInt8)

def Mappings.copy (s : Mappings) (pixels : ℕ) : List UInt8 := s.copies[pixels]?.getD []

namespace Mapping

/-- Where a thread stands in `map_region`. -/
inductive Pc where
  | idle
  | starting (request : MapRequest)
  | planning (attempt : Operation) (request : MapRequest)
  | searching (attempt : Operation) (plan : MapPlan)
  | loading (attempt : Operation) (plan : MapPlan)
  | converted (attempt : Operation) (plan : MapPlan)
  | reserving (attempt : Operation) (plan : MapPlan)
  | copying (attempt : Operation) (plan : MapPlan)
  | copied (attempt : Operation) (plan : MapPlan) (pixels : ℕ)
  | publishing (attempt : Operation) (plan : MapPlan) (pixels : ℕ)
  | committing (attempt : Operation) (plan : MapPlan) (storage : MappingStorage)
  | returning (request : MapRequest) (result : Except Error CpuMapping)

/-- What a step shows. -/
inductive Event where
  | silent
  | consulted (seen : Option Interruption)
  | read (failure : Option Error)
  | reserved (failure : Option Error)
  | published (pixels : ℕ)
  | returned (request : MapRequest) (result : Except Error CpuMapping)

def Event.ends : Event → Bool
  | returned .. => true
  | _ => false

/-- Where a call goes on when it has the frame's pixels. -/
def Pc.loaded (source : MapSource) (op : Operation) (plan : MapPlan) (shared : Bool) : Pc :=
  if plan.unconverted then
    .committing op plan (if shared then .shared source.pixels else .owned source.pixels)
  else .reserving op plan

def mapping (source : MapSource) (plan : MapPlan) (storage : MappingStorage) : CpuMapping :=
  ⟨source.frame.stamp, source.number, source.frame.transform, plan.request.region, plan.descriptor,
    storage⟩

/-- The steps of a thread.  `seen` is what the caller's context answers when it is consulted. -/
inductive Act (source : MapSource) {τ : Type*} (t : τ) : Mappings → Pc → Event → Mappings → Pc → Prop
  | call {s : Mappings} (request : MapRequest) : Act source t s .idle .silent s (.starting request)
  | refused {s : Mappings} {request : MapRequest} (seen : Option Interruption) {i : Interruption} :
      Operation.admitContext seen = .error i →
      Act source t s (.starting request) (.consulted seen) s (.returning request (.error i.toError))
  | admitted {s : Mappings} {request : MapRequest} (seen : Option Interruption) {op : Operation} :
      Operation.admitContext seen = .ok op →
      Act source t s (.starting request) (.consulted seen) s (.planning op request)
  | rejected {s : Mappings} {op : Operation} {request : MapRequest} {fault : CaptureFault} :
      planRegion source.frame.descriptor request = .error fault →
      Act source t s (.planning op request) .silent s (.returning request (.error fault.toError))
  | plans {s : Mappings} {op : Operation} {request : MapRequest} {plan : MapPlan} :
      planRegion source.frame.descriptor request = .ok plan →
      Act source t s (.planning op request) .silent s
        (if plan.unconverted then .loading op plan else .searching op plan)
  | hit {s : Mappings} {op : Operation} {plan : MapPlan} {pixels : ℕ} {entries : MappingCache}
      (locked upgraded : Bool) :
      s.entries.find plan.request.region plan.descriptor locked upgraded = (some pixels, entries) →
      Act source t s (.searching op plan) .silent { s with entries := entries }
        (.committing op plan (.owned (s.copy pixels)))
  | miss {s : Mappings} {op : Operation} {plan : MapPlan} {entries : MappingCache}
      (locked upgraded : Bool) :
      s.entries.find plan.request.region plan.descriptor locked upgraded = (none, entries) →
      Act source t s (.searching op plan) .silent { s with entries := entries } (.loading op plan)
  | resident {s : Mappings} {op : Operation} {plan : MapPlan} : source.resident = true →
      Act source t s (.loading op plan) .silent s (.loaded source op plan true)
  | read {s : Mappings} {op : Operation} {plan : MapPlan} : source.resident = false →
      Act source t s (.loading op plan) (.read none) s (.converted op plan)
  | readFails {s : Mappings} {op : Operation} {plan : MapPlan} (error : Error) :
      source.resident = false →
      Act source t s (.loading op plan) (.read (some error)) s (.returning plan.request (.error error))
  | overtaken {s : Mappings} {op op' : Operation} {plan : MapPlan} (seen : Option Interruption)
      {i : Interruption} : op.checkpoint seen = (.error i, op') →
      Act source t s (.converted op plan) (.consulted seen) s
        (.returning plan.request (.error i.toError))
  | continues {s : Mappings} {op op' : Operation} {plan : MapPlan} (seen : Option Interruption) :
      op.checkpoint seen = (.ok (), op') →
      Act source t s (.converted op plan) (.consulted seen) s (.loaded source op' plan false)
  | reserve {s : Mappings} {op : Operation} {plan : MapPlan} :
      Act source t s (.reserving op plan) (.reserved none) s (.copying op plan)
  | reserveFails {s : Mappings} {op : Operation} {plan : MapPlan} (error : Error) :
      Act source t s (.reserving op plan) (.reserved (some error)) s
        (.returning plan.request (.error error))
  | copy {s : Mappings} {op : Operation} {plan : MapPlan} {bytes : List UInt8} :
      copyRegion source.frame.descriptor source.pixels plan.request.region plan.descriptor = .ok bytes →
      Act source t s (.copying op plan) .silent { s with copies := s.copies ++ [bytes] }
        (.copied op plan s.copies.length)
  | copyFails {s : Mappings} {op : Operation} {plan : MapPlan} {fault : CaptureFault} :
      copyRegion source.frame.descriptor source.pixels plan.request.region plan.descriptor =
        .error fault →
      Act source t s (.copying op plan) .silent s (.returning plan.request (.error fault.toError))
  | discards {s : Mappings} {op op' : Operation} {plan : MapPlan} {pixels : ℕ}
      (seen : Option Interruption) {i : Interruption} : op.checkpoint seen = (.error i, op') →
      Act source t s (.copied op plan pixels) (.consulted seen) s
        (.returning plan.request (.error i.toError))
  | clears {s : Mappings} {op op' : Operation} {plan : MapPlan} {pixels : ℕ}
      (seen : Option Interruption) : op.checkpoint seen = (.ok (), op') →
      Act source t s (.copied op plan pixels) (.consulted seen) s (.publishing op' plan pixels)
  | stores {s : Mappings} {op : Operation} {plan : MapPlan} {pixels used : ℕ} {entries : MappingCache}
      (locked upgraded : Bool) (live : ℕ → Bool) :
      s.entries.publish plan.request.region plan.descriptor pixels locked upgraded live =
        (used, entries, true) →
      Act source t s (.publishing op plan pixels) (.published used) { s with entries := entries }
        (.committing op plan (.owned (s.copy used)))
  | joins {s : Mappings} {op : Operation} {plan : MapPlan} {pixels used : ℕ} {entries : MappingCache}
      (locked upgraded : Bool) (live : ℕ → Bool) :
      s.entries.publish plan.request.region plan.descriptor pixels locked upgraded live =
        (used, entries, false) →
      Act source t s (.publishing op plan pixels) .silent { s with entries := entries }
        (.committing op plan (.owned (s.copy used)))
  | commit {s : Mappings} {op : Operation} {plan : MapPlan} {storage : MappingStorage}
      (seen : Option Interruption) :
      Act source t s (.committing op plan storage) (.consulted seen) s
        (.returning plan.request
          ((op.commit seen (mapping source plan storage)).mapError Interruption.toError))
  | returns {s : Mappings} {request : MapRequest} {result : Except Error CpuMapping} :
      Act source t s (.returning request result) (.returned request result) s .idle

/-- The callers of one frame and what they share. -/
abbrev MapWorld (τ : Type*) := World τ Mappings Pc

/-- A frame nobody has mapped. -/
def MapWorld.start (τ : Type*) : MapWorld τ := ⟨⟨.new, []⟩, fun _ => .idle⟩

abbrev mapSystem (τ : Type*) [DecidableEq τ] (source : MapSource) : System (MapWorld τ) (τ × Event) :=
  threads (Act source) (MapWorld.start τ)

end Mapping

end MadoPilot.Capture
