import MadoPilot.Capture.Mapping
import MadoPilot.Lib.Cells

/-!
# Prepared images

Searches of one backend convert the pixels they are asked about into BGR, and keep the last two
conversions for searches that ask about the same pixels again.  An entry is known by the allocation of
its source frame and by the stamp, the region and the layout of the mapping; the frame may be gone by the
time anybody asks, so `alive` answers are arguments, as is whether `try_lock` gets the mutex.

A search is a thread.  A step is one section of the cache, one conversion, or one consultation of the
caller's context.  A section that would leave `usize` computes nothing.

* `State.evict`, `lookup`, `publish` : the sections;
* `imageSystem` : any number of searches.
-/

namespace MadoPilot.Vision

open MadoPilot.Core MadoPilot.Lib MadoPilot.Capture

/-! ### Images -/

/-- An owned matrix of three-byte pixels. -/
structure Mat where
  rows : ℕ
  cols : ℕ
  data : List UInt8

def Mat.total (m : Mat) : ℕ := m.rows * m.cols

/-- Why a matrix could not be built from mapped pixels. -/
inductive ImageFault where
  | unrepresentable | truncated | rejected
  deriving DecidableEq

/-- The colour conversions that a mapping asks for. -/
inductive ColorCode where
  | bgra2bgr | rgba2bgr
  deriving DecidableEq

/-- `cvt_color_def` on a header of some rows, columns and stride over some bytes. -/
abbrev CvtColor := ColorCode → ℕ → ℕ → ℕ → List UInt8 → Option Mat

def signed (value : ℕ) : Except ImageFault ℕ :=
  if value ≤ i32Max then .ok value else .error .unrepresentable

/-- The bytes that the rows of a mapping need: a full stride for each but the last. -/
def requiredBytes (extent : PixelExtent) (stride rowBytes : ℕ) : Option ℕ :=
  if extent.height = 0 then none
  else (checkedMul usizeMax (extent.height - 1) stride).bind fun leading =>
    checkedAdd usizeMax leading rowBytes

def regionToBgr (cvtColor : CvtColor) (pixels : CpuMapping) : Except ImageFault Mat := do
  let code := match pixels.descriptor.format with
    | .bgra8 => ColorCode.bgra2bgr
    | .rgba8 => ColorCode.rgba2bgr
  let rows ← signed pixels.descriptor.extent.height
  let columns ← signed pixels.descriptor.extent.width
  let bytes := pixels.storage.bytes
  let some rowBytes := checkedMul usizeMax pixels.descriptor.extent.width 4
    | .error .unrepresentable
  let some required := requiredBytes pixels.descriptor.extent pixels.descriptor.stride rowBytes
    | .error .unrepresentable
  if pixels.descriptor.stride < rowBytes ∨ bytes.length < required then .error .truncated
  else match cvtColor code rows columns pixels.descriptor.stride bytes with
    | some matrix => .ok matrix
    | none => .error .rejected

abbrev capacity : ℕ := 2

def byteLimit : ℕ := 33554432

structure CachedImage where
  matrix : Mat
  bytes : ℕ
  bytes_eq : bytes = min usizeMax (matrix.total * 3)
  bytes_le : bytes ≤ byteLimit

inductive PreparedRegion where
  | shared (image : CachedImage)
  | owned (matrix : Mat)

namespace PreparedRegion

def new (matrix : Mat) (cacheable : Bool) : PreparedRegion :=
  if cacheable then
    if h : min usizeMax (matrix.total * 3) ≤ byteLimit then .shared ⟨matrix, _, rfl, h⟩
    else .owned matrix
  else .owned matrix

def matrix : PreparedRegion → Mat
  | shared image => image.matrix
  | owned matrix => matrix

end PreparedRegion

/-! ### The cache -/

/-- What an entry is known by. -/
structure Key where
  source : ℕ
  stamp : FrameStamp
  region : PixelRect
  descriptor : FrameDescriptor
  deriving DecidableEq

namespace Key

def new (pixels : CpuMapping) : Key :=
  ⟨pixels.sourceInstance, pixels.stamp, pixels.region, pixels.descriptor⟩

def matching (key : Key) (pixels : CpuMapping) : Bool :=
  key.source == pixels.sourceInstance && key.stamp == pixels.stamp && key.region == pixels.region &&
    key.descriptor == pixels.descriptor

end Key

structure Entry where
  key : Key
  image : CachedImage

def Entry.bytes (e : Entry) : ℕ := e.image.bytes

/-- The entries, the last one used first, and the bytes they are booked with. -/
structure State where
  entries : Cells (Fin capacity) Entry
  bytes : ℕ

inductive Lookup where
  | hit (image : CachedImage)
  | vacant
  | bypass

namespace State

def new : State := ⟨fun _ => none, 0⟩

variable (s : State)

/-- `retire`; the bytes may not run below zero. -/
def retire (index : Fin capacity) : Option State :=
  match s.entries index with
  | none => some s
  | some entry =>
    if entry.bytes ≤ s.bytes then some ⟨s.entries.clear index, s.bytes - entry.bytes⟩ else none

/-- `prune`.  `alive` is what the source of each entry answers. -/
def prune (alive : Fin capacity → Bool) : Option State :=
  (List.finRange capacity).foldlM (fun s index =>
    if (s.entries index).isSome && !alive index then s.retire index else some s) s

def get (pixels : CpuMapping) : Option (CachedImage × State) :=
  ((List.finRange capacity).find? fun index => (s.entries index).any (·.key.matching pixels)).bind
    fun index =>
      let entries := s.entries.swap 0 index
      (entries 0).map fun entry => (entry.image, ⟨entries, s.bytes⟩)

/-- The image has to wait for an eviction: its bytes do not fit, or no place is free. -/
def crowded (image : CachedImage) : Bool :=
  decide (byteLimit < s.bytes + image.bytes) ||
    (List.finRange capacity).all fun index => (s.entries index).isSome

/-- The place that is given up first. -/
def last : Fin capacity := if (s.entries 1).isSome then 1 else 0

/-- The eviction loop, `fuel` tests of its condition at most. -/
def evict (image : CachedImage) : ℕ → State → Option State
  | 0, _ => none
  | fuel + 1, s => if s.crowded image then (s.retire s.last).bind (evict image fuel) else some s

def insert (entry : Entry) : State :=
  ⟨(s.entries.swap 0 (if (s.entries 0).isSome then 1 else 0)).put 0 entry, s.bytes + entry.bytes⟩

/-- `PreparedImages::lookup`.  `live` is what the source of the pixels answers. -/
def lookup (pixels : CpuMapping) (contended : Bool) (alive : Fin capacity → Bool) (live : Bool) :
    Option (Lookup × State) :=
  if contended then some (.bypass, s)
  else (s.prune alive).map fun s =>
    match s.get pixels with
    | some (image, s) => (.hit image, s)
    | none => (if live then .vacant else .bypass, s)

/-- The section of `publish`: the winner that was there before, if one was. -/
def commit (pixels : CpuMapping) (image : CachedImage) (contended : Bool)
    (alive : Fin capacity → Bool) : Option (Option CachedImage × State) :=
  if contended then some (none, s)
  else (s.prune alive).bind fun s =>
    match s.get pixels with
    | some (existing, s) => some (some existing, s)
    | none => (evict image (capacity + 1) s).map fun s => (none, s.insert ⟨.new pixels, image⟩)

def publish (pixels : CpuMapping) (candidate : PreparedRegion) (live contended : Bool)
    (alive : Fin capacity → Bool) : Option (PreparedRegion × State) :=
  match candidate with
  | .owned _ => some (candidate, s)
  | .shared image =>
    if live then
      (s.commit pixels image contended alive).map fun r =>
        (match r.1 with
          | some winner => .shared winner
          | none => candidate, r.2)
    else some (candidate, s)

end State

/-! ### Searches -/

/-- The frames that were ever published, each by its allocation. -/
structure Frames where
  source : ℕ → MapSource
  number_eq : ∀ n, (source n).number = n

/-- The pixels are a mapping that a call on their frame has returned, in some run of the callers of that
frame. -/
def Mapped (frames : Frames) (pixels : CpuMapping) : Prop :=
  ∃ (request : MapRequest) (trail : List (Mapping.MapWorld ℕ × (ℕ × Mapping.Event)))
    (w : Mapping.MapWorld ℕ),
    (Mapping.mapSystem ℕ (frames.source pixels.sourceInstance)).Path (.start ℕ) trail w ∧
      .returned request (.ok pixels) ∈ events trail

namespace Prepared

/-- Where a search stands. -/
inductive Pc where
  | idle
  | looking (pixels : CpuMapping)
  | converting (pixels : CpuMapping) (cacheable : Bool)
  | checking (pixels : CpuMapping) (cacheable : Bool) (region : PreparedRegion)
  | publishing (pixels : CpuMapping) (region : PreparedRegion)
  | prepared (pixels : CpuMapping) (region : PreparedRegion)

/-- What a step shows. -/
inductive Event where
  | silent
  | failed (pixels : CpuMapping) (fault : ImageFault)
  | interrupted (pixels : CpuMapping) (why : Interruption)
  | obtained (pixels : CpuMapping) (region : PreparedRegion)

def Pc.looked (pixels : CpuMapping) : Lookup → Pc
  | .hit image => .checking pixels false (.shared image)
  | .vacant => .converting pixels true
  | .bypass => .converting pixels false

/-- The steps of a search.  OpenCV may refuse a conversion at any time. -/
inductive Act (cvtColor : CvtColor) (frames : Frames) {τ : Type*} (t : τ) :
    State → Pc → Event → State → Pc → Prop
  | call {s : State} (pixels : CpuMapping) : Mapped frames pixels →
      Act cvtColor frames t s .idle .silent s (.looking pixels)
  | lookup {s s' : State} {pixels : CpuMapping} {found : Lookup} (contended : Bool)
      (alive : Fin capacity → Bool) (live : Bool) :
      s.lookup pixels contended alive live = some (found, s') →
      Act cvtColor frames t s (.looking pixels) .silent s' (.looked pixels found)
  | convert {s : State} {pixels : CpuMapping} {cacheable : Bool} {matrix : Mat} (live : Bool) :
      regionToBgr cvtColor pixels = .ok matrix →
      Act cvtColor frames t s (.converting pixels cacheable) .silent s
        (.checking pixels cacheable (.new matrix (cacheable && live)))
  | convertFails {s : State} {pixels : CpuMapping} {cacheable : Bool} (fault : ImageFault) :
      Act cvtColor frames t s (.converting pixels cacheable) (.failed pixels fault) s .idle
  | interrupted {s : State} {pixels : CpuMapping} {cacheable : Bool} {region : PreparedRegion}
      (why : Interruption) :
      Act cvtColor frames t s (.checking pixels cacheable region) (.interrupted pixels why) s .idle
  | continues {s : State} {pixels : CpuMapping} {cacheable : Bool} {region : PreparedRegion} :
      Act cvtColor frames t s (.checking pixels cacheable region) .silent s
        (if cacheable then .publishing pixels region else .prepared pixels region)
  | publish {s s' : State} {pixels : CpuMapping} {candidate region : PreparedRegion}
      (live contended : Bool) (alive : Fin capacity → Bool) :
      s.publish pixels candidate live contended alive = some (region, s') →
      Act cvtColor frames t s (.publishing pixels candidate) .silent s' (.prepared pixels region)
  | obtain {s : State} {pixels : CpuMapping} {region : PreparedRegion} :
      Act cvtColor frames t s (.prepared pixels region) (.obtained pixels region) s .idle

/-- The searches and their cache. -/
abbrev ImageWorld (τ : Type*) := World τ State Pc

/-- An empty cache. -/
def ImageWorld.start (τ : Type*) : ImageWorld τ := ⟨.new, fun _ => .idle⟩

abbrev imageSystem (τ : Type*) [DecidableEq τ] (cvtColor : CvtColor) (frames : Frames) :
    System (ImageWorld τ) (τ × Event) :=
  threads (Act cvtColor frames) (ImageWorld.start τ)

end Prepared

end MadoPilot.Vision
