import MadoPilot.Capture.Frame
import MadoPilot.Lib.Leases
import MadoPilot.Lib.System

/-!
# Retained bytes and pooled textures of the Windows adapter

Sessions charge the bytes they retain to a budget of their own and to a global one, and keep reusable
textures in pools.  A step is one access to a budget, one creation of a texture, or one section under a
pool's mutex up to the next such access.  A call in progress is an entry of `calls`, so any number of
them can be in flight, and the leases that nobody but a call holds are there for all to see.

`SessionMemory` reserves from the session first and from the global budget then, and gives the session's
share back where the global one refuses; a `RetainedBytes` is dropped in the same order.
-/

namespace MadoPilot.Platform.WindowsStorage

open MadoPilot.Core MadoPilot.Capture MadoPilot.Lib

/-! ### Layouts -/

def maxTextureAxis : ℕ := 16384

def maxSurfaceBytes : ℕ := 128 * 1024 * 1024

structure SurfaceLayout where
  rowBytes : ℕ
  bytes : ℕ
  deriving DecidableEq

/-- Validates every axis and checked BGRA multiplication before allocation. -/
def validateSurface (width height : ℕ) : Except CaptureFault SurfaceLayout :=
  if width = 0 ∨ height = 0 ∨ maxTextureAxis < width ∨ maxTextureAxis < height then
    .error .resourceLimitExceeded
  else
    match checkedMul u64Max width 4 with
    | none => .error .resourceLimitExceeded
    | some rowBytes =>
      match checkedMul u64Max rowBytes height with
      | none => .error .resourceLimitExceeded
      | some bytes =>
        if maxSurfaceBytes < bytes then .error .resourceLimitExceeded else .ok ⟨rowBytes, bytes⟩

/-- `D3D11_TEXTURE2D_DESC`, as far as a pool reads it. -/
structure TextureDescriptor where
  width : ℕ
  height : ℕ
  mipLevels : ℕ
  arraySize : ℕ
  format : ℤ
  sampleCount : ℕ
  sampleQuality : ℕ
  deriving DecidableEq

/-- `DXGI_FORMAT_B8G8R8A8_UNORM`. -/
def bgra8Unorm : ℤ := 87

def textureLayout (d : TextureDescriptor) : Except CaptureFault SurfaceLayout :=
  if d.format ≠ bgra8Unorm then .error .unsupportedFormat
  else if d.mipLevels ≠ 1 ∨ d.arraySize ≠ 1 ∨ d.sampleCount ≠ 1 ∨ d.sampleQuality ≠ 0 then
    .error .inconsistentDescriptor
  else validateSurface d.width d.height

structure TextureShape where
  width : ℕ
  height : ℕ
  format : ℤ
  sampleCount : ℕ
  sampleQuality : ℕ
  deriving DecidableEq

def TextureShape.fromDescriptor (d : TextureDescriptor) : TextureShape :=
  ⟨d.width, d.height, d.format, d.sampleCount, d.sampleQuality⟩

/-! ### Budgets -/

structure ByteBudget where
  limit : ℕ
  used : ℕ
  deriving DecidableEq

namespace ByteBudget

def tryReserve (b : ByteBudget) (bytes : ℕ) : Option ByteBudget :=
  ((checkedAdd u64Max b.used bytes).filter (· ≤ b.limit)).map fun next => { b with used := next }

/-- `ByteLease::drop`. -/
def release (b : ByteBudget) (bytes : ℕ) : ByteBudget :=
  { b with used := wrappingSub u64Max b.used bytes }

end ByteBudget

/-- A lease of bytes: of a session by its number, or of the global budget. -/
abbrev ByteLease := Option ℕ × ℕ

structure SessionMemory where
  session : ByteBudget
  maxFrameBytes : ℕ
  deriving DecidableEq

def SessionMemory.validateTexture (m : SessionMemory) (d : TextureDescriptor) :
    Except CaptureFault SurfaceLayout :=
  match textureLayout d with
  | .error fault => .error fault
  | .ok layout =>
    if m.maxFrameBytes < layout.bytes then .error .resourceLimitExceeded else .ok layout

structure RetainedBytes where
  session : ℕ
  bytes : ℕ
  deriving DecidableEq

def RetainedBytes.leases (r : RetainedBytes) : List ByteLease := [(some r.session, r.bytes), (none, r.bytes)]

/-! ### Pools -/

structure PooledTexture where
  shape : TextureShape
  bytes : RetainedBytes
  deriving DecidableEq

structure TextureLease where
  pooled : PooledTexture
  shape : TextureShape
  pool : ℕ
  deriving DecidableEq

structure PoolState where
  allocated : ℕ
  leased : ℕ
  shape : Option TextureShape
  free : List PooledTexture
  deriving DecidableEq

namespace PoolState

def empty : PoolState := ⟨0, 0, none, []⟩

def applyDeferredDiscards (s : PoolState) (discarded : ℕ) : PoolState :=
  { s with leased := s.leased - discarded, allocated := s.allocated - discarded }

def retire (s : PoolState) (shape : Option TextureShape) : PoolState :=
  { s with free := [], allocated := s.allocated - s.free.length, shape := shape }

/-- The part of `release` under the mutex, for a texture that is kept and for one that is not. -/
def putBack (s : PoolState) (pooled : PooledTexture) (shape : TextureShape) : PoolState :=
  if s.shape = some shape then { s with leased := s.leased - 1, free := s.free ++ [pooled] }
  else { s with leased := s.leased - 1, allocated := s.allocated - 1 }

end PoolState

/-- A pool and the number of its session.  `locked` says that a call holds the mutex from one step to
the next, `alive` that somebody but the leases refers to the pool. -/
structure TexturePool where
  memory : ℕ
  capacity : ℕ
  state : PoolState
  deferredDiscards : ℕ
  locked : Bool
  alive : Bool
  deriving DecidableEq

namespace TexturePool

/-- The pool after the swap of `apply_deferred_discards`. -/
def settle (p : TexturePool) : TexturePool :=
  { p with state := p.state.applyDeferredDiscards p.deferredDiscards, deferredDiscards := 0 }

/-- The leases of the free textures, in the order in which clearing them drops them. -/
def freeLeases (p : TexturePool) : List ByteLease := p.state.free.flatMap (·.bytes.leases)

end TexturePool

/-! ### Calls in progress -/

/-- A call and what it holds.  The calls from `clearing` to `closing` hold the mutex of their pool. -/
inductive Call where
  | reserving (session bytes : ℕ)
  | reserved (session bytes : ℕ)
  | acquiring (pool : ℕ) (shape : TextureShape) (bytes : ℕ)
  | clearing (pool : ℕ) (shape : TextureShape) (bytes : ℕ) (drops : List ByteLease)
  | charging (pool : ℕ) (shape : TextureShape) (session bytes : ℕ)
  | charged (pool : ℕ) (shape : TextureShape) (session bytes : ℕ)
  | creating (pool : ℕ) (shape : TextureShape) (session bytes : ℕ)
  | closing (pool : ℕ) (drops : List ByteLease)
  | dropping (drops : List ByteLease)
  deriving DecidableEq

def Call.locks : Call → Option ℕ
  | clearing pool .. | charging pool .. | charged pool .. | creating pool .. | closing pool _ => some pool
  | _ => none

def Call.refers : Call → Option ℕ
  | acquiring pool .. => some pool
  | call => call.locks

structure Storage where
  sessions : List SessionMemory
  total : ByteBudget
  pools : List TexturePool
  retained : List RetainedBytes
  leases : List TextureLease
  calls : List Call
  deriving DecidableEq

namespace Storage

variable (w : Storage)

def budget : Option ℕ → Option ByteBudget
  | none => some w.total
  | some s => w.sessions[s]?.map (·.session)

def setBudget (b : ByteBudget) : Option ℕ → Storage
  | none => { w with total := b }
  | some s =>
    { w with sessions := w.sessions.modify s fun m => { m with session := b } }

def tryReserve (account : Option ℕ) (bytes : ℕ) : Option Storage :=
  ((w.budget account).bind (·.tryReserve bytes)).map fun b => w.setBudget b account

def dropLease (lease : ByteLease) : Storage :=
  match w.budget lease.1 with
  | some b => w.setBudget (b.release lease.2) lease.1
  | none => w

def setPool (i : ℕ) (p : TexturePool) : Storage := { w with pools := w.pools.set i p }

def setCall (i : ℕ) (c : Call) : Storage := { w with calls := w.calls.set i c }

def endCall (i : ℕ) : Storage := { w with calls := w.calls.eraseIdx i }

def startCall (c : Call) : Storage := { w with calls := w.calls ++ [c] }

end Storage

/-- An access.  `ok` is what the environment answers: whether `try_lock` gets the mutex, or whether the
texture is created. -/
inductive Access where
  | reserve (session bytes : ℕ)
  | dropBytes (index : ℕ)
  | acquire (pool : ℕ) (descriptor : TextureDescriptor)
  | retire (pool : ℕ) (ok : Bool)
  | dropTexture (index : ℕ) (ok : Bool)
  | dropPool (pool : ℕ)
  | advance (index : ℕ) (ok : Bool)
  deriving DecidableEq

namespace Storage

variable (w : Storage)

/-- `TexturePool::try_retire_for_resize`, up to the drop of the free textures. -/
def retire (pool : ℕ) (ok : Bool) : Option Storage :=
  match w.pools[pool]? with
  | none => none
  | some p =>
    if !p.alive then none
    else if !ok then some w
    else if p.locked then none
    else
      let settled := p.settle
      some ((w.setPool pool { settled with
        state := settled.state.retire none
        locked := true }).startCall (.closing pool settled.freeLeases))

/-- `TextureLease::drop`. -/
def dropTexture (index : ℕ) (ok : Bool) : Option Storage :=
  match w.leases[index]? with
  | none => none
  | some lease =>
    let rest := { w with leases := w.leases.eraseIdx index }
    match w.pools[lease.pool]? with
    | none => none
    | some p =>
      if !p.alive then some (rest.startCall (.dropping lease.pooled.bytes.leases))
      else if !ok then
        some ((rest.setPool lease.pool { p with deferredDiscards := p.deferredDiscards + 1 }).startCall
          (.dropping lease.pooled.bytes.leases))
      else if p.locked then none
      else
        let settled := p.settle
        let kept := rest.setPool lease.pool { settled with
          state := settled.state.putBack lease.pooled lease.shape }
        if settled.state.shape = some lease.shape then some kept
        else some (kept.startCall (.dropping lease.pooled.bytes.leases))

/-- The last strong reference to a pool goes. -/
def dropPool (pool : ℕ) : Option Storage :=
  match w.pools[pool]? with
  | none => none
  | some p =>
    if !p.alive ∨ w.calls.any (·.refers = some pool) then none
    else
      some ((w.setPool pool { p with alive := false, state := .empty, deferredDiscards := 0 }).startCall
        (.dropping p.freeLeases))

/-- A texture goes out, and the call that acquired it ends. -/
def lease (i pool : ℕ) (p : TexturePool) (state : PoolState) (pooled : PooledTexture)
    (shape : TextureShape) : Storage :=
  { (w.setPool pool { p with state := { state with leased := state.leased + 1 }, locked := false }).endCall i
    with leases := w.leases ++ [⟨pooled, shape, pool⟩] }

/-- The call ends and releases the mutex of its pool. -/
def unlock (i pool : ℕ) (p : TexturePool) : Storage :=
  (w.setPool pool { p with locked := false }).endCall i

def advance (i : ℕ) (ok : Bool) : Call → Option Storage
  | .reserving session bytes =>
    match w.tryReserve (some session) bytes with
    | some w' => some (w'.setCall i (.reserved session bytes))
    | none => some (w.endCall i)
  | .reserved session bytes =>
    match w.tryReserve none bytes with
    | some w' => some { w'.endCall i with retained := w.retained ++ [⟨session, bytes⟩] }
    | none => some (w.setCall i (.dropping [(some session, bytes)]))
  | .acquiring pool shape bytes =>
    match w.pools[pool]? with
    | none => none
    | some p =>
      if !ok then some (w.endCall i)
      else if p.locked then none
      else
        let settled := p.settle
        if settled.state.shape = some shape then
          some ((w.setPool pool { settled with locked := true }).setCall i
            (.clearing pool shape bytes []))
        else
          some ((w.setPool pool { settled with
            state := settled.state.retire (some shape)
            locked := true }).setCall i (.clearing pool shape bytes settled.freeLeases))
  | .clearing pool shape bytes (drop :: drops) =>
    some ((w.dropLease drop).setCall i (.clearing pool shape bytes drops))
  | .clearing pool shape bytes [] =>
    match w.pools[pool]? with
    | none => none
    | some p =>
      match p.state.free.getLast? with
      | some pooled => some (w.lease i pool p { p.state with free := p.state.free.dropLast } pooled shape)
      | none =>
        if p.capacity ≤ p.state.allocated then some (w.unlock i pool p)
        else some (w.setCall i (.charging pool shape p.memory bytes))
  | .charging pool shape session bytes =>
    match w.tryReserve (some session) bytes with
    | some w' => some (w'.setCall i (.charged pool shape session bytes))
    | none => (w.pools[pool]?).map (w.unlock i pool)
  | .charged pool shape session bytes =>
    match w.tryReserve none bytes with
    | some w' => some (w'.setCall i (.creating pool shape session bytes))
    | none => some (w.setCall i (.closing pool [(some session, bytes)]))
  | .creating pool shape session bytes =>
    match w.pools[pool]? with
    | none => none
    | some p =>
      let charge : RetainedBytes := ⟨session, bytes⟩
      if ok then
        some (w.lease i pool p { p.state with allocated := p.state.allocated + 1 } ⟨shape, charge⟩ shape)
      else some (w.setCall i (.closing pool charge.leases))
  | .closing pool (drop :: drops) => some ((w.dropLease drop).setCall i (.closing pool drops))
  | .closing pool [] => (w.pools[pool]?).map (w.unlock i pool)
  | .dropping (drop :: drops) => some ((w.dropLease drop).setCall i (.dropping drops))
  | .dropping [] => some (w.endCall i)

def perform : Access → Option Storage
  | .reserve session bytes =>
    if session < w.sessions.length then some (w.startCall (.reserving session bytes)) else none
  | .dropBytes index =>
    (w.retained[index]?).map fun r =>
      { w with retained := w.retained.eraseIdx index }.startCall (.dropping r.leases)
  | .acquire pool descriptor =>
    match w.pools[pool]? with
    | none => none
    | some p =>
      if !p.alive then none
      else
        match w.sessions[p.memory]? with
        | none => none
        | some memory =>
          match memory.validateTexture descriptor with
          | .error _ => some w
          | .ok layout =>
            some (w.startCall (.acquiring pool (.fromDescriptor descriptor) layout.bytes))
  | .retire pool ok => w.retire pool ok
  | .dropTexture index ok => w.dropTexture index ok
  | .dropPool pool => w.dropPool pool
  | .advance index ok => (w.calls[index]?).bind (w.advance index ok)

end Storage

/-- Nothing is out yet. -/
structure Fresh (w : Storage) : Prop where
  sessions : ∀ m ∈ w.sessions, m.session.used = 0 ∧ m.session.limit ≤ u64Max
  total : w.total.used = 0 ∧ w.total.limit ≤ u64Max
  pools : ∀ p ∈ w.pools, p.memory < w.sessions.length ∧ p.state = .empty ∧ p.deferredDiscards = 0 ∧
    p.locked = false
  out : w.retained = [] ∧ w.leases = [] ∧ w.calls = []

/-- Sessions and pools that anyone may use. -/
def storageSystem (start : Storage) : System Storage Access := System.computed start Storage.perform

end MadoPilot.Platform.WindowsStorage
