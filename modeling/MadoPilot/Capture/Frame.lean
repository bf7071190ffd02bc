import MadoPilot.Core.Identity
import MadoPilot.Core.Transform

/-!
# Frame descriptors, storage, frames and capture faults
-/

namespace MadoPilot.Capture

open MadoPilot.Core MadoPilot.Lib

/-- A capture rule that could not be satisfied. -/
inductive CaptureFault where
  | inconsistentDescriptor | byteLengthMismatch | unsupportedFormat | unsupportedCoordinate
  | regionOutsideFrame | foreignTarget | unknownTarget | targetLost | windowGeometryChanged
  | sessionClosed | unsupportedOption | sourceInvalid | foreignStream | streamEnded | accessDenied
  | captureItemClosed | displayDisconnected | deviceRemoved | deviceReset | explicitlyStopped
  | storageBudgetExhausted | resourceLimitExceeded
  deriving DecidableEq, Repr

namespace CaptureFault

def status : CaptureFault → Status
  | inconsistentDescriptor | byteLengthMismatch | regionOutsideFrame | foreignTarget
  | unknownTarget | foreignStream => .invalidArgument
  | unsupportedFormat | unsupportedCoordinate | unsupportedOption => .unsupported
  | sessionClosed | streamEnded | explicitlyStopped => .closed
  | targetLost | captureItemClosed | displayDisconnected => .targetLost
  | storageBudgetExhausted | resourceLimitExceeded => .limitExceeded
  | sourceInvalid | windowGeometryChanged | accessDenied | deviceRemoved | deviceReset =>
    .captureFailed

def detail : CaptureFault → String
  | inconsistentDescriptor => "frame descriptor is internally inconsistent"
  | byteLengthMismatch => "pixel bytes do not match the descriptor length"
  | unsupportedFormat => "requested pixel format is not supported"
  | unsupportedCoordinate => "frame transform does not support the requested coordinate space"
  | regionOutsideFrame => "region falls outside its source frame"
  | foreignTarget => "target identity was not issued by this provider"
  | unknownTarget => "no such target"
  | targetLost => "target no longer exists"
  | windowGeometryChanged => "retained window capture geometry changed"
  | sessionClosed => "session is closed"
  | unsupportedOption => "required capture option is not supported"
  | sourceInvalid => "configured capture source is invalid"
  | foreignStream => "frame stamp belongs to another stream"
  | streamEnded => "stream published its final frame"
  | accessDenied => "operating system refused capture access"
  | captureItemClosed => "native capture item closed"
  | displayDisconnected => "captured display disconnected"
  | deviceRemoved => "native graphics device was removed"
  | deviceReset => "native graphics device was reset"
  | explicitlyStopped => "capture was explicitly stopped"
  | storageBudgetExhausted => "every unit of the session's storage budget is retained by a caller"
  | resourceLimitExceeded => "native capture resource exceeds its reviewed allocation limit"

def toError (f : CaptureFault) : Error := ⟨f.status, f.detail⟩

end CaptureFault

inductive PixelFormat where
  | rgba8 | bgra8
  deriving DecidableEq, Repr

def PixelFormat.bytesPerPixel : PixelFormat → ℕ
  | rgba8 | bgra8 => 4

/-- The largest `usize` of the release targets. -/
def usizeMax : ℕ := u64Max

/-- The extent, format and row stride of one pixel buffer, with the arithmetic that its constructor
has checked to close. -/
structure FrameDescriptor where
  extent : PixelExtent
  format : PixelFormat
  stride : ℕ
  extent_ne : extent.isEmpty = false
  row_le : extent.width * format.bytesPerPixel ≤ stride
  len_le : stride * extent.height ≤ usizeMax
  deriving DecidableEq

theorem pixel_nonempty : PixelExtent.isEmpty ⟨1, 1⟩ = false := rfl

theorem pixel_row : (⟨1, 1⟩ : PixelExtent).width * PixelFormat.rgba8.bytesPerPixel ≤ 4 := le_refl _

theorem pixel_len : 4 * (⟨1, 1⟩ : PixelExtent).height ≤ usizeMax := by decide

/-- The total bytes the buffer occupies, including padding. -/
def FrameDescriptor.byteLen (d : FrameDescriptor) : ℕ := min usizeMax (d.stride * d.extent.height)

/-- A frame's immutable storage: bytes the stream owns, or an Adapter's own object behind its fixed
descriptor. -/
inductive FrameStorage where
  | cpu (descriptor : FrameDescriptor) (pixels : List UInt8)
  | adapter (descriptor : FrameDescriptor) (handle : ℕ)
  deriving DecidableEq

def FrameStorage.descriptor : FrameStorage → FrameDescriptor
  | cpu d _ => d
  | adapter d _ => d

structure Frame where
  stamp : FrameStamp
  capturedAt : ℕ
  descriptor : FrameDescriptor
  transform : TransformSnapshot
  storage : FrameStorage
  deriving DecidableEq

/-- The checks direct and stream-owned construction share. -/
def Frame.validate (stamp : FrameStamp) (descriptor : FrameDescriptor)
    (transform : TransformSnapshot) : Except CaptureFault Unit :=
  if transform.frameExtent ≠ descriptor.extent then .error .inconsistentDescriptor
  else if transform.geometry ≠ stamp.geometry then .error .inconsistentDescriptor
  else .ok ()

theorem FrameDescriptor.byteLen_eq (d : FrameDescriptor) : d.byteLen = d.stride * d.extent.height :=
  min_eq_right d.len_le

end MadoPilot.Capture
