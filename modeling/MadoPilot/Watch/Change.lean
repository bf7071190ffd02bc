import MadoPilot.Capture.Frame
import MadoPilot.Watch.Query

/-!
# Comparing two mappings

`ChangeDetector::compare` for templates and `unchanged_pixels` for text.  Both compare the pixels of
every row, and neither the padding; they differ in the layout they expect.

* `compare_unchanged`, `unchangedPixels_content` : mappings that compare as unchanged show a backend
  the same content.
-/

namespace MadoPilot.Watch

open MadoPilot.Core MadoPilot.Lib MadoPilot.Capture

inductive ChangeDetectionPolicy where
  | analysisAlways | exactRgba
  deriving DecidableEq, Repr

/-- What tells one retained frame from another with the same stamp. -/
abbrev FrameInstance := ℕ

structure CpuMapping where
  stamp : FrameStamp
  sourceInstance : FrameInstance
  transform : TransformSnapshot
  region : PixelRect
  descriptor : FrameDescriptor
  bytes : List UInt8
  deriving DecidableEq

def rowBytes (d : FrameDescriptor) : ℕ := d.extent.width * d.format.bytesPerPixel

namespace CpuMapping

variable (m : CpuMapping)

def row (d : FrameDescriptor) (row : ℕ) : Option (List UInt8) :=
  (checkedMul usizeMax row d.stride).bind fun start =>
    (checkedAdd usizeMax start (rowBytes d)).bind fun stop =>
      if stop ≤ m.bytes.length then some ((m.bytes.drop start).take (rowBytes d)) else none

/-- What a mapping shows a backend: where the pixels are from, and the pixels. -/
structure Content where
  region : PixelRect
  transform : TransformSnapshot
  descriptor : FrameDescriptor
  rows : List (Option (List UInt8))
  deriving DecidableEq

def content : Content :=
  ⟨m.region, m.transform, m.descriptor,
    (List.range m.descriptor.extent.height).map (m.row m.descriptor)⟩

end CpuMapping

variable (previous current : CpuMapping)

/-- The current mapping is a newer one of the same view, in the layout. -/
def sameView (format : PixelFormat) : Bool :=
  previous.stamp.stream == current.stamp.stream && previous.stamp.epoch == current.stamp.epoch &&
    decide (previous.stamp.sequence < current.stamp.sequence) &&
    previous.stamp.geometry == current.stamp.geometry && previous.region == current.region &&
    previous.descriptor == current.descriptor && current.descriptor.format == format &&
    previous.transform == current.transform

/-- Both mappings have as many bytes as their layout asks for. -/
def wellSized : Bool :=
  previous.bytes.length == current.descriptor.byteLen &&
    current.bytes.length == current.descriptor.byteLen

def sameRows : Bool :=
  (List.range current.descriptor.extent.height).all fun i =>
    match previous.row current.descriptor i, current.row current.descriptor i with
    | some before, some after => before == after
    | _, _ => false

def mappingsAreCompatible : Bool := sameView previous current .rgba8

def ChangeDetectionPolicy.compare (policy : ChangeDetectionPolicy) : ChangeDecision :=
  if policy = .analysisAlways || !mappingsAreCompatible previous current then .analysisRequired
  else if rowBytes previous.descriptor == 0 || !wellSized previous current then .analysisRequired
  else if sameRows previous current then .unchanged
  else .analysisRequired

def unchangedPixels : Bool :=
  sameView previous current .bgra8 && wellSized previous current && sameRows previous current

variable {previous current}

theorem content_eq {format : PixelFormat} (hview : sameView previous current format = true)
    (hrows : sameRows previous current = true) : previous.content = current.content := by
  have hparts : previous.region = current.region ∧ previous.descriptor = current.descriptor ∧
      previous.transform = current.transform := by
    unfold sameView at hview
    simp only [Bool.and_eq_true, beq_iff_eq] at hview
    exact ⟨hview.1.1.1.2, hview.1.1.2, hview.2⟩
  obtain ⟨hregion, hdescriptor, htransform⟩ := hparts
  have hsame : ∀ i ∈ List.range current.descriptor.extent.height,
      previous.row current.descriptor i = current.row current.descriptor i := by
    intro i hi
    have hrow := List.all_eq_true.mp hrows i hi
    split at hrow
    · rename_i before after hbefore hafter
      rw [hbefore, hafter, eq_of_beq hrow]
    · cases hrow
  unfold CpuMapping.content
  rw [hregion, hdescriptor, htransform, List.map_congr_left hsame]

theorem compare_unchanged {policy : ChangeDetectionPolicy}
    (h : policy.compare previous current = .unchanged) : previous.content = current.content := by
  unfold ChangeDetectionPolicy.compare at h
  split_ifs at h with hcompatible hsize hrows
  have hview : mappingsAreCompatible previous current = true := by
    simp only [Bool.or_eq_true, not_or, Bool.not_eq_true] at hcompatible
    simpa using hcompatible.2
  exact content_eq hview hrows

theorem unchangedPixels_content (h : unchangedPixels previous current = true) :
    previous.content = current.content := by
  unfold unchangedPixels at h
  simp only [Bool.and_eq_true] at h
  exact content_eq h.1.1 h.2

theorem compare_analysisAlways :
    ChangeDetectionPolicy.analysisAlways.compare previous current = .analysisRequired := rfl

end MadoPilot.Watch
