import MadoPilot.Capture.Frame
import MadoPilot.Core.Geometry
import MadoPilot.Lib.Raster

/-!
# Regions of a frame

What a mapping of a region decides before it looks at a pixel, and how it copies the pixels.

* `plan_of_inside` : a region inside the frame has a layout;
* `copyRegion_eq` : the copy is the reference crop, and no offset of it fails or overflows.
-/

namespace MadoPilot.Capture

open MadoPilot.Core MadoPilot.Lib

/-! ### Layouts -/

/-- Whether converting a format into another needs a channel swap. -/
def PixelFormat.needsSwap : PixelFormat → PixelFormat → Bool
  | rgba8, rgba8 | bgra8, bgra8 => false
  | rgba8, bgra8 | bgra8, rgba8 => true

def rowBytesOf (width : ℕ) (format : PixelFormat) : Except CaptureFault ℕ :=
  if width * format.bytesPerPixel ≤ usizeMax then .ok (width * format.bytesPerPixel)
  else .error .inconsistentDescriptor

namespace FrameDescriptor

def new (extent : PixelExtent) (format : PixelFormat) (stride : ℕ) :
    Except CaptureFault FrameDescriptor :=
  if hne : extent.isEmpty = false then
    match rowBytesOf extent.width format with
    | .error fault => .error fault
    | .ok _ =>
      if hrow : extent.width * format.bytesPerPixel ≤ stride then
        if hlen : stride * extent.height ≤ usizeMax then .ok ⟨extent, format, stride, hne, hrow, hlen⟩
        else .error .inconsistentDescriptor
      else .error .inconsistentDescriptor
  else .error .inconsistentDescriptor

def packed (extent : PixelExtent) (format : PixelFormat) : Except CaptureFault FrameDescriptor := do
  let stride ← rowBytesOf extent.width format
  new extent format stride

def rowBytes (d : FrameDescriptor) : ℕ :=
  match rowBytesOf d.extent.width d.format with
  | .ok bytes => bytes
  | .error _ => 0

def bounds (d : FrameDescriptor) : Except CaptureFault PixelRect :=
  d.extent.toRect.mapError fun _ => .inconsistentDescriptor

end FrameDescriptor

/-! ### Plans -/

structure MapRequest where
  region : PixelRect
  format : PixelFormat
  deriving DecidableEq

/-- How a request is answered: whether the frame's pixels do as they are, and the layout. -/
structure MapPlan where
  request : MapRequest
  unconverted : Bool
  descriptor : FrameDescriptor
  deriving DecidableEq

/-- What `map_region` decides before it looks at a pixel. -/
def planRegion (source : FrameDescriptor) (request : MapRequest) : Except CaptureFault MapPlan := do
  let bounds ← source.bounds
  if request.region.isEmpty || !bounds.containsRect request.region then .error .regionOutsideFrame
  else if request.region = bounds ∧ source.format = request.format then .ok ⟨request, true, source⟩
  else if source.format.bytesPerPixel ≠ request.format.bytesPerPixel then .error .unsupportedFormat
  else
    (FrameDescriptor.packed request.region.extent request.format).map fun descriptor =>
      ⟨request, false, descriptor⟩

/-! ### The copy -/

/-- `usize::try_from` of an edge. -/
def usizeFrom (edge : Int32) : Except CaptureFault ℕ :=
  if 0 ≤ edge.toInt then .ok edge.toInt.toNat else .error .regionOutsideFrame

/-- `ok_or`. -/
def orFault {α : Type} (x : Option α) (fault : CaptureFault) : Except CaptureFault α :=
  match x with
  | some a => .ok a
  | none => .error fault

/-- One row of the loop of `copy_region`. -/
def copyRow (source : FrameDescriptor) (pixels : List UInt8) (top columnBytes rowBytes : ℕ)
    (output : List UInt8) (row : ℕ) : Except CaptureFault (List UInt8) := do
  let line ← orFault (checkedAdd usizeMax top row) .inconsistentDescriptor
  let offset ← orFault (checkedMul usizeMax line source.stride) .inconsistentDescriptor
  let sourceStart ← orFault (checkedAdd usizeMax offset columnBytes) .inconsistentDescriptor
  let sourceEnd ← orFault (checkedAdd usizeMax sourceStart rowBytes) .inconsistentDescriptor
  let sourceRow ← orFault (Raster.slice pixels sourceStart sourceEnd) .byteLengthMismatch
  let targetStart ← orFault (checkedMul usizeMax row rowBytes) .inconsistentDescriptor
  let targetEnd ← orFault (checkedAdd usizeMax targetStart rowBytes) .inconsistentDescriptor
  let _ ← orFault (Raster.slice output targetStart targetEnd) .byteLengthMismatch
  .ok (Raster.splice output targetStart sourceRow)

/-- Exchanges the first and third byte of every four-byte pixel. -/
def swapRedAndBlue : List UInt8 → List UInt8
  | a :: b :: c :: d :: rest => c :: b :: a :: d :: swapRedAndBlue rest
  | rest => rest

def copyRegion (source : FrameDescriptor) (pixels : List UInt8) (region : PixelRect)
    (descriptor : FrameDescriptor) : Except CaptureFault (List UInt8) := do
  let left ← usizeFrom region.left
  let top ← usizeFrom region.top
  let columnBytes ←
    orFault (checkedMul usizeMax left descriptor.format.bytesPerPixel) .inconsistentDescriptor
  let output ← (List.range descriptor.extent.height).foldlM
    (copyRow source pixels top columnBytes descriptor.rowBytes) (List.replicate descriptor.byteLen 0)
  .ok (if source.format.needsSwap descriptor.format then swapRedAndBlue output else output)

/-! ### The reference crop -/

/-- The bytes of a pixel, with the first and the third exchanged where that is asked for. -/
def referencePixel (swap : Bool) (byte : ℕ → UInt8) : List UInt8 :=
  if swap then [byte 2, byte 1, byte 0, byte 3] else [byte 0, byte 1, byte 2, byte 3]

/-- The pixels of a region in a format, row by row, with no padding. -/
def referenceCrop (source : FrameDescriptor) (pixels : List UInt8) (request : MapRequest) : List UInt8 :=
  Raster.rows (fun y => Raster.rows (fun x =>
    referencePixel (source.format.needsSwap request.format) fun channel =>
      pixels.getD ((request.region.top.toInt.toNat + y) * source.stride +
        (request.region.left.toInt.toNat + x) * 4 + channel) 0)
    request.region.width) request.region.height

/-- What a mapping shows: the frame's own pixels, or the reference crop. -/
def referenceBytes (source : FrameDescriptor) (pixels : List UInt8) (plan : MapPlan) : List UInt8 :=
  if plan.unconverted then pixels else referenceCrop source pixels plan.request

/-- The region is a part of the frame, and not empty. -/
def MapRequest.Inside (request : MapRequest) (source : FrameDescriptor) : Prop :=
  request.region.isEmpty = false ∧ ∃ bounds, source.bounds = .ok bounds ∧
    bounds.containsRect request.region = true

/-! ### Layouts of regions -/

section Plans

variable {source : FrameDescriptor} {request : MapRequest} {plan : MapPlan}

theorem bytesPerPixel_eq (format : PixelFormat) : format.bytesPerPixel = 4 := by cases format <;> rfl

namespace FrameDescriptor

variable (d : FrameDescriptor)

theorem extent_pos : 0 < d.extent.width ∧ 0 < d.extent.height := by
  have hne := d.extent_ne
  unfold PixelExtent.isEmpty at hne
  rw [Bool.or_eq_false_iff, beq_eq_false_iff_ne, beq_eq_false_iff_ne] at hne
  omega

theorem width_le_stride : d.extent.width * 4 ≤ d.stride := by
  have hrow := d.row_le
  rwa [bytesPerPixel_eq] at hrow

theorem stride_le : d.stride ≤ usizeMax :=
  (Nat.le_mul_of_pos_right d.stride d.extent_pos.2).trans d.len_le

theorem rowBytes_eq : d.rowBytes = d.extent.width * 4 := by
  have hwidth := d.width_le_stride
  have hstride := d.stride_le
  unfold rowBytes rowBytesOf
  rw [bytesPerPixel_eq, if_pos (by omega)]

end FrameDescriptor

theorem packed_eq_ok {extent : PixelExtent} {format : PixelFormat} (hne : extent.isEmpty = false)
    (hlen : extent.width * 4 * extent.height ≤ usizeMax) :
    ∃ d, FrameDescriptor.packed extent format = .ok d ∧ d.extent = extent ∧ d.format = format ∧
      d.stride = extent.width * 4 := by
  have hheight : 0 < extent.height := by
    unfold PixelExtent.isEmpty at hne
    rw [Bool.or_eq_false_iff, beq_eq_false_iff_ne, beq_eq_false_iff_ne] at hne
    omega
  have hrow : extent.width * format.bytesPerPixel ≤ usizeMax := by
    rw [bytesPerPixel_eq]
    exact (Nat.le_mul_of_pos_right _ hheight).trans hlen
  have hbytes : rowBytesOf extent.width format = .ok (extent.width * format.bytesPerPixel) := if_pos hrow
  refine ⟨⟨extent, format, extent.width * format.bytesPerPixel, hne, le_refl _, ?_⟩, ?_, rfl, rfl, ?_⟩
  · rwa [bytesPerPixel_eq]
  · unfold FrameDescriptor.packed
    refine bind_eq_ok.mpr ⟨_, hbytes, ?_⟩
    unfold FrameDescriptor.new
    rw [dif_pos hne, hbytes]
    dsimp only
    rw [dif_pos (le_refl _), dif_pos]
  · exact congrArg (extent.width * ·) (bytesPerPixel_eq format)

theorem MapRequest.Inside.bounds (h : request.Inside source) :
    0 ≤ request.region.left.toInt ∧ 0 ≤ request.region.top.toInt ∧
      0 < request.region.width ∧ 0 < request.region.height ∧
      request.region.left.toInt.toNat + request.region.width ≤ source.extent.width ∧
      request.region.top.toInt.toNat + request.region.height ≤ source.extent.height := by
  obtain ⟨hne, bounds, hbounds, hcontains⟩ := h
  obtain ⟨hwidth, hheight⟩ := PixelRect.isEmpty_eq_false.mp hne
  have hrect : source.extent.toRect = .ok bounds := by
    unfold FrameDescriptor.bounds at hbounds
    cases htoRect : source.extent.toRect with
    | error fault =>
      rw [htoRect] at hbounds
      cases hbounds
    | ok rect =>
      rw [htoRect] at hbounds
      exact congrArg Except.ok (Except.ok.inj hbounds)
  obtain ⟨hleft, htop, hright, hbottom⟩ := toRect_eq_ok hrect
  obtain ⟨⟨hl, ht⟩, hr, hb⟩ := PixelRect.containsRect_iff.mp hcontains
  have hcolumns := request.region.toInt_columns
  have hlines := request.region.toInt_lines
  unfold PixelRect.width PixelRect.height at *
  omega

theorem MapRequest.Inside.len_le (h : request.Inside source) :
    request.region.width * 4 * request.region.height ≤ usizeMax := by
  obtain ⟨-, -, -, -, hwidth, hheight⟩ := h.bounds
  have hstride := source.width_le_stride
  exact (Nat.mul_le_mul (by omega) (by omega)).trans source.len_le

structure MapPlan.For (plan : MapPlan) (source : FrameDescriptor) (request : MapRequest) : Prop where
  same : plan.request = request
  inside : request.Inside source
  whole : plan.unconverted = true ↔
    source.bounds = .ok request.region ∧ source.format = request.format
  kept : plan.unconverted = true → plan.descriptor = source
  packed : plan.unconverted = false → plan.descriptor.extent = request.region.extent ∧
    plan.descriptor.format = request.format ∧
    plan.descriptor.stride = request.region.width * 4

theorem plan_of_inside (h : request.Inside source) :
    ∃ plan, planRegion source request = .ok plan ∧ plan.For source request := by
  obtain ⟨hne, bounds, hbounds, hcontains⟩ := id h
  have hskip : (request.region.isEmpty || !bounds.containsRect request.region) = false := by
    rw [hne, hcontains]
    rfl
  have hplan : ∀ result, (if request.region = bounds ∧ source.format = request.format then
      Except.ok ⟨request, true, source⟩
    else if source.format.bytesPerPixel ≠ request.format.bytesPerPixel then
      .error CaptureFault.unsupportedFormat
    else (FrameDescriptor.packed request.region.extent request.format).map fun descriptor =>
      ⟨request, false, descriptor⟩) = result → planRegion source request = result := by
    rintro result rfl
    unfold planRegion
    rw [hbounds]
    simp only [bind, Except.bind, hskip]
    rfl
  by_cases hwhole : request.region = bounds ∧ source.format = request.format
  · refine ⟨_, hplan _ (if_pos hwhole), rfl, h, iff_of_true rfl ⟨?_, hwhole.2⟩, fun _ => rfl, ?_⟩
    · rw [hwhole.1]
      exact hbounds
    · exact fun hfalse => by cases hfalse
  · have hextent : request.region.extent.isEmpty = false := hne
    obtain ⟨d, hd, hde, hdf, hds⟩ := @packed_eq_ok _ request.format hextent h.len_le
    refine ⟨⟨request, false, d⟩, hplan _ ?_, rfl, h, ?_, ?_, fun _ => ⟨hde, hdf, hds⟩⟩
    · rw [if_neg hwhole, if_neg (by rw [bytesPerPixel_eq, bytesPerPixel_eq]; simp), hd]
      rfl
    · refine iff_of_false Bool.false_ne_true fun hboth => hwhole ⟨?_, hboth.2⟩
      exact (Except.ok.inj (hbounds.symm.trans hboth.1)).symm
    · exact fun htrue => by cases htrue

theorem plan_for (h : planRegion source request = .ok plan) : plan.For source request := by
  have hinside : request.Inside source := by
    unfold planRegion at h
    obtain ⟨bounds, hbounds, h⟩ := bind_eq_ok.mp h
    by_cases hskip : (request.region.isEmpty || !bounds.containsRect request.region) = true
    · rw [if_pos hskip] at h
      cases h
    · rw [Bool.not_eq_true, Bool.or_eq_false_iff, Bool.not_eq_false'] at hskip
      exact ⟨hskip.1, bounds, hbounds, hskip.2⟩
  obtain ⟨plan', hplan', hfor⟩ := plan_of_inside hinside
  obtain rfl : plan' = plan := Except.ok.inj (hplan'.symm.trans h)
  exact hfor

end Plans

/-! ### The copy is the reference crop -/

section Copy

theorem swap_append {l : List UInt8} (l' : List UInt8) (h : 4 ∣ l.length) :
    swapRedAndBlue (l ++ l') = swapRedAndBlue l ++ swapRedAndBlue l' := by
  obtain ⟨n, hn⟩ := h
  induction n generalizing l with
  | zero =>
    obtain rfl := List.eq_nil_of_length_eq_zero (by omega)
    rfl
  | succ n ih =>
    match l, hn with
    | a :: b :: c :: d :: rest, hn =>
      have hrest : rest.length = 4 * n := by
        simp only [List.length_cons] at hn
        omega
      simp only [List.cons_append, swapRedAndBlue, ih hrest]

theorem swap_rows {f : ℕ → List UInt8} {height : ℕ} (hf : ∀ r < height, 4 ∣ (f r).length) :
    swapRedAndBlue (Raster.rows f height) = Raster.rows (fun r => swapRedAndBlue (f r)) height := by
  induction height with
  | zero => rfl
  | succ height ih =>
    have hdvd : 4 ∣ (Raster.rows f height).length :=
      Raster.dvd_length_rows fun r hr => hf r (by omega)
    rw [Raster.rows_succ, Raster.rows_succ, swap_append _ hdvd, ih fun r hr => hf r (by omega)]

theorem orFault_eq_ok {α : Type} {x : Option α} {a : α} (fault : CaptureFault) (h : x = some a) :
    orFault x fault = .ok a := by
  rw [h]
  rfl

variable {source descriptor : FrameDescriptor} {request : MapRequest} {pixels : List UInt8}

def sourceRow (source : FrameDescriptor) (pixels : List UInt8) (region : PixelRect) (row : ℕ) :
    List UInt8 :=
  (pixels.drop ((region.top.toInt.toNat + row) * source.stride + region.left.toInt.toNat * 4)).take
    (region.width * 4)

theorem copyRow_eq (h : request.Inside source) (hlen : pixels.length = source.byteLen)
    {output : List UInt8} (hout : output.length = request.region.height * (request.region.width * 4))
    {row : ℕ} (hrow : row < request.region.height) :
    copyRow source pixels request.region.top.toInt.toNat (request.region.left.toInt.toNat * 4)
        (request.region.width * 4) output row =
      .ok (Raster.splice output (row * (request.region.width * 4))
        (sourceRow source pixels request.region row)) ∧
      (sourceRow source pixels request.region row).length = request.region.width * 4 := by
  obtain ⟨-, -, -, -, hright, hbottom⟩ := h.bounds
  have hstride := source.width_le_stride
  have hmax := source.len_le
  have hpos := (Nat.le_mul_of_pos_left source.extent.height (by
    have hpos := source.extent_pos.1
    omega : 0 < source.stride))
  rw [FrameDescriptor.byteLen_eq] at hlen
  -- the row ends before the next row of the frame begins
  have hend : (request.region.top.toInt.toNat + row) * source.stride +
      request.region.left.toInt.toNat * 4 + request.region.width * 4 ≤
        source.stride * source.extent.height := by
    have hnext : (request.region.top.toInt.toNat + row + 1) * source.stride ≤
        source.extent.height * source.stride := Nat.mul_le_mul_right _ (by omega)
    rw [Nat.succ_mul, Nat.mul_comm source.extent.height] at hnext
    omega
  have hfits : request.region.height * (request.region.width * 4) ≤ usizeMax := by
    rw [Nat.mul_comm]
    exact h.len_le
  have htarget : row * (request.region.width * 4) + request.region.width * 4 ≤
      request.region.height * (request.region.width * 4) := by
    rw [← Nat.succ_mul]
    exact Nat.mul_le_mul_right _ hrow
  refine ⟨?_, ?_⟩
  · unfold copyRow
    refine bind_eq_ok.mpr ⟨_, orFault_eq_ok _ (checkedAdd_of_le ?_), ?_⟩
    · omega
    refine bind_eq_ok.mpr ⟨_, orFault_eq_ok _ (checkedMul_of_le ?_), ?_⟩
    · omega
    refine bind_eq_ok.mpr ⟨_, orFault_eq_ok _ (checkedAdd_of_le ?_), ?_⟩
    · omega
    refine bind_eq_ok.mpr ⟨_, orFault_eq_ok _ (checkedAdd_of_le ?_), ?_⟩
    · omega
    refine bind_eq_ok.mpr ⟨_, orFault_eq_ok _ (if_pos ?_), ?_⟩
    · omega
    refine bind_eq_ok.mpr ⟨_, orFault_eq_ok _ (checkedMul_of_le ?_), ?_⟩
    · omega
    refine bind_eq_ok.mpr ⟨_, orFault_eq_ok _ (checkedAdd_of_le ?_), ?_⟩
    · omega
    refine bind_eq_ok.mpr ⟨_, orFault_eq_ok _ (if_pos ?_), ?_⟩
    · omega
    rw [Nat.add_sub_cancel_left]
    rfl
  · unfold sourceRow
    rw [List.length_take, List.length_drop]
    omega

theorem length_sourceRow (h : request.Inside source) (hlen : pixels.length = source.byteLen) {row : ℕ}
    (hrow : row < request.region.height) :
    (sourceRow source pixels request.region row).length = request.region.width * 4 :=
  (copyRow_eq h hlen (List.length_replicate (a := 0)) hrow).2

theorem sourceRow_eq (h : request.Inside source) (hlen : pixels.length = source.byteLen) {row : ℕ}
    (hrow : row < request.region.height) : sourceRow source pixels request.region row =
      Raster.rows (fun x => (List.range 4).map fun channel =>
        pixels.getD ((request.region.top.toInt.toNat + row) * source.stride +
          (request.region.left.toInt.toNat + x) * 4 + channel) 0) request.region.width := by
  have hlength := length_sourceRow h hlen hrow
  obtain ⟨-, -, hwidth, -⟩ := h.bounds
  unfold sourceRow at hlength ⊢
  rw [List.length_take, List.length_drop] at hlength
  rw [Raster.take_drop_eq_rows 0 (by omega)]
  refine Raster.rows_congr fun x _ => List.map_congr_left fun channel _ => ?_
  congr 1
  rw [Nat.add_mul]
  omega

theorem copyLoop_eq (h : request.Inside source) (hlen : pixels.length = source.byteLen) :
    (List.range request.region.height).foldlM
      (copyRow source pixels request.region.top.toInt.toNat (request.region.left.toInt.toNat * 4)
        (request.region.width * 4))
      (List.replicate (request.region.height * (request.region.width * 4)) 0) =
    .ok (Raster.rows (sourceRow source pixels request.region) request.region.height) := by
  have hlength : ∀ row < request.region.height,
      (sourceRow source pixels request.region row).length = request.region.width * 4 := fun row hrow =>
    length_sourceRow h hlen hrow
  have hstep : ∀ output : List UInt8,
      output.length = request.region.height * (request.region.width * 4) →
      ∀ row ∈ List.range request.region.height,
        copyRow source pixels request.region.top.toInt.toNat (request.region.left.toInt.toNat * 4)
          (request.region.width * 4) output row =
        .ok (Raster.splice output (row * (request.region.width * 4))
          (sourceRow source pixels request.region row)) ∧
        (Raster.splice output (row * (request.region.width * 4))
          (sourceRow source pixels request.region row)).length =
            request.region.height * (request.region.width * 4) := by
    intro output hout row hrow
    have hrow := List.mem_range.mp hrow
    obtain ⟨hcopied, hbytes⟩ := copyRow_eq h hlen hout hrow
    refine ⟨hcopied, ?_⟩
    rw [Raster.length_splice, hout]
    rw [hbytes, hout, ← Nat.succ_mul]
    exact Nat.mul_le_mul_right _ hrow
  rw [foldlM_eq_ok hstep List.length_replicate]
  rw [Raster.foldl_splice_full hlength List.length_replicate]

theorem copyRegion_eq (h : request.Inside source) (hlen : pixels.length = source.byteLen)
    (hextent : descriptor.extent = request.region.extent) (hformat : descriptor.format = request.format)
    (hstride : descriptor.stride = request.region.width * 4) :
    copyRegion source pixels request.region descriptor = .ok (referenceCrop source pixels request) := by
  obtain ⟨hleft, htop, -, -, hright, -⟩ := h.bounds
  have hwidth : descriptor.extent.width = request.region.width := congrArg PixelExtent.width hextent
  have hheight : descriptor.extent.height = request.region.height :=
    congrArg PixelExtent.height hextent
  have hrowBytes : descriptor.rowBytes = request.region.width * 4 := by
    rw [FrameDescriptor.rowBytes_eq, hwidth]
  have hbyteLen : descriptor.byteLen = request.region.height * (request.region.width * 4) := by
    rw [FrameDescriptor.byteLen_eq, hstride, hheight, Nat.mul_comm]
  have hcolumns : request.region.left.toInt.toNat * 4 ≤ usizeMax := by
    have hframe := source.width_le_stride
    have hmax := source.stride_le
    omega
  have hrows : Raster.rows (sourceRow source pixels request.region) request.region.height =
      Raster.rows (fun y => Raster.rows (fun x => (List.range 4).map fun channel =>
        pixels.getD ((request.region.top.toInt.toNat + y) * source.stride +
          (request.region.left.toInt.toNat + x) * 4 + channel) 0) request.region.width)
        request.region.height :=
    Raster.rows_congr fun y hy => sourceRow_eq h hlen hy
  unfold copyRegion
  refine bind_eq_ok.mpr ⟨_, if_pos hleft, bind_eq_ok.mpr ⟨_, if_pos htop, ?_⟩⟩
  rw [bytesPerPixel_eq, hrowBytes, hheight, hbyteLen]
  refine bind_eq_ok.mpr ⟨_, orFault_eq_ok _ (checkedMul_of_le hcolumns), ?_⟩
  refine bind_eq_ok.mpr ⟨_, copyLoop_eq h hlen, ?_⟩
  rw [hformat, hrows]
  refine congrArg Except.ok ?_
  unfold referenceCrop referencePixel
  by_cases hswap : source.format.needsSwap request.format = true
  · have hline : ∀ (g : ℕ → ℕ → UInt8), ∀ x < request.region.width, 4 ∣ ((List.range 4).map (g x)).length :=
      fun g x _ => ⟨1, rfl⟩
    rw [if_pos hswap, swap_rows fun y _ => Raster.dvd_length_rows (hline _)]
    refine Raster.rows_congr fun y _ => ?_
    rw [swap_rows (hline _)]
    exact Raster.rows_congr fun x _ => (if_pos hswap).symm
  · rw [if_neg hswap]
    exact Raster.rows_congr fun y _ => Raster.rows_congr fun x _ => (if_neg hswap).symm

end Copy

end MadoPilot.Capture
