import MadoPilot.Lib.Fallible
import MadoPilot.Onnx.Profile

/-!
# Bounds of detector plans

Whatever the floating scale factors come to, a size that passes the rounding is a multiple again, and
the ceilings come last.

* `roundToMultiple_eq_ok`, `roundWithCeiling_eq_ok`, `floorToMultiple_eq_ok`,
  `nearestMultipleAtLeast_eq_ok` : the rounding steps;
* `fitWithTensorCeiling_eq_ok` : the tensor fit does not enlarge a size;
* `checked_eq_ok` : the tensor of a plan;
* `plan_bounds` : the law.
-/

namespace MadoPilot.Onnx

open MadoPilot.Lib
open MadoPilot.Capture (usizeMax)
open MadoPilot.Ocr (roundTiesEven)

variable {value multiple minimum ceiling width height maxBytes n : ℕ} {factors : Factors}

/-! ### Rounding -/

theorem f64ToU32_eq_ok {x : ℚ} (h : f64ToU32 x = .ok n) :
    0 ≤ x ∧ x ≤ u32Max ∧ (n : ℚ) ≤ x ∧ x < n + 1 ∧ n ≤ u32Max := by
  unfold f64ToU32 at h
  split at h
  · cases h
  · rename_i hrange
    obtain ⟨-, hrange⟩ := not_or.mp hrange
    obtain ⟨hlow, hhigh⟩ := not_or.mp hrange
    obtain rfl := Except.ok.inj h
    have h₀ : 0 ≤ x := not_lt.mp hlow
    have hfloor : 0 ≤ x.floor := Rat.le_floor_iff.mpr (by exact_mod_cast h₀)
    have hcast : ((x.floor.toNat : ℕ) : ℚ) = x.floor := by
      exact_mod_cast congrArg (Int.cast : ℤ → ℚ) (Int.toNat_of_nonneg hfloor)
    have hbelow := Rat.floor_le x
    have habove := Rat.lt_floor_add_one x
    push_cast at habove
    refine ⟨h₀, not_lt.mp hhigh, ?_, ?_, ?_⟩
    · rwa [hcast]
    · rwa [hcast]
    · have hle : ((x.floor.toNat : ℕ) : ℚ) ≤ u32Max := by
        rw [hcast]
        exact hbelow.trans (not_lt.mp hhigh)
      exact_mod_cast hle

theorem multiple_exact
    (h : f64ToU32 (f64 (roundTiesEven (f64 (value / multiple)) * multiple)) = .ok n) :
    multiple ∣ n ∧ f64 (roundTiesEven (f64 (value / multiple)) * multiple) = n := by
  have hquot : 0 ≤ f64 (value / multiple) := f64_nonneg (by positivity)
  have hrounded : 0 ≤ roundTiesEven (f64 (value / multiple)) := by
    have hzero := roundTiesEven_mono _ _ hquot
    have hint : roundTiesEven 0 = 0 := by exact_mod_cast roundTiesEven_int 0
    omega
  obtain ⟨k, hk⟩ := Int.eq_ofNat_of_zero_le hrounded
  rw [hk] at h ⊢
  have hproduct : (((k : ℕ) : ℤ) : ℚ) * multiple = ((k * multiple : ℕ) : ℚ) := by
    push_cast
    rfl
  rw [hproduct] at h ⊢
  obtain ⟨-, hle, hlow, hhigh, -⟩ := f64ToU32_eq_ok h
  have hsmall : k * multiple < 2 ^ 53 := by
    by_contra hbig
    have hbig' : (2 : ℚ) ^ 53 ≤ ((k * multiple : ℕ) : ℚ) := by exact_mod_cast not_lt.mp hbig
    have hfar := le_f64 hbig'
    have hmax : ((u32Max : ℕ) : ℚ) < 2 ^ 53 := by norm_num [u32Max]
    linarith
  rw [f64_nat hsmall] at hlow hhigh ⊢
  have heq : n = k * multiple := by
    have h₁ : n ≤ k * multiple := by exact_mod_cast hlow
    have h₂ : k * multiple < n + 1 := by exact_mod_cast hhigh
    omega
  exact ⟨⟨k, by rw [heq, Nat.mul_comm]⟩, by rw [heq]⟩

theorem roundToMultiple_eq_ok (h : roundToMultiple value multiple = .ok n) :
    multiple ≠ 0 ∧ multiple ∣ n ∧ multiple ≤ n ∧ n ≤ u32Max := by
  unfold roundToMultiple at h
  by_cases hzero : multiple = 0
  · rw [if_pos hzero] at h
    cases h
  · rw [if_neg hzero] at h
    dsimp only at h
    split at h
    · cases h
    · rename_i hrange
      obtain ⟨-, hrange⟩ := not_or.mp hrange
      obtain ⟨hlow, -⟩ := not_or.mp hrange
      obtain ⟨hdvd, hexact⟩ := multiple_exact h
      obtain ⟨-, -, -, -, hmax⟩ := f64ToU32_eq_ok h
      rw [hexact] at hlow
      exact ⟨hzero, hdvd, by exact_mod_cast not_lt.mp hlow, hmax⟩

theorem nearestMultipleAtLeast_eq_ok (h : nearestMultipleAtLeast value multiple minimum = .ok n) :
    minimum ≤ n ∧ (multiple ∣ n ∨ n = minimum) := by
  unfold nearestMultipleAtLeast at h
  split at h
  · cases h
  · obtain ⟨nearest, hnearest, h⟩ := bind_eq_ok.mp h
    obtain rfl := Except.ok.inj h
    obtain ⟨hdvd, -⟩ := multiple_exact hnearest
    refine ⟨le_max_right _ _, ?_⟩
    rcases max_choice nearest minimum with hmax | hmax
    · rw [hmax]
      exact Or.inl hdvd
    · exact Or.inr hmax

theorem floorToMultiple_eq_ok (h : floorToMultiple value multiple = .ok n) :
    multiple ∣ n ∧ multiple ≤ n ∧ n ≤ value ∧ ∀ m, multiple ∣ m → m ≤ value → m ≤ n := by
  unfold floorToMultiple at h
  split at h
  · cases h
  · rename_i hzero
    dsimp only at h
    split at h
    · cases h
    · rename_i hlow
      obtain rfl := Except.ok.inj h
      refine ⟨Nat.dvd_sub_mod value, not_lt.mp hlow, Nat.sub_le _ _, fun m hm hle => ?_⟩
      obtain ⟨k, rfl⟩ := hm
      have hdiv : k ≤ value / multiple := (Nat.le_div_iff_mul_le (Nat.pos_of_ne_zero hzero)).mpr (by
        rwa [Nat.mul_comm])
      have hmul : multiple * k ≤ multiple * (value / multiple) := Nat.mul_le_mul_left _ hdiv
      have hsplit := Nat.div_add_mod value multiple
      omega

theorem roundWithCeiling_eq_ok (h : roundWithCeiling value multiple ceiling = .ok n) :
    multiple ∣ n ∧ multiple ≤ n ∧ n ≤ ceiling ∧ n ≤ u32Max := by
  obtain ⟨rounded, hrounded, h⟩ := bind_eq_ok.mp h
  obtain ⟨hzero, hdvd, hlow, hmax⟩ := roundToMultiple_eq_ok hrounded
  split at h
  · rename_i hle
    obtain rfl := Except.ok.inj h
    exact ⟨hdvd, hlow, hle, hmax⟩
  · rename_i hover
    dsimp only at h
    split at h
    · cases h
    · rename_i hbounded
      obtain rfl := Except.ok.inj h
      exact ⟨Nat.dvd_sub_mod ceiling, not_lt.mp hbounded, Nat.sub_le _ _, by omega⟩

/-! ### Ceilings -/

/-- **The tensor fit** does not enlarge a size, keeps multiples, and comes within the ceiling.  A factor
above one is noticed: the pixels would not become fewer. -/
theorem fitWithTensorCeiling_eq_ok {size : ℕ × ℕ} (hw : multiple ∣ width) (hh : multiple ∣ height)
    (hwidth : multiple ≤ width ∧ width ≤ u32Max) (hheight : multiple ≤ height ∧ height ≤ u32Max)
    (h : fitWithTensorCeiling factors width height multiple maxBytes = .ok size) :
    (multiple ∣ size.1 ∧ multiple ≤ size.1 ∧ size.1 ≤ width) ∧
      (multiple ∣ size.2 ∧ multiple ≤ size.2 ∧ size.2 ≤ height) ∧
      12 * size.1 * size.2 ≤ maxBytes := by
  obtain ⟨maxPixels, hmaxPixels, h⟩ := bind_eq_ok.mp h
  obtain ⟨pixels, hpixels, h⟩ := bind_eq_ok.mp h
  obtain ⟨rfl, -⟩ := checkedMul_eq_some.mp (okOr_eq_ok.mp hpixels)
  have hceiling : maxPixels = maxBytes / 12 := by
    have hsome := okOr_eq_ok.mp hmaxPixels
    split at hsome
    · exact (Option.some.inj hsome).symm
    · cases hsome
  subst hceiling
  have hbytes : ∀ w h : ℕ, w * h ≤ maxBytes / 12 → 12 * w * h ≤ maxBytes := by
    intro w h hle
    have hmul := (Nat.le_div_iff_mul_le (by norm_num)).mp hle
    calc 12 * w * h = w * h * 12 := by ring
      _ ≤ maxBytes := hmul
  split at h
  · rename_i hfits
    obtain rfl := Except.ok.inj h
    exact ⟨⟨hw, hwidth.1, le_refl _⟩, ⟨hh, hheight.1, le_refl _⟩, hbytes _ _ hfits⟩
  · rename_i hover
    obtain ⟨scaledWidth, hscaledWidth, h⟩ := bind_eq_ok.mp h
    obtain ⟨scaledHeight, hscaledHeight, h⟩ := bind_eq_ok.mp h
    obtain ⟨boundedWidth, hboundedWidth, h⟩ := bind_eq_ok.mp h
    obtain ⟨boundedHeight, hboundedHeight, h⟩ := bind_eq_ok.mp h
    obtain ⟨hw₁, hw₂, hw₃, hw₄⟩ := floorToMultiple_eq_ok hboundedWidth
    obtain ⟨hh₁, hh₂, hh₃, hh₄⟩ := floorToMultiple_eq_ok hboundedHeight
    obtain ⟨-, -, hsw, hsw', -⟩ := f64ToU32_eq_ok hscaledWidth
    obtain ⟨-, -, hsh, hsh', -⟩ := f64ToU32_eq_ok hscaledHeight
    have hsmall : u32Max < 2 ^ 53 := by norm_num [u32Max]
    split at h
    · cases h
    · rename_i hpix
      obtain rfl := Except.ok.inj h
      have hbounded : boundedWidth * boundedHeight ≤ maxBytes / 12 := by
        unfold checkedMul at hpix
        split at hpix
        · simpa using hpix
        · exact absurd rfl hpix
      have hfactor : factors.tensorFit (maxBytes / 12) (width * height) ≤ 1 := by
        by_contra hbig
        have hbig := (not_le.mp hbig).le
        have hwide : width ≤ scaledWidth := by
          have hle := (le_scaled (by omega : width < 2 ^ 53) hbig).trans_lt hsw'
          have hlt : width < scaledWidth + 1 := by exact_mod_cast hle
          omega
        have hhigh : height ≤ scaledHeight := by
          have hle := (le_scaled (by omega : height < 2 ^ 53) hbig).trans_lt hsh'
          have hlt : height < scaledHeight + 1 := by exact_mod_cast hle
          omega
        have hmore : width * height ≤ boundedWidth * boundedHeight :=
          Nat.mul_le_mul (hw₄ width hw hwide) (hh₄ height hh hhigh)
        omega
      have hnarrow : scaledWidth ≤ width := by
        have hle := hsw.trans (scaled_le (by omega : width < 2 ^ 53) hfactor)
        exact_mod_cast hle
      have hlow : scaledHeight ≤ height := by
        have hle := hsh.trans (scaled_le (by omega : height < 2 ^ 53) hfactor)
        exact_mod_cast hle
      exact ⟨⟨hw₁, hw₂, hw₃.trans hnarrow⟩, ⟨hh₁, hh₂, hh₃.trans hlow⟩, hbytes _ _ hbounded⟩

theorem checked_eq_ok {sourceWidth sourceHeight : ℕ} {plan : DetectorPlan}
    (h : DetectorPlan.checked sourceWidth sourceHeight width height = .ok plan) :
    plan.finalWidth = width ∧ plan.finalHeight = height ∧ 0 < width ∧ 0 < height ∧
      plan.tensorElements = 3 * width * height ∧ plan.tensorBytes = 12 * width * height ∧
      plan.tensorBytes ≤ MAX_TENSOR_BYTES := by
  unfold DetectorPlan.checked at h
  split at h
  · cases h
  · rename_i hzero
    obtain ⟨tensorElements, helements, h⟩ := bind_eq_ok.mp h
    obtain ⟨tensorBytes, hbytes, h⟩ := bind_eq_ok.mp h
    obtain ⟨elements, hfirst, hsecond⟩ := Option.bind_eq_some_iff.mp (okOr_eq_ok.mp helements)
    obtain ⟨rfl, -⟩ := checkedMul_eq_some.mp hfirst
    obtain ⟨rfl, -⟩ := checkedMul_eq_some.mp hsecond
    obtain ⟨rfl, -⟩ := checkedMul_eq_some.mp (okOr_eq_ok.mp hbytes)
    split at h
    · cases h
    · rename_i hlimit
      dsimp only at h
      split at h
      · cases h
      · obtain rfl := Except.ok.inj h
        refine ⟨rfl, rfl, by omega, by omega, rfl, ?_, not_lt.mp hlimit⟩
        show 3 * width * height * 4 = 12 * width * height
        ring

/-! ### The catalog -/

variable {detection : DetectorDescriptor} {d : PreprocessingDescriptor}

theorem samplingOf_eq_some {sampling : DetectorSampling} (h : samplingOf detection = some sampling) :
    sampling = .shortSide ∧ detection.resize = .legacyShortSide ∧ detection.maxWidth = none ∧
        detection.maxHeight = none ∧ detection.maxTensorBytes = none ∨
      (∃ maxWidth maxHeight maxBytes, sampling = .boundedRectangular maxWidth maxHeight maxBytes ∧
        detection.resize = .boundedRectangular ∧ detection.maxWidth = some maxWidth ∧
        detection.maxHeight = some maxHeight ∧ detection.maxTensorBytes = some maxBytes) ∨
      ∃ maxBytes, sampling = .maxSide detection.minimumDimension maxBytes ∧
        detection.resize = .maxSide ∧ detection.maxWidth = some detection.side ∧
        detection.maxHeight = some detection.side ∧ detection.maxTensorBytes = some maxBytes ∧
        detection.multiple ≤ detection.minimumDimension := by
  unfold samplingOf at h
  split at h
  · rename_i hresize hwidth hheight hbytes
    split at h
    · exact Or.inl ⟨(Option.some.inj h).symm, hresize, hwidth, hheight, hbytes⟩
    · cases h
  · rename_i maxWidth maxHeight maxBytes hresize hwidth hheight hbytes
    split at h
    · exact Or.inr (Or.inl ⟨_, _, _, (Option.some.inj h).symm, hresize, hwidth, hheight, hbytes⟩)
    · cases h
  · rename_i maxWidth maxHeight maxBytes hresize hwidth hheight hbytes
    split at h
    · rename_i hcheck
      obtain ⟨rfl, rfl, -, hminimum, -, -⟩ := hcheck
      exact Or.inr (Or.inr ⟨_, (Option.some.inj h).symm, hresize, hwidth, hheight, hbytes, hminimum⟩)
    · cases h
  · cases h

theorem fromCatalog_eq_ok (h : PreprocessingDescriptor.fromCatalog detection = .ok d) :
    detection.multiple ≠ 0 ∧ samplingOf detection = some d.sampling ∧ d.side = detection.side ∧
      d.multiple = detection.multiple := by
  unfold PreprocessingDescriptor.fromCatalog at h
  split at h
  · cases h
  · rename_i hzero
    obtain ⟨sampling, hsampling, h⟩ := bind_eq_ok.mp h
    obtain ⟨normalization, -, h⟩ := bind_eq_ok.mp h
    obtain rfl := Except.ok.inj h
    exact ⟨(not_or.mp hzero).2, okOr_eq_ok.mp hsampling, rfl, rfl⟩

/-! ### Plans -/

variable {sourceWidth sourceHeight : ℕ} {desired size : ℕ × ℕ} {plan : DetectorPlan}

def Aligned (multiple : ℕ) (size : ℕ × ℕ) : Prop :=
  (multiple ∣ size.1 ∧ multiple ≤ size.1 ∧ size.1 ≤ u32Max) ∧
    multiple ∣ size.2 ∧ multiple ≤ size.2 ∧ size.2 ≤ u32Max

theorem desiredSize_eq_ok (h : d.desiredSize factors sourceWidth sourceHeight = .ok desired) :
    Aligned d.multiple desired := by
  obtain ⟨scaledWidth, -, h⟩ := bind_eq_ok.mp h
  obtain ⟨desiredWidth, hwidth, h⟩ := bind_eq_ok.mp h
  obtain ⟨scaledHeight, -, h⟩ := bind_eq_ok.mp h
  obtain ⟨desiredHeight, hheight, h⟩ := bind_eq_ok.mp h
  obtain rfl := Except.ok.inj h
  exact ⟨(roundToMultiple_eq_ok hwidth).2, (roundToMultiple_eq_ok hheight).2⟩

/-- **A size within bounds**: within the rectangle, and within the tensor ceiling where the desired size
is not within the rectangle. -/
theorem boundedSize_eq_ok {maxWidth maxHeight : ℕ} (ha : Aligned d.multiple desired)
    (h : d.boundedSize factors desired (some (maxWidth, maxHeight, maxBytes)) = .ok size) :
    Aligned d.multiple size ∧ size.1 ≤ maxWidth ∧ size.2 ≤ maxHeight ∧
      (maxWidth < desired.1 ∨ maxHeight < desired.2 → 12 * size.1 * size.2 ≤ maxBytes) := by
  unfold PreprocessingDescriptor.boundedSize at h
  dsimp only at h
  split at h
  · obtain ⟨scaledWidth, -, h⟩ := bind_eq_ok.mp h
    obtain ⟨width, hwidth, h⟩ := bind_eq_ok.mp h
    obtain ⟨scaledHeight, -, h⟩ := bind_eq_ok.mp h
    obtain ⟨height, hheight, h⟩ := bind_eq_ok.mp h
    obtain ⟨hw₁, hw₂, hw₃, hw₄⟩ := roundWithCeiling_eq_ok hwidth
    obtain ⟨hh₁, hh₂, hh₃, hh₄⟩ := roundWithCeiling_eq_ok hheight
    obtain ⟨⟨hs₁, hs₂, hs₃⟩, ⟨hs₄, hs₅, hs₆⟩, hbytes⟩ :=
      fitWithTensorCeiling_eq_ok hw₁ hh₁ ⟨hw₂, hw₄⟩ ⟨hh₂, hh₄⟩ h
    exact ⟨⟨⟨hs₁, hs₂, by omega⟩, hs₄, hs₅, by omega⟩, by omega, by omega, fun _ => hbytes⟩
  · rename_i hwithin
    obtain rfl := Except.ok.inj h
    obtain ⟨hwidth, hheight⟩ := not_or.mp hwithin
    exact ⟨ha, not_lt.mp hwidth, not_lt.mp hheight, fun hover => absurd hover hwithin⟩

theorem shortSidePlan_eq_ok {bounds : Option (ℕ × ℕ × ℕ)}
    (h : d.shortSidePlan factors sourceWidth sourceHeight bounds = .ok plan) :
    ∃ desired, d.desiredSize factors sourceWidth sourceHeight = .ok desired ∧
      d.boundedSize factors desired bounds = .ok (plan.finalWidth, plan.finalHeight) ∧
      DetectorPlan.checked sourceWidth sourceHeight plan.finalWidth plan.finalHeight = .ok plan := by
  obtain ⟨desired, hdesired, h⟩ := bind_eq_ok.mp h
  obtain ⟨size, hsize, h⟩ := bind_eq_ok.mp h
  obtain ⟨hwidth, hheight, -⟩ := checked_eq_ok h
  rw [← hwidth, ← hheight] at h
  refine ⟨desired, hdesired, ?_, h⟩
  rw [hsize, hwidth, hheight]

theorem maxSidePlan_eq_ok (h : d.maxSidePlan factors sourceWidth sourceHeight minimum maxBytes = .ok plan) :
    (minimum ≤ plan.finalWidth ∧ (d.multiple ∣ plan.finalWidth ∨ plan.finalWidth = minimum)) ∧
      (minimum ≤ plan.finalHeight ∧ (d.multiple ∣ plan.finalHeight ∨ plan.finalHeight = minimum)) ∧
      plan.finalWidth ≤ d.side ∧ plan.finalHeight ≤ d.side ∧ plan.tensorBytes ≤ maxBytes ∧
      DetectorPlan.checked sourceWidth sourceHeight plan.finalWidth plan.finalHeight = .ok plan := by
  obtain ⟨scaledWidth, -, h⟩ := bind_eq_ok.mp h
  obtain ⟨finalWidth, hfinalWidth, h⟩ := bind_eq_ok.mp h
  obtain ⟨scaledHeight, -, h⟩ := bind_eq_ok.mp h
  obtain ⟨finalHeight, hfinalHeight, h⟩ := bind_eq_ok.mp h
  split at h
  · cases h
  · rename_i hside
    obtain ⟨made, hmade, h⟩ := bind_eq_ok.mp h
    split at h
    · cases h
    · rename_i hbytes
      obtain rfl := Except.ok.inj h
      obtain ⟨hwidth, hheight, -⟩ := checked_eq_ok hmade
      rw [hwidth, hheight]
      exact ⟨nearestMultipleAtLeast_eq_ok hfinalWidth, nearestMultipleAtLeast_eq_ok hfinalHeight,
        by omega, by omega, not_lt.mp hbytes, hmade⟩

/-- **Detector plans.**  For every accepted catalog entry, source size and scale factors: the sides of a
plan are positive, no smaller than the profile's multiple, and multiples of it, or the explicit minimum
of the max-side sampling; they are within the entry's greatest width and height; the tensor has exactly
`12 * width * height` bytes, at most 256 MiB, and at most the entry's ceiling for the max-side sampling
and wherever the desired size passed a bound. -/
theorem plan_bounds (hd : PreprocessingDescriptor.fromCatalog detection = .ok d)
    (h : d.plan factors sourceWidth sourceHeight = .ok plan) :
    (0 < plan.finalWidth ∧ 0 < plan.finalHeight) ∧
    (detection.multiple ≤ plan.finalWidth ∧ detection.multiple ≤ plan.finalHeight) ∧
    (detection.multiple ∣ plan.finalWidth ∨
      detection.resize = .maxSide ∧ plan.finalWidth = detection.minimumDimension) ∧
    (detection.multiple ∣ plan.finalHeight ∨
      detection.resize = .maxSide ∧ plan.finalHeight = detection.minimumDimension) ∧
    (∀ maxWidth, detection.maxWidth = some maxWidth → plan.finalWidth ≤ maxWidth) ∧
    (∀ maxHeight, detection.maxHeight = some maxHeight → plan.finalHeight ≤ maxHeight) ∧
    (plan.tensorElements = 3 * plan.finalWidth * plan.finalHeight ∧
      plan.tensorBytes = 12 * plan.finalWidth * plan.finalHeight ∧
      plan.tensorBytes ≤ 256 * 1024 * 1024) ∧
    ∀ maxBytes, detection.maxTensorBytes = some maxBytes →
      (detection.resize = .maxSide ∨ ∃ desired maxWidth maxHeight,
        d.desiredSize factors sourceWidth sourceHeight = .ok desired ∧
        detection.maxWidth = some maxWidth ∧ detection.maxHeight = some maxHeight ∧
        (maxWidth < desired.1 ∨ maxHeight < desired.2)) → plan.tensorBytes ≤ maxBytes := by
  obtain ⟨hmultiple, hsampling, hside, hsame⟩ := fromCatalog_eq_ok hd
  unfold PreprocessingDescriptor.plan at h
  split at h
  · cases h
  · rcases samplingOf_eq_some hsampling with
      ⟨hshort, hresize, hnoWidth, hnoHeight, hnoBytes⟩ |
      ⟨maxWidth, maxHeight, maxBytes, hbounded, hresize, hsomeWidth, hsomeHeight, hsomeBytes⟩ |
      ⟨maxBytes, hmaxSide, hresize, hsomeWidth, hsomeHeight, hsomeBytes, hminimum⟩
    · rw [hshort] at h
      obtain ⟨desired, hdesired, hsize, hchecked⟩ := shortSidePlan_eq_ok h
      obtain ⟨⟨hw₁, hw₂, -⟩, hh₁, hh₂, -⟩ := desiredSize_eq_ok hdesired
      obtain rfl : desired = (plan.finalWidth, plan.finalHeight) := Except.ok.inj hsize
      obtain ⟨-, -, hpos, hpos', helements, hbytes, hlimit⟩ := checked_eq_ok hchecked
      rw [hsame] at hw₁ hw₂ hh₁ hh₂
      refine ⟨⟨hpos, hpos'⟩, ⟨hw₂, hh₂⟩, Or.inl hw₁, Or.inl hh₁, ?_, ?_, ⟨helements, hbytes, hlimit⟩, ?_⟩
      · intro maxWidth hsome
        exact absurd (hnoWidth.symm.trans hsome) nofun
      · intro maxHeight hsome
        exact absurd (hnoHeight.symm.trans hsome) nofun
      · intro maxBytes hsome
        exact absurd (hnoBytes.symm.trans hsome) nofun
    · rw [hbounded] at h
      obtain ⟨desired, hdesired, hsize, hchecked⟩ := shortSidePlan_eq_ok h
      obtain ⟨⟨⟨hw₁, hw₂, -⟩, hh₁, hh₂, -⟩, hw₃, hh₃, hceiling⟩ :=
        boundedSize_eq_ok (desiredSize_eq_ok hdesired) hsize
      obtain ⟨-, -, hpos, hpos', helements, hbytes, hlimit⟩ := checked_eq_ok hchecked
      rw [hsame] at hw₁ hw₂ hh₁ hh₂
      refine ⟨⟨hpos, hpos'⟩, ⟨hw₂, hh₂⟩, Or.inl hw₁, Or.inl hh₁, ?_, ?_, ⟨helements, hbytes, hlimit⟩, ?_⟩
      · intro maxWidth' hsome
        obtain rfl := Option.some.inj (hsomeWidth.symm.trans hsome)
        exact hw₃
      · intro maxHeight' hsome
        obtain rfl := Option.some.inj (hsomeHeight.symm.trans hsome)
        exact hh₃
      · rintro maxBytes' hsome (hmax | ⟨desired', maxWidth', maxHeight', hdesired', hsome₁, hsome₂, hover⟩)
        · exact absurd (hresize.symm.trans hmax) nofun
        · obtain rfl := Option.some.inj (hsomeBytes.symm.trans hsome)
          obtain rfl := Option.some.inj (hsomeWidth.symm.trans hsome₁)
          obtain rfl := Option.some.inj (hsomeHeight.symm.trans hsome₂)
          obtain rfl := Except.ok.inj (hdesired.symm.trans hdesired')
          rw [hbytes]
          exact hceiling hover
    · rw [hmaxSide] at h
      obtain ⟨⟨hw₁, hw₂⟩, ⟨hh₁, hh₂⟩, hw₃, hh₃, hceiling, hchecked⟩ := maxSidePlan_eq_ok h
      obtain ⟨-, -, hpos, hpos', helements, hbytes, hlimit⟩ := checked_eq_ok hchecked
      rw [hsame] at hw₂ hh₂
      rw [hside] at hw₃ hh₃
      refine ⟨⟨hpos, hpos'⟩, ⟨by omega, by omega⟩, hw₂.imp_right fun hw => ⟨hresize, hw⟩,
        hh₂.imp_right fun hh => ⟨hresize, hh⟩, ?_, ?_, ⟨helements, hbytes, hlimit⟩, ?_⟩
      · intro maxWidth hsome
        obtain rfl := Option.some.inj (hsomeWidth.symm.trans hsome)
        exact hw₃
      · intro maxHeight hsome
        obtain rfl := Option.some.inj (hsomeHeight.symm.trans hsome)
        exact hh₃
      · intro maxBytes' hsome _
        obtain rfl := Option.some.inj (hsomeBytes.symm.trans hsome)
        exact hceiling

/-- A small entry with a rectangle, and a source that does not fit into it. -/
theorem plan_bounds_sample : ∃ (d : PreprocessingDescriptor) (plan : DetectorPlan),
    d.plan (.computed id) 200 100 = .ok plan ∧ plan.finalWidth ≤ 128 ∧ 12 * plan.finalWidth *
      plan.finalHeight = plan.tensorBytes := by
  let detection : DetectorDescriptor := ⟨.boundedRectangular, 64, 32, 0, some 128, some 128, some 1000000,
    .legacyDivide, fun _ => some (1 / 2), fun _ => some (1 / 2)⟩
  let d : PreprocessingDescriptor := ⟨.boundedRectangular 128 128 1000000, 64, 32, .legacyDivide⟩
  have hsampling : samplingOf detection = some (.boundedRectangular 128 128 1000000) := rfl
  have hnormalization : normalizationOf detection = some .legacyDivide :=
    if_pos ⟨fun _ => rfl, fun _ => rfl⟩
  have hcatalog : PreprocessingDescriptor.fromCatalog detection = .ok d := by
    unfold PreprocessingDescriptor.fromCatalog
    rw [hsampling, hnormalization]
    rfl
  have hsome : (d.plan (.computed id) 200 100).toOption.isSome = true := by decide +kernel
  obtain ⟨plan, hplan⟩ := Option.isSome_iff_exists.mp hsome
  have hplan := toOption_eq_some.mp hplan
  obtain ⟨-, -, -, -, hwidth, -, ⟨-, hbytes, -⟩, -⟩ := plan_bounds hcatalog hplan
  exact ⟨d, plan, hplan, hwidth 128 rfl, hbytes.symm⟩

end MadoPilot.Onnx
