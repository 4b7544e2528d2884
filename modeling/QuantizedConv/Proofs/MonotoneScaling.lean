import QuantizedConv.Proofs.ExactScaling

/-!
# Requantization keeps the order of accumulators

Rounding to the nearest integer with halves away from zero treats the two sides of zero differently,
and is monotone all the same: on each side it is a rounding of one direction, and zero itself lies
between the two (`nearestAway_mono`). Clamping is monotone, and so is the saturating sum, and a scale
multiplies by one rational number, whose sign is that of its multiplier. So requantization keeps the
order of accumulators where the multiplier is not negative, and reverses it where it is not positive,
for every shift, offset and range.
-/

set_option autoImplicit false

namespace QuantizedConv

/-- Rounding keeps the order of two numbers. -/
theorem round_mono {p q : ℚ} (h : p ≤ q) : round p ≤ round q := by
  rw [round_eq, round_eq]
  exact Int.floor_le_floor (by linarith)

/-- A number that is not negative is not rounded below zero. -/
theorem nearestAway_nonneg {q : ℚ} (hq : 0 ≤ q) : 0 ≤ nearestAway q := by
  have hround := round_mono hq
  rwa [round_zero, ← nearestAway_of_nonneg hq] at hround

/-- Rounding with halves away from zero is monotone, across zero too. -/
theorem nearestAway_mono {p q : ℚ} (h : p ≤ q) : nearestAway p ≤ nearestAway q := by
  rcases le_total 0 p with hp | hp
  · rw [nearestAway_of_nonneg hp, nearestAway_of_nonneg (hp.trans h)]
    exact round_mono h
  -- below zero, rounding is the reflection of rounding above zero
  have hreflected : nearestAway p = -nearestAway (-p) := by rw [nearestAway_neg, neg_neg]
  have hbelow : 0 ≤ nearestAway (-p) := nearestAway_nonneg (by linarith)
  rcases le_total 0 q with hq | hq
  · have habove := nearestAway_nonneg hq
    omega
  · have hreflectedq : nearestAway q = -nearestAway (-q) := by rw [nearestAway_neg, neg_neg]
    have hround : nearestAway (-q) ≤ nearestAway (-p) := by
      rw [nearestAway_of_nonneg (by linarith), nearestAway_of_nonneg (by linarith)]
      exact round_mono (by linarith)
    omega

namespace FixedScale

/-- Saturation keeps the order of two integers. -/
theorem clamp32_mono {x y : ℤ} (h : x ≤ y) : clamp32 x ≤ clamp32 y := by
  unfold clamp32
  omega

variable {scale : FixedScale}

/-- A scale whose multiplier is not negative is not negative. -/
theorem value_nonneg (h : 0 ≤ scale.multiplier.toInt) : 0 ≤ scale.value := by
  have hmultiplier : (0 : ℚ) ≤ scale.multiplier.toInt := by exact_mod_cast h
  exact mul_nonneg hmultiplier (zpow_nonneg (by norm_num) _)

/-- A scale whose multiplier is not positive is not positive. -/
theorem value_nonpos (h : scale.multiplier.toInt ≤ 0) : scale.value ≤ 0 := by
  have hmultiplier : (scale.multiplier.toInt : ℚ) ≤ 0 := by exact_mod_cast h
  exact mul_nonpos_of_nonpos_of_nonneg hmultiplier (zpow_nonneg (by norm_num) _)

/-- The rounded products of two accumulators are in the order of the exact ones. -/
theorem toInt_apply_le {a b : Int32} (h : a.toInt * scale.value ≤ b.toInt * scale.value) :
    (scale.apply a).toInt ≤ (scale.apply b).toInt := by
  rw [toInt_apply, toInt_apply]
  exact clamp32_mono (nearestAway_mono h)

end FixedScale

/-- What is done behind the scale keeps the order. -/
theorem requantize_le {scale : FixedScale} {a b : Int32}
    (h : (scale.apply a).toInt ≤ (scale.apply b).toInt) (outputOffset : Int32)
    (range : ActivationRange) :
    requantize scale outputOffset range a ≤ requantize scale outputOffset range b := by
  rw [Int32.le_iff_toInt_le, toInt_requantize, toInt_requantize]
  omega

/-- **Requantization is monotone in the accumulator.** For every multiplier, shift, output offset and
range, also one whose bounds cross, it keeps the order of two accumulators if the multiplier is not
negative, and reverses it if the multiplier is not positive. -/
theorem requantize_monotone (scale : FixedScale) (outputOffset : Int32) (range : ActivationRange) :
    (0 ≤ scale.multiplier → ∀ a b : Int32, a ≤ b →
        requantize scale outputOffset range a ≤ requantize scale outputOffset range b) ∧
      (scale.multiplier ≤ 0 → ∀ a b : Int32, a ≤ b →
        requantize scale outputOffset range b ≤ requantize scale outputOffset range a) := by
  constructor
  · intro hmultiplier a b hab
    have hvalue := FixedScale.value_nonneg (Int32.le_iff_toInt_le.mp hmultiplier)
    have hcast : (a.toInt : ℚ) ≤ b.toInt := by exact_mod_cast Int32.le_iff_toInt_le.mp hab
    apply requantize_le
    apply FixedScale.toInt_apply_le
    exact mul_le_mul_of_nonneg_right hcast hvalue
  · intro hmultiplier a b hab
    have hvalue := FixedScale.value_nonpos (Int32.le_iff_toInt_le.mp hmultiplier)
    have hcast : (a.toInt : ℚ) ≤ b.toInt := by exact_mod_cast Int32.le_iff_toInt_le.mp hab
    apply requantize_le
    apply FixedScale.toInt_apply_le
    exact mul_le_mul_of_nonpos_right hcast hvalue

/-- Two ties on either side of zero and a negative multiplier: `-1` and `1` times `-1 / 2`. -/
theorem requantize_monotone_ties :
    requantize ⟨-1, -1⟩ 0 ⟨-128, 127⟩ (-1) = 1 ∧ requantize ⟨-1, -1⟩ 0 ⟨-128, 127⟩ 1 = -1 ∧
      requantize ⟨-1, -1⟩ 0 ⟨-128, 127⟩ 1 ≤ requantize ⟨-1, -1⟩ 0 ⟨-128, 127⟩ (-1) :=
  ⟨by decide, by decide,
    (requantize_monotone ⟨-1, -1⟩ 0 ⟨-128, 127⟩).2 (by decide) (-1) 1 (by decide)⟩

end QuantizedConv
