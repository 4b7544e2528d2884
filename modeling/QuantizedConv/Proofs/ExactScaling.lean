import QuantizedConv.FixedPoint.Scale
import Mathlib.Algebra.Order.Round
import Mathlib.Data.Rat.Floor
import Mathlib.Tactic.FieldSimp
import Mathlib.Tactic.Linarith
import Mathlib.Tactic.Positivity
import Mathlib.Tactic.Ring

/-!
# Scaling is exactly rounded

A scale multiplies an accumulator by a rational number. The product of two 32-bit integers is formed
in 128 bits, where neither it nor any later step overflows (`StepsFit`), so that each step can be read
over the integers: a shift to the left multiplies, and a shift to the right rounds to the nearest
integer, halves away from zero (`Wide.toInt_roundShiftRight`). Shifts are capped, but beyond the caps
every product but zero is clamped, or is rounded to zero, in any case (`clamp32_cappedShift`). What is
left is one rounding of the exact rational product (`toInt_apply`).
-/

set_option autoImplicit false

namespace QuantizedConv

section Rounding

/-- The integer nearest to a rational number, halves away from zero. -/
def nearestAway (q : ℚ) : ℤ := if q < 0 then -round (-q) else round q

/-- Rounding away from zero treats both signs alike. -/
theorem nearestAway_neg (q : ℚ) : nearestAway (-q) = -nearestAway q := by
  unfold nearestAway
  rcases lt_trichotomy q 0 with hneg | rfl | hpos
  · rw [if_neg (by linarith), if_pos hneg, neg_neg]
  · simp
  · rw [if_pos (by linarith), if_neg (by linarith), neg_neg]

/-- On numbers that are not negative, halves go upward. -/
theorem nearestAway_of_nonneg {q : ℚ} (hq : 0 ≤ q) : nearestAway q = round q :=
  if_neg (not_lt.mpr hq)

/-- The rounded value of a number that is not negative is the nearest integer, and the larger one of
two. -/
theorem nearestAway_eq_iff_of_nonneg {q : ℚ} (hq : 0 ≤ q) {n : ℤ} :
    nearestAway q = n ↔ |q - n| ≤ 1 / 2 ∧ (|q - n| = 1 / 2 → |q| < |(n : ℚ)|) := by
  rw [nearestAway_of_nonneg hq, round_eq_iff, Set.mem_Ico, abs_of_nonneg hq]
  constructor
  · rintro ⟨hlow, hhigh⟩
    refine ⟨abs_le.mpr ⟨by linarith, by linarith⟩, fun htie => ?_⟩
    have hn : (n : ℚ) = q + 1 / 2 := by
      rcases (abs_eq (by norm_num)).mp htie with h | h <;> linarith
    exact lt_of_lt_of_le (by linarith) (le_abs_self _)
  · rintro ⟨hnear, htie⟩
    rw [abs_le] at hnear
    refine ⟨by linarith, lt_of_le_of_ne (by linarith) fun heq => ?_⟩
    have hn : (0 : ℚ) ≤ n := by
      have hlow : (-1 : ℚ) < n := by linarith
      exact_mod_cast (show (-1 : ℤ) < n by exact_mod_cast hlow)
    have habs : |q - n| = 1 / 2 := by rw [heq, add_sub_cancel_left, abs_of_pos (by norm_num)]
    have hlt := htie habs
    rw [abs_of_nonneg hn] at hlt
    linarith

/-- The nearest integer is the one at most a half away, and of two such ones the one further from
zero. -/
theorem nearestAway_eq_iff {q : ℚ} {n : ℤ} :
    nearestAway q = n ↔ |q - n| ≤ 1 / 2 ∧ (|q - n| = 1 / 2 → |q| < |(n : ℚ)|) := by
  rcases le_total 0 q with hq | hq
  · exact nearestAway_eq_iff_of_nonneg hq
  · have hreflect := nearestAway_eq_iff_of_nonneg (q := -q) (by linarith) (n := -n)
    rwa [nearestAway_neg, neg_inj, Int.cast_neg, abs_neg, abs_neg, neg_sub_neg, abs_sub_comm] at hreflect

/-- Rounding a natural number that is shifted to the right is adding a half and shifting. -/
theorem round_natCast_div_two_pow (a : ℕ) {n : ℕ} (hn : 0 < n) :
    round ((a : ℚ) / 2 ^ n) = ((a + 2 ^ (n - 1)) / 2 ^ n : ℕ) := by
  obtain ⟨k, rfl⟩ : ∃ k, n = k + 1 := ⟨n - 1, by omega⟩
  have hsum : (a : ℚ) / 2 ^ (k + 1) + 1 / 2 =
      ((a + 2 ^ k : ℕ) : ℚ) / ((2 ^ (k + 1) : ℕ) : ℚ) := by
    push_cast
    field_simp
    ring
  rw [round_eq, hsum, Rat.floor_natCast_div_natCast, Nat.add_sub_cancel]
  norm_cast

/-- Rounding an integer that is shifted to the right is rounding its magnitude and putting the sign
back. -/
theorem nearestAway_div_two_pow (a : ℤ) {n : ℕ} (hn : 0 < n) :
    nearestAway ((a : ℚ) / 2 ^ n) =
      if a < 0 then -(((a.natAbs + 2 ^ (n - 1)) / 2 ^ n : ℕ) : ℤ)
      else ((a.natAbs + 2 ^ (n - 1)) / 2 ^ n : ℕ) := by
  rw [← round_natCast_div_two_pow a.natAbs hn, Nat.cast_natAbs]
  split
  · rename_i hneg
    have hq : (a : ℚ) / 2 ^ n < 0 := div_neg_of_neg_of_pos (by exact_mod_cast hneg) (by positivity)
    rw [nearestAway, if_pos hq, abs_of_neg hneg, Int.cast_neg, neg_div]
  · rename_i hnonneg
    have hq : 0 ≤ (a : ℚ) / 2 ^ n := div_nonneg (by exact_mod_cast not_lt.mp hnonneg) (by positivity)
    rw [nearestAway_of_nonneg hq, abs_of_nonneg (not_lt.mp hnonneg)]

/-- An integer is not rounded. -/
@[simp]
theorem nearestAway_intCast (n : ℤ) : nearestAway n = n := by
  rw [nearestAway_eq_iff, sub_self, abs_zero]
  norm_num

/-- What is less than a half is rounded to zero. -/
theorem nearestAway_eq_zero {q : ℚ} (hq : |q| < 1 / 2) : nearestAway q = 0 := by
  rw [nearestAway_eq_iff, Int.cast_zero, sub_zero]
  exact ⟨hq.le, fun htie => absurd htie hq.ne⟩

end Rounding

section Clamping

/-- The larger of two 32-bit integers is the larger one over the integers. -/
theorem toInt_max (a b : Int32) : (max a b).toInt = max a.toInt b.toInt := by
  change (if a ≤ b then b else a).toInt = max a.toInt b.toInt
  split <;> rename_i h <;> rw [Int32.le_iff_toInt_le] at h <;> omega

/-- The smaller of two 32-bit integers is the smaller one over the integers. -/
theorem toInt_min (a b : Int32) : (min a b).toInt = min a.toInt b.toInt := by
  change (if a ≤ b then a else b).toInt = min a.toInt b.toInt
  split <;> rename_i h <;> rw [Int32.le_iff_toInt_le] at h <;> omega

/-- A sum that does not leave the 32-bit range is exact. -/
theorem toInt_add_of_le {a b : Int32} (hlow : -2147483648 ≤ a.toInt + b.toInt)
    (hhigh : a.toInt + b.toInt ≤ 2147483647) : (a + b).toInt = a.toInt + b.toInt := by
  rw [Int32.toInt_add]
  exact Int.bmod_eq_of_le (by omega) (by omega)

/-- A difference that does not leave the 32-bit range is exact. -/
theorem toInt_sub_of_le {a b : Int32} (hlow : -2147483648 ≤ a.toInt - b.toInt)
    (hhigh : a.toInt - b.toInt ≤ 2147483647) : (a - b).toInt = a.toInt - b.toInt := by
  rw [Int32.toInt_sub]
  exact Int.bmod_eq_of_le (by omega) (by omega)

/-- Saturation to 32 bits, over the integers. -/
theorem toInt_ofIntClamp (x : Int) :
    (Int32.ofIntClamp x).toInt = max (min x 2147483647) (-2147483648) := by
  have hmin : Int32.minValue.toInt = -2147483648 := rfl
  have hmax : Int32.maxValue.toInt = 2147483647 := rfl
  unfold Int32.ofIntClamp
  split
  · split
    · rw [Int32.toInt_ofIntLE]
      omega
    · omega
  · omega

/-- Requantization over the integers: the scaled accumulator is moved, clamped to 32 bits, and clamped
to the range, whose lower bound is looked at last. -/
theorem toInt_requantize (scale : FixedScale) (outputOffset : Int32) (range : ActivationRange)
    (acc : Int32) :
    (requantize scale outputOffset range acc).toInt =
      max (min (max (min ((scale.apply acc).toInt + outputOffset.toInt) 2147483647) (-2147483648))
        range.highest.toInt) range.lowest.toInt := by
  rw [requantize, ActivationRange.clamp, toInt_max, toInt_min, saturatingAdd, toInt_ofIntClamp]

end Clamping

namespace Wide

/-- A 32-bit integer keeps its value in 128 bits. -/
theorem toInt_ofInt32 (x : Int32) : (ofInt32 x).toInt = x.toInt :=
  BitVec.toInt_signExtend_of_le (by decide)

/-- The powers of two that are used fit into 128 bits. -/
theorem toInt_twoPow {k : ℕ} (hk : k ≤ 100) : (BitVec.twoPow 128 k).toInt = 2 ^ k := by
  rw [BitVec.toInt_twoPow, if_neg (by omega), if_neg (by omega)]

/-- Half of the last place that is kept is the power of two below it. -/
theorem toInt_half {n : ℕ} (hn : n ≤ 100) : (half n).toInt = 2 ^ (n - 1) := by
  rw [half, ← BitVec.twoPow_eq]
  exact toInt_twoPow (by omega)

variable {x : Wide} (hx : |x.toInt| ≤ 2 ^ 62)

include hx

/-- A product loses no bit when it is shifted to the left. -/
theorem toInt_shiftLeft {k : ℕ} (hk : k ≤ 64) : (x <<< k).toInt = x.toInt * 2 ^ k := by
  have hpow : (2 : ℤ) ^ k ≤ 2 ^ 64 := pow_le_pow_right₀ (by norm_num) hk
  have hbound : |x.toInt * 2 ^ k| ≤ 2 ^ 62 * 2 ^ 64 := by
    rw [abs_mul, abs_of_pos (show (0 : ℤ) < 2 ^ k by positivity)]
    exact mul_le_mul hx hpow (by positivity) (by norm_num)
  rw [abs_le] at hbound
  rw [BitVec.shiftLeft_eq_mul_twoPow, BitVec.toInt_mul, toInt_twoPow (by omega)]
  exact Int.bmod_eq_of_le (by norm_num; linarith) (by norm_num; linarith)

/-- A product is far from the least integer of 128 bits. -/
theorem ne_intMin : x ≠ BitVec.intMin 128 := by
  rintro rfl
  revert hx
  decide

/-- The magnitude of a product is exact. -/
theorem toInt_abs : x.abs.toInt = |x.toInt| := by
  rw [BitVec.toInt_abs_eq_natAbs_of_ne_intMin (ne_intMin hx), Int.natCast_natAbs]

variable {n : ℕ} (hn : n ≤ 100)

include hn

/-- The sum of a magnitude and a half does not overflow. -/
theorem saddOverflow_half : x.abs.saddOverflow (half n) = false := by
  have hpow : (2 : ℤ) ^ (n - 1) ≤ 2 ^ 99 := pow_le_pow_right₀ (by norm_num) (by omega)
  have hpos : (0 : ℤ) < 2 ^ (n - 1) := by positivity
  have habs := abs_nonneg x.toInt
  rw [BitVec.saddOverflow, toInt_abs hx, toInt_half hn, Bool.or_eq_false_iff,
    decide_eq_false_iff_not, decide_eq_false_iff_not]
  constructor
  · norm_num at hx hpow ⊢
    omega
  · norm_num
    omega

/-- A magnitude with a half added is shifted to the rounded quotient. -/
theorem toInt_roundedMagnitude : (roundedMagnitude x n).toInt =
    ((x.toInt.natAbs + 2 ^ (n - 1)) / 2 ^ n : ℕ) := by
  rw [roundedMagnitude, BitVec.toInt_sshiftRight,
    BitVec.toInt_add_of_not_saddOverflow (by rw [saddOverflow_half hx hn]; decide),
    toInt_abs hx, toInt_half hn, Int.shiftRight_eq_div_pow]
  push_cast
  rfl

/-- Negating a rounded magnitude does not overflow. -/
theorem negOverflow_roundedMagnitude : (roundedMagnitude x n).negOverflow = false := by
  rw [BitVec.negOverflow, toInt_roundedMagnitude hx hn, beq_eq_false_iff_ne]
  exact ne_of_gt (lt_of_lt_of_le (by norm_num) (Int.natCast_nonneg _))

/-- **A product shifted to the right is rounded to the nearest integer**, halves away from zero. -/
theorem toInt_roundShiftRight :
    (roundShiftRight x n).toInt = nearestAway ((x.toInt : ℚ) / 2 ^ n) := by
  unfold roundShiftRight
  split
  · rename_i hzero
    rw [hzero, pow_zero, div_one, nearestAway_intCast]
  · rename_i hpos
    have hsign : x.slt 0 = true ↔ x.toInt < 0 := by simp [BitVec.slt]
    rw [nearestAway_div_two_pow x.toInt (Nat.pos_of_ne_zero hpos), ← toInt_roundedMagnitude hx hn]
    by_cases hneg : x.toInt < 0
    · rw [if_pos (hsign.mpr hneg), if_pos hneg, BitVec.toInt_neg_of_not_negOverflow
        (by rw [negOverflow_roundedMagnitude hx hn]; decide)]
    · rw [if_neg (mt hsign.mp hneg), if_neg hneg]

end Wide

namespace FixedScale

/-- The rational number that a scale stands for. -/
def value (scale : FixedScale) : ℚ := scale.multiplier.toInt * 2 ^ scale.shift.toInt

/-- An integer clamped to 32 bits. -/
def clamp32 (x : ℤ) : ℤ := max (min x 2147483647) (-2147483648)

/-- Shifts to the left by 31 bits or more saturate alike. -/
theorem clamp32_mul_two_pow (p : ℤ) {j k : ℕ} (hj : 31 ≤ j) (hk : 31 ≤ k) :
    clamp32 (p * 2 ^ j) = clamp32 (p * 2 ^ k) := by
  have hlarge : ∀ i, 31 ≤ i → (2147483648 : ℤ) ≤ 2 ^ i := fun i hi =>
    pow_le_pow_right₀ (show (1 : ℤ) ≤ 2 by norm_num) hi
  have hj' := hlarge j hj
  have hk' := hlarge k hk
  unfold clamp32
  rcases lt_trichotomy p 0 with hneg | rfl | hpos
  · have hjlow : p * 2 ^ j ≤ -2147483648 := by nlinarith
    have hklow : p * 2 ^ k ≤ -2147483648 := by nlinarith
    omega
  · rw [zero_mul, zero_mul]
  · have hjhigh : 2147483647 ≤ p * 2 ^ j := by nlinarith
    have hkhigh : 2147483647 ≤ p * 2 ^ k := by nlinarith
    omega

variable (scale : FixedScale) (acc : Int32)

/-- A product of two 32-bit integers has at most 62 bits. -/
theorem abs_factors_le : |acc.toInt * scale.multiplier.toInt| ≤ 2 ^ 62 := by
  have hbound (x : Int32) : |x.toInt| ≤ 2 ^ 31 :=
    abs_le.mpr ⟨x.le_toInt, x.toInt_lt.le⟩
  rw [abs_mul]
  calc |acc.toInt| * |scale.multiplier.toInt| ≤ 2 ^ 31 * 2 ^ 31 :=
        mul_le_mul (hbound acc) (hbound _) (abs_nonneg _) (by norm_num)
    _ = 2 ^ 62 := by norm_num

/-- The product of two 32-bit integers does not overflow 128 bits. -/
theorem smulOverflow_factors :
    (Wide.ofInt32 acc).smulOverflow (Wide.ofInt32 scale.multiplier) = false := by
  have hbound := abs_le.mp (scale.abs_factors_le acc)
  rw [BitVec.smulOverflow, Wide.toInt_ofInt32, Wide.toInt_ofInt32, Bool.or_eq_false_iff,
    decide_eq_false_iff_not, decide_eq_false_iff_not]
  constructor <;> norm_num at hbound ⊢ <;> omega

/-- The product in 128 bits is the exact one. -/
theorem toInt_product : (scale.product acc).toInt = acc.toInt * scale.multiplier.toInt := by
  rw [product, BitVec.toInt_mul_of_not_smulOverflow
    (by rw [smulOverflow_factors scale acc]; decide), Wide.toInt_ofInt32, Wide.toInt_ofInt32]

/-- The product in 128 bits has at most 62 bits. -/
theorem abs_product_le : |(scale.product acc).toInt| ≤ 2 ^ 62 := by
  rw [toInt_product]
  exact scale.abs_factors_le acc

/-- The shift as it is taken: no further than the caps. -/
def cappedShift : ℤ := max (-rightCap) (min scale.shift.toInt leftCap)

/-- Shifts to the left are capped at 64 bits. -/
theorem leftBits_le : scale.leftBits ≤ 64 := min_le_right _ _

/-- Shifts to the right are capped at 100 bits. -/
theorem rightBits_le : scale.rightBits ≤ 100 := min_le_right _ _

/-- The scaled product is the exact one with the capped shift, rounded to nearest. -/
theorem toInt_scaled : (scale.scaled acc).toInt =
    nearestAway (acc.toInt * scale.multiplier.toInt * 2 ^ scale.cappedShift) := by
  have hproduct := scale.abs_product_le acc
  unfold scaled
  split
  · rename_i hleft
    have hshift : scale.cappedShift = scale.leftBits := by
      simp only [cappedShift, leftBits, leftCap, rightCap]
      omega
    rw [Wide.toInt_shiftLeft hproduct scale.leftBits_le, toInt_product, hshift, zpow_natCast]
    exact_mod_cast (nearestAway_intCast _).symm
  · rename_i hright
    have hshift : scale.cappedShift = -scale.rightBits := by
      simp only [cappedShift, rightBits, leftCap, rightCap]
      omega
    rw [Wide.toInt_roundShiftRight hproduct scale.rightBits_le, toInt_product, hshift, zpow_neg,
      zpow_natCast, div_eq_mul_inv]
    push_cast
    rfl

/-- The caps change nothing: a product that is shifted further to the left is clamped all the same,
and one that is shifted further to the right is zero all the same. -/
theorem clamp32_cappedShift {p : ℤ} (hp : |p| ≤ 2 ^ 62) :
    clamp32 (nearestAway (p * 2 ^ scale.cappedShift)) =
      clamp32 (nearestAway (p * 2 ^ scale.shift.toInt)) := by
  by_cases hleft : 64 < scale.shift.toInt
  · obtain ⟨k, hk⟩ := Int.eq_ofNat_of_zero_le (show 0 ≤ scale.shift.toInt by omega)
    have hshift : scale.cappedShift = (64 : ℕ) := by
      simp only [cappedShift, leftCap, rightCap]
      omega
    have hexact (j : ℕ) : nearestAway (p * 2 ^ (j : ℤ)) = p * 2 ^ j := by
      rw [zpow_natCast]
      exact_mod_cast nearestAway_intCast _
    rw [hshift, hk, hexact, hexact]
    exact clamp32_mul_two_pow p (by norm_num) (by omega)
  by_cases hright : scale.shift.toInt < -100
  · have hshift : scale.cappedShift = -100 := by
      simp only [cappedShift, leftCap, rightCap]
      omega
    have hsmall {s : ℤ} (hs : s ≤ -100) : nearestAway (p * 2 ^ s) = 0 := by
      have hpow : (0 : ℚ) < 2 ^ s := zpow_pos (by norm_num) s
      apply nearestAway_eq_zero
      rw [abs_mul, abs_of_pos hpow]
      calc |(p : ℚ)| * 2 ^ s ≤ 2 ^ 62 * 2 ^ (-100 : ℤ) :=
            mul_le_mul (by exact_mod_cast hp) (zpow_le_zpow_right₀ (by norm_num) hs)
              hpow.le (by norm_num)
        _ < 1 / 2 := by norm_num
    rw [hshift, hsmall (le_refl _), hsmall (by omega)]
  · have hshift : scale.cappedShift = scale.shift.toInt := by
      simp only [cappedShift, leftCap, rightCap]
      omega
    rw [hshift]

/-- A scaled accumulator is the exact product, rounded to nearest and saturated. -/
theorem toInt_apply :
    (scale.apply acc).toInt = clamp32 (nearestAway (acc.toInt * scale.value)) := by
  rw [apply, toInt_ofIntClamp, toInt_scaled, value, ← mul_assoc]
  exact_mod_cast scale.clamp32_cappedShift (scale.abs_factors_le acc)

/-- No step of a multiplication overflows 128 bits: shifts are shorter than the word, and each
product, shift, magnitude, sum and negation is the exact one. -/
structure StepsFit : Prop where
  shifts : scale.leftBits < 128 ∧ scale.rightBits < 128
  product : (Wide.ofInt32 acc).smulOverflow (Wide.ofInt32 scale.multiplier) = false
  left : (scale.product acc <<< scale.leftBits).toInt =
    (scale.product acc).toInt * 2 ^ scale.leftBits
  magnitude : (scale.product acc).negOverflow = false
  half : (Wide.half scale.rightBits).toInt = 2 ^ (scale.rightBits - 1)
  sum : (scale.product acc).abs.saddOverflow (Wide.half scale.rightBits) = false
  negation : ((scale.product acc).roundedMagnitude scale.rightBits).negOverflow = false

/-- No step of a multiplication overflows 128 bits. -/
theorem stepsFit : scale.StepsFit acc := by
  have hproduct := scale.abs_product_le acc
  have hleft := scale.leftBits_le
  have hright := scale.rightBits_le
  refine ⟨⟨by omega, by omega⟩, scale.smulOverflow_factors acc, Wide.toInt_shiftLeft hproduct hleft,
    ?_, Wide.toInt_half hright, Wide.saddOverflow_half hproduct hright,
    Wide.negOverflow_roundedMagnitude hproduct hright⟩
  rw [BitVec.negOverflow, beq_eq_false_iff_ne]
  norm_num at hproduct ⊢
  rw [abs_le] at hproduct
  omega

/-- **The fixed-point product is exactly rounded**, for every accumulator, multiplier and shift: it is
the rational product rounded to the nearest integer, halves away from zero, and clamped to 32 bits. No
step overflows on the way, and the caps of the shift do not change the result. -/
theorem apply_exactly_rounded :
    (scale.apply acc).toInt = clamp32 (nearestAway
        (acc.toInt * scale.multiplier.toInt * 2 ^ scale.shift.toInt)) ∧
      scale.StepsFit acc ∧
      (scale.apply acc).toInt = clamp32 (nearestAway
        (acc.toInt * scale.multiplier.toInt *
          2 ^ max (-rightCap : ℤ) (min scale.shift.toInt leftCap))) := by
  refine ⟨?_, scale.stepsFit acc, ?_⟩
  · rw [toInt_apply, value, mul_assoc]
  · rw [apply, toInt_ofIntClamp, toInt_scaled]
    rfl

end FixedScale

end QuantizedConv
