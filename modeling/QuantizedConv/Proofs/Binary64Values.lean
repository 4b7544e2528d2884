import QuantizedConv.Binary64.Basic
import Mathlib.Data.Int.Log
import Mathlib.Tactic

/-!
# The values of binary64 numbers

Sixty-four bits encode a rational number by sign, exponent and fraction (`Binary64.value?`), and are
read as a magnitude of that value (`Binary64.value?_read`). All but the smallest numbers of the format
have a mantissa of full width (`Magnitude.Normal`). Such a number is the nearest one to itself
(`Binary64.nearest_eq`), whatever quotient it is given as, and its bits are read as the number that was
written (`Binary64.read_ofMagnitude`).
-/

set_option autoImplicit false

namespace QuantizedConv

/-- The rational number that a bit pattern encodes, by its sign, its eleven exponent bits and its
fraction; infinities and what is no number encode none. -/
def Binary64.value? (x : Binary64) : Option ℚ :=
  let sign : ℕ := x.bits.toNat / 2 ^ 63
  let exponent : ℕ := x.bits.toNat / 2 ^ 52 % 2 ^ 11
  let fraction : ℚ := (x.bits.toNat % 2 ^ 52 : ℕ) / 2 ^ 52
  if exponent = 2047 then none
  else if exponent = 0 then some ((-1) ^ sign * (fraction * 2 ^ (-1022 : ℤ)))
  else some ((-1) ^ sign * ((1 + fraction) * 2 ^ ((exponent : ℤ) - 1023)))

namespace Magnitude

/-- The rational number of a magnitude. -/
def value (x : Magnitude) : ℚ := x.mantissa * 2 ^ x.exponent

variable {x : Magnitude}

/-- A magnitude with a mantissa is positive. -/
theorem value_pos (hx : x.mantissa ≠ 0) : 0 < x.value :=
  mul_pos (by exact_mod_cast Nat.pos_of_ne_zero hx) (zpow_pos (by norm_num) _)

/-- The leading bit of a magnitude is that of its mantissa, moved by the exponent. -/
theorem log_value (hx : x.mantissa ≠ 0) : Int.log 2 x.value = x.mantissa.log2 + x.exponent := by
  have hpow : (0 : ℚ) < 2 ^ x.exponent := zpow_pos (by norm_num) _
  have hlow : ((2 : ℕ) : ℚ) ^ (x.mantissa.log2 + x.exponent) ≤ x.value := by
    rw [value, zpow_add₀ (by norm_num), zpow_natCast]
    exact mul_le_mul_of_nonneg_right (by exact_mod_cast Nat.log2_self_le hx) hpow.le
  have hhigh : x.value < ((2 : ℕ) : ℚ) ^ (x.mantissa.log2 + x.exponent + 1) := by
    rw [value, add_right_comm, zpow_add₀ (by norm_num)]
    refine mul_lt_mul_of_pos_right ?_ hpow
    exact_mod_cast Nat.lt_log2_self
  have h := (Int.zpow_le_iff_le_log one_lt_two (value_pos hx)).mp hlow
  have h' := (Int.lt_zpow_iff_log_lt one_lt_two (value_pos hx)).mp hhigh
  omega

end Magnitude

/-- The rational number of a reading. -/
def Binary64.Reading.value? : Reading → Option ℚ
  | .finite negative magnitude => some ((if negative then -1 else 1) * magnitude.value)
  | _ => none

/-- A bit pattern is read as the number that it encodes. -/
theorem Binary64.value?_read (x : Binary64) : x.read.value? = x.value? := by
  have hbits : x.bits.toNat < 2 ^ 64 := x.bits.toNat_lt
  have hsign : (if decide (signBit ≤ x.bits.toNat) = true then (-1 : ℚ) else 1) =
      (-1) ^ (x.bits.toNat / 2 ^ 63) := by
    have hsignBit : signBit = 2 ^ 63 := rfl
    simp only [decide_eq_true_eq, hsignBit]
    split
    · rw [show x.bits.toNat / 2 ^ 63 = 1 by omega, pow_one]
    · rw [show x.bits.toNat / 2 ^ 63 = 0 by omega, pow_zero]
  have hone : leadingOne = 2 ^ 52 := rfl
  have hpow (e : ℤ) : (2 : ℚ) ^ (e - 52) = 2 ^ e / 2 ^ 52 := zpow_sub₀ (by norm_num) e 52
  unfold read value?
  simp only [hone, show 2 ^ 11 = 2048 by rfl]
  by_cases hspecial : x.bits.toNat / 2 ^ 52 % 2048 = 2047
  · rw [if_pos hspecial, if_pos hspecial]
    split <;> rfl
  rw [if_neg hspecial, if_neg hspecial]
  by_cases hsmall : x.bits.toNat / 2 ^ 52 % 2048 = 0
  · rw [if_pos hsmall, if_pos hsmall, ← hsign]
    simp only [Reading.value?, Magnitude.value, leastExponent]
    rw [show (-1074 : ℤ) = -1022 - 52 by norm_num, hpow]
    congr 2
    ring
  · rw [if_neg hsmall, if_neg hsmall, ← hsign]
    simp only [Reading.value?, Magnitude.value]
    rw [show ((x.bits.toNat / 2 ^ 52 % 2048 : ℕ) : ℤ) - 1075 =
      (x.bits.toNat / 2 ^ 52 % 2048 : ℕ) - 1023 - 52 by ring, hpow]
    congr 2
    push_cast
    ring

/-- A finite number is read with an exponent of the format and a mantissa of at most 53 bits. -/
theorem Binary64.read_finite {x : Binary64} {negative : Bool} {magnitude : Magnitude}
    (h : x.read = .finite negative magnitude) :
    -1074 ≤ magnitude.exponent ∧ magnitude.exponent ≤ 971 ∧ magnitude.mantissa < 2 ^ 53 := by
  have hone : leadingOne = 2 ^ 52 := rfl
  have hfraction : x.bits.toNat % leadingOne < 2 ^ 52 := Nat.mod_lt _ (by decide)
  unfold read at h
  simp only [leastExponent] at h
  split at h
  · split at h <;> cases h
  · split at h <;> cases h
    · exact ⟨le_refl _, by norm_num, by simp only; omega⟩
    · exact ⟨by simp only; omega, by simp only; omega, by simp only; omega⟩

/-- A positive number is read as a positive magnitude. -/
theorem Binary64.read_of_pos {x : Binary64} {s : ℚ} (hvalue : x.value? = some s) (hs : 0 < s) :
    ∃ magnitude, x.read = .finite false magnitude ∧ magnitude.mantissa ≠ 0 ∧ magnitude.value = s := by
  rw [← value?_read] at hvalue
  cases hread : x.read with
  | nan => simp [hread, Reading.value?] at hvalue
  | infinite negative => simp [hread, Reading.value?] at hvalue
  | finite negative magnitude =>
    simp only [hread, Reading.value?, Option.some.injEq] at hvalue
    have hnonneg : 0 ≤ magnitude.value :=
      mul_nonneg (Nat.cast_nonneg _) (zpow_nonneg (by norm_num) _)
    cases negative with
    | true =>
      simp only [if_true] at hvalue
      linarith
    | false =>
      simp only [Bool.false_eq_true, if_false, one_mul] at hvalue
      refine ⟨magnitude, rfl, fun hzero => ?_, hvalue⟩
      simp [← hvalue, Magnitude.value, hzero] at hs

/-- A number of full width, as all but the smallest numbers of the format are kept. -/
structure Magnitude.Normal (x : Magnitude) : Prop where
  mantissa_ge : 2 ^ 52 ≤ x.mantissa
  mantissa_lt : x.mantissa < 2 ^ 53
  exponent_ge : -1074 ≤ x.exponent
  exponent_le : x.exponent ≤ 971

namespace Magnitude

/-- A mantissa of full width is not zero. -/
theorem Normal.ne_zero {x : Magnitude} (hx : x.Normal) : x.mantissa ≠ 0 := by
  have := hx.mantissa_ge
  omega

/-- The leading bit of a mantissa of full width counts `2 ^ 52`. -/
theorem Normal.log2_mantissa {x : Magnitude} (hx : x.Normal) : x.mantissa.log2 = 52 :=
  (Nat.log2_eq_iff hx.ne_zero).mpr ⟨hx.mantissa_ge, hx.mantissa_lt⟩

/-- The leading bit of a number of full width, from its exponent alone. -/
theorem Normal.log_value {x : Magnitude} (hx : x.Normal) : Int.log 2 x.value = 52 + x.exponent := by
  rw [Magnitude.log_value hx.ne_zero, hx.log2_mantissa]
  rfl

/-- A positive magnitude has a mantissa. -/
theorem ne_zero_of_value_pos {x : Magnitude} (hx : 0 < x.value) : x.mantissa ≠ 0 := by
  intro hzero
  simp [value, hzero] at hx

/-- The quotient of a magnitude has a positive denominator. -/
theorem ratio_snd_pos (x : Magnitude) : 0 < x.ratio.2 := by
  unfold ratio
  split <;> simp [Nat.shiftLeft_eq]

/-- The quotient of a magnitude is its value. -/
theorem ratio_fst_eq (x : Magnitude) : (x.ratio.1 : ℚ) = x.value * x.ratio.2 := by
  unfold ratio value
  split
  · rename_i hleft
    obtain ⟨k, hk⟩ := Int.eq_ofNat_of_zero_le hleft
    simp [hk, Nat.shiftLeft_eq]
  · rename_i hright
    obtain ⟨k, hk⟩ := Int.eq_negSucc_of_lt_zero (not_le.mp hright)
    simp [hk, Nat.shiftLeft_eq]

/-- A magnitude of at most 53 bits in the normal range can be given full width. -/
theorem exists_normal {y : Magnitude} (hy : y.mantissa ≠ 0) (hwidth : y.mantissa < 2 ^ 53)
    (hlow : -1022 ≤ Int.log 2 y.value) (hhigh : Int.log 2 y.value ≤ 1023) :
    ∃ x : Magnitude, x.Normal ∧ x.value = y.value := by
  have hlog : y.mantissa.log2 < 53 := (Nat.log2_lt hy).mpr hwidth
  rw [Magnitude.log_value hy] at hlow hhigh
  -- the missing bits go from the exponent to the mantissa
  obtain ⟨k, hk⟩ : ∃ k, y.mantissa.log2 + k = 52 := ⟨52 - y.mantissa.log2, by omega⟩
  refine ⟨⟨y.mantissa * 2 ^ k, y.exponent - k⟩, ⟨?_, ?_, ?_, ?_⟩, ?_⟩
  · calc 2 ^ 52 = 2 ^ y.mantissa.log2 * 2 ^ k := by rw [← pow_add, hk]
      _ ≤ y.mantissa * 2 ^ k := Nat.mul_le_mul_right _ (Nat.log2_self_le hy)
  · calc y.mantissa * 2 ^ k < 2 ^ (y.mantissa.log2 + 1) * 2 ^ k :=
          Nat.mul_lt_mul_of_pos_right Nat.lt_log2_self (by positivity)
      _ = 2 ^ 53 := by rw [← pow_add, add_right_comm, hk]
  · simp only
    omega
  · simp only
    omega
  · simp only [value]
    push_cast
    rw [zpow_sub₀ (by norm_num), zpow_natCast]
    field_simp

end Magnitude

namespace Binary64

/-- An integer quotient is not rounded. -/
theorem roundHalfEven_mul (n : ℕ) {b : ℕ} (hb : 0 < b) : roundHalfEven (n * b) b = n := by
  simp [roundHalfEven, Nat.mul_div_cancel n hb, hb]

/-- A whole number of units is not rounded. -/
theorem unitsOf_eq {a b n : ℕ} {e : ℤ} (hb : 0 < b) (h : (a : ℚ) = n * 2 ^ e * b) :
    unitsOf a b e = n := by
  unfold unitsOf
  split
  · rename_i hleft
    obtain ⟨k, rfl⟩ := Int.eq_ofNat_of_zero_le hleft
    have ha : a = n * (b * 2 ^ k) := by
      rw [zpow_natCast] at h
      have : (a : ℚ) = n * (b * 2 ^ k) := by rw [h]; ring
      exact_mod_cast this
    rw [Int.toNat_natCast, Nat.shiftLeft_eq, ha]
    exact roundHalfEven_mul n (by positivity)
  · rename_i hright
    obtain ⟨k, rfl⟩ := Int.eq_negSucc_of_lt_zero (not_le.mp hright)
    have ha : a * 2 ^ (k + 1) = n * b := by
      rw [zpow_negSucc] at h
      have : (a : ℚ) * 2 ^ (k + 1) = n * b := by rw [h]; field_simp
      exact_mod_cast this
    rw [Int.natAbs_negSucc, Nat.shiftLeft_eq, ha]
    exact roundHalfEven_mul n hb

/-- Comparing shifted naturals is comparing with a power of two. -/
theorem shifted_le_iff (a b : ℕ) (k : ℤ) :
    (if 0 ≤ k then b <<< k.toNat ≤ a else b ≤ a <<< k.natAbs) ↔ (b : ℚ) * 2 ^ k ≤ a := by
  split
  · rename_i hleft
    obtain ⟨n, rfl⟩ := Int.eq_ofNat_of_zero_le hleft
    rw [Int.toNat_natCast, Nat.shiftLeft_eq, zpow_natCast]
    norm_cast
  · rename_i hright
    obtain ⟨n, rfl⟩ := Int.eq_negSucc_of_lt_zero (not_le.mp hright)
    rw [Int.natAbs_negSucc, Nat.shiftLeft_eq, zpow_negSucc, ← div_eq_mul_inv,
      div_le_iff₀ (by positivity)]
    norm_cast

/-- The exponent that is found for a quotient is its logarithm, rounded down. -/
theorem floorLog2_eq {a b : ℕ} (ha : a ≠ 0) (hb : b ≠ 0) :
    floorLog2 a b = Int.log 2 ((a : ℚ) / b) := by
  have hpos : (0 : ℚ) < a / b := by positivity
  have hreached (k : ℤ) : (b : ℚ) * 2 ^ k ≤ a ↔ k ≤ Int.log 2 ((a : ℚ) / b) := by
    rw [← Int.zpow_le_iff_le_log one_lt_two hpos, le_div_iff₀ (by positivity), mul_comm]
    rfl
  have habove : ¬(a.log2 : ℤ) - b.log2 + 1 ≤ Int.log 2 ((a : ℚ) / b) := by
    rw [← hreached, not_le]
    calc (a : ℚ) < 2 ^ (a.log2 + 1) := by exact_mod_cast Nat.lt_log2_self
      _ = 2 ^ b.log2 * 2 ^ ((a.log2 : ℤ) - b.log2 + 1) := by
        rw [← zpow_natCast, ← zpow_natCast, ← zpow_add₀ (by norm_num)]
        congr 1
        push_cast
        ring
      _ ≤ b * 2 ^ ((a.log2 : ℤ) - b.log2 + 1) := by
        gcongr
        exact_mod_cast Nat.log2_self_le hb
  have hbelow : (a.log2 : ℤ) - b.log2 - 1 ≤ Int.log 2 ((a : ℚ) / b) := by
    rw [← hreached]
    calc (b : ℚ) * 2 ^ ((a.log2 : ℤ) - b.log2 - 1)
        ≤ 2 ^ (b.log2 + 1) * 2 ^ ((a.log2 : ℤ) - b.log2 - 1) := by
          gcongr
          exact_mod_cast Nat.lt_log2_self.le
      _ = 2 ^ a.log2 := by
        rw [← zpow_natCast, ← zpow_natCast, ← zpow_add₀ (by norm_num)]
        congr 1
        push_cast
        ring
      _ ≤ a := by exact_mod_cast Nat.log2_self_le ha
  simp only [floorLog2, shifted_le_iff, hreached]
  split <;> omega

/-- **A number of the format is the nearest one to itself.** -/
theorem nearest_eq {a b : ℕ} {x : Magnitude} (hx : x.Normal) (hb : 0 < b)
    (h : (a : ℚ) = x.value * b) : nearest a b = some x := by
  have hvalue : (a : ℚ) / b = x.value := by
    rw [h]
    field_simp
  have ha : a ≠ 0 := by
    rintro rfl
    have hpos := mul_pos (Magnitude.value_pos hx.ne_zero) (Nat.cast_pos.mpr hb)
    simp [← h] at hpos
  have hexponent : max (floorLog2 a b - fractionBits) leastExponent = x.exponent := by
    have := hx.exponent_ge
    rw [floorLog2_eq ha hb.ne', hvalue, hx.log_value]
    simp only [fractionBits, leastExponent]
    omega
  have hunits : unitsOf a b x.exponent = x.mantissa := unitsOf_eq hb h
  have hcarry : x.mantissa ≠ 2 * leadingOne := by
    have := hx.mantissa_lt
    simp only [leadingOne, fractionBits, Nat.shiftLeft_eq]
    omega
  unfold nearest
  simp only [hexponent, hunits, if_neg ha, if_neg hcarry]
  exact if_pos hx.exponent_le

/-- A magnitude is rounded to the number of full width that has its value. -/
theorem nearestMagnitude_eq {x y : Magnitude} (hx : x.Normal) (h : y.value = x.value) :
    nearestMagnitude y = some x := by
  have hy : y.mantissa ≠ 0 := Magnitude.ne_zero_of_value_pos (h ▸ Magnitude.value_pos hx.ne_zero)
  have hlog : y.mantissa.log2 + y.exponent = 52 + x.exponent := by
    rw [← Magnitude.log_value hy, h, hx.log_value]
  have hlow := hx.exponent_ge
  have hhigh := hx.exponent_le
  unfold nearestMagnitude
  rw [if_neg hy, if_neg (by simp only [leastExponent]; omega), if_neg (by omega)]
  exact nearest_eq hx y.ratio_snd_pos (h ▸ y.ratio_fst_eq)

/-- The fields of a bit pattern are read as what they stand for. -/
theorem read_of_fields {x : Binary64} {negative : Bool} {field fraction : ℕ}
    (hbits : x.bits.toNat = (if negative then signBit else 0) + field * leadingOne + fraction)
    (hlow : 0 < field) (hhigh : field < 2047) (hfraction : fraction < leadingOne) :
    x.read = .finite negative ⟨leadingOne + fraction, (field : ℤ) - 1075⟩ := by
  have hone : leadingOne = 4503599627370496 := rfl
  have hsign : signBit = 9223372036854775808 := rfl
  rw [hone, hsign] at hbits
  rw [hone] at hfraction
  have hnegative : decide (signBit ≤ x.bits.toNat) = negative := by
    rw [hbits, hsign]
    cases negative <;> simp <;> omega
  have hexponent : x.bits.toNat / leadingOne % 2048 = field := by
    rw [hbits, hone]
    cases negative <;> simp only [Bool.false_eq_true, if_true, if_false] <;> omega
  have hmantissa : x.bits.toNat % leadingOne = fraction := by
    rw [hbits, hone]
    cases negative <;> simp only [Bool.false_eq_true, if_true, if_false] <;> omega
  unfold read
  simp only [hnegative, hexponent, hmantissa]
  rw [if_neg (by omega), if_neg (by omega)]

/-- The bits of a sign and a number of full width are read as these. -/
theorem read_ofMagnitude (negative : Bool) {x : Magnitude} (hx : x.Normal) :
    (ofMagnitude negative (some x)).read = .finite negative x := by
  obtain ⟨mantissa, exponent⟩ := x
  obtain ⟨hmlow, hmhigh, helow, hehigh⟩ := hx
  simp only at hmlow hmhigh helow hehigh
  obtain ⟨field, hfield⟩ := Int.eq_ofNat_of_zero_le (show 0 ≤ exponent + 1075 by omega)
  obtain ⟨fraction, rfl⟩ := Nat.exists_eq_add_of_le hmlow
  have hone : leadingOne = 2 ^ 52 := rfl
  have hbits : (ofMagnitude negative (some ⟨2 ^ 52 + fraction, exponent⟩)).bits.toNat =
      (if negative then signBit else 0) + field * leadingOne + fraction := by
    have hfraction : (2 ^ 52 + fraction) % leadingOne = fraction := by
      rw [hone]
      omega
    simp only [ofMagnitude, if_neg (show ¬2 ^ 52 + fraction < leadingOne by omega), hfield,
      Int.toNat_natCast, hfraction]
    apply UInt64.toNat_ofNat_of_lt'
    have hsign : signBit = 9223372036854775808 := rfl
    have hsize : UInt64.size = 18446744073709551616 := rfl
    rw [hone, hsign, hsize]
    cases negative <;> simp only [Bool.false_eq_true, if_true, if_false] <;> omega
  rw [read_of_fields hbits (by omega) (by omega) (by omega), hone,
    show (field : ℤ) - 1075 = exponent by omega]

end Binary64

end QuantizedConv
