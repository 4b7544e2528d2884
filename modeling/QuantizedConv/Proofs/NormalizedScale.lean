import QuantizedConv.Proofs.NearestScale

/-!
# Normalizing a scale

A scale goes to a real number and back. On the way out nothing is rounded: the multiplier, the power of
two and their product are numbers of the format (`HasNormalReal.read_toReal`). On the way back 31 bits
are kept, which is all that a multiplier has. So the scale that comes back has the same value and a
multiplier of exactly 31 bits, of which there is only one (`FixedScale.eq_of_value_eq`), and since a
product depends on the value of a scale alone (`FixedScale.apply_congr`), all products are the same.
-/

set_option autoImplicit false

namespace QuantizedConv

/-- A number of at most 31 bits is not rounded. -/
theorem roundSignificant_eq {x : Magnitude} (hx : x.mantissa ≠ 0) (hwidth : x.mantissa < 2 ^ 31) :
    roundSignificant x.value = x.value := by
  have hlog : x.mantissa.log2 < 31 := (Nat.log2_lt hx).mpr hwidth
  have hplace : lastPlace x.value ≤ x.exponent := by
    rw [lastPlace, Magnitude.log_value hx]
    omega
  obtain ⟨k, hk⟩ := Int.eq_ofNat_of_zero_le (sub_nonneg.mpr hplace)
  have hunits : x.value / 2 ^ lastPlace x.value = ((x.mantissa * 2 ^ k : ℕ) : ℚ) := by
    rw [Magnitude.value, mul_div_assoc, ← zpow_sub₀ (by norm_num), ← Magnitude.value, hk,
      zpow_natCast]
    push_cast
    rfl
  rw [roundSignificant, hunits, round_natCast, Int.cast_natCast, ← hunits]
  exact div_mul_cancel₀ _ (zpow_ne_zero _ (by norm_num))

namespace FixedScale

/-- A positive scale as a magnitude. -/
def magnitude (scale : FixedScale) : Magnitude := ⟨scale.multiplier.toInt.natAbs, scale.shift.toInt⟩

variable {scale : FixedScale}

/-- The magnitude of a positive scale has its value. -/
theorem value_magnitude (hpos : 1 ≤ scale.multiplier.toInt) : scale.magnitude.value = scale.value := by
  rw [Magnitude.value, value, magnitude, Nat.cast_natAbs, abs_of_pos (by omega)]

/-- The magnitude of a positive scale has a mantissa of at most 31 bits. -/
theorem mantissa_magnitude (hpos : 1 ≤ scale.multiplier.toInt) :
    scale.magnitude.mantissa ≠ 0 ∧ scale.magnitude.mantissa < 2 ^ 31 := by
  have hlt := scale.multiplier.toInt_lt
  constructor <;> simp only [magnitude] <;> omega

/-- A product depends on the value of a scale alone. -/
theorem apply_congr {a b : FixedScale} (h : a.value = b.value) (acc : Int32) :
    a.apply acc = b.apply acc := by
  apply Int32.toInt.inj
  rw [toInt_apply, toInt_apply, h]

/-- The leading bit of a scale whose multiplier has 31 bits, from its shift alone. -/
theorem log_value (hlow : 2 ^ 30 ≤ scale.multiplier.toInt) :
    Int.log 2 scale.value = 30 + scale.shift.toInt := by
  have hpos : 1 ≤ scale.multiplier.toInt := le_trans (by norm_num) hlow
  obtain ⟨hne, hwidth⟩ := mantissa_magnitude hpos
  have hlog : scale.magnitude.mantissa.log2 = 30 := by
    rw [Nat.log2_eq_iff hne]
    refine ⟨?_, hwidth⟩
    simp only [magnitude]
    omega
  rw [← value_magnitude hpos, Magnitude.log_value hne, hlog]
  rfl

/-- There is only one scale of a value with a multiplier of 31 bits. -/
theorem eq_of_value_eq {a b : FixedScale} (ha : 2 ^ 30 ≤ a.multiplier.toInt)
    (hb : 2 ^ 30 ≤ b.multiplier.toInt) (h : a.value = b.value) : a = b := by
  have hshift : a.shift.toInt = b.shift.toInt := by
    have hlog := log_value ha
    rw [h, log_value hb] at hlog
    omega
  have hmultiplier : a.multiplier.toInt = b.multiplier.toInt := by
    rw [value, value, hshift] at h
    exact_mod_cast mul_right_cancel₀ (zpow_ne_zero _ (by norm_num)) h
  cases a
  cases b
  simp only [mk.injEq]
  exact ⟨Int32.toInt.inj hmultiplier, Int32.toInt.inj hshift⟩

/-- A positive scale whose power of two and whose value are normal numbers of the format. -/
structure HasNormalReal (scale : FixedScale) : Prop where
  positive : 1 ≤ scale.multiplier.toInt
  shift_ge : -1022 ≤ scale.shift.toInt
  shift_le : scale.shift.toInt ≤ 993
  value_ge : 2 ^ (-1022 : ℤ) ≤ scale.value

/-- The real number of a scale is its value, which is not rounded. -/
theorem HasNormalReal.read_toReal (h : scale.HasNormalReal) :
    ∃ x : Magnitude, x.Normal ∧ x.value = scale.value ∧ scale.toReal.read = .finite false x := by
  obtain ⟨hne, hwidth⟩ := mantissa_magnitude h.positive
  have hlog : scale.magnitude.mantissa.log2 < 31 := (Nat.log2_lt hne).mpr hwidth
  have hlow : -1022 ≤ Int.log 2 scale.magnitude.value := by
    have hpos := Magnitude.value_pos hne
    rw [← Int.zpow_le_iff_le_log one_lt_two hpos, value_magnitude h.positive]
    exact h.value_ge
  have hhigh : Int.log 2 scale.magnitude.value ≤ 1023 := by
    have hshift : scale.magnitude.exponent ≤ 993 := h.shift_le
    rw [Magnitude.log_value hne]
    omega
  obtain ⟨x, hx, hvalue⟩ := Magnitude.exists_normal hne (by omega) hlow hhigh
  refine ⟨x, hx, hvalue.trans (value_magnitude h.positive), ?_⟩
  obtain ⟨m, -, hm, hmultiplier⟩ := Binary64.read_ofInt (n := scale.multiplier.toInt)
    (by have := h.positive; omega) (by have := scale.multiplier.toInt_lt; omega)
  obtain ⟨p, -, hp, hpower⟩ := Binary64.read_powerOfTwo h.shift_ge
    (h.shift_le.trans (by norm_num))
  refine Binary64.read_mul hmultiplier hpower hx ?_
  rw [hvalue, value_magnitude h.positive, hm, hp, value]

-- beyond that range the power of two is itself zero or infinite
example : toReal ⟨0x40000000, -1080⟩ = Binary64.signedZero false := by decide +kernel
example : toReal ⟨0, 1024⟩ = Binary64.nan := by decide +kernel

/-- **Normalizing a scale changes nothing.** A scale that goes to a real number and back gets a
multiplier of exactly 31 bits and keeps its value, and so all its products, ties and saturated ones
included. A scale that has such a multiplier already comes back as it is. -/
theorem ofReal_toReal_exact (h : scale.HasNormalReal) :
    (2 ^ 30 ≤ (ofReal scale.toReal).multiplier.toInt ∧
        (ofReal scale.toReal).multiplier.toInt < 2 ^ 31) ∧
      ((ofReal scale.toReal).multiplier.toInt : ℚ) * 2 ^ (ofReal scale.toReal).shift.toInt =
        scale.multiplier.toInt * 2 ^ scale.shift.toInt ∧
      (∀ acc, (ofReal scale.toReal).apply acc = scale.apply acc) ∧
      (2 ^ 30 ≤ scale.multiplier.toInt → ofReal scale.toReal = scale) := by
  obtain ⟨x, hx, hvalue, hread⟩ := h.read_toReal
  obtain ⟨hmultiplier, -, hrounded⟩ := ofReal_spec hread hx.ne_zero
  -- 31 bits are kept, and the multiplier has no more
  have hkept : (ofReal scale.toReal).value = scale.value := by
    obtain ⟨hne, hwidth⟩ := mantissa_magnitude h.positive
    rw [hrounded, hvalue, ← value_magnitude h.positive, roundSignificant_eq hne hwidth]
  refine ⟨hmultiplier, hkept, ?_, ?_⟩
  · intro acc
    exact apply_congr hkept acc
  · intro hfull
    exact eq_of_value_eq hmultiplier.1 hfull hkept

/-- The least number of the format that is normal, from a multiplier of one bit. -/
theorem ofReal_toReal_exact_least :
    HasNormalReal ⟨1, -1022⟩ ∧ ofReal (toReal ⟨1, -1022⟩) = ⟨0x40000000, -1052⟩ ∧
      (2 ^ 30 ≤ (ofReal (toReal ⟨1, -1022⟩)).multiplier.toInt ∧
        (ofReal (toReal ⟨1, -1022⟩)).multiplier.toInt < 2 ^ 31) ∧
      ∀ acc, (ofReal (toReal ⟨1, -1022⟩)).apply acc = apply ⟨1, -1022⟩ acc := by
  have hnormal : HasNormalReal ⟨1, -1022⟩ := by
    refine ⟨by decide, by decide, by decide, ?_⟩
    rw [value, show (1 : Int32).toInt = 1 by decide, show (-1022 : Int32).toInt = -1022 by decide,
      Int.cast_one, one_mul]
  obtain ⟨hmultiplier, -, happly, -⟩ := ofReal_toReal_exact hnormal
  exact ⟨hnormal, by decide +kernel, hmultiplier, happly⟩

end FixedScale

end QuantizedConv
