import QuantizedConv.Binary64.Arithmetic
import QuantizedConv.Proofs.Binary64Values
import QuantizedConv.Proofs.ExactScaling
import Mathlib.Data.Nat.Bitwise

/-!
# Exact operations on binary64 numbers

An operation whose exact result has full width does not round (`read_mul`, `read_ofInt`,
`read_powerOfTwo`). Taking a number apart is exact as well: its fields are cut out of the bits by masks
(`toNat_and_exponentMask`, `toNat_halved`), a small number is first brought to full width
(`normalize_spec`), and the two parts multiply to the number (`decompose_spec`).
-/

set_option autoImplicit false

namespace QuantizedConv

namespace Magnitude

/-- The product of mantissas and the sum of exponents make the product of the values. -/
theorem value_mul (a b : Magnitude) :
    value ⟨a.mantissa * b.mantissa, a.exponent + b.exponent⟩ = a.value * b.value := by
  simp only [value, Nat.cast_mul, zpow_add₀ (two_ne_zero (α := ℚ))]
  ring

/-- An integer is its own integer part. -/
theorem floor_eq {x : Magnitude} {n : ℕ} (h : x.value = n) : x.floor = n := by
  unfold floor
  split
  · rename_i hleft
    obtain ⟨k, hk⟩ := Int.eq_ofNat_of_zero_le hleft
    rw [value, hk, zpow_natCast] at h
    rw [hk, Int.toNat_natCast, Nat.shiftLeft_eq]
    exact_mod_cast h
  · rename_i hright
    obtain ⟨k, hk⟩ := Int.eq_negSucc_of_lt_zero (not_le.mp hright)
    rw [value, hk, zpow_negSucc, ← div_eq_mul_inv, div_eq_iff (by positivity)] at h
    have hmantissa : x.mantissa = n * 2 ^ (k + 1) := by exact_mod_cast h
    rw [hk, Int.natAbs_negSucc, Nat.shiftRight_eq_div_pow, hmantissa,
      Nat.mul_div_cancel n (by positivity)]

/-- Rounding a magnitude below the point rounds the quotient that it stands for. -/
theorem round_eq (m : ℕ) {k : ℕ} (hk : 0 < k) :
    Magnitude.round ⟨m, -(k : ℤ)⟩ = (m + 2 ^ (k - 1)) / 2 ^ k := by
  unfold Magnitude.round
  rw [if_neg (by simp only; omega), Int.natAbs_neg, Int.natAbs_natCast, Nat.shiftLeft_eq,
    Nat.one_mul, Nat.shiftRight_eq_div_pow]

end Magnitude

namespace Binary64

/-- A finite number that is not at most zero encodes a positive number. -/
theorem exists_value_pos {x : Binary64} (hfinite : x.isFinite = true) (habove : x.atMostZero = false) :
    ∃ s, x.value? = some s ∧ 0 < s := by
  rw [← value?_read]
  cases hread : x.read with
  | nan => simp [isFinite, hread] at hfinite
  | infinite negative => simp [isFinite, hread] at hfinite
  | finite negative magnitude =>
    simp only [atMostZero, hread, Bool.or_eq_false_iff, decide_eq_false_iff_not] at habove
    obtain ⟨rfl, hmantissa⟩ := habove
    exact ⟨magnitude.value, by simp [Reading.value?], Magnitude.value_pos hmantissa⟩

/-- A positive integer of at most 53 bits is written and read back as it is. -/
theorem exists_read_natCast (negative : Bool) {n : ℕ} (hpos : 0 < n) (hwidth : n < 2 ^ 53) :
    ∃ z : Magnitude, z.Normal ∧ z.value = n ∧
      (ofMagnitude negative (nearestMagnitude ⟨n, 0⟩)).read = .finite negative z := by
  have hlog : n.log2 < 53 := (Nat.log2_lt hpos.ne').mpr hwidth
  have hvalue : Magnitude.value ⟨n, 0⟩ = n := by simp [Magnitude.value]
  have hplace : Int.log 2 (Magnitude.value ⟨n, 0⟩) = n.log2 + 0 := Magnitude.log_value hpos.ne'
  obtain ⟨z, hz, hsame⟩ := Magnitude.exists_normal (y := ⟨n, 0⟩) hpos.ne' hwidth (by omega)
    (by omega)
  refine ⟨z, hz, hsame.trans hvalue, ?_⟩
  rw [nearestMagnitude_eq hz hsame.symm]
  exact read_ofMagnitude negative hz

/-- A product of full width is not rounded. -/
theorem read_mul {x y : Binary64} {s t : Bool} {a b z : Magnitude} (hx : x.read = .finite s a)
    (hy : y.read = .finite t b) (hz : z.Normal) (hvalue : z.value = a.value * b.value) :
    (x.mul y).read = .finite (s != t) z := by
  have hnearest := nearestMagnitude_eq hz ((Magnitude.value_mul a b).trans hvalue.symm)
  rw [mul, hx, hy]
  simp only [hnearest]
  exact read_ofMagnitude _ hz

/-- A positive integer of at most 53 bits is a number of the format. -/
theorem read_ofInt {n : ℤ} (hpos : 0 < n) (hwidth : n < 2 ^ 53) :
    ∃ z : Magnitude, z.Normal ∧ z.value = n ∧ (ofInt n).read = .finite false z := by
  obtain ⟨k, rfl⟩ := Int.eq_ofNat_of_zero_le hpos.le
  have hsign : decide ((k : ℤ) < 0) = false := by simp
  unfold ofInt
  rw [hsign, Int.natAbs_natCast, Int.cast_natCast]
  exact exists_read_natCast false (by omega) (by omega)

/-- The reciprocal is not rounded where it has full width. -/
theorem read_reciprocal {x : Binary64} {s : Bool} {a z : Magnitude} (hx : x.read = .finite s a)
    (hz : z.Normal) (hvalue : z.value * a.value = 1) : x.reciprocal.read = .finite s z := by
  have ha : a.value ≠ 0 := right_ne_zero_of_mul_eq_one hvalue
  have hmantissa : a.mantissa ≠ 0 := by
    intro hzero
    simp [Magnitude.value, hzero] at ha
  have hfst := a.ratio_fst_eq
  have hpos : 0 < a.ratio.1 := by
    have hsnd : (0 : ℚ) < a.ratio.2 := Nat.cast_pos.mpr a.ratio_snd_pos
    have := mul_pos (Magnitude.value_pos hmantissa) hsnd
    rw [← hfst] at this
    exact_mod_cast this
  have hnearest : nearest a.ratio.2 a.ratio.1 = some z := by
    refine nearest_eq hz hpos ?_
    rw [hfst, ← mul_assoc, hvalue, one_mul]
  rw [reciprocal, hx]
  simp only [if_neg hmantissa, hnearest]
  exact read_ofMagnitude s hz

/-- The powers of two in the normal range are numbers of the format. -/
theorem read_powerOfTwo {n : ℤ} (hlow : -1022 ≤ n) (hhigh : n ≤ 1023) :
    ∃ z : Magnitude, z.Normal ∧ z.value = 2 ^ n ∧ (powerOfTwo n).read = .finite false z := by
  have hnormal {k : ℤ} (hlow : -1022 ≤ k) (hhigh : k ≤ 1023) :
      Magnitude.Normal ⟨2 ^ 52, k - 52⟩ ∧ Magnitude.value ⟨2 ^ 52, k - 52⟩ = 2 ^ k := by
    refine ⟨⟨by norm_num, by norm_num, by simp only; omega, by simp only; omega⟩, ?_⟩
    rw [Magnitude.value, zpow_sub₀ (by norm_num)]
    push_cast
    field_simp
  obtain ⟨hfull, hvalue⟩ := hnormal hlow hhigh
  obtain ⟨habs, hpower⟩ := hnormal (k := n.natAbs) (by omega) (by omega)
  have hread : (ofMagnitude false (nearestMagnitude ⟨1, n.natAbs⟩)).read =
      .finite false ⟨2 ^ 52, n.natAbs - 52⟩ := by
    rw [nearestMagnitude_eq habs (by rw [hpower]; simp [Magnitude.value])]
    exact read_ofMagnitude false habs
  refine ⟨_, hfull, hvalue, ?_⟩
  unfold powerOfTwo
  split
  · rename_i hneg
    refine read_reciprocal hread hfull ?_
    rw [hvalue, hpower, ← zpow_add₀ (by norm_num), show n + n.natAbs = 0 by omega, zpow_zero]
  · rename_i hnonneg
    rw [hread, show (n.natAbs : ℤ) = n by omega]

/-- A natural number is its own integer part, in 64 bits. -/
theorem toInt_toInt64 {x : Binary64} {z : Magnitude} {n : ℕ} (h : x.read = .finite false z)
    (hvalue : z.value = n) (hn : n < 2 ^ 63) : x.toInt64.toInt = n := by
  have hmin : Int64.minValue.toInt = -2 ^ 63 := rfl
  have hmax : Int64.maxValue.toInt = 2 ^ 63 - 1 := rfl
  rw [toInt64, h]
  simp only [Magnitude.floor_eq hvalue, Bool.false_eq_true, if_false]
  exact Int64.toInt_ofIntClamp (by omega) (by omega)

/-- Rounding to an integer of at most 53 bits is exact on the way back to the integers. -/
theorem toInt_round {x : Binary64} {a : Magnitude} (h : x.read = .finite false a)
    (hpos : 0 < a.round) (hwidth : a.round < 2 ^ 53) : x.round.toInt64.toInt = a.round := by
  obtain ⟨z, -, hvalue, hread⟩ := exists_read_natCast false hpos hwidth
  refine toInt_toInt64 ?_ hvalue (by omega)
  rw [round, h]
  exact hread

/-- The exponent bits of a pattern, where they stand. -/
theorem toNat_and_exponentMask (w : UInt64) :
    (w &&& exponentMask).toNat = w.toNat / 2 ^ 52 % 2 ^ 11 * 2 ^ 52 := by
  have hmask : exponentMask.toNat = (2 ^ 11 - 1) * 2 ^ 52 := by decide
  have hhigh : (w.toNat &&& exponentMask.toNat) / 2 ^ 52 = w.toNat / 2 ^ 52 % 2 ^ 11 := by
    rw [Nat.and_div_two_pow, hmask, Nat.mul_div_cancel _ (by norm_num),
      Nat.and_two_pow_sub_one_eq_mod]
  have hlow : (w.toNat &&& exponentMask.toNat) % 2 ^ 52 = 0 := by
    rw [Nat.and_mod_two_pow, hmask, Nat.mul_mod_left, Nat.and_zero]
  rw [UInt64.toNat_and, ← hhigh]
  omega

/-- The exponent bits of a pattern, as a number of their own. -/
theorem toInt_exponentBits (w : UInt64) :
    ((w &&& exponentMask) >>> 52).toUInt32.toInt32.toInt = (w.toNat / 2 ^ 52 % 2 ^ 11 : ℕ) := by
  have hbits : ((w &&& exponentMask) >>> 52).toUInt32.toNat = w.toNat / 2 ^ 52 % 2 ^ 11 := by
    rw [UInt64.toNat_toUInt32, UInt64.toNat_shiftRight, toNat_and_exponentMask,
      show (52 : UInt64).toNat % 64 = 52 by decide, Nat.shiftRight_eq_div_pow]
    omega
  rw [← hbits]
  exact BitVec.toInt_eq_toNat_of_lt (by
    rw [UInt32.toBitVec_toInt32, UInt32.toNat_toBitVec, hbits]
    omega)

/-- The fraction of a positive pattern, behind the exponent bits of the numbers between one half and
one. -/
theorem toNat_halved {w : UInt64} (hw : w.toNat < 2 ^ 63) :
    (w &&& ~~~exponentMask ||| halfExponent).toNat = 1022 * 2 ^ 52 + w.toNat % 2 ^ 52 := by
  have hmask : (~~~exponentMask).toNat = 2 ^ 63 + (2 ^ 52 - 1) := by decide
  have hfraction : w.toNat &&& (~~~exponentMask).toNat = w.toNat % 2 ^ 52 := by
    have hhigh : (w.toNat &&& (~~~exponentMask).toNat) / 2 ^ 52 = 0 := by
      rw [Nat.and_div_two_pow, hmask, show (2 ^ 63 + (2 ^ 52 - 1)) / 2 ^ 52 = 2 ^ 11 * 1 by norm_num,
        Nat.mul_one, Nat.and_two_pow, Nat.testBit_lt_two_pow (by omega), Bool.toNat_false,
        Nat.zero_mul]
    have hlow : (w.toNat &&& (~~~exponentMask).toNat) % 2 ^ 52 = w.toNat % 2 ^ 52 := by
      rw [Nat.and_mod_two_pow, hmask, show (2 ^ 63 + (2 ^ 52 - 1)) % 2 ^ 52 = 2 ^ 52 - 1 by norm_num,
        Nat.and_two_pow_sub_one_eq_mod, Nat.mod_mod]
    omega
  have hhalf : halfExponent.toNat = 2 ^ 52 * 1022 := by decide
  rw [UInt64.toNat_or, UInt64.toNat_and, hfraction, hhalf, Nat.or_comm,
    ← Nat.two_pow_add_eq_or_of_lt (Nat.mod_lt _ (by norm_num))]
  omega

/-- The fields of a positive number: a fraction behind a leading one, or the fraction alone. -/
theorem fields_of_read {x : Binary64} {a : Magnitude} (h : x.read = .finite false a) :
    x.bits.toNat < 2 ^ 63 ∧ x.bits.toNat / 2 ^ 52 < 2047 ∧
      (x.bits.toNat / 2 ^ 52 = 0 → a = ⟨x.bits.toNat % 2 ^ 52, -1074⟩) ∧
      (x.bits.toNat / 2 ^ 52 ≠ 0 →
        a = ⟨2 ^ 52 + x.bits.toNat % 2 ^ 52, (x.bits.toNat / 2 ^ 52 : ℕ) - 1075⟩) := by
  have hone : leadingOne = 2 ^ 52 := rfl
  have hsign : signBit = 2 ^ 63 := rfl
  unfold read at h
  simp only [hone, hsign, leastExponent] at h
  split at h
  · split at h <;> cases h
  · rename_i hspecial
    split at h
    · rename_i hzero
      simp only [Reading.finite.injEq, decide_eq_false_iff_not, not_le] at h
      refine ⟨h.1, by omega, fun _ => h.2.symm, fun hfield => ?_⟩
      omega
    · rename_i hfield
      simp only [Reading.finite.injEq, decide_eq_false_iff_not, not_le] at h
      have hmod : x.bits.toNat / 2 ^ 52 % 2048 = x.bits.toNat / 2 ^ 52 := by omega
      rw [hmod] at h hspecial hfield
      exact ⟨h.1, by omega, fun hzero => absurd hzero hfield, fun _ => h.2.symm⟩

/-- A positive number of full width has exponent bits. -/
theorem field_ne_zero {x : Binary64} {a : Magnitude} (h : x.read = .finite false a)
    (ha : a.Normal) : x.bits.toNat / 2 ^ 52 ≠ 0 := by
  obtain ⟨-, -, hsmall, -⟩ := fields_of_read h
  intro hzero
  have hwidth := ha.mantissa_ge
  rw [hsmall hzero] at hwidth
  exact absurd (Nat.mod_lt x.bits.toNat (by norm_num)) (not_lt.mpr hwidth)

/-- A positive number is brought to full width without changing its fraction: what is taken from the
exponent is put back by the adjustment. -/
theorem normalize_spec {x : Binary64} {a : Magnitude} (h : x.read = .finite false a)
    (ha : a.mantissa ≠ 0) :
    ∃ y : Magnitude, y.Normal ∧ x.normalize.1.read = .finite false y ∧
      a.value = y.value * 2 ^ x.normalize.2.toInt ∧
      (x.normalize.2.toInt = -54 ∨ x.normalize.2.toInt = 0) := by
  obtain ⟨hpos, hfinite, hsmall, hfull⟩ := fields_of_read h
  have hmask : x.bits &&& exponentMask = 0 ↔ x.bits.toNat / 2 ^ 52 = 0 := by
    rw [← UInt64.toNat_inj, toNat_and_exponentMask, UInt64.toNat_zero]
    omega
  unfold normalize
  by_cases hfield : x.bits.toNat / 2 ^ 52 = 0
  · -- the fraction times `2 ^ 54` has a leading one again
    rw [if_pos (hmask.mpr hfield)]
    have hexponent : a.exponent = -1074 := by rw [hsmall hfield]
    have hlog : a.mantissa.log2 < 53 := (Nat.log2_lt ha).mpr (read_finite h).2.2
    have hplace : Int.log 2 (Magnitude.value ⟨a.mantissa, a.exponent + 54⟩) =
        a.mantissa.log2 + (a.exponent + 54) := Magnitude.log_value ha
    obtain ⟨y, hy, hvalue⟩ := Magnitude.exists_normal (y := ⟨a.mantissa, a.exponent + 54⟩) ha
      (read_finite h).2.2 (by omega) (by omega)
    obtain ⟨p, -, hp, hpower⟩ := read_powerOfTwo (n := 54) (by norm_num) (by norm_num)
    have hscaled : y.value = a.value * 2 ^ (54 : ℤ) := by
      rw [hvalue, Magnitude.value, zpow_add₀ (by norm_num), ← mul_assoc]
      rfl
    refine ⟨y, hy, read_mul h hpower hy (by rw [hscaled, hp]), ?_, Or.inl rfl⟩
    rw [hscaled, show (-54 : Int32).toInt = -54 by decide, mul_assoc, ← zpow_add₀ (by norm_num)]
    norm_num
  · rw [if_neg (mt hmask.mp hfield)]
    refine ⟨a, ?_, h, ?_, Or.inr rfl⟩
    · obtain ⟨hlow, hhigh, hwidth⟩ := read_finite h
      refine ⟨?_, hwidth, hlow, hhigh⟩
      rw [hfull hfield]
      exact Nat.le_add_right _ _
    · rw [show (0 : Int32).toInt = 0 by decide, zpow_zero, mul_one]

/-- With the exponent bits of one half, a number of full width keeps its mantissa. -/
theorem read_halved {x : Binary64} {a : Magnitude} (h : x.read = .finite false a) (ha : a.Normal) :
    (Binary64.mk (x.bits &&& ~~~exponentMask ||| halfExponent)).read =
      .finite false ⟨a.mantissa, -53⟩ := by
  obtain ⟨hpos, -, -, hfull⟩ := fields_of_read h
  have hbits : (x.bits &&& ~~~exponentMask ||| halfExponent).toNat =
      (if false then signBit else 0) + 1022 * leadingOne + x.bits.toNat % 2 ^ 52 :=
    (toNat_halved hpos).trans (by simp [leadingOne, fractionBits])
  rw [read_of_fields hbits (by norm_num) (by norm_num) (Nat.mod_lt _ (by decide)),
    hfull (field_ne_zero h ha)]
  rfl

/-- The exponent bits of a number of full width give its exponent. -/
theorem toInt_biased {x : Binary64} {a : Magnitude} (h : x.read = .finite false a) (ha : a.Normal) :
    ((x.bits &&& exponentMask) >>> 52).toUInt32.toInt32.toInt = a.exponent + 1075 := by
  obtain ⟨-, hfinite, -, hfull⟩ := fields_of_read h
  rw [toInt_exponentBits, Nat.mod_eq_of_lt (by omega), hfull (field_ne_zero h ha)]
  simp

/-- The two parts of a positive number: a fraction of full width between one half and one, and a power
of two. -/
theorem decompose_spec {x : Binary64} {a : Magnitude} (h : x.read = .finite false a)
    (ha : a.mantissa ≠ 0) :
    ∃ m : ℕ, 2 ^ 52 ≤ m ∧ m < 2 ^ 53 ∧ x.decompose.1.read = .finite false ⟨m, -53⟩ ∧
      a.value = m * 2 ^ (x.decompose.2.toInt - 53) ∧ |x.decompose.2.toInt| ≤ 2 ^ 11 := by
  obtain ⟨y, hy, hread, hvalue, hadjustment⟩ := normalize_spec h ha
  have hlow := hy.exponent_ge
  have hhigh := hy.exponent_le
  have hexponent : x.decompose.2.toInt = y.exponent + 53 + x.normalize.2.toInt := by
    have hbiased := toInt_biased hread hy
    have hbias : (1022 : Int32).toInt = 1022 := by decide
    have hunbiased : (((x.normalize.1.bits &&& exponentMask) >>> 52).toUInt32.toInt32 - 1022).toInt =
        y.exponent + 53 := by
      rw [toInt_sub_of_le (by omega) (by omega), hbiased, hbias]
      ring
    unfold decompose
    rw [toInt_add_of_le (by omega) (by omega), hunbiased]
  refine ⟨y.mantissa, hy.mantissa_ge, hy.mantissa_lt, read_halved hread hy, ?_, ?_⟩
  · rw [hvalue, Magnitude.value, mul_assoc, ← zpow_add₀ (by norm_num), hexponent]
    congr 2
    ring
  · rw [hexponent, abs_le]
    omega

end Binary64

end QuantizedConv
