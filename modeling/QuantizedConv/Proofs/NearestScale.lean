import QuantizedConv.FixedPoint.Real
import QuantizedConv.Proofs.Binary64Operations
import QuantizedConv.Proofs.ExactScaling

/-!
# Real numbers as scales

A positive number is taken apart into a fraction of full width and a power of two, for small numbers
too (`Binary64.decompose_spec`). Counted in units of the last of its 31 leading bits (`lastPlace`), it
lies between `2 ^ 30` and `2 ^ 31`, and the mantissa of its scale is that count, rounded
(`toInt_mantissa`). Rounding may reach the upper end. Then the multiplier is halved and the shift goes up
by one, which leaves the value as it is (`ofRounded_spec`). So every scale is normalized and stands for
the number rounded to 31 significant bits (`ofReal_spec`).
-/

set_option autoImplicit false

namespace QuantizedConv

section Significant

/-- The power of two that the last of the 31 leading bits of a positive number counts. -/
def lastPlace (s : ℚ) : ℤ := Int.log 2 s - 30

/-- A positive number rounded to 31 significant bits, halves upward. -/
def roundSignificant (s : ℚ) : ℚ := round (s / 2 ^ lastPlace s) * 2 ^ lastPlace s

/-- A positive number has 31 leading bits down to its last place. -/
theorem lastPlace_bounds {s : ℚ} (hs : 0 < s) :
    2 ^ 30 * 2 ^ lastPlace s ≤ s ∧ s < 2 ^ 31 * 2 ^ lastPlace s := by
  have hlow := Int.zpow_log_le_self one_lt_two hs
  have hhigh := Int.lt_zpow_succ_log_self one_lt_two s
  have hshift (k : ℕ) : (2 : ℚ) ^ k * 2 ^ lastPlace s = 2 ^ (Int.log 2 s - 30 + k) := by
    rw [zpow_add₀ (by norm_num), zpow_natCast, mul_comm, lastPlace]
  rw [hshift, hshift]
  norm_num at hlow hhigh ⊢
  exact ⟨hlow, by rwa [show Int.log 2 s - 30 + 31 = Int.log 2 s + 1 by ring]⟩

/-- Rounded at its last place, a number has 31 bits or is the power of two behind them. -/
theorem round_lastPlace_bounds {s : ℚ} (hs : 0 < s) :
    2 ^ 30 ≤ round (s / 2 ^ lastPlace s) ∧ round (s / 2 ^ lastPlace s) ≤ 2 ^ 31 := by
  have hunit : (0 : ℚ) < 2 ^ lastPlace s := zpow_pos (by norm_num) _
  obtain ⟨hlow, hhigh⟩ := lastPlace_bounds hs
  rw [← le_div_iff₀ hunit] at hlow
  rw [← div_lt_iff₀ hunit] at hhigh
  have habove := sub_half_lt_round (s / 2 ^ lastPlace s)
  have hbelow := round_le_add_half (s / 2 ^ lastPlace s)
  constructor
  · have hlt : ((2 ^ 30 - 1 : ℤ) : ℚ) < round (s / 2 ^ lastPlace s) := by
      push_cast
      linarith
    have := Int.cast_lt.mp hlt
    omega
  · have hlt : (round (s / 2 ^ lastPlace s) : ℚ) < ((2 ^ 31 + 1 : ℤ) : ℚ) := by
      push_cast
      linarith
    have := Int.cast_lt.mp hlt
    omega

/-- Rounding moves a number by at most half of the last place. -/
theorem abs_roundSignificant_sub_le (s : ℚ) :
    |roundSignificant s - s| ≤ 2 ^ lastPlace s / 2 := by
  have hunit : (0 : ℚ) < 2 ^ lastPlace s := zpow_pos (by norm_num) _
  have herror := abs_sub_round (s / 2 ^ lastPlace s)
  have hscaled : roundSignificant s - s =
      -((s / 2 ^ lastPlace s - round (s / 2 ^ lastPlace s)) * 2 ^ lastPlace s) := by
    unfold roundSignificant
    field_simp
    ring
  rw [hscaled, abs_neg, abs_mul, abs_of_pos hunit]
  calc _ ≤ 1 / 2 * 2 ^ lastPlace s := mul_le_mul_of_nonneg_right herror hunit.le
    _ = 2 ^ lastPlace s / 2 := by ring

end Significant

namespace FixedScale

/-- The mantissa of a scale: a fraction of full width times `2 ^ 31`, rounded to an integer. -/
theorem toInt_mantissa {q : Binary64} {m : ℕ} (hq : q.read = .finite false ⟨m, -53⟩)
    (hlow : 2 ^ 52 ≤ m) (hhigh : m < 2 ^ 53) :
    (q.mul (Binary64.ofInt ((1 : Int64) <<< 31).toInt)).round.toInt64.toInt =
      round ((m : ℚ) / 2 ^ 22) := by
  obtain ⟨z, -, hz, hpower⟩ := Binary64.read_ofInt (n := ((1 : Int64) <<< 31).toInt) (by decide)
    (by decide)
  have hnormal : Magnitude.Normal ⟨m, -22⟩ := ⟨hlow, hhigh, by norm_num, by norm_num⟩
  have hvalue : Magnitude.value ⟨m, -22⟩ = Magnitude.value ⟨m, -53⟩ * z.value := by
    rw [hz, show ((1 : Int64) <<< 31).toInt = 2 ^ 31 by decide, Magnitude.value, Magnitude.value]
    push_cast
    rw [mul_assoc]
    norm_num
  have hround : Magnitude.round ⟨m, -22⟩ = (m + 2 ^ (22 - 1)) / 2 ^ 22 :=
    Magnitude.round_eq m (k := 22) (by norm_num)
  rw [round_natCast_div_two_pow m (by norm_num), ← hround]
  exact Binary64.toInt_round (Binary64.read_mul hq hpower hnormal hvalue) (by omega) (by omega)

/-- The scale of a mantissa of 31 bits, or with a carry out of them, stands for that mantissa. -/
theorem ofRounded_spec {mantissa : Int64} {exponent : Int32} (hlow : 2 ^ 30 ≤ mantissa.toInt)
    (hhigh : mantissa.toInt ≤ 2 ^ 31) (hexponent : |exponent.toInt| ≤ 2 ^ 11) :
    (2 ^ 30 ≤ (ofRounded mantissa exponent).multiplier.toInt ∧
        (ofRounded mantissa exponent).multiplier.toInt < 2 ^ 31) ∧
      exponent.toInt - 31 ≤ (ofRounded mantissa exponent).shift.toInt ∧
      (ofRounded mantissa exponent).value = mantissa.toInt * 2 ^ (exponent.toInt - 31) := by
  rw [abs_le] at hexponent
  unfold ofRounded value
  have hlast : (31 : Int32).toInt = 31 := by decide
  split
  · -- the carry: a mantissa of 32 bits is halved
    rename_i hcarry
    have hone : (1 : Int32).toInt = 1 := by decide
    have hnext : (exponent + 1).toInt = exponent.toInt + 1 := by
      rw [toInt_add_of_le (by omega) (by omega), hone]
    have hshift : (exponent + 1 - 31).toInt = exponent.toInt - 31 + 1 := by
      rw [toInt_sub_of_le (by omega) (by omega), hnext, hlast]
      ring
    rw [hcarry, hshift, show (((1 : Int64) <<< 31) / 2).toInt32.toInt = 2 ^ 30 by decide,
      show ((1 : Int64) <<< 31).toInt = 2 ^ 31 by decide]
    refine ⟨⟨by norm_num, by norm_num⟩, by omega, ?_⟩
    rw [zpow_add₀ (by norm_num), zpow_one]
    push_cast
    ring
  · rename_i hno
    have hlt : mantissa.toInt < 2 ^ 31 := by
      refine lt_of_le_of_ne hhigh fun heq => hno (Int64.toInt.inj ?_)
      rw [heq]
      decide
    have hmultiplier : mantissa.toInt32.toInt = mantissa.toInt := by
      rw [Int64.toInt_toInt32, Int.bmod_eq_of_le (by omega) (by omega)]
    have hshift : (exponent - 31).toInt = exponent.toInt - 31 := by
      rw [toInt_sub_of_le (by omega) (by omega), hlast]
    rw [hmultiplier, hshift]
    exact ⟨⟨hlow, hlt⟩, le_refl _, rfl⟩

/-- The scale of a positive number has a multiplier of 31 bits, and stands for the number rounded to
31 significant bits. -/
theorem ofReal_spec {x : Binary64} {a : Magnitude} (hread : x.read = .finite false a)
    (ha : a.mantissa ≠ 0) :
    (2 ^ 30 ≤ (ofReal x).multiplier.toInt ∧ (ofReal x).multiplier.toInt < 2 ^ 31) ∧
      lastPlace a.value ≤ (ofReal x).shift.toInt ∧ (ofReal x).value = roundSignificant a.value := by
  obtain ⟨m, hlow, hhigh, hq, hvalue, hexponent⟩ := Binary64.decompose_spec hread ha
  have hscale : ofReal x = ofRounded
      (x.decompose.1.mul (Binary64.ofInt ((1 : Int64) <<< 31).toInt)).round.toInt64
      x.decompose.2 := by
    unfold ofReal
    rw [if_neg (by simp [Binary64.isFinite, Binary64.atMostZero, hread, ha])]
  -- the last of the 31 leading bits counts `2 ^ (exponent - 31)`
  have hplace : lastPlace a.value = x.decompose.2.toInt - 31 := by
    have hwidth : m.log2 = 52 := (Nat.log2_eq_iff (by omega)).mpr ⟨hlow, hhigh⟩
    have hlog := Magnitude.log_value (x := ⟨m, x.decompose.2.toInt - 53⟩) (by simp only; omega)
    rw [Magnitude.value, ← hvalue] at hlog
    rw [lastPlace, hlog]
    simp only [hwidth]
    ring
  have hunits : a.value / 2 ^ lastPlace a.value = m / 2 ^ 22 := by
    rw [hplace, hvalue, mul_div_assoc, ← zpow_sub₀ (by norm_num),
      show x.decompose.2.toInt - 53 - (x.decompose.2.toInt - 31) = -22 by ring]
    norm_num
    ring
  have hmantissa := toInt_mantissa hq hlow hhigh
  rw [← hunits] at hmantissa
  obtain ⟨hmin, hmax⟩ := round_lastPlace_bounds (Magnitude.value_pos ha)
  rw [← hmantissa] at hmin hmax
  obtain ⟨hmultiplier, hshift, hscaled⟩ := ofRounded_spec hmin hmax hexponent
  rw [hscale, roundSignificant, ← hmantissa, hplace]
  exact ⟨hmultiplier, hshift, hscaled⟩

/-- The errors of rounding to 31 significant bits, against the shift of a scale and against the number
itself. -/
theorem abs_value_sub_le {scale : FixedScale} {s : ℚ} (hs : 0 < s)
    (hplace : lastPlace s ≤ scale.shift.toInt) (hvalue : scale.value = roundSignificant s) :
    |scale.value - s| ≤ 2 ^ (scale.shift.toInt - 1) ∧ |scale.value - s| ≤ s * 2 ^ (-31 : ℤ) := by
  have herror := abs_roundSignificant_sub_le s
  rw [← hvalue] at herror
  constructor
  · calc |scale.value - s| ≤ 2 ^ lastPlace s / 2 := herror
      _ ≤ 2 ^ scale.shift.toInt / 2 :=
        div_le_div_of_nonneg_right (zpow_le_zpow_right₀ (by norm_num) hplace) (by norm_num)
      _ = 2 ^ (scale.shift.toInt - 1) := by rw [zpow_sub_one₀ (by norm_num), div_eq_mul_inv]
  · have hlow := (lastPlace_bounds hs).1
    calc |scale.value - s| ≤ 2 ^ lastPlace s / 2 := herror
      _ = 2 ^ 30 * 2 ^ lastPlace s * 2 ^ (-31 : ℤ) := by norm_num; ring
      _ ≤ s * 2 ^ (-31 : ℤ) := mul_le_mul_of_nonneg_right hlow (by norm_num)

/-- **The scale of a real number is the nearest normalized one.** For every bit pattern: where it
encodes a positive number, the multiplier of its scale has exactly 31 bits, and the scale stands for
the number rounded to 31 significant bits, halves upward. Its error is at most half of the last place,
and at most `2 ^ -31` of the number. Every other bit pattern gives the zero scale. -/
theorem ofReal_nearest (x : Binary64) :
    (∀ s, x.value? = some s → 0 < s →
      (2 ^ 30 ≤ (ofReal x).multiplier.toInt ∧ (ofReal x).multiplier.toInt < 2 ^ 31) ∧
        |(ofReal x).value - s| ≤ 2 ^ ((ofReal x).shift.toInt - 1) ∧
        |(ofReal x).value - s| ≤ s * 2 ^ (-31 : ℤ) ∧
        (ofReal x).value = roundSignificant s) ∧
      ((¬∃ s, x.value? = some s ∧ 0 < s) → ofReal x = ⟨0, 0⟩) := by
  constructor
  · intro s hvalue hs
    obtain ⟨magnitude, hread, hmantissa, rfl⟩ := Binary64.read_of_pos hvalue hs
    obtain ⟨hmultiplier, hplace, hrounded⟩ := ofReal_spec hread hmantissa
    obtain ⟨herror, hrelative⟩ := abs_value_sub_le hs hplace hrounded
    exact ⟨hmultiplier, herror, hrelative, hrounded⟩
  · intro hnone
    unfold ofReal
    split
    · rfl
    · rename_i hpositive
      simp only [Bool.or_eq_true, Bool.not_eq_true', not_or, Bool.not_eq_false,
        Bool.not_eq_true] at hpositive
      exact absurd (Binary64.exists_value_pos hpositive.1 hpositive.2) hnone

-- a mantissa of ones is rounded up to the next power of two
example : ofReal ⟨0x3fefffffffffffff⟩ = one := by decide

end FixedScale

end QuantizedConv
