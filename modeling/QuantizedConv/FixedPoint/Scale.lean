import QuantizedConv.Arithmetic.Fault

/-!
# Fixed-point scales

A real factor is kept as an integer `multiplier` and a power of two: it stands for
`multiplier * 2 ^ shift`. Applying it to a 32-bit accumulator gives the exact product rounded to
the nearest integer, halves away from zero, and clamped to 32 bits. The product is formed, shifted
and rounded in 128 bits. Requantization adds the output zero point, saturating, and clamps to the
activation range.
-/

set_option autoImplicit false

namespace QuantizedConv

/-- A real factor `multiplier * 2 ^ shift`. -/
structure FixedScale where
  /-- The integer part of the factor. -/
  multiplier : Int32
  /-- The power of two of the factor. -/
  shift : Int32
deriving DecidableEq, Repr

/-- A signed word of 128 bits, in which products are formed. -/
abbrev Wide := BitVec 128

namespace Wide

/-- A 32-bit integer as a wide one. -/
def ofInt32 (x : Int32) : Wide := x.toBitVec.signExtend 128

/-- Half of `2 ^ n`, for a positive `n`. -/
def half (n : Nat) : Wide := 1#128 <<< (n - 1)

/-- The magnitude of `x / 2 ^ n` rounded to the nearest integer, halves upward, for a positive `n`. -/
def roundedMagnitude (x : Wide) (n : Nat) : Wide := (x.abs + half n).sshiftRight n

/-- `x / 2 ^ n` rounded to the nearest integer, halves away from zero. -/
def roundShiftRight (x : Wide) (n : Nat) : Wide :=
  if n = 0 then x
  else if x.slt 0 then -roundedMagnitude x n else roundedMagnitude x n

end Wide

namespace FixedScale

/-- The most bits a product is shifted to the left: behind it every product but zero is clamped. -/
def leftCap : Nat := 64

/-- The most bits a product is shifted to the right: behind it every product is zero. -/
def rightCap : Nat := 100

/-- The factor one. -/
def one : FixedScale := ⟨0x40000000, -30⟩

/-- The product of an accumulator and the integer part of the factor. -/
def product (scale : FixedScale) (acc : Int32) : Wide :=
  Wide.ofInt32 acc * Wide.ofInt32 scale.multiplier

/-- The number of bits by which a product is shifted to the left. -/
def leftBits (scale : FixedScale) : Nat := min scale.shift.toInt.toNat leftCap

/-- The number of bits by which a product is shifted to the right. -/
def rightBits (scale : FixedScale) : Nat := min scale.shift.toInt.natAbs rightCap

/-- The exact product of an accumulator and the factor, rounded to the nearest integer. -/
def scaled (scale : FixedScale) (acc : Int32) : Wide :=
  if 0 ≤ scale.shift.toInt then scale.product acc <<< scale.leftBits
  else (scale.product acc).roundShiftRight scale.rightBits

/-- The accumulator times the factor, rounded to the nearest integer and clamped to 32 bits. -/
def apply (scale : FixedScale) (acc : Int32) : Int32 :=
  Int32.ofIntClamp (scale.scaled acc).toInt

/-- The factor `multiplier * 2 ^ (leftShift - 31)`, as a fraction of 31 bits shifted left. -/
def ofFraction31 (multiplier leftShift : Int32) : Except Fault FixedScale :=
  let shift := leftShift.toInt - 31
  if Int32.minValue.toInt ≤ shift then .ok ⟨multiplier, Int32.ofInt shift⟩
  else .error .subtraction

end FixedScale

/-- The sum of two 32-bit integers, clamped to 32 bits. -/
def saturatingAdd (a b : Int32) : Int32 :=
  Int32.ofIntClamp (a.toInt + b.toInt)

/-- A range of output values. The lower bound wins where the bounds cross. -/
structure ActivationRange where
  /-- The least value. -/
  lowest : Int32
  /-- The greatest value. -/
  highest : Int32
deriving DecidableEq, Repr

/-- The value of a range nearest to `x`. -/
def ActivationRange.clamp (range : ActivationRange) (x : Int32) : Int32 :=
  max (min x range.highest) range.lowest

/-- An accumulator as an output value: scaled, moved by the output zero point and clamped. -/
def requantize (scale : FixedScale) (outputOffset : Int32) (range : ActivationRange)
    (acc : Int32) : Int32 :=
  range.clamp (saturatingAdd (scale.apply acc) outputOffset)

end QuantizedConv
