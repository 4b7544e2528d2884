import QuantizedConv.Binary64.Arithmetic
import QuantizedConv.FixedPoint.Scale

/-!
# Fixed-point scales and real numbers

A positive real scale `q * 2 ^ e`, with `q` between one half and one, becomes the fixed-point scale
whose multiplier is `q * 2 ^ 31`, rounded to nearest with halves upward. In the other direction the
multiplier and the power of two of the shift are multiplied as binary64 numbers.
-/

set_option autoImplicit false

namespace QuantizedConv.FixedScale

/-- The scale that maps every accumulator to zero. -/
def zero : FixedScale := ⟨0, 0⟩

/-- The scale of a mantissa of 31 bits behind the point. A carry out of the 31 bits moves into the
shift. -/
def ofRounded (mantissa : Int64) (exponent : Int32) : FixedScale :=
  if mantissa = (1 : Int64) <<< 31 then ⟨(mantissa / 2).toInt32, exponent + 1 - 31⟩
  else ⟨mantissa.toInt32, exponent - 31⟩

/-- The 31-bit scale nearest to a positive finite number; the zero scale for any other. -/
def ofReal (x : Binary64) : FixedScale :=
  if !x.isFinite || x.atMostZero then zero
  else
    let (q, exponent) := x.decompose
    ofRounded (q.mul (Binary64.ofInt ((1 : Int64) <<< 31).toInt)).round.toInt64 exponent

/-- The scale as a binary64 number: the product of its multiplier and its power of two, each of them
a number of the format. -/
def toReal (scale : FixedScale) : Binary64 :=
  (Binary64.ofInt scale.multiplier.toInt).mul (Binary64.powerOfTwo scale.shift.toInt)

end QuantizedConv.FixedScale
