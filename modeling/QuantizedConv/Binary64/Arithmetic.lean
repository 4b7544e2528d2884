import QuantizedConv.Binary64.Basic

/-!
# Arithmetic on binary64 numbers

Every operation reads its operands, computes in exact arithmetic and rounds the result once, to the
nearest number with ties to even. `decompose` takes a number apart by its bits: the exponent field is
cut out and replaced by that of a number between one half and one.
-/

set_option autoImplicit false

namespace QuantizedConv

/-- The integer part of a magnitude. -/
def Magnitude.floor (x : Magnitude) : Nat :=
  if 0 ≤ x.exponent then x.mantissa <<< x.exponent.toNat else x.mantissa >>> x.exponent.natAbs

/-- The integer nearest to a magnitude, halves upward. -/
def Magnitude.round (x : Magnitude) : Nat :=
  if 0 ≤ x.exponent then x.mantissa <<< x.exponent.toNat
  else (x.mantissa + 1 <<< (x.exponent.natAbs - 1)) >>> x.exponent.natAbs

namespace Binary64

/-- A pattern that stands for no number. -/
def nan : Binary64 := ⟨0x7ff8000000000000⟩

/-- The infinity of a sign. -/
def infinity (negative : Bool) : Binary64 := ofMagnitude negative none

/-- The zero of a sign. -/
def signedZero (negative : Bool) : Binary64 := ofMagnitude negative (some Magnitude.zero)

/-- Whether a pattern stands for a finite number. -/
def isFinite (x : Binary64) : Bool :=
  match x.read with
  | .finite _ _ => true
  | _ => false

/-- Whether a number is at most zero, as neither of the two zeros and no negative number is above it.
What is no number is not comparable. -/
def atMostZero (x : Binary64) : Bool :=
  match x.read with
  | .nan => false
  | .infinite negative => negative
  | .finite negative magnitude => negative || magnitude.mantissa = 0

/-- The number nearest to an integer. -/
def ofInt (n : Int) : Binary64 :=
  ofMagnitude (n < 0) (nearestMagnitude ⟨n.natAbs, 0⟩)

/-- The product of two numbers. -/
def mul (x y : Binary64) : Binary64 :=
  match x.read, y.read with
  | .finite s a, .finite t b =>
      ofMagnitude (s != t) (nearestMagnitude ⟨a.mantissa * b.mantissa, a.exponent + b.exponent⟩)
  | .finite s a, .infinite t => if a.mantissa = 0 then nan else infinity (s != t)
  | .infinite s, .finite t b => if b.mantissa = 0 then nan else infinity (s != t)
  | .infinite s, .infinite t => infinity (s != t)
  | _, _ => nan

/-- One divided by a number. -/
def reciprocal (x : Binary64) : Binary64 :=
  match x.read with
  | .nan => nan
  | .infinite negative => signedZero negative
  | .finite negative magnitude =>
      if magnitude.mantissa = 0 then infinity negative
      else ofMagnitude negative (nearest magnitude.ratio.2 magnitude.ratio.1)

/-- A power of two. A negative one is the reciprocal of the positive one, and so zero as soon as that
is infinite. -/
def powerOfTwo (n : Int) : Binary64 :=
  let power := ofMagnitude false (nearestMagnitude ⟨1, n.natAbs⟩)
  if n < 0 then power.reciprocal else power

/-- The integer nearest to a number, halves away from zero. -/
def round (x : Binary64) : Binary64 :=
  match x.read with
  | .finite negative magnitude =>
      ofMagnitude negative (nearestMagnitude ⟨magnitude.round, 0⟩)
  | _ => x

/-- The integer part of a number, held at the ends of the range; zero for what is no number. -/
def toInt64 (x : Binary64) : Int64 :=
  match x.read with
  | .nan => 0
  | .infinite negative => if negative then Int64.minValue else Int64.maxValue
  | .finite negative magnitude =>
      Int64.ofIntClamp (if negative then -magnitude.floor else magnitude.floor)

/-- The exponent bits. -/
def exponentMask : UInt64 := (0x7ff : UInt64) <<< 52

/-- The exponent bits of the numbers between one half and one. -/
def halfExponent : UInt64 := (1022 : UInt64) <<< 52

/-- A number whose exponent bits are not all zero, and the exponent that was taken from it: small
numbers are multiplied by `2 ^ 54`, which brings a leading one in front of their fraction. -/
def normalize (x : Binary64) : Binary64 × Int32 :=
  if x.bits &&& exponentMask = 0 then (x.mul (powerOfTwo 54), -54) else (x, 0)

/-- A positive number `x` as `q * 2 ^ e`, with `q` between one half and one. -/
def decompose (x : Binary64) : Binary64 × Int32 :=
  let (y, adjustment) := x.normalize
  let biased : Int32 := ((y.bits &&& exponentMask) >>> 52).toUInt32.toInt32
  (⟨y.bits &&& ~~~exponentMask ||| halfExponent⟩, biased - 1022 + adjustment)

end Binary64

end QuantizedConv
