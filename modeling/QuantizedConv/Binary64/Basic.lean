/-!
# Binary64 numbers

A `Binary64` is a 64-bit pattern: sign, eleven exponent bits and fifty-two fraction bits. A finite
one stands for `± mantissa * 2 ^ exponent`, and `nearest` rounds a positive quotient of naturals to
the nearest such number, ties to the even mantissa, all in exact arithmetic.
-/

set_option autoImplicit false

namespace QuantizedConv

/-- The number `mantissa * 2 ^ exponent`. -/
structure Magnitude where
  /-- The integer factor. -/
  mantissa : Nat
  /-- The power of two. -/
  exponent : Int
deriving DecidableEq, Repr

/-- `a / b` rounded to the nearest natural number, ties to even. -/
def roundHalfEven (a b : Nat) : Nat :=
  let q := a / b
  let r := a % b
  if 2 * r < b then q else if b < 2 * r then q + 1 else q + q % 2

namespace Magnitude

/-- Zero. -/
def zero : Magnitude := ⟨0, -1074⟩

/-- A magnitude as a quotient of two naturals. -/
def ratio (x : Magnitude) : Nat × Nat :=
  if 0 ≤ x.exponent then (x.mantissa <<< x.exponent.toNat, 1)
  else (x.mantissa, 1 <<< x.exponent.natAbs)

end Magnitude

/-- A number of the binary64 format, by its bits. -/
structure Binary64 where
  /-- Sign, exponent and fraction, from the highest bit down. -/
  bits : UInt64
deriving DecidableEq, Repr

namespace Binary64

/-- The width of the fraction. -/
def fractionBits : Nat := 52

/-- The first mantissa of full width: the fraction zero behind a leading one. -/
def leadingOne : Nat := 1 <<< fractionBits

/-- The sign bit. -/
def signBit : Nat := 1 <<< 63

/-- The exponent of the last place of the smallest numbers. -/
def leastExponent : Int := -1074

/-- The exponent of the last place of the largest finite numbers. -/
def greatestExponent : Int := 971

/-- What a bit pattern stands for. -/
inductive Reading where
  /-- No number. -/
  | nan
  /-- An infinity. -/
  | infinite (negative : Bool)
  /-- A finite number, with its sign. -/
  | finite (negative : Bool) (magnitude : Magnitude)
deriving DecidableEq, Repr

/-- The reading of a bit pattern. -/
def read (x : Binary64) : Reading :=
  let n := x.bits.toNat
  let negative := signBit ≤ n
  let field : Nat := n / leadingOne % 2048
  let fraction : Nat := n % leadingOne
  if field = 2047 then (if fraction = 0 then .infinite negative else .nan)
  else if field = 0 then .finite negative ⟨fraction, leastExponent⟩
  else .finite negative ⟨leadingOne + fraction, (field : Int) - 1075⟩

/-- The largest integer `k` with `2 ^ k ≤ a / b`, for positive `a` and `b`. -/
def floorLog2 (a b : Nat) : Int :=
  let k : Int := (a.log2 : Int) - b.log2
  let reached := if 0 ≤ k then b <<< k.toNat ≤ a else b ≤ a <<< k.natAbs
  if reached then k else k - 1

/-- `a / b` in units of `2 ^ e`, rounded to the nearest natural number, ties to even. -/
def unitsOf (a b : Nat) (e : Int) : Nat :=
  if 0 ≤ e then roundHalfEven a (b <<< e.toNat) else roundHalfEven (a <<< e.natAbs) b

/-- The finite binary64 magnitude nearest to `a / b`, ties to even; none where that is infinite. -/
def nearest (a b : Nat) : Option Magnitude :=
  if a = 0 then some Magnitude.zero
  else
    let e := max (floorLog2 a b - fractionBits) leastExponent
    let m := unitsOf a b e
    let rounded : Magnitude :=
      if m = 2 * leadingOne then ⟨leadingOne, e + 1⟩ else ⟨m, e⟩
    if rounded.exponent ≤ greatestExponent then some rounded else none

/-- The finite binary64 magnitude nearest to `x`, ties to even; none where that is infinite. -/
def nearestMagnitude (x : Magnitude) : Option Magnitude :=
  if x.mantissa = 0 then some Magnitude.zero
  else if x.exponent + x.mantissa.log2 < leastExponent - 1 then some Magnitude.zero
  else if 1024 ≤ x.exponent + x.mantissa.log2 then none
  else nearest x.ratio.1 x.ratio.2

/-- The bit pattern of a sign and a binary64 magnitude, or of an infinity. -/
def ofMagnitude (negative : Bool) : Option Magnitude → Binary64
  | none => ⟨UInt64.ofNat ((if negative then signBit else 0) + 2047 * leadingOne)⟩
  | some x =>
    let field := if x.mantissa < leadingOne then 0 else (x.exponent + 1075).toNat
    ⟨UInt64.ofNat ((if negative then signBit else 0) + field * leadingOne
      + x.mantissa % leadingOne)⟩

end Binary64

end QuantizedConv
