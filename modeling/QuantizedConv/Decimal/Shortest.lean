import QuantizedConv.Binary64.Basic

/-!
# Shortest decimals

The decimal with the fewest digits that reads back as a given binary64 magnitude. Of two such
decimals the nearer one is taken, and of two equally near ones the even one. A binary64 magnitude is
read back from every number between the midpoints to its neighbours, and from the midpoints
themselves where its mantissa is even.
-/

set_option autoImplicit false

namespace QuantizedConv

/-- The number `coefficient * 10 ^ exponent`. -/
structure Decimal where
  /-- The integer factor. -/
  coefficient : Nat
  /-- The power of ten. -/
  exponent : Int
deriving DecidableEq, Repr

namespace Decimal

/-- The `n`-th power of ten. -/
def power : Nat → Nat := Nat.pow 10

/-- The number of decimal digits. -/
def digitCount (n : Nat) : Nat := (Nat.toDigits 10 n).length

/-- The largest integer `k` with `10 ^ k ≤ a / b`, for positive `a` and `b`. -/
def floorLog10 (a b : Nat) : Int :=
  let k : Int := (digitCount a : Int) - digitCount b
  let reached := if 0 ≤ k then b * power k.toNat ≤ a else b ≤ a * power k.natAbs
  if reached then k else k - 1

/-- The numbers that read back as a magnitude, in units of a quarter of its last place: the two
midpoints around `4 * mantissa`, and whether they belong. -/
structure Rounding where
  /-- The lower midpoint. -/
  low : Nat
  /-- The magnitude. -/
  value : Nat
  /-- The upper midpoint. -/
  high : Nat
  /-- Whether the midpoints themselves read back. -/
  closed : Bool
  /-- The exponent of the unit. -/
  exponent : Int

/-- The numbers that read back as a binary64 magnitude. Below a power of two the neighbours are
twice as near. -/
def rounding (x : Magnitude) : Rounding where
  low := if x.mantissa = Binary64.leadingOne ∧ Binary64.leastExponent < x.exponent
    then 4 * x.mantissa - 1 else 4 * x.mantissa - 2
  value := 4 * x.mantissa
  high := 4 * x.mantissa + 2
  closed := x.mantissa % 2 = 0
  exponent := x.exponent - 2

/-- `n` units as a quotient, in steps of `10 ^ place`. -/
def Rounding.steps (r : Rounding) (place : Int) (n : Nat) : Nat × Nat :=
  let (a, b) := Magnitude.ratio ⟨n, r.exponent⟩
  if 0 ≤ place then (a, b * power place.toNat) else (a * power place.natAbs, b)

/-- Whether the decimal `d * 10 ^ place` reads back. -/
def Rounding.admits (r : Rounding) (place : Int) (d : Nat) : Bool :=
  let (low, unit) := r.steps place r.low
  let (high, _) := r.steps place r.high
  if r.closed then low ≤ d * unit && d * unit ≤ high
  else low < d * unit && d * unit < high

/-- The decimal on the grid of `10 ^ place` that reads back and is nearest to the magnitude. -/
def Rounding.onGrid? (r : Rounding) (place : Int) : Option Decimal :=
  let (value, unit) := r.steps place r.value
  let below := value / unit
  let above := below + 1
  let toBelow := value - below * unit
  let toAbove := above * unit - value
  let preferBelow := toBelow < toAbove || (toBelow == toAbove && below % 2 == 0)
  match r.admits place below, r.admits place above with
  | true, true => some ⟨if preferBelow then below else above, place⟩
  | true, false => some ⟨below, place⟩
  | false, true => some ⟨above, place⟩
  | false, false => none

/-- The shortest decimal that reads back as a positive binary64 magnitude: the first hit on the
grids of one digit, two digits and so on. Seventeen digits always suffice. -/
def shortest (x : Magnitude) : Decimal :=
  let r := rounding x
  let (a, b) := r.steps 0 r.value
  let lead := floorLog10 a b
  match (List.range 17).findSome? fun (n : Nat) => r.onGrid? (lead - n) with
  | some d => d
  | none => ⟨0, 0⟩

end Decimal

end QuantizedConv
