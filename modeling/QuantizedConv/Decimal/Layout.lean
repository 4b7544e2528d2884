import QuantizedConv.Decimal.Shortest

/-!
# Writing decimals

A layout says for which powers of ten a decimal is written positionally, always with a fraction, and
how the exponent of any other is written.
-/

set_option autoImplicit false

namespace QuantizedConv.Decimal

/-- How decimals are written. -/
structure Layout where
  /-- The least power of ten of a leading digit that is written positionally. -/
  leastPositional : Int
  /-- The greatest power of ten of a leading digit that is written positionally. -/
  greatestPositional : Int
  /-- What stands before an exponent that is not negative. -/
  exponentPlus : String

/-- The significant digits, without zeros at the end. -/
def significant (d : Decimal) : List Char :=
  ((Nat.toDigits 10 d.coefficient).reverse.dropWhile (· = '0')).reverse

/-- The power of ten of the leading digit. -/
def lead (d : Decimal) : Int := d.exponent + digitCount d.coefficient - 1

/-- A positive decimal in a layout. -/
def render (layout : Layout) (d : Decimal) : String :=
  let digits := d.significant
  let lead := d.lead
  if layout.leastPositional ≤ lead ∧ lead ≤ layout.greatestPositional then
    if lead < 0 then
      "0." ++ String.ofList (List.replicate (lead.natAbs - 1) '0' ++ digits)
    else
      let whole := lead.toNat + 1
      let fraction := digits.drop whole
      String.ofList (digits.take whole ++ List.replicate (whole - digits.length) '0') ++ "."
        ++ (if fraction.isEmpty then "0" else String.ofList fraction)
  else
    let fraction := digits.drop 1
    String.ofList (digits.take 1)
      ++ (if fraction.isEmpty then "" else "." ++ String.ofList fraction)
      ++ "e" ++ (if lead < 0 then "-" else layout.exponentPlus) ++ toString lead.natAbs

/-- A signed binary64 number in a layout, by its shortest decimal. -/
def renderReal (layout : Layout) (negative : Bool) (x : Magnitude) : String :=
  (if negative then "-" else "") ++
    (if x.mantissa = 0 then "0.0" else (shortest x).render layout)

end QuantizedConv.Decimal
