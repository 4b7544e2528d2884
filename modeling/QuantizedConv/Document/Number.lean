import QuantizedConv.Arithmetic.Checked
import QuantizedConv.Document.Reader

/-!
# Numbers of a document

A number has a significand of at most 64 bits: further digits before the point only raise its power
of ten, and further digits behind the point are ignored. A real is its significand as a binary64
number, multiplied or divided by a power of ten with one rounding each.
-/

set_option autoImplicit false

namespace QuantizedConv.Document

/-- Whether a byte is a decimal digit. -/
def isDigit (b : UInt8) : Bool := byte '0' ≤ b && b ≤ byte '9'

/-- The value of a decimal digit. -/
def digitValue (b : UInt8) : Nat := b.toNat - (byte '0').toNat

/-- The next byte, blanks included, which is not taken. -/
def front : Reader (Option UInt8) := fun bytes => .ok (bytes.head?, bytes)

/-- Takes all digits at the front. -/
def digits : Reader (List Nat) := fun bytes =>
  .ok ((bytes.takeWhile isDigit).map digitValue, bytes.dropWhile isDigit)

/-- Appends digits to a significand while it stays a size, and adds their number to `count`. -/
def absorb (significand count : Nat) : List Nat → Nat × Nat
  | [] => (significand, count)
  | d :: rest =>
    if significand * 10 + d < Checked.sizeBound then
      absorb (significand * 10 + d) (count + 1) rest
    else (significand, count)

/-- The product of two magnitudes, rounded. -/
def timesRounded (x y : Magnitude) : Option Magnitude :=
  Binary64.nearest (x.ratio.1 * y.ratio.1) (x.ratio.2 * y.ratio.2)

/-- The quotient of two magnitudes, rounded. -/
def dividedRounded (x y : Magnitude) : Option Magnitude :=
  Binary64.nearest (x.ratio.1 * y.ratio.2) (x.ratio.2 * y.ratio.1)

/-- The greatest power of ten that is a finite binary64 number. -/
def greatestPower : Nat := 308

/-- A power of ten as a binary64 number. -/
def powerOfTen (n : Nat) : Option Magnitude := Binary64.nearest (Decimal.power n) 1

/-- A magnitude divided by `10 ^ n`. -/
def dividedByPower (x : Magnitude) (n : Nat) : Option Magnitude := do
  dividedRounded x (← powerOfTen n)

/-- A magnitude divided `times` times by the greatest power of ten, or until it is zero. -/
def dividedByGreatest (x : Magnitude) : Nat → Option Magnitude
  | 0 => some x
  | times + 1 =>
    if x.mantissa = 0 then some x
    else
      match dividedByPower x greatestPower with
      | none => none
      | some y => dividedByGreatest y times

/-- A magnitude divided by `10 ^ n`, by the greatest power first as often as `n` exceeds it. -/
def scaledDown (x : Magnitude) (n : Nat) : Option Magnitude := do
  let times := (n - 1) / greatestPower
  let y ← dividedByGreatest x times
  dividedByPower y (n - times * greatestPower)

/-- The magnitude `significand * 10 ^ exponent`, if it is finite. -/
def realOf (significand : Nat) (exponent : Int) : Option Magnitude := do
  let x ← Binary64.nearest significand 1
  if exponent < 0 then scaledDown x exponent.natAbs
  else if exponent.toNat ≤ greatestPower then timesRounded x (← powerOfTen exponent.toNat)
  else if x.mantissa = 0 then some x
  else none

/-- The real `± significand * 10 ^ exponent`. -/
def real (negative : Bool) (significand : Nat) (exponent : Int) : Reader Number :=
  match realOf significand exponent with
  | some magnitude => return .real negative magnitude
  | none => throw .numberOutOfRange

/-- The largest exponent that is read as it stands. -/
def greatestExponent : Nat := 0x7fffffff

/-- The exponent that digits write. Once it is past the greatest one, further digits change
nothing. -/
def exponentOf (digits : List Nat) : Nat :=
  digits.foldl (fun n d => if greatestExponent < n then n else n * 10 + d) 0

/-- The rest of a number from its exponent mark. -/
def exponentPart (negative : Bool) (significand : Nat) (exponent : Int) : Reader Number := do
  advance
  let sign ← front
  let down := sign = some (byte '-')
  if down ∨ sign = some (byte '+') then advance
  match ← front with
  | none => throw .endInValue
  | some b =>
    if isDigit b then
      let n := exponentOf (← digits)
      if n ≤ greatestExponent then
        real negative significand (if down then exponent - n else exponent + n)
      else if significand = 0 ∨ down then return .real negative Magnitude.zero
      else throw .numberOutOfRange
    else throw .invalidNumber

/-- The rest of a number from its point. -/
def fractionPart (negative : Bool) (significand : Nat) (exponent : Int) : Reader Number := do
  advance
  let fraction ← digits
  let next ← front
  if fraction.isEmpty then
    throw (if next.isNone then .endInValue else .invalidNumber)
  let (value, count) := absorb significand 0 fraction
  if next = some (byte 'e') ∨ next = some (byte 'E') then
    exponentPart negative value (exponent - count)
  else real negative value (exponent - count)

/-- An integer literal; a real where it is minus zero or outside 64 bits. -/
def integerLiteral (negative : Bool) (significand : Nat) : Reader Number :=
  if negative then
    if 1 ≤ significand ∧ significand ≤ Checked.signedBound then return .integer (-(significand : Int))
    else real true significand 0
  else return .integer significand

/-- The rest of a number behind its digits before the point. -/
def numberTail (negative : Bool) (significand dropped : Nat) : Reader Number := do
  match ← front with
  | some b =>
    if b = byte '.' then fractionPart negative significand dropped
    else if b = byte 'e' ∨ b = byte 'E' then exponentPart negative significand dropped
    else if dropped = 0 then integerLiteral negative significand
    else real negative significand dropped
  | none =>
    if dropped = 0 then integerLiteral negative significand
    else real negative significand dropped

/-- A number behind its sign. -/
def unsigned (negative : Bool) : Reader Number := do
  match ← front with
  | none => throw .endInValue
  | some b =>
    if b = byte '0' then
      advance
      match ← front with
      | some next => if isDigit next then throw .invalidNumber else numberTail negative 0 0
      | none => numberTail negative 0 0
    else if isDigit b then
      let whole ← digits
      let (significand, count) := absorb 0 0 whole
      numberTail negative significand (whole.length - count)
    else throw .invalidNumber

/-- Whether a number starts with a byte. -/
def startsNumber (b : UInt8) : Bool := b = byte '-' || isDigit b

/-- A number. -/
def number : Reader Number := do
  if (← front) = some (byte '-') then
    advance
    unsigned true
  else unsigned false

end QuantizedConv.Document
