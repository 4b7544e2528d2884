import QuantizedConv.Document.Scan

/-!
# Typed values of a document

Readers of sizes, 32-bit integers, lists, optional values and names of variants. A value of another
type is described in the problem; to describe a string or a number it is read first.
-/

set_option autoImplicit false

namespace QuantizedConv.Document

/-- What the value at the front is. Lists and objects are not looked into. -/
def describe : Reader Found := do
  let b ← peekValue
  if b = byte 'n' then
    advance
    literal ['u', 'l', 'l']
    return .null
  else if b = byte 't' then
    advance
    literal ['r', 'u', 'e']
    return .boolean true
  else if b = byte 'f' then
    advance
    literal ['a', 'l', 's', 'e']
    return .boolean false
  else if startsNumber b then return .number (← number)
  else if b = byte '"' then
    advance
    return .string (← text)
  else if b = byte '[' then return .sequence
  else if b = byte '\x7b' then return .map
  else throw .expectedValue

/-- The problem of a value that is not what is wanted. -/
def unwanted {α : Type} (wanted : String) : Reader α := do
  throw (.wrongType (← describe) wanted)

/-- An integer that `ofInt?` accepts. -/
def integer {α : Type} (wanted : String) (ofInt? : Int → Option α) : Reader α := do
  let b ← peekValue
  if startsNumber b then
    match ← number with
    | .integer value =>
      match ofInt? value with
      | some x => return x
      | none => throw (.outOfRange value wanted)
    | .real negative magnitude =>
      throw (.wrongType (.number (.real negative magnitude)) wanted)
  else unwanted wanted

/-- The size of an integer, if it is one. -/
def sizeOfInt? (value : Int) : Option UInt64 :=
  if 0 ≤ value ∧ value < Checked.sizeBound then some (UInt64.ofNat value.toNat) else none

/-- The 32-bit integer of an integer, if it is one. -/
def int32OfInt? (value : Int) : Option Int32 :=
  if Int32.minValue.toInt ≤ value ∧ value ≤ Int32.maxValue.toInt then some (Int32.ofInt value)
  else none

/-- A size. -/
def size : Reader UInt64 := integer "usize" sizeOfInt?

/-- A 32-bit integer. -/
def int32 : Reader Int32 := integer "i32" int32OfInt?

/-- The elements of a list up to its end, at most `bound` of them, behind those in `taken`, of which
the last comes first. -/
def elements {α : Type} (item : Reader α) : Nat → List α → Reader (List α)
  | 0, _ => throw .endInList
  | bound + 1, taken => do
    if ← nextElement taken.isEmpty then
      let x ← item
      elements item bound (x :: taken)
    else return taken.reverse

/-- A list. Each element takes a byte, which bounds their number. -/
def list {α : Type} (item : Reader α) : Reader (List α) := do
  if (← peekValue) = byte '[' then
    advance
    let bytes ← get
    let xs ← elements item (bytes.length + 1) []
    closeList
    return xs
  else unwanted "a sequence"

/-- A value, or null for none. -/
def optional {α : Type} (item : Reader α) : Reader (Option α) := do
  if (← peek) = some (byte 'n') then
    advance
    literal ['u', 'l', 'l']
    return none
  else return some (← item)

/-- The value of a name. -/
def variantOf {α : Type} (variants : List (String × α)) (name : String) : Reader α :=
  match variants.find? fun v => v.1 = name with
  | some v => return v.2
  | none => throw (.unknownVariant name (variants.map fun v => v.1))

/-- The null under the name of a variant. -/
def unit : Reader Unit := do
  if (← peekValue) = byte 'n' then
    advance
    literal ['u', 'l', 'l']
  else unwanted "unit"

/-- The name of a variant in an object that is open. -/
def variantKey : Reader String := do
  match ← peek with
  | none => throw .endInObject
  | some b =>
    if b = byte '"' then
      advance
      text
    else if b = byte '\x7d' then throw .expectedValue
    else throw .keyNotString

/-- A variant, by its name or by an object whose only member has its name and holds null. -/
def variant {α : Type} (variants : List (String × α)) : Reader α := do
  let b ← peekValue
  if b = byte '"' then
    advance
    variantOf variants (← text)
  else if b = byte '\x7b' then
    advance
    let value ← variantOf variants (← variantKey)
    colon
    unit
    match ← peek with
    | none => throw .endInObject
    | some close => if close = byte '\x7d' then advance else throw .expectedValue
    return value
  else throw .expectedValue

end QuantizedConv.Document
