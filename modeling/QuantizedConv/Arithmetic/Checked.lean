import QuantizedConv.Arithmetic.Fault

/-!
# Checked arithmetic on sizes

Sizes and positions are natural numbers below `2 ^ 64`; coordinates that may lie before the first
element are integers in the signed 64-bit range. Every operation here gives the exact result or
the fault of the step, and so does every read of an array.
-/

set_option autoImplicit false

namespace QuantizedConv.Checked

/-- The number of sizes: a size is smaller. -/
def sizeBound : Nat := 0x10000000000000000

/-- The bound of signed coordinates: a coordinate is smaller, and not below its negative. -/
def signedBound : Nat := 0x8000000000000000

/-- The sum of two sizes. -/
def add (a b : Nat) : Except Fault Nat :=
  if a + b < sizeBound then .ok (a + b) else .error .addition

/-- The product of two sizes. -/
def mul (a b : Nat) : Except Fault Nat :=
  if a * b < sizeBound then .ok (a * b) else .error .multiplication

/-- The product of two sizes, if it is a size. -/
def mul? (a b : Nat) : Option Nat :=
  if a * b < sizeBound then some (a * b) else none

/-- The sum of two sizes, if it is a size. -/
def add? (a b : Nat) : Option Nat :=
  if a + b < sizeBound then some (a + b) else none

/-- The coordinate with the same 64 bits as a size. -/
def signed (n : Nat) : Int :=
  if n < signedBound then n else (n : Int) - sizeBound

/-- Whether an integer is a signed coordinate. -/
def isSigned (x : Int) : Bool :=
  -(signedBound : Int) ≤ x && x < signedBound

/-- The sum of two signed coordinates. -/
def signedAdd (a b : Int) : Except Fault Int :=
  if isSigned (a + b) then .ok (a + b) else .error .addition

/-- The difference of two signed coordinates. -/
def signedSub (a b : Int) : Except Fault Int :=
  if isSigned (a - b) then .ok (a - b) else .error .subtraction

/-- Room for `count` elements of `width` bytes each: offsets into it stay in the signed range. -/
def room (count width : Nat) : Except Fault Unit :=
  if count * width < signedBound then .ok () else .error .capacity

/-- The element of an array at a position. -/
def get {α : Type} (xs : Array α) (i : Nat) : Except Fault α :=
  match xs[i]? with
  | some x => .ok x
  | none => .error (.index xs.size i)

/-- The elements of an array from `start` up to but not including `stop`. -/
def slice {α : Type} (xs : Array α) (start stop : Nat) : Except Fault (Array α) :=
  if stop < start then .error (.sliceOrder start stop)
  else if xs.size < stop then .error (.sliceEnd xs.size stop)
  else .ok (xs.extract start stop)

end QuantizedConv.Checked
