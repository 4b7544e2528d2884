/-!
# Arithmetic faults

A kernel that has accepted its operands computes with 64-bit sizes, reads arrays by index and
takes slices of them. A step that leaves its range does not wrap: the call stops with a `Fault`
that names the step, and `Fault.message` is its wording.
-/

set_option autoImplicit false

namespace QuantizedConv

/-- A step of a computation that left its range. -/
inductive Fault where
  /-- A sum does not fit its width. -/
  | addition
  /-- A difference does not fit its width. -/
  | subtraction
  /-- A product does not fit its width. -/
  | multiplication
  /-- An array of `length` elements was read or written at `position`. -/
  | index (length position : Nat)
  /-- A slice of an array of `length` elements was to end at `stop`. -/
  | sliceEnd (length stop : Nat)
  /-- A slice was to start behind its end. -/
  | sliceOrder (start stop : Nat)
  /-- An array was to take more bytes than can be addressed. -/
  | capacity
deriving DecidableEq, Repr

/-- The wording of a fault. -/
def Fault.message : Fault → String
  | .addition => "attempt to add with overflow"
  | .subtraction => "attempt to subtract with overflow"
  | .multiplication => "attempt to multiply with overflow"
  | .index length position =>
      s!"index out of bounds: the len is {length} but the index is {position}"
  | .sliceEnd length stop =>
      s!"range end index {stop} out of range for slice of length {length}"
  | .sliceOrder start stop => s!"slice index starts at {start} but ends at {stop}"
  | .capacity => "capacity overflow"

end QuantizedConv
