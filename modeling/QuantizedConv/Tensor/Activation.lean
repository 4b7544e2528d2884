/-!
# Eight-bit activations

Inputs and outputs of a kernel are eight-bit integers, signed or unsigned. Both are widened to 32
bits before any arithmetic, and results are narrowed back by saturation.
-/

set_option autoImplicit false

namespace QuantizedConv

/-- A type of eight-bit activations. -/
class Activation (α : Type) where
  /-- The least value of the type. -/
  lowest : Int32
  /-- The greatest value of the type. -/
  highest : Int32
  /-- The 32-bit integer of the same value. -/
  widen : α → Int32
  /-- The value nearest to a 32-bit integer. -/
  narrow : Int32 → α

/-- Signed activations lie between `-128` and `127`. -/
instance : Activation Int8 where
  lowest := -128
  highest := 127
  widen x := x.toInt32
  narrow v := (min (max v (-128)) 127).toInt8

/-- Unsigned activations lie between `0` and `255`. -/
instance : Activation UInt8 where
  lowest := 0
  highest := 255
  widen x := x.toUInt32.toInt32
  narrow v := (min (max v 0) 255).toUInt32.toUInt8

/-- The activation of the same value as a 32-bit integer, if there is one. -/
def Activation.narrow? {α : Type} [Activation α] (v : Int32) : Option α :=
  if Activation.lowest α ≤ v ∧ v ≤ Activation.highest α then some (Activation.narrow v) else none

/-- The names of the activation types, where the type is a matter of data. -/
inductive ElementType where
  /-- Signed activations. -/
  | i8
  /-- Unsigned activations. -/
  | u8
deriving DecidableEq, Repr

end QuantizedConv
