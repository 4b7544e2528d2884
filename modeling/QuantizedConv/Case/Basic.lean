import QuantizedConv.Kernel.Event
import QuantizedConv.Tensor.Activation

/-!
# Cases

A case describes one kernel call by plain integers, whatever the activation type, and may hold the
output that is expected of it. A case record is the output of a run with its shape.
-/

set_option autoImplicit false

namespace QuantizedConv

/-- One kernel call, as data. -/
structure Case where
  /-- The kernel. -/
  kind : CaseKind
  /-- The activation type. -/
  element : ElementType
  /-- The layer. -/
  layer : Layer
  /-- The number of output channels for each input channel of a depthwise case. -/
  depthMultiplier : UInt64
  /-- The shape of the input. -/
  inputShape : Shape
  /-- The input. -/
  input : List Int32
  /-- The shape of the filter. -/
  filterShape : Shape
  /-- The filter. -/
  filter : List Int32
  /-- The shape of the bias, if it is not a plain list. -/
  biasShape : Option Shape
  /-- The bias, if there is one. -/
  bias : Option (List Int32)
  /-- The shape of the output. -/
  outputShape : Shape
  /-- The multiplier of each output channel. -/
  outputMultiplier : List Int32
  /-- The shift of each output channel. -/
  outputShift : List Int32
  /-- The output that a run should give, if it is known. -/
  expected : Option (List Int32)
deriving DecidableEq, Repr

/-- What a run of a case gave. -/
structure CaseRecord where
  /-- The shape of the output. -/
  outputShape : Shape
  /-- The output. -/
  output : List Int32
deriving DecidableEq, Repr

end QuantizedConv
