import QuantizedConv.Kernel.Refusal
import QuantizedConv.Window.Layer

/-!
# What a kernel call must satisfy

The checks every kernel makes on its operands, in the order in which they are made: the first one
that fails is the refusal. Those on single tensors come first, then the contracts of the dense and
of the depthwise kernels.
-/

set_option autoImplicit false

namespace QuantizedConv

/-- The scales of all output channels, as two arrays. -/
structure ChannelScales where
  /-- The multiplier of each channel. -/
  multiplier : Array Int32
  /-- The shift of each channel. -/
  shift : Array Int32
deriving DecidableEq, Repr

/-- What a kernel call reads. -/
structure Operands (α : Type) where
  /-- The activations. -/
  input : Tensor α
  /-- The weights. -/
  filter : Tensor Int8
  /-- The initial accumulators, if they are not zero. -/
  bias : Option (Tensor Int32)
  /-- The scale of each output channel. -/
  scales : ChannelScales
deriving DecidableEq, Repr

/-- The extents of a call whose contract holds. -/
structure CallExtents where
  /-- The extents of the input. -/
  input : Nhwc
  /-- The extents of the filter. -/
  filter : Nhwc
  /-- The extents of the output. -/
  output : Nhwc
deriving DecidableEq, Repr

namespace Contract

/-- A tensor of a kernel has four dimensions. -/
def extents (operand : Operand) (shape : Shape) : Except Refusal Nhwc :=
  match Nhwc.ofShape? shape with
  | some e => .ok e
  | none => .error (.rank operand 4 shape.rank)

/-- Two extents are equal. -/
def equal (relation : Relation) (left right : Nat) : Except Refusal Unit :=
  if left = right then .ok () else .error (.extents relation left right)

/-- The elements of a shape can be counted. -/
def count (operand : Operand) (shape : Shape) : Except Refusal Nat :=
  match shape.count? with
  | some n => .ok n
  | none => .error (.shapeOverflow operand)

/-- An array holds what its shape needs. -/
def filled {α : Type} (operand : Operand) (tensor : Tensor α) : Except Refusal Unit := do
  let needed ← count operand tensor.shape
  if tensor.data.size < needed then .error (.shortBuffer operand needed tensor.data.size)
  else .ok ()

/-- A bias, where there is one, has one element for each output channel. -/
def biasFits (bias : Option (Tensor Int32)) (channels : Nat) : Except Refusal Unit :=
  match bias with
  | none => .ok ()
  | some tensor => do
    let n ← count .bias tensor.shape
    equal .biasCount n channels
    filled .bias tensor

/-- There is one scale for each output channel. -/
def scalesFit (scales : ChannelScales) (channels : Nat) : Except Refusal Unit :=
  if scales.multiplier.size ≠ channels then
    .error (.channelCount .multiplier channels scales.multiplier.size)
  else if scales.shift.size ≠ channels then
    .error (.channelCount .shift channels scales.shift.size)
  else .ok ()

/-- The furthest step of the last tap of the last window, if it is a size. -/
def reach? (axis : Axis) (output filter : Nat) : Option Nat := do
  let windows ← Checked.mul? (output - 1) axis.stride.toNat
  let taps ← Checked.mul? (filter - 1) axis.dilation.toNat
  Checked.add? windows taps

/-- The coordinates of all taps along an axis, and its padding, are in the signed range. -/
def windowFits (axis : Axis) (output filter : Nat) : Except Refusal Unit :=
  match reach? axis output filter with
  | some reach =>
    if reach < Checked.signedBound ∧ axis.padding.toNat < Checked.signedBound then .ok ()
    else .error .windowOverflow
  | none => .error .windowOverflow

/-- The checks that follow the extents: bias, scales, arrays, and windows along both axes. -/
def operandsFit {α : Type} (layer : Layer) (operands : Operands α) (outputShape : Shape)
    (e : CallExtents) : Except Refusal Unit := do
  biasFits operands.bias e.output.channels
  scalesFit operands.scales e.output.channels
  filled .input operands.input
  filled .filter operands.filter
  let _ ← count .output outputShape
  windowFits layer.height e.output.height e.filter.height
  windowFits layer.width e.output.width e.filter.width

/-- The extents of the three tensors of a call. -/
def callExtents {α : Type} (operands : Operands α) (outputShape : Shape) :
    Except Refusal CallExtents := do
  let input ← extents .input operands.input.shape
  let filter ← extents .filter operands.filter.shape
  let output ← extents .output outputShape
  .ok { input, filter, output }

/-- The contract of a dense convolution, apart from its output array. -/
def dense {α : Type} (layer : Layer) (operands : Operands α) (outputShape : Shape) :
    Except Refusal CallExtents := do
  let e ← callExtents operands outputShape
  equal .batches e.input.batches e.output.batches
  equal .filterDepth e.input.channels e.filter.channels
  equal .filterCount e.filter.batches e.output.channels
  operandsFit layer operands outputShape e
  .ok e

/-- The output channels are the input channels times the depth multiplier. -/
def groupsFit (depthMultiplier input output : Nat) : Except Refusal Unit :=
  match Checked.mul? input depthMultiplier with
  | some wanted => equal .channelGroups output wanted
  | none => .error (.extents .channelGroups output (Checked.sizeBound - 1))

/-- The contract of a depthwise convolution, apart from its output array. -/
def depthwise {α : Type} (layer : DepthwiseLayer) (operands : Operands α) (outputShape : Shape) :
    Except Refusal CallExtents := do
  let e ← callExtents operands outputShape
  equal .batches e.input.batches e.output.batches
  groupsFit layer.depthMultiplier.toNat e.input.channels e.output.channels
  equal .depthwiseFilterDepth e.filter.channels e.output.channels
  operandsFit layer.toLayer operands outputShape e
  .ok e

end Contract

end QuantizedConv
