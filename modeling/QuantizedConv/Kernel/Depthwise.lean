import QuantizedConv.Kernel.Event
import QuantizedConv.Kernel.Outcome

/-!
# Depthwise convolution

Output channels come in groups of `depthMultiplier`, one group for each input channel, and every
output channel reads only the input channel of its group. The filter has one weight for each cell
and output channel. All else is as in a dense convolution.
-/

set_option autoImplicit false

namespace QuantizedConv.Depthwise

variable {α : Type} [Activation α]

/-- What one cell of a window adds to the accumulator of a channel in the group of an input
channel. -/
def cellTerm (layer : DepthwiseLayer) (operands : Operands α) (window : Window)
    (group channel : Nat) (cell : WindowCell) : Except Fault Int32 := do
  let inputPlace ← operands.input.shape.offset window.batch cell.inputRow cell.inputColumn group
  let value ← Checked.get operands.input.data inputPlace
  let filterPlace ← operands.filter.shape.offset 0 cell.filterRow cell.filterColumn channel
  let weight ← Checked.get operands.filter.data filterPlace
  .ok (weight.toInt32 * (Activation.widen value + layer.inputOffset))

/-- The accumulator of one output element, before the bias. -/
def accumulate (layer : DepthwiseLayer) (operands : Operands α) (e : CallExtents)
    (window : Window) (group channel : Nat) : Except Fault Int32 :=
  layer.toLayer.foldInside e.filter e.input window (fun acc cell => do
    let term ← cellTerm layer operands window group channel cell
    .ok (acc + term)) 0

/-- One output element. -/
def element (layer : DepthwiseLayer) (operands : Operands α) (e : CallExtents)
    (window : Window) (group channel : Nat) : Except Fault α := do
  let acc ← accumulate layer operands e window group channel
  operands.activate layer.toLayer channel acc

/-- The output channel of a member of the group of an input channel. -/
def channelOf (layer : DepthwiseLayer) (group member : Nat) : Except Fault Nat := do
  let first ← Checked.mul group layer.depthMultiplier.toNat
  Checked.add member first

/-- Writes all channels of one output pixel, group by group. -/
def writeWindow (layer : DepthwiseLayer) (operands : Operands α) (shape : Shape)
    (e : CallExtents) (buffer : Array α) (window : Window) :
    Except (Stopped (Array α)) (Array α) :=
  foldIndices e.input.channels (fun buffer group =>
    foldIndices layer.depthMultiplier.toNat (fun buffer member => do
      let channel ← Stopped.during buffer (channelOf layer group member)
      Outcome.put shape (window.target channel)
        (element layer operands e window group channel) buffer) buffer) buffer

/-- The contract of a call that writes into an array of the caller. -/
def check (layer : DepthwiseLayer) (operands : Operands α) (output : Tensor α) :
    Except Refusal CallExtents := do
  let e ← Contract.depthwise layer operands output.shape
  Contract.filled .output output
  .ok e

/-- Depthwise convolution into the array of `output`. -/
def convolve (layer : DepthwiseLayer) (operands : Operands α) (output : Tensor α) : Outcome α :=
  match check layer operands output with
  | .error refusal => .refused output.data refusal
  | .ok e => .ofWrites (layer.toLayer.foldWindows e.output (fun buffer fault => ⟨fault, buffer⟩)
      (writeWindow layer operands output.shape e) output.data)

/-- The contract of a call that writes into a fresh array, and the size of that array. -/
def freshCheck (layer : DepthwiseLayer) (operands : Operands α) (outputShape : Shape) :
    Except Refusal (CallExtents × Nat) :=
  Fresh.check (Contract.depthwise layer operands outputShape) outputShape

/-- Depthwise convolution into a fresh array. -/
def convolveFresh (layer : DepthwiseLayer) (operands : Operands α) (outputShape : Shape) :
    Except Failure (Array α) :=
  Fresh.call (Contract.depthwise layer operands outputShape) (convolve layer operands) outputShape

/-- What a call that meets its contract reports. -/
def journal (layer : DepthwiseLayer) (operands : Operands α) (outputShape : Shape) : List Event :=
  [.depthwise ⟨operands.input.shape, operands.filter.shape, outputShape⟩ layer]

/-- What `convolve` reports. -/
def events (layer : DepthwiseLayer) (operands : Operands α) (output : Tensor α) : List Event :=
  match check layer operands output with
  | .error _ => []
  | .ok _ => journal layer operands output.shape

/-- What `convolveFresh` reports. -/
def freshEvents (layer : DepthwiseLayer) (operands : Operands α) (outputShape : Shape) : List Event :=
  match freshCheck layer operands outputShape with
  | .error _ => []
  | .ok _ => journal layer operands outputShape

end QuantizedConv.Depthwise
