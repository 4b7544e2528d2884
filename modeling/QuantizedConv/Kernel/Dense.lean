import QuantizedConv.Kernel.Event
import QuantizedConv.Kernel.Outcome

/-!
# Dense convolution

Output channel `c` is the sum, over the cells of filter `c` that fall inside the input and over all
input channels, of weight times input plus input offset. Cells on padding are left out, so padding
never adds weight times offset. The accumulator wraps at 32 bits.
-/

set_option autoImplicit false

namespace QuantizedConv.Dense

variable {α : Type} [Activation α]

/-- The sum of weight times input plus offset over the channels of one cell. -/
def dot (weights : List Int8) (values : List α) (offset : Int32) : Int32 :=
  (weights.zip values).foldl
    (fun acc (w, x) => acc + w.toInt32 * (Activation.widen x + offset)) 0

/-- What one cell of a window adds to the accumulator of a channel. -/
def cellSum (layer : Layer) (operands : Operands α) (e : CallExtents) (window : Window)
    (channel : Nat) (cell : WindowCell) : Except Fault Int32 := do
  let inputBase ← operands.input.shape.offset window.batch cell.inputRow cell.inputColumn 0
  let filterBase ← operands.filter.shape.offset channel cell.filterRow cell.filterColumn 0
  let inputEnd ← Checked.add inputBase e.input.channels
  let values ← Checked.slice operands.input.data inputBase inputEnd
  let filterEnd ← Checked.add filterBase e.input.channels
  let weights ← Checked.slice operands.filter.data filterBase filterEnd
  .ok (dot weights.toList values.toList layer.inputOffset)

/-- The accumulator of one output element, before the bias. -/
def accumulate (layer : Layer) (operands : Operands α) (e : CallExtents) (window : Window)
    (channel : Nat) : Except Fault Int32 :=
  layer.foldInside e.filter e.input window (fun acc cell => do
    let sum ← cellSum layer operands e window channel cell
    .ok (acc + sum)) 0

/-- One output element. -/
def element (layer : Layer) (operands : Operands α) (e : CallExtents) (window : Window)
    (channel : Nat) : Except Fault α := do
  let acc ← accumulate layer operands e window channel
  operands.activate layer channel acc

/-- Writes all channels of one output pixel. -/
def writeWindow (layer : Layer) (operands : Operands α) (shape : Shape) (e : CallExtents)
    (buffer : Array α) (window : Window) : Except (Stopped (Array α)) (Array α) :=
  foldIndices e.output.channels (fun buffer channel =>
    Outcome.put shape (window.target channel) (element layer operands e window channel) buffer)
    buffer

/-- The contract of a call that writes into an array of the caller. -/
def check (layer : Layer) (operands : Operands α) (output : Tensor α) :
    Except Refusal CallExtents := do
  let e ← Contract.dense layer operands output.shape
  Contract.filled .output output
  .ok e

/-- Dense convolution into the array of `output`. -/
def convolve (layer : Layer) (operands : Operands α) (output : Tensor α) : Outcome α :=
  match check layer operands output with
  | .error refusal => .refused output.data refusal
  | .ok e => .ofWrites (layer.foldWindows e.output (fun buffer fault => ⟨fault, buffer⟩)
      (writeWindow layer operands output.shape e) output.data)

/-- The contract of a call that writes into a fresh array, and the size of that array. -/
def freshCheck (layer : Layer) (operands : Operands α) (outputShape : Shape) :
    Except Refusal (CallExtents × Nat) :=
  Fresh.check (Contract.dense layer operands outputShape) outputShape

/-- Dense convolution into a fresh array. -/
def convolveFresh (layer : Layer) (operands : Operands α) (outputShape : Shape) :
    Except Failure (Array α) :=
  Fresh.call (Contract.dense layer operands outputShape) (convolve layer operands) outputShape

/-- What a call that meets its contract reports. -/
def journal (layer : Layer) (operands : Operands α) (outputShape : Shape) : List Event :=
  [.dense ⟨operands.input.shape, operands.filter.shape, outputShape⟩ layer]

/-- What `convolve` reports. -/
def events (layer : Layer) (operands : Operands α) (output : Tensor α) : List Event :=
  match check layer operands output with
  | .error _ => []
  | .ok _ => journal layer operands output.shape

/-- What `convolveFresh` reports. -/
def freshEvents (layer : Layer) (operands : Operands α) (outputShape : Shape) : List Event :=
  match freshCheck layer operands outputShape with
  | .error _ => []
  | .ok _ => journal layer operands outputShape

end QuantizedConv.Dense
