import QuantizedConv.Kernel.Dense

/-!
# Dense convolution through a patch matrix

The inputs under every window are first copied, with the input offset added, into one row of a
matrix, zero for padding. Every output element is then the dot product of a row with a filter, both
contiguous. The matrix is measured against a limit before it is built.
-/

set_option autoImplicit false

namespace QuantizedConv.Patches

variable {α : Type} [Activation α]

/-- The bytes of the patch matrix, with four for each entry, if their number is a size. -/
def scratchBytes? (e : CallExtents) : Option Nat := do
  let planes ← Checked.mul? e.output.batches e.output.height
  let rows ← Checked.mul? planes e.output.width
  let cells ← Checked.mul? e.filter.height e.filter.width
  let columns ← Checked.mul? cells e.input.channels
  let entries ← Checked.mul? rows columns
  Checked.mul? entries 4

/-- The entries that one cell of a window adds to a row: the inputs under it with the offset added,
or zeros on padding. -/
def cellEntries (layer : Layer) (operands : Operands α) (e : CallExtents) (window : Window) :
    Option WindowCell → Except Fault (Array Int32)
  | none => .ok (Array.replicate e.input.channels 0)
  | some cell => do
    let base ← operands.input.shape.offset window.batch cell.inputRow cell.inputColumn 0
    let stop ← Checked.add base e.input.channels
    let values ← Checked.slice operands.input.data base stop
    .ok (values.map fun v => Activation.widen v + layer.inputOffset)

/-- Appends the row of one window to the rows before it. -/
def appendRow (layer : Layer) (operands : Operands α) (e : CallExtents) (rows : Array Int32)
    (window : Window) : Except Fault (Array Int32) :=
  layer.foldWindow e.filter e.input window (fun entries cell => do
    let next ← cellEntries layer operands e window cell
    .ok (entries ++ next)) rows

/-- Appends the rows of all windows, one for each output pixel, to the entries before them. -/
def appendRows (layer : Layer) (operands : Operands α) (e : CallExtents) (before : Array Int32) :
    Except Fault (Array Int32) :=
  layer.foldWindows e.output (fun _ fault => fault) (appendRow layer operands e) before

/-- The patch matrix: the rows of all windows. -/
def matrix (layer : Layer) (operands : Operands α) (e : CallExtents) :
    Except Fault (Array Int32) :=
  appendRows layer operands e #[]

/-- The number of columns of the matrix: the entries under one window. -/
def columns (e : CallExtents) : Except Fault Nat := do
  let cells ← Checked.mul e.filter.height e.filter.width
  Checked.mul cells e.input.channels

/-- The number of rows of the matrix: the output pixels. -/
def rows (e : CallExtents) : Except Fault Nat := do
  let planes ← Checked.mul e.output.batches e.output.height
  Checked.mul planes e.output.width

/-- The sum of entry times weight. -/
def dot (entries : List Int32) (weights : List Int8) : Int32 :=
  (entries.zip weights).foldl (fun acc (p, w) => acc + p * w.toInt32) 0

/-- Row `index` of a matrix stored row by row. -/
def rowSlice {β : Type} (entries : Array β) (columns index : Nat) : Except Fault (Array β) := do
  let start ← Checked.mul index columns
  let next ← Checked.add index 1
  let stop ← Checked.mul next columns
  Checked.slice entries start stop

/-- One output element, from the row of its pixel. -/
def element (layer : Layer) (operands : Operands α) (patch : Array Int32) (columns channel : Nat) :
    Except Fault α := do
  let weights ← rowSlice operands.filter.data columns channel
  operands.activate layer channel (dot patch.toList weights.toList)

/-- Writes all channels of one output pixel. -/
def writePixel (layer : Layer) (operands : Operands α) (shape : Shape) (output : Nhwc)
    (patch : Array Int32) (columns batch row column : Nat) (buffer : Array α) :
    Except (Stopped (Array α)) (Array α) :=
  foldIndices output.channels (fun buffer channel =>
    Outcome.put shape ⟨batch, row, column, channel⟩
      (element layer operands patch columns channel) buffer) buffer

/-- Writes one output pixel after the other, each from the next row of the matrix. -/
def writeRow (layer : Layer) (operands : Operands α) (shape : Shape) (output : Nhwc)
    (entries : Array Int32) (columns : Nat) (state : Array α × Nat) (batch row column : Nat) :
    Except (Stopped (Array α)) (Array α × Nat) := do
  let (buffer, index) := state
  let patch ← Stopped.during buffer (rowSlice entries columns index)
  let written ← writePixel layer operands shape output patch columns batch row column buffer
  let next ← Stopped.during written (Checked.add index 1)
  .ok (written, next)

/-- Writes the whole output from the patch matrix. -/
def writeRows (layer : Layer) (operands : Operands α) (shape : Shape) (output : Nhwc)
    (entries : Array Int32) (columns : Nat) (buffer : Array α) :
    Except (Stopped (Array α)) (Array α) := do
  let (written, _) ← foldPixels output .ok .ok (fun state fault => ⟨fault, state.1⟩)
    (fun state batch row _ column _ =>
      writeRow layer operands shape output entries columns state batch row column) (buffer, 0)
  .ok written

/-- Whether memory for a matrix is granted: below the limit, and never so much that an offset into
it leaves the signed range. -/
def granted (bytes limit : Nat) : Bool :=
  bytes < limit && bytes < Checked.signedBound

/-- The matrix of a call has its memory granted. -/
def scratchFits (e : CallExtents) (limit : Nat) : Except Refusal Unit :=
  match scratchBytes? e with
  | none => .error (.scratchTooLarge (Checked.sizeBound - 1))
  | some bytes => if granted bytes limit then .ok () else .error (.scratchTooLarge bytes)

/-- The contract of the call, with the memory for its matrix. -/
def check (layer : Layer) (operands : Operands α) (output : Tensor α) (limit : Nat) :
    Except Refusal CallExtents := do
  let e ← Dense.check layer operands output
  scratchFits e limit
  .ok e

/-- The patch matrix of a call, with the number of its columns. -/
def prepare (layer : Layer) (operands : Operands α) (e : CallExtents) :
    Except Fault (Array Int32 × Nat) := do
  let width ← columns e
  let height ← rows e
  let _ ← Checked.mul height width
  let entries ← matrix layer operands e
  .ok (entries, width)

/-- Dense convolution through a patch matrix, into the array of `output`. -/
def convolve (layer : Layer) (operands : Operands α) (output : Tensor α) (limit : Nat) :
    Outcome α :=
  match check layer operands output limit with
  | .error refusal => .refused output.data refusal
  | .ok e =>
    match prepare layer operands e with
    | .error fault => .faulted output.data fault
    | .ok (entries, width) =>
      .ofWrites (writeRows layer operands output.shape e.output entries width output.data)

/-- What a call that meets the dense contract reports. -/
def journal (operands : Operands α) (outputShape : Shape) (e : CallExtents) (limit : Nat) :
    List Event :=
  match scratchBytes? e with
  | none => []
  | some bytes =>
    let measured := Event.scratch bytes limit
    if granted bytes limit then
      let shapes : CallShapes := ⟨operands.input.shape, operands.filter.shape, outputShape⟩
      [measured, .patches shapes (e.output.batches * e.output.height * e.output.width)
        (e.filter.height * e.filter.width * e.input.channels)]
    else [measured]

/-- What `convolve` reports. -/
def events (layer : Layer) (operands : Operands α) (output : Tensor α) (limit : Nat) :
    List Event :=
  match Dense.check layer operands output with
  | .error _ => []
  | .ok e => journal operands output.shape e limit

/-- What a call into a fresh array reports. -/
def freshEvents (layer : Layer) (operands : Operands α) (outputShape : Shape) (limit : Nat) :
    List Event :=
  match Dense.freshCheck layer operands outputShape with
  | .error _ => []
  | .ok (e, _) => journal operands outputShape e limit

end QuantizedConv.Patches
