import QuantizedConv.Arithmetic.Indices
import QuantizedConv.FixedPoint.Scale
import QuantizedConv.Tensor.Shape
import QuantizedConv.Window.Padding

/-!
# Convolution layers

A layer says how windows are laid along both axes and how values are offset and clamped. A window is
a filter laid over the input for an output pixel. The windows of an output are visited in row-major
order, and so are the cells of a window: either all of them, on padding or not, or only those that
lie over an input element.
-/

set_option autoImplicit false

namespace QuantizedConv

/-- How windows are laid along one axis. -/
structure Axis where
  /-- The distance between two windows. -/
  stride : UInt64 := 1
  /-- The distance between two taps of a window. -/
  dilation : UInt64 := 1
  /-- How far the first window starts before the input. -/
  padding : UInt64 := 0
deriving DecidableEq, Repr

/-- What all kernels are told beside their tensors. -/
structure Layer where
  /-- The vertical axis. -/
  height : Axis := {}
  /-- The horizontal axis. -/
  width : Axis := {}
  /-- What is added to every input value. -/
  inputOffset : Int32 := 0
  /-- What is added to every output value. -/
  outputOffset : Int32 := 0
  /-- The range of output values. -/
  activation : ActivationRange := ⟨Int32.minValue, Int32.maxValue⟩
deriving DecidableEq, Repr

/-- The padding of both axes. -/
structure Padding where
  /-- The padding above the first row. -/
  height : UInt64 := 0
  /-- The padding left of the first column. -/
  width : UInt64 := 0
deriving DecidableEq, Repr

/-- A layer whose output channels come in groups, one group for each input channel. -/
structure DepthwiseLayer extends Layer where
  /-- The number of output channels for each input channel. -/
  depthMultiplier : UInt64 := 1
deriving DecidableEq, Repr

/-- The position of a coordinate along an axis of `extent` elements, if it lies inside. -/
def inside? (coordinate : Int) (extent : Nat) : Option Nat :=
  if 0 ≤ coordinate ∧ coordinate < Checked.signed extent then some coordinate.toNat else none

namespace Axis

/-- The coordinate of the first tap of the window at `position`. -/
def origin (axis : Axis) (position : Nat) : Except Fault Int := do
  let start ← Checked.mul position axis.stride.toNat
  Checked.signedSub (Checked.signed start) (Checked.signed axis.padding.toNat)

/-- The input position under a tap of the window that starts at `origin`, or none on padding. -/
def under (axis : Axis) (origin : Int) (extent tap : Nat) : Except Fault (Option Nat) := do
  let step ← Checked.mul axis.dilation.toNat tap
  let coordinate ← Checked.signedAdd origin (Checked.signed step)
  .ok (inside? coordinate extent)

/-- Visits the taps of the window that starts at `origin` in order, each with the input position under
it, or with none on padding. -/
def foldTaps {β : Type} (axis : Axis) (filter extent : Nat) (origin : Int)
    (visit : β → Nat → Option Nat → Except Fault β) (start : β) : Except Fault β :=
  foldIndices filter (fun value tap => do
    let source ← axis.under origin extent tap
    visit value tap source) start

end Axis

/-- A filter laid over the input, for one output pixel. -/
structure Window where
  /-- The batch of the pixel. -/
  batch : Nat
  /-- The row of the pixel. -/
  row : Nat
  /-- The column of the pixel. -/
  column : Nat
  /-- The input row under the first row of the filter. -/
  top : Int
  /-- The input column under the first column of the filter. -/
  left : Int
deriving DecidableEq, Repr

/-- The output element of one channel of a window. -/
def Window.target (window : Window) (channel : Nat) : Coordinate :=
  ⟨window.batch, window.row, window.column, channel⟩

/-- A cell of a filter that lies over an input element. -/
structure WindowCell where
  /-- The row of the filter. -/
  filterRow : Nat
  /-- The column of the filter. -/
  filterColumn : Nat
  /-- The row of the input. -/
  inputRow : Nat
  /-- The column of the input. -/
  inputColumn : Nat
deriving DecidableEq, Repr

/-- Visits all pixels of an output, in row-major order. What the pixels of a row, or of a column, have in
common is found before they are visited; `stop` says what a fault there leaves behind. -/
def foldPixels {ε ρ κ σ : Type} (output : Nhwc) (ofRow : Nat → Except Fault ρ)
    (ofColumn : Nat → Except Fault κ) (stop : σ → Fault → ε)
    (visit : σ → Nat → Nat → ρ → Nat → κ → Except ε σ) (start : σ) : Except ε σ :=
  foldIndices output.batches (fun state batch =>
    foldIndices output.height (fun state row =>
      match ofRow row with
      | .error fault => .error (stop state fault)
      | .ok vertical =>
        foldIndices output.width (fun state column =>
          match ofColumn column with
          | .error fault => .error (stop state fault)
          | .ok horizontal => visit state batch row vertical column horizontal) state) state) start

namespace Layer

/-- The layer with another range of output values. -/
def withActivation (layer : Layer) (range : ActivationRange) : Layer :=
  { layer with activation := range }

/-- The padding of both axes. -/
def padding (layer : Layer) : Padding := ⟨layer.height.padding, layer.width.padding⟩

/-- The layer with other padding. -/
def withPadding (layer : Layer) (padding : Padding) : Layer :=
  { layer with
    height := { layer.height with padding := padding.height }
    width := { layer.width with padding := padding.width } }

/-- Visits all cells of a window, each with the row and column of the input under it, or with none on
padding. -/
def foldWindow {β : Type} (layer : Layer) (filter input : Nhwc) (window : Window)
    (visit : β → Option WindowCell → Except Fault β) (start : β) : Except Fault β :=
  layer.height.foldTaps filter.height input.height window.top (fun value filterRow row =>
    layer.width.foldTaps filter.width input.width window.left (fun value filterColumn column =>
      visit value (row.bind fun inputRow => column.map fun inputColumn =>
        { filterRow, filterColumn, inputRow, inputColumn })) value) start

/-- Visits the cells of a window that lie over input elements. A row on padding is passed over as a
whole. -/
def foldInside {β : Type} (layer : Layer) (filter input : Nhwc) (window : Window)
    (visit : β → WindowCell → Except Fault β) (start : β) : Except Fault β :=
  layer.height.foldTaps filter.height input.height window.top (fun value filterRow row =>
    match row with
    | none => .ok value
    | some inputRow =>
      layer.width.foldTaps filter.width input.width window.left
        (fun value filterColumn column =>
          match column with
          | none => .ok value
          | some inputColumn => visit value { filterRow, filterColumn, inputRow, inputColumn })
        value) start

/-- Visits the windows of all output pixels, in row-major order. -/
def foldWindows {ε σ : Type} (layer : Layer) (output : Nhwc) (stop : σ → Fault → ε)
    (visit : σ → Window → Except ε σ) (start : σ) : Except ε σ :=
  foldPixels output layer.height.origin layer.width.origin stop
    (fun state batch row top column left => visit state { batch, row, column, top, left }) start

/-- The output extents of a padding scheme, and the layer with the padding that they need. -/
def resolve (layer : Layer) (scheme : PaddingScheme)
    (inputHeight inputWidth filterHeight filterWidth : Nat) :
    Except Fault (Layer × Nat × Nat) := do
  let ⟨strideHeight, dilationHeight, _⟩ := layer.height
  let ⟨strideWidth, dilationWidth, _⟩ := layer.width
  let outputHeight ← scheme.outputExtent inputHeight filterHeight
    strideHeight.toNat dilationHeight.toNat
  let outputWidth ← scheme.outputExtent inputWidth filterWidth
    strideWidth.toNat dilationWidth.toNat
  let top ← leadingPadding strideHeight.toNat dilationHeight.toNat
    inputHeight filterHeight outputHeight
  let left ← leadingPadding strideWidth.toNat dilationWidth.toNat
    inputWidth filterWidth outputWidth
  .ok (layer.withPadding ⟨UInt64.ofNat top, UInt64.ofNat left⟩, outputHeight, outputWidth)

end Layer

/-- The output extents of a padding scheme, and the layer with the padding that they need. -/
def DepthwiseLayer.resolve (layer : DepthwiseLayer) (scheme : PaddingScheme)
    (inputHeight inputWidth filterHeight filterWidth : Nat) :
    Except Fault (DepthwiseLayer × Nat × Nat) := do
  let (resolved, outputHeight, outputWidth) ←
    layer.toLayer.resolve scheme inputHeight inputWidth filterHeight filterWidth
  .ok ({ layer with toLayer := resolved }, outputHeight, outputWidth)

end QuantizedConv
