import QuantizedConv.Kernel.Refusal
import QuantizedConv.Window.Layer

/-!
# The journal

What the kernels and the case runner report while they work. An event is a fact about a call; its
level and its wording are functions of it.
-/

set_option autoImplicit false

namespace QuantizedConv

/-- How much attention an event asks for. -/
inductive Level where
  /-- Something the caller may not have meant. -/
  | warn
  /-- What was done. -/
  | debug
  /-- How it was done. -/
  | trace
deriving DecidableEq, Repr

/-- The name of a level. -/
def Level.name : Level → String
  | .warn => "WARN"
  | .debug => "DEBUG"
  | .trace => "TRACE"

/-- The kinds of a case. -/
inductive CaseKind where
  /-- A dense convolution. -/
  | conv
  /-- A depthwise convolution. -/
  | depthwise
deriving DecidableEq, Repr

/-- The shapes of a call. -/
structure CallShapes where
  /-- The shape of the input. -/
  input : Shape
  /-- The shape of the filter. -/
  filter : Shape
  /-- The shape of the output. -/
  output : Shape
deriving DecidableEq, Repr

/-- Something worth a line in the journal. -/
inductive Event where
  /-- A dense convolution begins. -/
  | dense (shapes : CallShapes) (layer : Layer)
  /-- A depthwise convolution begins. -/
  | depthwise (shapes : CallShapes) (layer : DepthwiseLayer)
  /-- A patch matrix was measured against the limit. -/
  | scratch (bytes limit : Nat)
  /-- A dense convolution through a patch matrix begins. -/
  | patches (shapes : CallShapes) (rows columns : Nat)
  /-- A case was read from a file. -/
  | loaded (kind : CaseKind) (input output : Shape)
  /-- A depthwise case was asked to go through a patch matrix. -/
  | loweringIgnored
  /-- Some outputs are not the expected ones. -/
  | outputsDiffer (count total : Nat)
deriving DecidableEq, Repr

/-- The dimensions of a shape, in brackets. -/
def Shape.bracketed (s : Shape) : String :=
  "[" ++ ", ".intercalate (s.dims.map fun d => toString d.toNat) ++ "]"

namespace Event

/-- The level of an event. -/
def level : Event → Level
  | .dense .. | .depthwise .. | .patches .. | .loaded .. => .debug
  | .scratch .. => .trace
  | .loweringIgnored | .outputsDiffer .. => .warn

/-- The three shapes of a call. -/
def shapesText (s : CallShapes) : String :=
  "input " ++ s.input.bracketed ++ " filter " ++ s.filter.bracketed ++ " output "
    ++ s.output.bracketed

/-- The windows of a layer. -/
def windowText (layer : Layer) : String :=
  let ⟨strideHeight, dilationHeight, _⟩ := layer.height
  let ⟨strideWidth, dilationWidth, _⟩ := layer.width
  let ⟨top, left⟩ := layer.padding
  s!"stride {strideHeight}x{strideWidth} dilation {dilationHeight}x{dilationWidth} pad Padding2d "
    ++ s!"\x7b height: {top}, width: {left} \x7d"

/-- The wording of an event. -/
def message : Event → String
  | .dense shapes layer => "conv: " ++ shapesText shapes ++ " " ++ windowText layer
  | .depthwise shapes layer =>
      "depthwise conv: " ++ shapesText shapes ++ " multiplier "
        ++ toString layer.depthMultiplier.toNat ++ " " ++ windowText layer.toLayer
  | .scratch bytes limit => s!"im2col scratch: {bytes} bytes (limit {limit})"
  | .patches shapes rows columns =>
      "conv (im2col): " ++ shapesText shapes ++ s!" patches {rows}x{columns}"
  | .loaded kind input output =>
      let name := match kind with
        | .conv => "Conv"
        | .depthwise => "Depthwise"
      s!"loaded {name} case, input " ++ input.bracketed ++ ", output " ++ output.bracketed
  | .loweringIgnored => "im2col lowering does not apply to depthwise cases, running direct"
  | .outputsDiffer count total => s!"{count} of {total} outputs differ"

/-- An event as a line of the journal. -/
def line (event : Event) : String := event.level.name ++ " " ++ event.message

end Event

end QuantizedConv
