import QuantizedConv.Case.Basic
import QuantizedConv.Window.Format

/-!
# Cases in documents

How cases and case records are written and read. A case may leave out its element type, its layer,
its depth multiplier and what it does not have; written, it leaves out only the latter.
-/

set_option autoImplicit false

namespace QuantizedConv

open Document

namespace CaseKind

/-- The names of the kinds. -/
def variants : List (String × CaseKind) := [("conv", .conv), ("depthwise", .depthwise)]

/-- Reads a kind. -/
def reader : Reader CaseKind := variant variants

/-- A kind in the compact form. -/
def toText : CaseKind → String
  | .conv => nameText "conv"
  | .depthwise => nameText "depthwise"

end CaseKind

namespace ElementType

/-- The names of the activation types. -/
def variants : List (String × ElementType) := [("i8", .i8), ("u8", .u8)]

/-- Reads an activation type. -/
def reader : Reader ElementType := variant variants

/-- An activation type in the compact form. -/
def toText : ElementType → String
  | .i8 => nameText "i8"
  | .u8 => nameText "u8"

end ElementType

/-- Reads a list of 32-bit integers. -/
def int32List : Reader (List Int32) := Document.list int32

/-- A list of 32-bit integers in the compact form. -/
def int32ListText (xs : List Int32) : String := Compact.list (xs.map int32Text)

namespace Case

/-- The members of a case that are already read. -/
structure Draft where
  /-- The kernel. -/
  kind : Option CaseKind := none
  /-- The activation type. -/
  element : Option ElementType := none
  /-- The layer. -/
  layer : Option Layer := none
  /-- The depth multiplier. -/
  depthMultiplier : Option UInt64 := none
  /-- The shape of the input. -/
  inputShape : Option Shape := none
  /-- The input. -/
  input : Option (List Int32) := none
  /-- The shape of the filter. -/
  filterShape : Option Shape := none
  /-- The filter. -/
  filter : Option (List Int32) := none
  /-- The shape of the bias, or null. -/
  biasShape : Option (Option Shape) := none
  /-- The bias, or null. -/
  bias : Option (Option (List Int32)) := none
  /-- The shape of the output. -/
  outputShape : Option Shape := none
  /-- The multipliers. -/
  outputMultiplier : Option (List Int32) := none
  /-- The shifts. -/
  outputShift : Option (List Int32) := none
  /-- The expected output, or null. -/
  expected : Option (Option (List Int32)) := none

/-- The members of a case. -/
def members : List (Member Draft) := [
  member "kind" Draft.kind (fun d v => { d with kind := some v }) CaseKind.reader,
  member "element" Draft.element (fun d v => { d with element := some v }) ElementType.reader,
  member "params" Draft.layer (fun d v => { d with layer := some v }) Layer.reader,
  member "depth_multiplier" Draft.depthMultiplier
    (fun d v => { d with depthMultiplier := some v }) size,
  member "input_shape" Draft.inputShape (fun d v => { d with inputShape := some v }) Shape.reader,
  member "input" Draft.input (fun d v => { d with input := some v }) int32List,
  member "filter_shape" Draft.filterShape
    (fun d v => { d with filterShape := some v }) Shape.reader,
  member "filter" Draft.filter (fun d v => { d with filter := some v }) int32List,
  member "bias_shape" Draft.biasShape
    (fun d v => { d with biasShape := some v }) (optional Shape.reader),
  member "bias" Draft.bias (fun d v => { d with bias := some v }) (optional int32List),
  member "output_shape" Draft.outputShape
    (fun d v => { d with outputShape := some v }) Shape.reader,
  member "output_multiplier" Draft.outputMultiplier
    (fun d v => { d with outputMultiplier := some v }) int32List,
  member "output_shift" Draft.outputShift
    (fun d v => { d with outputShift := some v }) int32List,
  member "expected" Draft.expected
    (fun d v => { d with expected := some v }) (optional int32List)]

/-- The case of a draft, with defaults for what it may lack. -/
def Draft.case (d : Draft) : Except String Case := do
  let kind ← required "kind" d.kind
  let inputShape ← required "input_shape" d.inputShape
  let input ← required "input" d.input
  let filterShape ← required "filter_shape" d.filterShape
  let filter ← required "filter" d.filter
  let outputShape ← required "output_shape" d.outputShape
  let outputMultiplier ← required "output_multiplier" d.outputMultiplier
  let outputShift ← required "output_shift" d.outputShift
  .ok {
    kind, inputShape, input, filterShape, filter, outputShape, outputMultiplier, outputShift
    element := d.element.getD .i8
    layer := d.layer.getD {}
    depthMultiplier := d.depthMultiplier.getD 1
    biasShape := d.biasShape.getD none
    bias := d.bias.getD none
    expected := d.expected.getD none }

/-- The format of a case. -/
def format : Record Draft Case where
  title := "Case"
  members
  blank := {}
  finish := Draft.case

/-- Reads a case. -/
def reader : Reader Case := format.read .streamed

/-- The case that the bytes of a document describe. -/
def ofBytes (bytes : Bytes) : Except Problem Case := whole reader bytes

/-- The case that a document describes. -/
def ofText (text : String) : Except Problem Case := ofBytes (bytesOf text)

/-- A member that is written only where there is a value. -/
def optionalMember (name : String) : Option String → List (String × String)
  | some value => [(name, value)]
  | none => []

/-- The members of a case in the compact form. -/
def memberTexts (c : Case) : List (String × String) :=
  [("kind", c.kind.toText), ("element", c.element.toText), ("params", c.layer.toText),
    ("depth_multiplier", sizeText c.depthMultiplier),
    ("input_shape", c.inputShape.toText), ("input", int32ListText c.input),
    ("filter_shape", c.filterShape.toText), ("filter", int32ListText c.filter)]
  ++ optionalMember "bias_shape" (c.biasShape.map Shape.toText)
  ++ optionalMember "bias" (c.bias.map int32ListText)
  ++ [("output_shape", c.outputShape.toText),
    ("output_multiplier", int32ListText c.outputMultiplier),
    ("output_shift", int32ListText c.outputShift)]
  ++ optionalMember "expected" (c.expected.map int32ListText)

/-- A case in the compact form. -/
def toText (c : Case) : String := Compact.record c.memberTexts

end Case

namespace CaseRecord

/-- The members of a case record that are already read. -/
structure Draft where
  /-- The shape of the output. -/
  outputShape : Option Shape := none
  /-- The output. -/
  output : Option (List Int32) := none

/-- The format of a case record. -/
def format : Record Draft CaseRecord where
  title := "CaseOutput"
  members := [
    member "output_shape" Draft.outputShape
      (fun d v => { d with outputShape := some v }) Shape.reader,
    member "output" Draft.output (fun d v => { d with output := some v }) int32List]
  blank := {}
  finish d := do
    let outputShape ← required "output_shape" d.outputShape
    let output ← required "output" d.output
    .ok { outputShape, output }

/-- Reads a case record. -/
def reader : Reader CaseRecord := format.read .streamed

/-- A case record in the compact form. -/
def toText (r : CaseRecord) : String :=
  Compact.record [("output_shape", r.outputShape.toText), ("output", int32ListText r.output)]

/-- A case record in the indented form. -/
def toIndentedText (r : CaseRecord) : String :=
  Indented.record 0 [
    ("output_shape", Indented.list 1 (r.outputShape.dims.map sizeText)),
    ("output", Indented.list 1 (r.output.map int32Text))]

end CaseRecord

end QuantizedConv
