import QuantizedConv.Document.Record
import QuantizedConv.Document.Writer
import QuantizedConv.Window.Layer

/-!
# Shapes and layers in documents

How shapes, padding and layers are written and read. A layer may leave out any member, which then
has its default. A depthwise layer is one object with the members of its layer and the depth
multiplier; it is checked as a whole before the members of the layer are read.
-/

set_option autoImplicit false

namespace QuantizedConv

open Document

namespace Shape

/-- Reads a shape. -/
def reader : Reader Shape := do return ⟨← Document.list size⟩

/-- A shape in the compact form. -/
def toText (s : Shape) : String := Compact.list (s.dims.map sizeText)

end Shape

namespace PaddingScheme

/-- The names of the schemes. -/
def variants : List (String × PaddingScheme) := [("same", .same), ("valid", .valid)]

/-- Reads a scheme. -/
def reader : Reader PaddingScheme := variant variants

/-- A scheme in the compact form. -/
def toText : PaddingScheme → String
  | .same => nameText "same"
  | .valid => nameText "valid"

end PaddingScheme

namespace Padding

/-- The members of a padding that are already read. -/
structure Draft where
  /-- The padding above. -/
  height : Option UInt64 := none
  /-- The padding to the left. -/
  width : Option UInt64 := none

/-- The format of a padding. -/
def format : Record Draft Padding where
  title := "Padding2d"
  members := [
    member "height" Draft.height (fun d v => { d with height := some v }) size,
    member "width" Draft.width (fun d v => { d with width := some v }) size]
  blank := {}
  finish d := do
    let height ← required "height" d.height
    let width ← required "width" d.width
    .ok { height, width }

/-- The members of a padding in the compact form. -/
def memberTexts (p : Padding) : List (String × String) :=
  [("height", sizeText p.height), ("width", sizeText p.width)]

/-- A padding in the compact form. -/
def toText (p : Padding) : String := Compact.record p.memberTexts

end Padding

namespace Layer

/-- The members of a layer that are already read. -/
structure Draft where
  /-- The vertical stride. -/
  strideHeight : Option UInt64 := none
  /-- The horizontal stride. -/
  strideWidth : Option UInt64 := none
  /-- The vertical dilation. -/
  dilationHeight : Option UInt64 := none
  /-- The horizontal dilation. -/
  dilationWidth : Option UInt64 := none
  /-- The padding of both axes. -/
  padding : Option Padding := none
  /-- The input offset. -/
  inputOffset : Option Int32 := none
  /-- The output offset. -/
  outputOffset : Option Int32 := none
  /-- The least output value. -/
  activationMin : Option Int32 := none
  /-- The greatest output value. -/
  activationMax : Option Int32 := none

/-- The layer of a draft, with defaults for what it lacks. -/
def Draft.layer (d : Draft) : Layer :=
  let standard : Layer := {}
  let padding := d.padding.getD standard.padding
  { height := {
      stride := d.strideHeight.getD standard.height.stride
      dilation := d.dilationHeight.getD standard.height.dilation
      padding := padding.height }
    width := {
      stride := d.strideWidth.getD standard.width.stride
      dilation := d.dilationWidth.getD standard.width.dilation
      padding := padding.width }
    inputOffset := d.inputOffset.getD standard.inputOffset
    outputOffset := d.outputOffset.getD standard.outputOffset
    activation := {
      lowest := d.activationMin.getD standard.activation.lowest
      highest := d.activationMax.getD standard.activation.highest } }

/-- The members of a layer. -/
def members (delivery : Delivery) : List (Member Draft) := [
  member "stride_height" Draft.strideHeight (fun d v => { d with strideHeight := some v }) size,
  member "stride_width" Draft.strideWidth (fun d v => { d with strideWidth := some v }) size,
  member "dilation_height" Draft.dilationHeight
    (fun d v => { d with dilationHeight := some v }) size,
  member "dilation_width" Draft.dilationWidth (fun d v => { d with dilationWidth := some v }) size,
  member "padding" Draft.padding (fun d v => { d with padding := some v })
    (Padding.format.read delivery),
  member "input_offset" Draft.inputOffset (fun d v => { d with inputOffset := some v }) int32,
  member "output_offset" Draft.outputOffset (fun d v => { d with outputOffset := some v }) int32,
  member "activation_min" Draft.activationMin
    (fun d v => { d with activationMin := some v }) int32,
  member "activation_max" Draft.activationMax
    (fun d v => { d with activationMax := some v }) int32]

/-- The format of a layer. -/
def format (delivery : Delivery) : Record Draft Layer where
  title := "ConvParams"
  members := members delivery
  blank := {}
  finish d := .ok d.layer

/-- Reads a layer. -/
def reader : Reader Layer := (format .streamed).read .streamed

/-- The members of a layer in the compact form. -/
def memberTexts (layer : Layer) : List (String × String) := [
  ("stride_height", sizeText layer.height.stride),
  ("stride_width", sizeText layer.width.stride),
  ("dilation_height", sizeText layer.height.dilation),
  ("dilation_width", sizeText layer.width.dilation),
  ("padding", layer.padding.toText),
  ("input_offset", int32Text layer.inputOffset),
  ("output_offset", int32Text layer.outputOffset),
  ("activation_min", int32Text layer.activation.lowest),
  ("activation_max", int32Text layer.activation.highest)]

/-- A layer in the compact form. -/
def toText (layer : Layer) : String := Compact.record layer.memberTexts

end Layer

namespace DepthwiseLayer

/-- The key of the depth multiplier. -/
def multiplierName : String := "depth_multiplier"

/-- What is read of a depthwise layer. -/
structure Draft where
  /-- The depth multiplier. -/
  depthMultiplier : Option UInt64 := none
  /-- The other members, the last one first, each as the text that starts with its value. -/
  aside : List (String × Bytes) := []

/-- The members of an object up to its end, at most `bound` of them. All but the depth multiplier
are checked and set aside. -/
def memberSteps : Nat → Bool → Draft → Reader Draft
  | 0, _, _ => throw .endInObject
  | bound + 1, first, draft => do
    if ← nextMember first then
      advance
      let name ← text
      if name = multiplierName then
        if draft.depthMultiplier.isSome then throw (.duplicateMember name)
        colon
        let value ← size
        memberSteps bound false { draft with depthMultiplier := some value }
      else
        colon
        let bytes ← get
        checkValue
        memberSteps bound false { draft with aside := (name, bytes) :: draft.aside }
    else return draft

/-- Reads a depthwise layer. -/
def reader : Reader DepthwiseLayer := do
  if (← peekValue) = byte '\x7b' then
    advance
    let bytes ← get
    let draft ← memberSteps (bytes.length + 1) true {}
    let layer ← (Layer.format .setAside).ofAside draft.aside.reverse
    advance
    return { layer with depthMultiplier := draft.depthMultiplier.getD 1 }
  else unwanted "struct DepthwiseParams"

/-- A depthwise layer in the compact form. -/
def toText (layer : DepthwiseLayer) : String :=
  Compact.record (layer.toLayer.memberTexts
    ++ [(multiplierName, sizeText layer.depthMultiplier)])

end DepthwiseLayer

end QuantizedConv
