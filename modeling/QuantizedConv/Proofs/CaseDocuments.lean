import QuantizedConv.Proofs.CaseSpellings

/-!
# Documents as they are written

A case record is written with its two members, in the compact or in the indented form. With the
compact forms of cases, layers and their parts, every value of the format is read as it is written.
-/

set_option autoImplicit false

namespace QuantizedConv

open Document

namespace CaseRecord

/-- The two members of a record fill its draft. -/
theorem fills {r : CaseRecord} {shape output : Bytes}
    (hshape : Spells Shape.reader shape r.outputShape)
    (houtput : Spells int32List output r.output) :
    Fills format [("output_shape", shape), ("output", output)] {}
      { outputShape := some r.outputShape, output := some r.output } :=
  .store rfl rfl hshape <| .store rfl rfl houtput <| .done _

/-- The compact text of a record is read as the record. -/
theorem spells (r : CaseRecord) : Spells CaseRecord.reader (bytesOf r.toText) r := by
  have hobject : ObjectText [("output_shape", _), ("output", _)] (bytesOf r.toText) :=
    objectText_compact (show ∀ name ∈ ["output_shape", "output"], Plain name by decide)
  exact (fills r.outputShape.spells (spells_int32List r.output)).spells rfl hobject .streamed

/-- The indented text of a record is read as the record. -/
theorem spells_indented (r : CaseRecord) :
    Spells CaseRecord.reader (bytesOf r.toIndentedText) r := by
  have hobject : ObjectText [("output_shape", _), ("output", _)] (bytesOf r.toIndentedText) :=
    objectText_indented 0 (show ∀ name ∈ ["output_shape", "output"], Plain name by decide)
  have hshape : Spells Shape.reader _ r.outputShape :=
    (spells_indentedList spells_size 1 r.outputShape.dims).map Shape.mk
  exact (fills hshape (spells_indentedList spells_int32 1 r.output)).spells rfl hobject .streamed

end CaseRecord

/-- **Every value of the format is read as it is written**: cases with any members, lists of any
length and numbers of any size, and case records in the compact and in the indented form. -/
theorem documents_round_trip :
    (∀ c : Case, Case.ofText c.toText = .ok c) ∧
    (∀ r : CaseRecord, whole CaseRecord.reader (bytesOf r.toText) = .ok r ∧
      whole CaseRecord.reader (bytesOf r.toIndentedText) = .ok r) ∧
    (∀ layer : Layer, whole Layer.reader (bytesOf layer.toText) = .ok layer) ∧
    (∀ layer : DepthwiseLayer,
      whole DepthwiseLayer.reader (bytesOf layer.toText) = .ok layer) ∧
    (∀ p : Padding, whole (Padding.format.read .streamed) (bytesOf p.toText) = .ok p) ∧
    (∀ scheme : PaddingScheme,
      whole PaddingScheme.reader (bytesOf scheme.toText) = .ok scheme) ∧
    (∀ kind : CaseKind, whole CaseKind.reader (bytesOf kind.toText) = .ok kind) ∧
    (∀ element : ElementType,
      whole ElementType.reader (bytesOf element.toText) = .ok element) ∧
    (∀ s : Shape, whole Shape.reader (bytesOf s.toText) = .ok s) := by
  refine ⟨fun c => c.spells.whole_eq, fun r => ⟨?_, ?_⟩, fun layer => ?_, fun layer => ?_,
    fun p => ?_, fun scheme => ?_, fun kind => ?_, fun element => ?_, fun s => ?_⟩
  · exact r.spells.whole_eq
  · exact r.spells_indented.whole_eq
  · exact layer.spells.whole_eq
  · exact layer.spells.whole_eq
  · exact (p.spells .streamed).whole_eq
  · exact scheme.spells.whole_eq
  · exact kind.spells.whole_eq
  · exact element.spells.whole_eq
  · exact s.spells.whole_eq

end QuantizedConv
