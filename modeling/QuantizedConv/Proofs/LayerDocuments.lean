import QuantizedConv.Proofs.RecordSpellings
import QuantizedConv.Window.Format

/-!
# Shapes and layers as they are written

What is written of a shape, a padding or a layer spells it, with any blanks between its tokens. A
depthwise layer is written as one object; its reader takes the multiplier and sets the other members
aside, and those fill the draft of a layer (`Layer.fills_of`) as they do when a layer is read as it
comes.
-/

set_option autoImplicit false

namespace QuantizedConv

open Document

namespace Shape

/-- The texts of a shape. -/
def texts (s : Shape) : Set Bytes := listTexts (s.dims.map fun n => {bytesOf (sizeText n)})

/-- The compact text of a shape is among its texts. -/
theorem toText_mem_texts (s : Shape) : bytesOf s.toText ∈ s.texts :=
  compactList_mem_listTexts sizeText s.dims

/-- Every text of a shape is read as the shape. -/
theorem spells_of_mem {s : Shape} {bytes : Bytes} (h : bytes ∈ s.texts) :
    Spells Shape.reader bytes s := (spells_of_mem_listTexts spells_size h).map Shape.mk

/-- The compact text of a shape is read as the shape. -/
theorem spells (s : Shape) : Spells Shape.reader (bytesOf s.toText) s :=
  spells_of_mem s.toText_mem_texts

end Shape

/-- The text of a padding scheme is read as the scheme. -/
theorem PaddingScheme.spells (scheme : PaddingScheme) :
    Spells PaddingScheme.reader (bytesOf scheme.toText) scheme := by
  cases scheme with
  | same => exact spells_variant (by decide) rfl
  | valid => exact spells_variant (by decide) rfl

namespace Padding

/-- The text of a padding is the object of its members. -/
theorem objectText (p : Padding) : ObjectText (entriesOf p.memberTexts) (bytesOf p.toText) :=
  objectText_compact (show ∀ name ∈ ["height", "width"], Plain name by decide)

/-- The members of a padding fill its draft. -/
theorem fills (p : Padding) :
    Fills format (entriesOf p.memberTexts) {} { height := some p.height, width := some p.width } :=
  .store rfl rfl (spells_size p.height) <|
  .store rfl rfl (spells_size p.width) <| .done _

/-- The texts of a padding. -/
def texts (p : Padding) : Set Bytes :=
  objectTexts [("height", {bytesOf (sizeText p.height)}), ("width", {bytesOf (sizeText p.width)})]

/-- The compact text of a padding is among its texts. -/
theorem toText_mem_texts (p : Padding) : bytesOf p.toText ∈ p.texts :=
  ⟨_, .cons rfl (.cons rfl .nil), p.objectText⟩

/-- Every text of a padding is read as the padding, however it is delivered. -/
theorem spells_of_mem (delivery : Delivery) {p : Padding} {bytes : Bytes} (h : bytes ∈ p.texts) :
    Spells (format.read delivery) bytes p := by
  obtain ⟨_, _ | ⟨rfl, _ | ⟨rfl, ⟨⟩⟩⟩, htext⟩ := h
  exact p.fills.spells rfl htext delivery

/-- The compact text of a padding is read as the padding, however it is delivered. -/
theorem spells (delivery : Delivery) (p : Padding) :
    Spells (format.read delivery) (bytesOf p.toText) p := spells_of_mem delivery p.toText_mem_texts

/-- A padding passes the check of members that are set aside. -/
theorem scans (p : Padding) : Scans checkRules 1 (bytesOf p.toText) := by
  refine scans_object p.objectText (fun e he => ?_) (fun e he => ?_)
  · have hname : e.1 ∈ ["height", "width"] := List.mem_map_of_mem he
    exact checkRules_string ((show ∀ name ∈ ["height", "width"], Plain name by decide) _ hname)
  · simp only [memberTexts, entriesOf, List.map_cons, List.map_nil, List.mem_cons,
      List.not_mem_nil, or_false] at he
    rcases he with rfl | rfl
    · exact scans_size 0 p.height
    · exact scans_size 0 p.width

end Padding

namespace Layer

/-- The names of the members of a layer. -/
def memberNames : List String :=
  ["stride_height", "stride_width", "dilation_height", "dilation_width", "padding", "input_offset",
    "output_offset", "activation_min", "activation_max"]

/-- The draft of a layer that has all members. -/
def fullDraft (layer : Layer) : Draft where
  strideHeight := some layer.height.stride
  strideWidth := some layer.width.stride
  dilationHeight := some layer.height.dilation
  dilationWidth := some layer.width.dilation
  padding := some layer.padding
  inputOffset := some layer.inputOffset
  outputOffset := some layer.outputOffset
  activationMin := some layer.activation.lowest
  activationMax := some layer.activation.highest

/-- **The members of a layer fill its draft**, read as they come or set aside. -/
theorem fills_of {delivery : Delivery} {layer : Layer} {padding : Bytes}
    (hpadding : Spells (Padding.format.read delivery) padding layer.padding) :
    Fills (format delivery)
      [("stride_height", bytesOf (sizeText layer.height.stride)),
        ("stride_width", bytesOf (sizeText layer.width.stride)),
        ("dilation_height", bytesOf (sizeText layer.height.dilation)),
        ("dilation_width", bytesOf (sizeText layer.width.dilation)), ("padding", padding),
        ("input_offset", bytesOf (int32Text layer.inputOffset)),
        ("output_offset", bytesOf (int32Text layer.outputOffset)),
        ("activation_min", bytesOf (int32Text layer.activation.lowest)),
        ("activation_max", bytesOf (int32Text layer.activation.highest))] {} layer.fullDraft :=
  .store rfl rfl (spells_size layer.height.stride) <|
  .store rfl rfl (spells_size layer.width.stride) <|
  .store rfl rfl (spells_size layer.height.dilation) <|
  .store rfl rfl (spells_size layer.width.dilation) <|
  .store rfl rfl hpadding <|
  .store rfl rfl (spells_int32 layer.inputOffset) <|
  .store rfl rfl (spells_int32 layer.outputOffset) <|
  .store rfl rfl (spells_int32 layer.activation.lowest) <|
  .store rfl rfl (spells_int32 layer.activation.highest) <| .done _

/-- The members of a layer fill its draft. -/
theorem fills (delivery : Delivery) (layer : Layer) :
    Fills (format delivery) (entriesOf layer.memberTexts) {} layer.fullDraft :=
  fills_of (layer.padding.spells delivery)

/-- The texts of a layer. -/
def texts (layer : Layer) : Set Bytes :=
  objectTexts [("stride_height", {bytesOf (sizeText layer.height.stride)}),
    ("stride_width", {bytesOf (sizeText layer.width.stride)}),
    ("dilation_height", {bytesOf (sizeText layer.height.dilation)}),
    ("dilation_width", {bytesOf (sizeText layer.width.dilation)}),
    ("padding", layer.padding.texts),
    ("input_offset", {bytesOf (int32Text layer.inputOffset)}),
    ("output_offset", {bytesOf (int32Text layer.outputOffset)}),
    ("activation_min", {bytesOf (int32Text layer.activation.lowest)}),
    ("activation_max", {bytesOf (int32Text layer.activation.highest)})]

/-- The compact text of a layer is among its texts. -/
theorem toText_mem_texts (layer : Layer) : bytesOf layer.toText ∈ layer.texts := by
  have hobject : ObjectText (entriesOf layer.memberTexts) (bytesOf layer.toText) :=
    objectText_compact (show ∀ name ∈ memberNames, Plain name by decide)
  exact ⟨_, .cons rfl <| .cons rfl <| .cons rfl <| .cons rfl <|
    .cons layer.padding.toText_mem_texts <| .cons rfl <| .cons rfl <| .cons rfl <| .cons rfl .nil,
    hobject⟩

/-- Every text of a layer is read as the layer. -/
theorem spells_of_mem {layer : Layer} {bytes : Bytes} (h : bytes ∈ layer.texts) :
    Spells Layer.reader bytes layer := by
  obtain ⟨_, _ | ⟨rfl, _ | ⟨rfl, _ | ⟨rfl, _ | ⟨rfl, _ | ⟨hpadding, _ | ⟨rfl, _ | ⟨rfl, _ | ⟨rfl,
    _ | ⟨rfl, ⟨⟩⟩⟩⟩⟩⟩⟩⟩⟩⟩, htext⟩ := h
  exact (fills_of (Padding.spells_of_mem .streamed hpadding)).spells rfl htext .streamed

/-- The compact text of a layer is read as the layer. -/
theorem spells (layer : Layer) : Spells Layer.reader (bytesOf layer.toText) layer :=
  spells_of_mem layer.toText_mem_texts

/-- The members of a layer pass the check of members that are set aside. -/
theorem scans_members (layer : Layer) :
    ∀ e ∈ entriesOf layer.memberTexts, Scans checkRules 1 e.2 := by
  simp only [memberTexts, entriesOf, List.map_cons, List.map_nil, List.forall_mem_cons,
    List.not_mem_nil, false_implies, implies_true, and_true]
  exact ⟨scans_size 1 _, scans_size 1 _, scans_size 1 _, scans_size 1 _, layer.padding.scans,
    scans_int32 1 _, scans_int32 1 _, scans_int32 1 _, scans_int32 1 _⟩

end Layer

namespace DepthwiseLayer

/-- What a draft has of a depthwise layer: the multiplier, and the members that are set aside. -/
structure Gathered (multiplier : Option UInt64) (entries : List (String × Bytes))
    (draft : Draft) : Prop where
  multiplier : draft.depthMultiplier = multiplier
  aside : List.Forall₂ SetAside entries draft.aside.reverse

/-- The loop over the members of a depthwise layer stops at the end of the object. -/
theorem stopsAtEnd : StopsAtEnd memberSteps := by
  intro bound first draft input rest hnext
  rw [memberSteps, bind_reads hnext]
  rfl

/-- A member of the layer is set aside. -/
theorem extends_aside {name : String} {value item : Bytes} (hitem : MemberText (name, value) item)
    (hname : name ≠ multiplierName) (hvalue : Scans checkRules 1 value)
    (multiplier : Option UInt64) (entries : List (String × Bytes)) :
    Extends memberSteps item (Gathered multiplier entries)
      (Gathered multiplier (entries ++ [(name, value)])) := by
  cases hitem with
  | @mk _ _ gap gap' hplain hgap hgap' =>
    refine ⟨rfl, fun draft hdraft bound first input rest hrest hnext => ?_⟩
    have htext := text_plain hplain (gap ++ byte ':' :: (gap' ++ (value ++ rest)))
    have hcolon := colon_reads hgap (gap' ++ (value ++ rest))
    have hcheck : checkValue (gap' ++ (value ++ rest)) = .ok ((), rest) := by
      rw [checkValue_eq]
      exact hvalue.scan_reads checkRules_admits_one hgap' hrest
    refine ⟨{ draft with aside := (name, gap' ++ (value ++ rest)) :: draft.aside },
      ⟨hdraft.multiplier, ?_⟩, ?_⟩
    · rw [List.reverse_cons]
      exact List.rel_append hdraft.aside (.cons (.mk hgap' hrest) .nil)
    · rw [memberSteps, bind_reads hnext]
      simp only [if_true, List.cons_append, List.append_assoc]
      rw [bind_reads (advance_cons _ _), bind_reads htext]
      simp only [if_neg hname]
      rw [bind_reads hcolon, bind_reads (get_reads _), bind_reads hcheck]

/-- The multiplier is read at once. -/
theorem extends_multiplier {item : Bytes} {n : UInt64}
    (hitem : MemberText (multiplierName, bytesOf (sizeText n)) item)
    (entries : List (String × Bytes)) :
    Extends memberSteps item (Gathered none entries) (Gathered (some n) entries) := by
  cases hitem with
  | @mk _ _ gap gap' hplain hgap hgap' =>
    refine ⟨rfl, fun draft hdraft bound first input rest hrest hnext => ?_⟩
    have htext := text_plain hplain (gap ++ byte ':' :: (gap' ++ (bytesOf (sizeText n) ++ rest)))
    have hcolon := colon_reads hgap (gap' ++ (bytesOf (sizeText n) ++ rest))
    have hsize := (spells_size n).reads gap' rest hgap' hrest
    refine ⟨{ draft with depthMultiplier := some n }, ⟨rfl, hdraft.aside⟩, ?_⟩
    rw [memberSteps, bind_reads hnext]
    simp only [if_true, List.cons_append, List.append_assoc]
    rw [bind_reads (advance_cons _ _), bind_reads htext]
    simp only [if_true, hdraft.multiplier, Option.isSome_none, Bool.false_eq_true, if_false]
    rw [bind_reads hcolon, bind_reads hsize]

/-- The members of a layer and the multiplier behind them. -/
theorem chain {n : UInt64} {entries : List (String × Bytes)} {items : List Bytes}
    (taken : List (String × Bytes)) (hnames : ∀ e ∈ entries, e.1 ≠ multiplierName)
    (hvalues : ∀ e ∈ entries, Scans checkRules 1 e.2)
    (hitems : List.Forall₂ MemberText (entries ++ [(multiplierName, bytesOf (sizeText n))]) items) :
    Chain memberSteps items (Gathered none taken) (Gathered (some n) (taken ++ entries)) := by
  induction entries generalizing taken items with
  | nil =>
    obtain _ | ⟨hitem, hnone⟩ := hitems
    cases hnone
    rw [List.append_nil]
    exact .member (extends_multiplier hitem taken) (.done _)
  | cons entry entries ih =>
    obtain _ | ⟨hitem, hitems⟩ := hitems
    rw [List.forall_mem_cons] at hnames hvalues
    have hrest := ih (taken ++ [entry]) hnames.2 hvalues.2 hitems
    rw [List.append_assoc, List.singleton_append] at hrest
    exact .member (extends_aside hitem hnames.1 hvalues.1 none taken) hrest

/-- The text of a depthwise layer is the object of the members of its layer and the multiplier. -/
theorem objectText (layer : DepthwiseLayer) :
    ObjectText (entriesOf layer.toLayer.memberTexts
      ++ [(multiplierName, bytesOf (sizeText layer.depthMultiplier))]) (bytesOf layer.toText) :=
  objectText_compact (show ∀ name ∈ Layer.memberNames ++ [multiplierName], Plain name by decide)

/-- The text of a depthwise layer is read as the layer. -/
theorem spells (layer : DepthwiseLayer) :
    Spells DepthwiseLayer.reader (bytesOf layer.toText) layer := by
  obtain ⟨items, body, hbytes, hitems, hbody⟩ := layer.objectText
  have hnames : ∀ e ∈ entriesOf layer.toLayer.memberTexts, e.1 ≠ multiplierName := fun e he =>
    (show ∀ name ∈ Layer.memberNames, name ≠ multiplierName by decide) e.1
      (List.mem_map_of_mem he)
  have hchain := chain [] hnames layer.toLayer.scans_members hitems
  rw [hbytes]
  refine Spells.of_skipsBlanks ⟨by decide, by decide⟩ (skipsBlanks_peekValue.bind _)
    fun rest _ => ?_
  have hblank : Gathered none [] {} := ⟨rfl, .nil⟩
  obtain ⟨draft, hdraft, hrun⟩ := hchain.reads stopsAtEnd hbody hblank rest
  have hlayer : (Layer.format .setAside).ofAside draft.aside.reverse = .ok layer.toLayer :=
    (layer.toLayer.fills .setAside).ofAside rfl hdraft.aside
  rw [DepthwiseLayer.reader, List.cons_append, bind_reads (peekValue_cons (by decide) _)]
  simp only [if_true]
  rw [bind_reads (advance_cons _ _), bind_reads (get_reads _), bind_reads hrun, hlayer,
    bind_reads rfl, bind_reads (advance_cons _ _), hdraft.multiplier]
  rfl

end DepthwiseLayer

end QuantizedConv
