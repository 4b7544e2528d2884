import QuantizedConv.Case.Format
import QuantizedConv.Proofs.LayerDocuments

/-!
# The spellings of a case

A case is read member by member, and what its draft has after some members depends on their names
only, not on their order (`Case.draftOf`). The draft gives the case as soon as the members that are
not there have their default values. So all documents with the fields of a case (`Case.Spelled`), in
any order and among any other members, or in a list, are read as that case.
-/

set_option autoImplicit false

namespace QuantizedConv

open Document

/-- The text of a kind is read as the kind. -/
theorem CaseKind.spells (kind : CaseKind) :
    Spells CaseKind.reader (bytesOf kind.toText) kind := by
  cases kind with
  | conv => exact spells_variant (by decide) rfl
  | depthwise => exact spells_variant (by decide) rfl

/-- The text of an element type is read as the element type. -/
theorem ElementType.spells (element : ElementType) :
    Spells ElementType.reader (bytesOf element.toText) element := by
  cases element with
  | i8 => exact spells_variant (by decide) rfl
  | u8 => exact spells_variant (by decide) rfl

section Int32Lists

/-- The texts of a list of 32-bit integers. -/
def int32ListTexts (xs : List Int32) : Set Bytes :=
  listTexts (xs.map fun n => {bytesOf (int32Text n)})

/-- The compact text of a list of integers is among its texts. -/
theorem int32ListText_mem_texts (xs : List Int32) :
    bytesOf (int32ListText xs) ∈ int32ListTexts xs := compactList_mem_listTexts int32Text xs

/-- Every text of a list of integers is read as the list. -/
theorem spells_int32List_of_mem {xs : List Int32} {bytes : Bytes} (h : bytes ∈ int32ListTexts xs) :
    Spells int32List bytes xs := spells_of_mem_listTexts spells_int32 h

/-- The compact text of a list of integers is read as the list. -/
theorem spells_int32List (xs : List Int32) : Spells int32List (bytesOf (int32ListText xs)) xs :=
  spells_int32List_of_mem (int32ListText_mem_texts xs)

end Int32Lists

namespace Case

section Drafts

/-- The names of the members of a case. -/
def memberNames : List String :=
  ["kind", "element", "params", "depth_multiplier", "input_shape", "input", "filter_shape",
    "filter", "bias_shape", "bias", "output_shape", "output_multiplier", "output_shift", "expected"]

/-- The draft of a case with the members of certain names. -/
def draftOf (c : Case) (names : List String) : Draft where
  kind := if "kind" ∈ names then some c.kind else none
  element := if "element" ∈ names then some c.element else none
  layer := if "params" ∈ names then some c.layer else none
  depthMultiplier := if "depth_multiplier" ∈ names then some c.depthMultiplier else none
  inputShape := if "input_shape" ∈ names then some c.inputShape else none
  input := if "input" ∈ names then some c.input else none
  filterShape := if "filter_shape" ∈ names then some c.filterShape else none
  filter := if "filter" ∈ names then some c.filter else none
  biasShape := if "bias_shape" ∈ names then some c.biasShape else none
  bias := if "bias" ∈ names then some c.bias else none
  outputShape := if "output_shape" ∈ names then some c.outputShape else none
  outputMultiplier := if "output_multiplier" ∈ names then some c.outputMultiplier else none
  outputShift := if "output_shift" ∈ names then some c.outputShift else none
  expected := if "expected" ∈ names then some c.expected else none

/-- The bytes of a value that a case has under a name. -/
inductive Entry (c : Case) : String × Bytes → Prop
  | kind {value : Bytes} (h : Spells CaseKind.reader value c.kind) : Entry c ("kind", value)
  | element {value : Bytes} (h : Spells ElementType.reader value c.element) :
      Entry c ("element", value)
  | layer {value : Bytes} (h : Spells Layer.reader value c.layer) : Entry c ("params", value)
  | depthMultiplier {value : Bytes} (h : Spells size value c.depthMultiplier) :
      Entry c ("depth_multiplier", value)
  | inputShape {value : Bytes} (h : Spells Shape.reader value c.inputShape) :
      Entry c ("input_shape", value)
  | input {value : Bytes} (h : Spells int32List value c.input) : Entry c ("input", value)
  | filterShape {value : Bytes} (h : Spells Shape.reader value c.filterShape) :
      Entry c ("filter_shape", value)
  | filter {value : Bytes} (h : Spells int32List value c.filter) : Entry c ("filter", value)
  | biasShape {value : Bytes} (h : Spells (optional Shape.reader) value c.biasShape) :
      Entry c ("bias_shape", value)
  | bias {value : Bytes} (h : Spells (optional int32List) value c.bias) : Entry c ("bias", value)
  | outputShape {value : Bytes} (h : Spells Shape.reader value c.outputShape) :
      Entry c ("output_shape", value)
  | outputMultiplier {value : Bytes} (h : Spells int32List value c.outputMultiplier) :
      Entry c ("output_multiplier", value)
  | outputShift {value : Bytes} (h : Spells int32List value c.outputShift) :
      Entry c ("output_shift", value)
  | expected {value : Bytes} (h : Spells (optional int32List) value c.expected) :
      Entry c ("expected", value)

/-- Reading a member adds its name to those that the draft has. -/
theorem Entry.reads {c : Case} {entry : String × Bytes} (hentry : c.Entry entry)
    {names : List String} (hnew : entry.1 ∉ names) :
    ∃ m, format.find? entry.1 = some m ∧ m.present (c.draftOf names) = false ∧
      Spells (m.read (c.draftOf names)) entry.2 (c.draftOf (entry.1 :: names)) := by
  -- for each member, the draft with its field stored is the draft with its name added
  cases hentry with
  | _ h => exact exists_member_store rfl (if_neg hnew) h (by simp [draftOf])

/-- No other member has a reader in the format of a case. -/
theorem find?_eq_none {name : String} (h : name ∉ memberNames) : format.find? name = none := by
  rw [Record.find?, List.find?_eq_none]
  intro m hm hname
  have hmem : m.name ∈ memberNames := List.mem_map_of_mem hm
  rw [of_decide_eq_true hname] at hmem
  exact h hmem

/-- The names of the members that the format knows. -/
def knownNames (entries : List (String × Bytes)) : List String :=
  (entries.map Prod.fst).filter (· ∈ memberNames)

/-- **Members fill the draft of a case** in any order, if no known name comes twice. -/
theorem gathers {c : Case} {entries : List (String × Bytes)}
    (hknown : ∀ e ∈ entries, e.1 ∈ memberNames → c.Entry e)
    (hunknown : ∀ e ∈ entries, e.1 ∉ memberNames → JsonText e.2) {names : List String}
    (hnames : ((knownNames entries).reverse ++ names).Nodup) :
    Gathers format entries (c.draftOf names)
      (c.draftOf ((knownNames entries).reverse ++ names)) := by
  induction entries generalizing names with
  | nil => exact .done _
  | cons entry entries ih =>
    rw [List.forall_mem_cons] at hknown hunknown
    by_cases hname : entry.1 ∈ memberNames
    · have hcons : knownNames (entry :: entries) = entry.1 :: knownNames entries :=
        List.filter_cons_of_pos (decide_eq_true hname)
      rw [hcons, List.reverse_cons, List.append_assoc, List.singleton_append] at hnames ⊢
      have hnew : entry.1 ∉ names := (List.nodup_cons.mp hnames.of_append_right).1
      obtain ⟨m, hfind, hpresent, hread⟩ := (hknown.1 hname).reads hnew
      exact .known hfind hpresent hread (ih hknown.2 hunknown.2 hnames)
    · have hskip : knownNames (entry :: entries) = knownNames entries :=
        List.filter_cons_of_neg (by simpa using hname)
      rw [hskip] at hnames ⊢
      exact .unknown (find?_eq_none hname) (hunknown.1 hname) (ih hknown.2 hunknown.2 hnames)

/-- All members in their order fill the draft too. -/
theorem fillsInOrder {c : Case} {members : List (Member Draft)} {values : List Bytes}
    (hfind : ∀ m ∈ members, format.find? m.name = some m)
    (hvalues : List.Forall₂ (fun name value => c.Entry (name, value)) (members.map Member.name)
      values)
    {names : List String} (hnames : ((members.map Member.name).reverse ++ names).Nodup) :
    FillsInOrder members values (c.draftOf names)
      (c.draftOf ((members.map Member.name).reverse ++ names)) := by
  induction members generalizing values names with
  | nil =>
    cases hvalues
    exact .done _
  | cons m members ih =>
    obtain _ | ⟨hentry, hvalues⟩ := hvalues
    rw [List.forall_mem_cons] at hfind
    rw [List.map_cons, List.reverse_cons, List.append_assoc, List.singleton_append] at hnames ⊢
    have hnew : m.name ∉ names := (List.nodup_cons.mp hnames.of_append_right).1
    obtain ⟨m', hfind', _, hread⟩ := hentry.reads hnew
    obtain rfl : m = m' := Option.some.inj (hfind.1.symm.trans hfind')
    exact .element hread (ih hfind.2 hvalues hnames)

/-- A member that may be left out, since its value is the default. -/
def MayOmit (c : Case) (name : String) : Prop :=
  (name = "element" ∧ c.element = .i8) ∨ (name = "params" ∧ c.layer = {}) ∨
    (name = "depth_multiplier" ∧ c.depthMultiplier = 1) ∨
    (name = "bias_shape" ∧ c.biasShape = none) ∨ (name = "bias" ∧ c.bias = none) ∨
    (name = "expected" ∧ c.expected = none)

/-- A member that is there, or that has the default value, is read as its value. -/
theorem getD_ite {α : Type} {p : Prop} [Decidable p] {x standard : α} (h : p ∨ x = standard) :
    (if p then some x else none).getD standard = x := by
  rcases h with hp | rfl
  · rw [if_pos hp]
    rfl
  · split <;> rfl

/-- A draft gives the case if all that it lacks may be left out. -/
theorem case_draftOf {c : Case} {names : List String}
    (h : ∀ name ∈ memberNames, name ∈ names ∨ c.MayOmit name) :
    (c.draftOf names).case = .ok c := by
  simp only [memberNames, MayOmit, List.forall_mem_cons, String.reduceEq, false_and, true_and,
    or_false, false_or, List.not_mem_nil, false_implies, implies_true, and_true] at h
  obtain ⟨hkind, helement, hlayer, hmultiplier, hinputShape, hinput, hfilterShape, hfilter,
    hbiasShape, hbias, houtputShape, houtputMultiplier, houtputShift, hexpected⟩ := h
  simp only [Draft.case, draftOf, if_pos hkind, if_pos hinputShape, if_pos hinput,
    if_pos hfilterShape, if_pos hfilter, if_pos houtputShape, if_pos houtputMultiplier,
    if_pos houtputShift, getD_ite helement, getD_ite hlayer, getD_ite hmultiplier,
    getD_ite hbiasShape, getD_ite hbias, getD_ite hexpected]
  rfl

end Drafts

section Fields

/-- The fields of a case in their order, with the texts of their values. -/
def fieldTexts (c : Case) : List (String × Set Bytes) :=
  [("kind", {bytesOf c.kind.toText}), ("element", {bytesOf c.element.toText}),
    ("params", c.layer.texts), ("depth_multiplier", {bytesOf (sizeText c.depthMultiplier)}),
    ("input_shape", c.inputShape.texts), ("input", int32ListTexts c.input),
    ("filter_shape", c.filterShape.texts), ("filter", int32ListTexts c.filter),
    ("bias_shape", nullableTexts Shape.texts c.biasShape),
    ("bias", nullableTexts int32ListTexts c.bias), ("output_shape", c.outputShape.texts),
    ("output_multiplier", int32ListTexts c.outputMultiplier),
    ("output_shift", int32ListTexts c.outputShift),
    ("expected", nullableTexts int32ListTexts c.expected)]

/-- A field of a case: its name and a text of its value. -/
def FieldText (c : Case) (entry : String × Bytes) : Prop :=
  ∃ texts, (entry.1, texts) ∈ c.fieldTexts ∧ entry.2 ∈ texts

/-- Every text of an optional shape is read as it. -/
theorem spells_nullableShape {value : Option Shape} {bytes : Bytes}
    (h : bytes ∈ nullableTexts Shape.texts value) : Spells (optional Shape.reader) bytes value :=
  spells_of_mem_nullableTexts h (fun _ => head_listTexts) fun _ => Shape.spells_of_mem

/-- Every text of an optional list is read as it. -/
theorem spells_nullableList {value : Option (List Int32)} {bytes : Bytes}
    (h : bytes ∈ nullableTexts int32ListTexts value) : Spells (optional int32List) bytes value :=
  spells_of_mem_nullableTexts h (fun _ => head_listTexts) fun _ => spells_int32List_of_mem

/-- A text of a field is an entry that the draft of the case takes up. -/
theorem FieldText.entry {c : Case} {entry : String × Bytes} (h : c.FieldText entry) :
    c.Entry entry := by
  obtain ⟨name, value⟩ := entry
  obtain ⟨texts, hfield, hvalue⟩ := h
  simp only [fieldTexts, List.mem_cons, Prod.mk.injEq, List.not_mem_nil, or_false] at hfield
  rcases hfield with ⟨rfl, rfl⟩ | ⟨rfl, rfl⟩ | ⟨rfl, rfl⟩ | ⟨rfl, rfl⟩ | ⟨rfl, rfl⟩ | ⟨rfl, rfl⟩ |
    ⟨rfl, rfl⟩ | ⟨rfl, rfl⟩ | ⟨rfl, rfl⟩ | ⟨rfl, rfl⟩ | ⟨rfl, rfl⟩ | ⟨rfl, rfl⟩ | ⟨rfl, rfl⟩ |
    ⟨rfl, rfl⟩
  · obtain rfl : value = bytesOf c.kind.toText := hvalue
    exact .kind c.kind.spells
  · obtain rfl : value = bytesOf c.element.toText := hvalue
    exact .element c.element.spells
  · exact .layer (Layer.spells_of_mem hvalue)
  · obtain rfl : value = bytesOf (sizeText c.depthMultiplier) := hvalue
    exact .depthMultiplier (spells_size c.depthMultiplier)
  · exact .inputShape (Shape.spells_of_mem hvalue)
  · exact .input (spells_int32List_of_mem hvalue)
  · exact .filterShape (Shape.spells_of_mem hvalue)
  · exact .filter (spells_int32List_of_mem hvalue)
  · exact .biasShape (spells_nullableShape hvalue)
  · exact .bias (spells_nullableList hvalue)
  · exact .outputShape (Shape.spells_of_mem hvalue)
  · exact .outputMultiplier (spells_int32List_of_mem hvalue)
  · exact .outputShift (spells_int32List_of_mem hvalue)
  · exact .expected (spells_nullableList hvalue)

/-- The members that are written come in the order of the format, and what is not written may be
left out. -/
theorem names_memberTexts (c : Case) :
    (c.memberTexts.map Prod.fst).Sublist memberNames ∧
      ∀ name ∈ memberNames, name ∈ c.memberTexts.map Prod.fst ∨ c.MayOmit name := by
  obtain ⟨kind, element, layer, multiplier, inputShape, input, filterShape, filter, biasShape, bias,
    outputShape, outputMultiplier, outputShift, expected⟩ := c
  cases biasShape <;> cases bias <;> cases expected <;>
    simp [memberTexts, memberNames, optionalMember, MayOmit]

/-- An optional member is written as a text of its field, where it is written at all. -/
theorem fieldText_optionalMember {c : Case} {β : Type} {name : String} {valueText : β → String}
    {texts : β → Set Bytes} {value : Option β}
    (hfield : (name, nullableTexts texts value) ∈ c.fieldTexts)
    (htexts : ∀ x, bytesOf (valueText x) ∈ texts x) :
    ∀ e ∈ entriesOf (optionalMember name (value.map valueText)), c.FieldText e := by
  intro e he
  cases value with
  | none => cases he
  | some x =>
    obtain rfl := List.mem_singleton.mp he
    exact ⟨_, hfield, htexts x⟩

/-- Every member of the text of a case is a text of its field. -/
theorem fieldText_memberTexts (c : Case) : ∀ e ∈ entriesOf c.memberTexts, c.FieldText e := by
  have hbiasShape : ∀ e ∈ entriesOf (optionalMember "bias_shape" (c.biasShape.map Shape.toText)),
      c.FieldText e := fieldText_optionalMember (by simp [fieldTexts]) Shape.toText_mem_texts
  have hbias : ∀ e ∈ entriesOf (optionalMember "bias" (c.bias.map int32ListText)),
      c.FieldText e := fieldText_optionalMember (by simp [fieldTexts]) int32ListText_mem_texts
  have hexpected : ∀ e ∈ entriesOf (optionalMember "expected" (c.expected.map int32ListText)),
      c.FieldText e := fieldText_optionalMember (by simp [fieldTexts]) int32ListText_mem_texts
  simp only [entriesOf, memberTexts, List.map_append, List.forall_mem_append] at *
  refine ⟨⟨⟨⟨?_, hbiasShape⟩, hbias⟩, ?_⟩, hexpected⟩
  · simp [FieldText, fieldTexts, Layer.toText_mem_texts, Shape.toText_mem_texts,
      int32ListText_mem_texts]
  · simp [FieldText, fieldTexts, Shape.toText_mem_texts, int32ListText_mem_texts]

end Fields

section Spellings

/-- **Members that describe a case**, each the bytes of a value under a name: its fields, none of them
twice and all that may not be left out, and other members of any names and values. -/
structure Describes (c : Case) (entries : List (String × Bytes)) : Prop where
  fields : ∀ e ∈ entries, e.1 ∈ memberNames → c.FieldText e
  others : ∀ e ∈ entries, e.1 ∉ memberNames → JsonText e.2
  once : (knownNames entries).Nodup
  all : ∀ name ∈ memberNames, name ∈ entries.map Prod.fst ∨ c.MayOmit name

/-- **The documents of a case**, with any blanks: an object whose members describe it, or the list of
its fields in their order. -/
inductive Spelled (c : Case) : Bytes → Prop
  | object {gap body gap' : Bytes} {entries : List (String × Bytes)} {items : List Bytes}
      (hgap : Blank gap) (hgap' : Blank gap') (hentries : c.Describes entries)
      (hitems : List.Forall₂ NamedText entries items)
      (hbody : Enclosed (byte '\x7d') items body) :
      Spelled c (gap ++ (byte '\x7b' :: body ++ gap'))
  | list {gap bytes gap' : Bytes} (hgap : Blank gap) (hgap' : Blank gap')
      (hlist : bytes ∈ listTexts (c.fieldTexts.map Prod.snd)) : Spelled c (gap ++ (bytes ++ gap'))

/-- An object whose entries describe a case is read as the case. -/
theorem Describes.spells {c : Case} {entries : List (String × Bytes)} (h : c.Describes entries)
    {items : List Bytes} {body : Bytes} (hitems : List.Forall₂ NamedText entries items)
    (hbody : Enclosed (byte '\x7d') items body) :
    Spells Case.reader (byte '\x7b' :: body) c := by
  have hnames : ((knownNames entries).reverse ++ []).Nodup := by
    rw [List.append_nil]
    exact List.nodup_reverse.mpr h.once
  have hfinish : (c.draftOf ((knownNames entries).reverse ++ [])).case = .ok c := by
    refine case_draftOf fun name hname => ?_
    rw [List.append_nil, List.mem_reverse, knownNames, List.mem_filter, decide_eq_true_iff]
    exact (h.all name hname).imp_left fun hmem => ⟨hmem, hname⟩
  have hgathers := gathers (fun e he hname => (h.fields e he hname).entry) h.others hnames
  exact hgathers.spells hfinish hitems hbody .streamed

/-- A list of the fields of a case, in their order, is read as the case. -/
theorem spells_fieldList {c : Case} {bytes : Bytes}
    (h : bytes ∈ listTexts (c.fieldTexts.map Prod.snd)) : Spells Case.reader bytes c := by
  obtain ⟨values, body, rfl, hvalues, hbody⟩ := h
  have hdistinct : (members.map Member.name).Nodup := show memberNames.Nodup by decide
  have hentries : List.Forall₂ (fun name value => c.Entry (name, value))
      (c.fieldTexts.map Prod.fst) values := by
    rw [List.forall₂_map_right_iff] at hvalues
    rw [List.forall₂_map_left_iff]
    have hmem := (List.forall₂_and_left _ _).mpr ⟨fun _ hfield => hfield, hvalues.flip⟩
    exact hmem.imp fun field value h => FieldText.entry ⟨field.2, h⟩
  have hnames : ((members.map Member.name).reverse ++ []).Nodup := by
    rw [List.append_nil]
    exact List.nodup_reverse.mpr hdistinct
  have hfinish : (c.draftOf ((members.map Member.name).reverse ++ [])).case = .ok c := by
    refine case_draftOf fun name hname => .inl ?_
    rw [List.append_nil, List.mem_reverse]
    exact hname
  have hfills := fillsInOrder (fun m hm => find?_name_of_mem hdistinct hm) hentries hnames
  exact hfills.spells hfinish hbody

/-- The members of the text of a case describe it. -/
theorem describes_memberTexts (c : Case) : c.Describes (entriesOf c.memberTexts) := by
  obtain ⟨hsublist, hall⟩ := c.names_memberTexts
  have hnames : (entriesOf c.memberTexts).map Prod.fst = c.memberTexts.map Prod.fst := by
    rw [entriesOf, List.map_map]
    rfl
  refine ⟨fun e he _ => c.fieldText_memberTexts e he, fun e he hname => ?_, ?_, ?_⟩
  · have hmem : e.1 ∈ c.memberTexts.map Prod.fst := hnames ▸ List.mem_map_of_mem he
    exact absurd (hsublist.subset hmem) hname
  · rw [knownNames, hnames]
    exact (hsublist.nodup (by decide)).filter _
  · rwa [hnames]

/-- The text of a case is the object of its members. -/
theorem objectText (c : Case) : ObjectText (entriesOf c.memberTexts) (bytesOf c.toText) :=
  objectText_compact fun name hname =>
    (show ∀ name ∈ memberNames, Plain name by decide) name (c.names_memberTexts.1.subset hname)

/-- The text of a case is read as the case. -/
theorem spells (c : Case) : Spells Case.reader (bytesOf c.toText) c := by
  obtain ⟨items, body, hbytes, hitems, hbody⟩ := c.objectText.named
  rw [hbytes]
  exact c.describes_memberTexts.spells hitems hbody

/-- An object whose entries describe a case is one of its spellings. -/
theorem Describes.spelled {c : Case} {entries : List (String × Bytes)} {bytes : Bytes}
    (h : c.Describes entries) (htext : ObjectText entries bytes) : c.Spelled bytes := by
  obtain ⟨items, body, rfl, hitems, hbody⟩ := htext.named
  have hspelled := Spelled.object blank_nil blank_nil h hitems hbody
  rwa [List.nil_append, List.append_nil] at hspelled

/-- Every spelling of a case is a document of that case. -/
theorem Spelled.ofBytes {c : Case} {bytes : Bytes} (h : c.Spelled bytes) :
    Case.ofBytes bytes = .ok c := by
  cases h with
  | object hgap hgap' hentries hitems hbody => exact (hentries.spells hitems hbody).whole hgap hgap'
  | list hgap hgap' hlist => exact (spells_fieldList hlist).whole hgap hgap'

/-- **Every spelling of a case is read as that case**, and the compact form is one of them. -/
theorem every_spelling_read (c : Case) :
    c.Spelled (bytesOf c.toText) ∧
      ∀ text : String, c.Spelled (bytesOf text) → Case.ofText text = .ok c :=
  ⟨c.describes_memberTexts.spelled c.objectText, fun _ htext => htext.ofBytes⟩

/-- A case without data but for one weight. -/
def vacant : Case where
  kind := .conv
  element := .i8
  layer := {}
  depthMultiplier := 1
  inputShape := ⟨[1, 0]⟩
  input := []
  filterShape := ⟨[]⟩
  filter := [-3]
  biasShape := none
  bias := none
  outputShape := ⟨[]⟩
  outputMultiplier := []
  outputShift := []
  expected := none

/-- The members of the case out of order, without those that may be left out, one of them null, and
another member among them. -/
def scattered : List (String × String) :=
  [("output_shift", "[]"), ("filter", "[ -3]"), ("note", "[-0.5e3]"), ("kind", "\"conv\""),
    ("bias", "null"), ("output_multiplier", "[]"), ("input_shape", "[1,0]"), ("input", "[]"),
    ("filter_shape", "[]"), ("output_shape", "[]")]

/-- The scattered members describe the vacant case. -/
theorem describes_scattered : vacant.Describes (entriesOf scattered) := by
  have hempty : bytesOf "[]" ∈ int32ListTexts [] := int32ListText_mem_texts []
  have hshape : bytesOf "[]" ∈ Shape.texts ⟨[]⟩ := Shape.toText_mem_texts ⟨[]⟩
  have hweight : bytesOf "[ -3]" ∈ int32ListTexts [-3] :=
    ⟨[bytesOf "-3"], _, rfl, .cons rfl .nil, .items blank_space (.close blank_nil)⟩
  have hinput : bytesOf "[1,0]" ∈ Shape.texts ⟨[1, 0]⟩ := Shape.toText_mem_texts ⟨[1, 0]⟩
  have hfraction : FractionText (byte '.' :: [byte '5']) := .some (digitsText_singleton (by decide))
  have hexponent : ExponentText (byte 'e' :: ([] ++ [byte '3'])) :=
    .some (.inl rfl) (.inl rfl) (digitsText_singleton (by decide))
  have hnumber := JsonText.number (.mk (.inr rfl) .zero hfraction hexponent)
  have hnote : JsonText (bytesOf "[-0.5e3]") :=
    .list (List.forall_mem_singleton.mpr hnumber) (.items blank_nil (.close blank_nil))
  refine ⟨?_, ?_, by decide, ?_⟩
  · simp [scattered, entriesOf, memberNames, FieldText, fieldTexts, vacant, nullableTexts,
      CaseKind.toText, nameText, hempty, hshape, hweight, hinput]
  · simp [scattered, entriesOf, memberNames, hnote]
  · simp [scattered, entriesOf, memberNames, MayOmit, vacant]

/-- An indented document with the members scattered. -/
theorem every_spelling_read_scattered :
    vacant.Spelled (bytesOf (Indented.record 0 scattered)) ∧
      Case.ofText (Indented.record 0 scattered) = .ok vacant := by
  have hspelled := describes_scattered.spelled (objectText_indented 0 (by decide))
  exact ⟨hspelled, vacant.every_spelling_read.2 _ hspelled⟩

end Spellings

end Case

end QuantizedConv
