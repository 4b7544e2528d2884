import QuantizedConv.Proofs.PassedValues

/-!
# Other spellings of a record

An object may have members that its format does not know. They are passed over and leave the draft as
it is, so that an object is read by its known members, wherever they stand (`Gathers.spells`). A record
may also be a list of its members in their order, without their names (`FillsInOrder.spells`).
-/

set_option autoImplicit false

namespace QuantizedConv.Document

variable {σ α : Type} {format : Record σ α}

section Objects

/-- The bytes of a member, its name in any spelling. -/
inductive NamedText : String × Bytes → Bytes → Prop
  | mk {name : String} {key value item : Bytes} (hkey : Denotes key (bytesOf name))
      (hitem : KeyedText (key, value) item) : NamedText (name, value) item

/-- A member with its name as it is has its name in one of its spellings. -/
theorem MemberText.named {entry : String × Bytes} {item : Bytes} (h : MemberText entry item) :
    NamedText entry item := by
  obtain ⟨hkeyed, hplain⟩ := h.keyed
  exact .mk (denotes_plain hplain) hkeyed

/-- The members of an object have their names in one of their spellings. -/
theorem ObjectText.named {entries : List (String × Bytes)} {bytes : Bytes}
    (h : ObjectText entries bytes) :
    ∃ items body, bytes = byte '\x7b' :: body ∧ List.Forall₂ NamedText entries items ∧
      Enclosed (byte '\x7d') items body := by
  obtain ⟨items, body, hbytes, hitems, hbody⟩ := h
  exact ⟨items, body, hbytes, hitems.imp fun _ _ hitem => hitem.named, hbody⟩

/-- Members, each the bytes of a value under a name, that take a draft of a record to another. Members
of unknown names leave it as it is. -/
inductive Gathers (format : Record σ α) : List (String × Bytes) → σ → σ → Prop
  | done (draft : σ) : Gathers format [] draft draft
  | known {name : String} {value : Bytes} {m : Member σ} {draft extended last : σ}
      {entries : List (String × Bytes)} (hfind : format.find? name = some m)
      (hnew : m.present draft = false) (hvalue : Spells (m.read draft) value extended)
      (hentries : Gathers format entries extended last) :
      Gathers format ((name, value) :: entries) draft last
  | unknown {name : String} {value : Bytes} {draft last : σ} {entries : List (String × Bytes)}
      (hfind : format.find? name = none) (hvalue : JsonText value)
      (hentries : Gathers format entries draft last) :
      Gathers format ((name, value) :: entries) draft last

/-- Members that fill a draft take it there among members of unknown names too. -/
theorem Fills.gathers {entries : List (String × Bytes)} {draft last : σ}
    (h : Fills format entries draft last) : Gathers format entries draft last := by
  induction h with
  | done draft => exact .done draft
  | member hfind hnew hvalue _ ih => exact .known hfind hnew hvalue ih

/-- A member that the format does not know is passed over. -/
theorem extends_unknown {name : String} {key value item : Bytes} (draft : σ)
    (hitem : KeyedText (key, value) item) (hkey : Denotes key (bytesOf name))
    (hfind : format.find? name = none) (hvalue : JsonText value) :
    Extends format.memberSteps item (draft = ·) (draft = ·) := by
  cases hitem with
  | @mk _ _ gap gap' hgap hgap' =>
    refine ⟨rfl, ?_⟩
    rintro _ rfl bound first input rest hrest hnext
    have htext := text_denotes hkey (gap ++ byte ':' :: (gap' ++ (value ++ rest)))
    have hcolon := colon_reads hgap (gap' ++ (value ++ rest))
    refine ⟨draft, rfl, ?_⟩
    rw [Record.memberSteps, bind_reads hnext]
    simp only [if_true, List.cons_append, List.append_assoc]
    rw [bind_reads (advance_cons _ _), bind_reads htext]
    simp only [hfind]
    rw [bind_reads hcolon, bind_reads (hvalue.passes hgap' hrest)]

/-- Members that take a draft to another do so in the loop over the members, in any spelling. -/
theorem Gathers.chain {entries : List (String × Bytes)} {draft last : σ}
    (hgathers : Gathers format entries draft last) {items : List Bytes}
    (hitems : List.Forall₂ NamedText entries items) :
    Chain format.memberSteps items (draft = ·) (last = ·) := by
  induction hgathers generalizing items with
  | done draft =>
    cases hitems
    exact .done _
  | known hfind hnew hvalue _ ih =>
    obtain _ | ⟨⟨hkey, hitem⟩, hitems⟩ := hitems
    exact .member (extends_keyed hitem hkey hfind hnew hvalue) (ih hitems)
  | unknown hfind hvalue _ ih =>
    obtain _ | ⟨⟨hkey, hitem⟩, hitems⟩ := hitems
    exact .member (extends_unknown _ hitem hkey hfind hvalue) (ih hitems)

/-- **An object spells the record that its known members give.** -/
theorem Gathers.spells {entries : List (String × Bytes)} {items : List Bytes} {body : Bytes}
    {last : σ} {record : α} (hgathers : Gathers format entries format.blank last)
    (hfinish : format.finish last = .ok record) (hitems : List.Forall₂ NamedText entries items)
    (hbody : Enclosed (byte '\x7d') items body) (delivery : Delivery) :
    Spells (format.read delivery) (byte '\x7b' :: body) record :=
  (hgathers.chain hitems).spells hfinish hbody delivery

/-- An object whose members fill the draft of a record is read as the record. -/
theorem Fills.spells {entries : List (String × Bytes)} {last : σ} {record : α} {bytes : Bytes}
    (hfills : Fills format entries format.blank last) (hfinish : format.finish last = .ok record)
    (htext : ObjectText entries bytes) (delivery : Delivery) :
    Spells (format.read delivery) bytes record := by
  obtain ⟨items, body, rfl, hitems, hbody⟩ := htext.named
  exact hfills.gathers.spells hfinish hitems hbody delivery

end Objects

section Lists

/-- A member is found by its name, where no two have the same. -/
theorem find?_name_of_mem {members : List (Member σ)} (hnames : (members.map Member.name).Nodup)
    {m : Member σ} (hm : m ∈ members) : members.find? (fun m' => m'.name = m.name) = some m := by
  induction members with
  | nil => cases hm
  | cons first members ih =>
    rw [List.map_cons, List.nodup_cons] at hnames
    rcases List.mem_cons.mp hm with rfl | hm
    · exact List.find?_cons_of_pos (by simp)
    · have hne : first.name ≠ m.name := fun h => hnames.1 (h ▸ List.mem_map_of_mem hm)
      rw [List.find?_cons_of_neg (by simpa using hne)]
      exact ih hnames.2 hm

/-- Values of members in their order that take a draft of a record to another. -/
inductive FillsInOrder : List (Member σ) → List Bytes → σ → σ → Prop
  | done (draft : σ) : FillsInOrder [] [] draft draft
  | element {m : Member σ} {members : List (Member σ)} {value : Bytes} {values : List Bytes}
      {draft extended last : σ} (hvalue : Spells (m.read draft) value extended)
      (hvalues : FillsInOrder members values extended last) :
      FillsInOrder (m :: members) (value :: values) draft last

/-- The end of a list is read behind blanks. -/
theorem closeList_gap {gap : Bytes} (hgap : Blank gap) (rest : Bytes) :
    closeList (gap ++ byte ']' :: rest) = .ok ((), rest) := by
  have hskips : SkipsBlanks closeList := skipsBlanks_peek.bind _
  rw [hskips gap _ hgap, closeList_reads]

/-- The loop over a list stops behind the last member, in front of the end of the list. -/
theorem FillsInOrder.reads_tail {members : List (Member σ)} {values : List Bytes} {draft last : σ}
    (h : FillsInOrder members values draft last) {tail : Bytes}
    (htail : EnclosedTail (byte ']') values tail) (rest : Bytes) :
    ∃ gap, Blank gap ∧ Record.elementSteps members false draft (tail ++ rest) =
      .ok (last, gap ++ byte ']' :: rest) := by
  induction h generalizing tail with
  | done draft =>
    cases htail with
    | close hgap =>
      refine ⟨_, hgap, ?_⟩
      rw [List.append_assoc, List.singleton_append]
      rfl
  | element hvalue _ ih =>
    cases htail with
    | @item gap gap' _ tail _ hgap hgap' htail =>
      obtain ⟨last, hlast, hrun⟩ := ih htail
      refine ⟨last, hlast, ?_⟩
      have hnext := nextElement_comma hgap hgap' hvalue.starts (tail ++ rest)
      have hreads := hvalue.reads_front (htail.detached (by decide) rest)
      simp only [List.append_assoc, List.cons_append]
      rw [Record.elementSteps, bind_reads hnext]
      simp only [if_true]
      rw [bind_reads hreads, hrun]

/-- Values that fill a draft in the order of the members are read from a list up to its end. -/
theorem FillsInOrder.reads {members : List (Member σ)} {values : List Bytes} {draft last : σ}
    (h : FillsInOrder members values draft last) {body : Bytes}
    (hbody : Enclosed (byte ']') values body) (rest : Bytes) :
    ∃ gap, Blank gap ∧ Record.elementSteps members true draft (body ++ rest) =
      .ok (last, gap ++ byte ']' :: rest) := by
  cases h with
  | done =>
    cases hbody with
    | empty hgap =>
      refine ⟨_, hgap, ?_⟩
      rw [List.append_assoc, List.singleton_append]
      rfl
  | element hvalue hvalues =>
    cases hbody with
    | @items gap _ tail _ hgap htail =>
      obtain ⟨last, hlast, hrun⟩ := hvalues.reads_tail htail rest
      refine ⟨last, hlast, ?_⟩
      have hnext := nextElement_first hgap hvalue.starts (tail ++ rest)
      have hreads := hvalue.reads_front (htail.detached (by decide) rest)
      simp only [List.append_assoc]
      rw [Record.elementSteps, bind_reads hnext]
      simp only [if_true]
      rw [bind_reads hreads, hrun]

/-- **A list of all members in their order spells the record.** -/
theorem FillsInOrder.spells {values : List Bytes} {body : Bytes} {last : σ} {record : α}
    (h : FillsInOrder format.members values format.blank last)
    (hfinish : format.finish last = .ok record) (hbody : Enclosed (byte ']') values body) :
    Spells (format.read .streamed) (byte '[' :: body) record := by
  refine Spells.of_skipsBlanks ⟨by decide, by decide⟩ (skipsBlanks_peekValue.bind _) ?_
  intro rest _
  obtain ⟨gap, hgap, hrun⟩ := h.reads hbody rest
  have hclose : Record.closeElements .streamed format.members.length (gap ++ byte ']' :: rest) =
      .ok ((), rest) := closeList_gap hgap rest
  rw [Record.read, List.cons_append, bind_reads (peekValue_cons (by decide) _)]
  simp only [if_true]
  rw [Record.ofList, bind_reads (advance_cons _ _), bind_reads hrun]
  simp only [hfinish]
  rw [bind_reads hclose]
  rfl

end Lists

end QuantizedConv.Document
