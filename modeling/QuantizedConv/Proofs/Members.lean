import QuantizedConv.Proofs.Items
import QuantizedConv.Proofs.Loops

/-!
# Members of objects

A record is read from an object by a loop that takes a draft from member to member. Members that
fill a draft (`Fills`) give the same record whether they are read from the object as they come or
were set aside first.
-/

set_option autoImplicit false

namespace QuantizedConv.Document

section Texts

/-- The bytes of a member: its name between quotes, a colon and its value, and blanks. -/
inductive MemberText : String × Bytes → Bytes → Prop
  | mk {name : String} {value gap gap' : Bytes} (hname : Plain name) (hgap : Blank gap)
      (hgap' : Blank gap') :
      MemberText (name, value)
        (byte '"' :: (bytesOf name ++ byte '"' :: (gap ++ byte ':' :: (gap' ++ value))))

/-- The bytes of a member whose key is written in any way: what stands between the quotes, a colon and
the value, and blanks. -/
inductive KeyedText : Bytes × Bytes → Bytes → Prop
  | mk {key value gap gap' : Bytes} (hgap : Blank gap) (hgap' : Blank gap') :
      KeyedText (key, value)
        (byte '"' :: (key ++ byte '"' :: (gap ++ byte ':' :: (gap' ++ value))))

/-- A member is written under a key, which is its name and is plain. -/
theorem MemberText.keyed {entry : String × Bytes} {item : Bytes} (h : MemberText entry item) :
    KeyedText (bytesOf entry.1, entry.2) item ∧ Plain entry.1 := by
  cases h with
  | mk hname hgap hgap' => exact ⟨.mk hgap hgap', hname⟩

/-- The bytes of an object with members in their order. -/
def ObjectText (entries : List (String × Bytes)) (bytes : Bytes) : Prop :=
  ∃ items body, bytes = byte '\x7b' :: body ∧ List.Forall₂ MemberText entries items ∧
    Enclosed (byte '\x7d') items body

/-- The texts of an object with members in their order, given those of their values. -/
def objectTexts (members : List (String × Set Bytes)) : Set Bytes :=
  {bytes | ∃ values, List.Forall₂ (fun value m => value ∈ m.2) values members ∧
    ObjectText ((members.map Prod.fst).zip values) bytes}

/-- The names of members and the bytes of their values. -/
def entriesOf (members : List (String × String)) : List (String × Bytes) :=
  members.map fun m => (m.1, bytesOf m.2)

/-- An object of joined members, with blanks behind every comma and colon and inside the braces. -/
theorem objectText_joined {text separator mark : String} {opening between behind closing : Bytes}
    {members : List (String × String)} (hnames : ∀ name ∈ members.map Prod.fst, Plain name)
    (hseparator : bytesOf separator = byte ',' :: between)
    (hmark : bytesOf mark = byte ':' :: behind) (hopening : Blank opening)
    (hbetween : Blank between) (hbehind : Blank behind) (hclosing : Blank closing)
    (htext : bytesOf text = byte '\x7b' ::
      (opening ++ (bytesOf (joined separator (members.map fun m => nameText m.1 ++ mark ++ m.2))
        ++ (closing ++ [byte '\x7d'])))) :
    ObjectText (entriesOf members) (bytesOf text) := by
  refine ⟨_, _, htext, ?_, enclosed_joined hseparator hopening hbetween hclosing _⟩
  rw [entriesOf, List.map_map, List.forall₂_map_left_iff, List.forall₂_map_right_iff]
  refine List.forall₂_same.mpr fun m hm => ?_
  have hmember : MemberText (m.1, bytesOf m.2) _ :=
    .mk (hnames m.1 (List.mem_map_of_mem hm)) blank_nil hbehind
  simp only [Function.comp_apply, bytesOf_append, bytesOf_nameText, hmark, List.cons_append,
    List.append_assoc, List.nil_append] at hmember ⊢
  exact hmember

/-- The compact form of a record is the object of its members. -/
theorem objectText_compact {members : List (String × String)}
    (hnames : ∀ name ∈ members.map Prod.fst, Plain name) :
    ObjectText (entriesOf members) (bytesOf (Compact.record members)) := by
  refine objectText_joined hnames (show bytesOf "," = byte ',' :: [] by decide)
    (show bytesOf ":" = byte ':' :: [] by decide) blank_nil blank_nil blank_nil blank_nil ?_
  rw [Compact.record, bytesOf_append, bytesOf_append, List.append_assoc]
  rfl

/-- The indented form of a record is the object of its members. -/
theorem objectText_indented (depth : Nat) {members : List (String × String)}
    (hnames : ∀ name ∈ members.map Prod.fst, Plain name) :
    ObjectText (entriesOf members) (bytesOf (Indented.record depth members)) := by
  refine objectText_joined hnames (bytesOf_append "," _)
    (show bytesOf ": " = byte ':' :: [byte ' '] by decide) (blank_newLine (depth + 1))
    (blank_newLine (depth + 1)) blank_space (blank_newLine depth) ?_
  simp only [Indented.record, bytesOf_append, List.append_assoc]
  rfl

end Texts

section Loops

variable {σ : Type}

/-- A loop over the members of an object stops at the end with the draft that it has. -/
def StopsAtEnd (steps : Nat → Bool → σ → Reader σ) : Prop :=
  ∀ bound first draft input rest, nextMember first input = .ok (false, rest) →
    steps (bound + 1) first draft input = .ok (draft, rest)

/-- A member that takes every draft with `before` to one with `after`, in one step of a loop. -/
structure Extends (steps : Nat → Bool → σ → Reader σ) (item : Bytes)
    (before after : σ → Prop) : Prop where
  starts : item.head? = some (byte '"')
  reads : ∀ draft, before draft → ∀ bound first input rest, Detached rest →
    nextMember first input = .ok (true, item ++ rest) →
    ∃ extended, after extended ∧
      steps (bound + 1) first draft input = steps bound false extended rest

/-- Members that take every draft with `before` to one with `after`. -/
inductive Chain (steps : Nat → Bool → σ → Reader σ) :
    List Bytes → (σ → Prop) → (σ → Prop) → Prop
  | done (P : σ → Prop) : Chain steps [] P P
  | member {item : Bytes} {items : List Bytes} {P Q R : σ → Prop}
      (hitem : Extends steps item P Q) (hitems : Chain steps items Q R) :
      Chain steps (item :: items) P R

variable {steps : Nat → Bool → σ → Reader σ} {items : List Bytes} {P Q : σ → Prop}

/-- A loop over members takes the draft through all members that follow the first, up to the end of
the object. -/
theorem Chain.reads_tail (hchain : Chain steps items P Q) (hstops : StopsAtEnd steps)
    {tail : Bytes} (htail : EnclosedTail (byte '\x7d') items tail) {bound : Nat}
    (hbound : tail.length ≤ bound) {draft : σ} (hdraft : P draft) (rest : Bytes) :
    ∃ last, Q last ∧ steps bound false draft (tail ++ rest) = .ok (last, byte '\x7d' :: rest) := by
  induction hchain generalizing tail bound draft with
  | done P =>
    obtain ⟨bound, rfl⟩ := htail.exists_bound hbound
    cases htail with
    | close hgap =>
      rw [List.append_assoc, List.singleton_append]
      exact ⟨draft, hdraft, hstops _ _ _ _ _ (nextMember_close false hgap rest)⟩
  | member hitem _ ih =>
    obtain ⟨bound, rfl⟩ := htail.exists_bound hbound
    cases htail with
    | @item gap gap' _ tail _ hgap hgap' htail =>
      have hnext := nextMember_comma hgap hgap' hitem.starts (tail ++ rest)
      obtain ⟨extended, hextended, hstep⟩ := hitem.reads draft hdraft bound false _ _
        (htail.detached (by decide) rest) hnext
      have hlength : tail.length ≤ bound := by
        simp only [List.length_append, List.length_cons] at hbound
        omega
      obtain ⟨last, hlast, hrun⟩ := ih htail hlength hextended
      refine ⟨last, hlast, ?_⟩
      simp only [List.append_assoc, List.cons_append]
      rw [hstep, hrun]

/-- **A loop reads all members of an object**, up to its end. -/
theorem Chain.reads (hchain : Chain steps items P Q) (hstops : StopsAtEnd steps)
    {body : Bytes} (hbody : Enclosed (byte '\x7d') items body) {draft : σ} (hdraft : P draft)
    (rest : Bytes) :
    ∃ last, Q last ∧ steps ((body ++ rest).length + 1) true draft (body ++ rest) =
      .ok (last, byte '\x7d' :: rest) := by
  cases hchain with
  | done =>
    cases hbody with
    | empty hgap =>
      rw [List.append_assoc, List.singleton_append]
      exact ⟨draft, hdraft, hstops _ _ _ _ _ (nextMember_close true hgap rest)⟩
  | @member item _ _ _ _ hitem hitems =>
    cases hbody with
    | @items gap _ tail _ hgap htail =>
      have hnext := nextMember_first hgap hitem.starts (tail ++ rest)
      have hlength : tail.length ≤ (gap ++ (item ++ (tail ++ rest))).length := by
        simp only [List.length_append]
        omega
      obtain ⟨extended, hextended, hstep⟩ := hitem.reads draft hdraft
        (gap ++ (item ++ (tail ++ rest))).length true _ _ (htail.detached (by decide) rest) hnext
      obtain ⟨last, hlast, hrun⟩ := hitems.reads_tail hstops htail hlength hextended rest
      refine ⟨last, hlast, ?_⟩
      simp only [List.append_assoc]
      rw [hstep, hrun]

end Loops

section Records

variable {σ α : Type} {format : Record σ α}

/-- Members, each the bytes of a value under a name, that take a draft of a record to another. -/
inductive Fills (format : Record σ α) : List (String × Bytes) → σ → σ → Prop
  | done (draft : σ) : Fills format [] draft draft
  | member {name : String} {value : Bytes} {m : Member σ} {draft extended last : σ}
      {entries : List (String × Bytes)} (hfind : format.find? name = some m)
      (hnew : m.present draft = false) (hvalue : Spells (m.read draft) value extended)
      (hentries : Fills format entries extended last) :
      Fills format ((name, value) :: entries) draft last

/-- A member whose value is spelled and that the draft does not have yet is stored there. -/
theorem exists_member_store {β : Type} {name : String} {field : σ → Option β} {store : σ → β → σ}
    {reader : Reader β} {draft extended : σ} {value : Bytes} {x : β}
    (hfind : format.find? name = some (Document.member name field store reader))
    (hnew : field draft = none) (hvalue : Spells reader value x)
    (hstore : store draft x = extended) :
    ∃ m, format.find? name = some m ∧ m.present draft = false ∧
      Spells (m.read draft) value extended := by
  have hpresent : (Document.member name field store reader).present draft = false := by
    change (field draft).isSome = false
    rw [hnew]
    rfl
  exact ⟨_, hfind, hpresent, hstore ▸ hvalue.map (store draft)⟩

/-- A member that the draft does not have yet is stored, and the others fill what is left. -/
theorem Fills.store {β : Type} {name : String} {field : σ → Option β} {store : σ → β → σ}
    {reader : Reader β} {draft last : σ} {value : Bytes} {x : β} {entries : List (String × Bytes)}
    (hfind : format.find? name = some (Document.member name field store reader))
    (hnew : field draft = none) (hvalue : Spells reader value x)
    (hentries : Fills format entries (store draft x) last) :
    Fills format ((name, value) :: entries) draft last := by
  obtain ⟨m, hfind, hpresent, hread⟩ := exists_member_store hfind hnew hvalue rfl
  exact .member hfind hpresent hread hentries

/-- The loop over the members of a record stops at the end of the object. -/
theorem stopsAtEnd_memberSteps (format : Record σ α) : StopsAtEnd format.memberSteps := by
  intro bound first draft input rest hnext
  rw [Record.memberSteps, bind_reads hnext]
  rfl

/-- A known member that is new to the draft is read into it. -/
theorem extends_keyed {name : String} {key value item : Bytes} {m : Member σ}
    {draft extended : σ} (hitem : KeyedText (key, value) item) (hkey : Denotes key (bytesOf name))
    (hfind : format.find? name = some m) (hnew : m.present draft = false)
    (hvalue : Spells (m.read draft) value extended) :
    Extends format.memberSteps item (draft = ·) (extended = ·) := by
  cases hitem with
  | @mk _ _ gap gap' hgap hgap' =>
    refine ⟨rfl, ?_⟩
    rintro _ rfl bound first input rest hrest hnext
    have htext := text_denotes hkey (gap ++ byte ':' :: (gap' ++ (value ++ rest)))
    have hcolon := colon_reads hgap (gap' ++ (value ++ rest))
    have hread := hvalue.reads gap' rest hgap' hrest
    refine ⟨extended, rfl, ?_⟩
    rw [Record.memberSteps, bind_reads hnext]
    simp only [if_true, List.cons_append, List.append_assoc]
    rw [bind_reads (advance_cons _ _), bind_reads htext]
    simp only [hfind, hnew, Bool.false_eq_true, if_false]
    rw [bind_reads hcolon, bind_reads hread]

/-- An object spells the record of the draft that its members end with. -/
theorem Chain.spells {items : List Bytes} {body : Bytes} {last : σ} {record : α}
    (hchain : Chain format.memberSteps items (format.blank = ·) (last = ·))
    (hfinish : format.finish last = .ok record) (hbody : Enclosed (byte '\x7d') items body)
    (delivery : Delivery) : Spells (format.read delivery) (byte '\x7b' :: body) record := by
  refine Spells.of_skipsBlanks ⟨by decide, by decide⟩ (skipsBlanks_peekValue.bind _)
    fun rest _ => ?_
  obtain ⟨_, rfl, hrun⟩ := hchain.reads (stopsAtEnd_memberSteps format) hbody rfl rest
  rw [Record.read, List.cons_append, bind_reads (peekValue_cons (by decide) _)]
  simp only [if_neg (show byte '\x7b' ≠ byte '[' by decide), if_true]
  rw [Record.ofObject, bind_reads (advance_cons _ _), bind_reads (get_reads _), bind_reads hrun]
  simp only [hfinish]
  rfl

/-- What is set aside of a member: its name, and the text that starts with its value. -/
inductive SetAside : String × Bytes → String × Bytes → Prop
  | mk {name : String} {value gap rest : Bytes} (hgap : Blank gap) (hrest : Detached rest) :
      SetAside (name, value) (name, gap ++ (value ++ rest))

/-- Members that were set aside fill a draft as they do where they stand. -/
theorem Fills.takeAside {entries asides : List (String × Bytes)} {draft last : σ}
    (hfills : Fills format entries draft last) (hasides : List.Forall₂ SetAside entries asides) :
    asides.foldlM format.takeAside draft = .ok last := by
  induction hfills generalizing asides with
  | done draft =>
    cases hasides
    rfl
  | @member name value m draft extended last entries hfind hnew hvalue _ ih =>
    obtain _ | ⟨haside, hasides⟩ := hasides
    obtain @⟨_, _, gap, rest, hgap, hrest⟩ := haside
    have hread : (m.read draft).run (gap ++ (value ++ rest)) = .ok (extended, rest) :=
      hvalue.reads gap rest hgap hrest
    have hstep : format.takeAside draft (name, gap ++ (value ++ rest)) = .ok extended := by
      simp only [Record.takeAside, hfind, hnew, Bool.false_eq_true, if_false, hread]
      rfl
    rw [List.foldlM_cons, bind_of_ok hstep]
    exact ih hasides

/-- Members that fill a draft do so too when they were set aside. -/
theorem Fills.ofAside {entries asides : List (String × Bytes)} {last : σ} {record : α}
    (hfills : Fills format entries format.blank last) (hfinish : format.finish last = .ok record)
    (hasides : List.Forall₂ SetAside entries asides) : format.ofAside asides = .ok record := by
  rw [Record.ofAside, bind_of_ok (hfills.takeAside hasides)]
  simp only [hfinish]

end Records

end QuantizedConv.Document
