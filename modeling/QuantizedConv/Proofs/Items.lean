import QuantizedConv.Proofs.Numerals
import QuantizedConv.Proofs.Strings

/-!
# Items between brackets

Lists and objects are laid out alike: items with commas between any two, blanks around them, and a
closing byte (`Enclosed`). Both written forms lay out their items so. A list whose items spell
values spells the list of them. The texts of a value are those of the compact form with any blanks
between its tokens; for a list they are given by those of its items (`listTexts`).
-/

set_option autoImplicit false

namespace QuantizedConv.Document

section Layout

/-- What follows an item: more items, a comma in front of each, up to the closing byte. -/
inductive EnclosedTail (closer : UInt8) : List Bytes → Bytes → Prop
  | close {gap : Bytes} (hgap : Blank gap) : EnclosedTail closer [] (gap ++ [closer])
  | item {gap gap' item tail : Bytes} {items : List Bytes} (hgap : Blank gap)
      (hgap' : Blank gap') (htail : EnclosedTail closer items tail) :
      EnclosedTail closer (item :: items) (gap ++ byte ',' :: (gap' ++ (item ++ tail)))

/-- Items behind an opening byte, up to the closing one. -/
inductive Enclosed (closer : UInt8) : List Bytes → Bytes → Prop
  | empty {gap : Bytes} (hgap : Blank gap) : Enclosed closer [] (gap ++ [closer])
  | items {gap item tail : Bytes} {items : List Bytes} (hgap : Blank gap)
      (htail : EnclosedTail closer items tail) :
      Enclosed closer (item :: items) (gap ++ (item ++ tail))

variable {closer : UInt8}

/-- An item is not run together with what follows it. -/
theorem EnclosedTail.detached {items : List Bytes} {tail : Bytes}
    (h : EnclosedTail closer items tail) (hcloser : continuesNumber closer = false)
    (rest : Bytes) : Detached (tail ++ rest) := by
  cases h with
  | close hgap =>
    rw [List.append_assoc]
    exact (detached_cons hcloser rest).gap hgap
  | item hgap _ _ =>
    rw [List.append_assoc]
    exact (detached_cons (by decide) _).gap hgap

/-- There is at least the closing byte, so a loop with a bound for every byte takes a step. -/
theorem EnclosedTail.exists_bound {items : List Bytes} {tail : Bytes}
    (h : EnclosedTail closer items tail) {bound : Nat} (hbound : tail.length ≤ bound) :
    ∃ n, bound = n + 1 := by
  have hpos : 0 < tail.length := by cases h <;> simp
  exact ⟨bound - 1, by omega⟩

/-- Joined texts are the first one and, behind it, each other one after a separator. -/
theorem bytesOf_joined_cons (separator text : String) (texts : List String) :
    bytesOf (joined separator (text :: texts)) =
      bytesOf text ++ texts.flatMap fun t => bytesOf separator ++ bytesOf t := by
  induction texts generalizing text with
  | nil => exact (List.append_nil _).symm
  | cons t texts ih =>
    have hstep : joined separator (text :: t :: texts) =
        joined separator ((text ++ separator ++ t) :: texts) := rfl
    rw [hstep, ih, bytesOf_append, bytesOf_append, List.flatMap_cons, List.append_assoc,
      List.append_assoc, List.append_assoc]

/-- Texts with a comma and blanks in front of each are laid out as the items behind the first. -/
theorem enclosedTail_flatMap {separator : String} {gap gap' : Bytes}
    (hseparator : bytesOf separator = byte ',' :: gap) (hgap : Blank gap) (hgap' : Blank gap')
    (texts : List String) :
    EnclosedTail closer (texts.map bytesOf)
      ((texts.flatMap fun t => bytesOf separator ++ bytesOf t) ++ (gap' ++ [closer])) := by
  induction texts with
  | nil => exact .close hgap'
  | cons t texts ih =>
    have hitem : EnclosedTail closer (bytesOf t :: texts.map bytesOf) _ :=
      .item blank_nil hgap ih
    rw [List.map_cons, List.flatMap_cons, hseparator]
    simpa only [List.nil_append, List.cons_append, List.append_assoc, hseparator] using hitem

/-- Joined texts are items between brackets, if the separator is a comma and blanks. -/
theorem enclosed_joined {separator : String} {opening between closing : Bytes}
    (hseparator : bytesOf separator = byte ',' :: between) (hopening : Blank opening)
    (hbetween : Blank between) (hclosing : Blank closing) (texts : List String) :
    Enclosed closer (texts.map bytesOf)
      (opening ++ (bytesOf (joined separator texts) ++ (closing ++ [closer]))) := by
  cases texts with
  | nil =>
    have hblank : Blank (opening ++ closing) := by
      intro b hb
      exact (List.mem_append.mp hb).elim (hopening b) (hclosing b)
    have hnone : Enclosed closer [] _ := .empty hblank
    rwa [List.append_assoc] at hnone
  | cons t texts =>
    have hsome : Enclosed closer (bytesOf t :: texts.map bytesOf) _ :=
      .items hopening (enclosedTail_flatMap hseparator hbetween hclosing texts)
    rwa [← List.append_assoc (bytesOf t), ← bytesOf_joined_cons] at hsome

/-- A text of blanks is so many blank bytes. -/
theorem bytesOf_replicate_blank (n : Nat) :
    bytesOf (String.ofList (List.replicate n ' ')) = List.replicate n (byte ' ') := by
  induction n with
  | zero => rfl
  | succ n ih =>
    rw [List.replicate_succ', List.replicate_succ', String.ofList_append, bytesOf_append, ih]
    rfl

/-- Indentation is blank. -/
theorem blank_newLine (depth : Nat) : Blank (bytesOf (Indented.newLine depth)) := by
  intro b hb
  rw [Indented.newLine, bytesOf_append, bytesOf_replicate_blank, List.mem_append,
    List.mem_replicate] at hb
  rcases hb with hbreak | ⟨-, rfl⟩
  · rw [show bytesOf "\n" = [byte '\n'] by decide, List.mem_singleton] at hbreak
    rw [hbreak]
    decide
  · decide

end Layout

section Lists

variable {α : Type} {item : Reader α}

/-- The loop over a list reads the items behind those it has taken. -/
theorem elements_tail {items : List Bytes} {tail : Bytes} {xs : List α}
    (htail : EnclosedTail (byte ']') items tail) (hitems : List.Forall₂ (Spells item) items xs)
    {bound : Nat} (hbound : tail.length ≤ bound) {taken : List α} (htaken : taken.isEmpty = false)
    (rest : Bytes) :
    elements item bound taken (tail ++ rest) = .ok (taken.reverse ++ xs, byte ']' :: rest) := by
  induction hitems generalizing tail bound taken with
  | nil =>
    obtain ⟨bound, rfl⟩ := htail.exists_bound hbound
    cases htail with
    | close hgap =>
      have hnext := nextElement_close false hgap rest
      rw [elements, htaken, List.append_assoc, List.singleton_append, bind_reads hnext,
        List.append_nil]
      rfl
  | cons hitem hitems ih =>
    obtain ⟨bound, rfl⟩ := htail.exists_bound hbound
    cases htail with
    | @item gap gap' bytes tail items hgap hgap' htail =>
      have hnext := nextElement_comma hgap hgap' hitem.starts (tail ++ rest)
      have hreads := hitem.reads_front (htail.detached (by decide) rest)
      have hlength : tail.length ≤ bound := by
        simp only [List.length_append, List.length_cons] at hbound
        omega
      rw [elements, htaken]
      simp only [List.append_assoc, List.cons_append]
      rw [bind_reads hnext]
      simp only [if_true]
      rw [bind_reads hreads, ih htail hlength rfl, List.reverse_cons, List.append_assoc,
        List.singleton_append]

/-- **A list whose items spell values spells the list of them.** -/
theorem spells_list {items : List Bytes} {body : Bytes} {xs : List α}
    (hitems : List.Forall₂ (Spells item) items xs) (hbody : Enclosed (byte ']') items body) :
    Spells (list item) (byte '[' :: body) xs := by
  refine Spells.of_skipsBlanks ⟨by decide, by decide⟩ (skipsBlanks_peekValue.bind _)
    fun rest _ => ?_
  have helements : elements item ((body ++ rest).length + 1) [] (body ++ rest) =
      .ok (xs, byte ']' :: rest) := by
    cases hbody with
    | empty hgap =>
      cases hitems
      have hnext := nextElement_close true hgap rest
      rw [elements, List.isEmpty_nil, List.append_assoc, List.singleton_append, bind_reads hnext]
      rfl
    | @items gap bytes tail items hgap htail =>
      obtain _ | ⟨hitem, hitems⟩ := hitems
      have hnext := nextElement_first hgap hitem.starts (tail ++ rest)
      have hreads := hitem.reads_front (htail.detached (by decide) rest)
      rw [elements, List.isEmpty_nil]
      simp only [List.append_assoc]
      rw [bind_reads hnext]
      simp only [if_true]
      rw [bind_reads hreads, elements_tail htail hitems (by simp; omega) rfl]
      rfl
  rw [list, List.cons_append, bind_reads (peekValue_cons (by decide) _)]
  simp only [if_true]
  rw [bind_reads (advance_cons _ _), bind_reads (get_reads _), bind_reads helements,
    bind_reads (closeList_reads rest)]
  rfl

/-- The texts of a list, given those of its items. -/
def listTexts (items : List (Set Bytes)) : Set Bytes :=
  {bytes | ∃ values body, bytes = byte '[' :: body ∧
    List.Forall₂ (fun value texts => value ∈ texts) values items ∧
    Enclosed (byte ']') values body}

/-- Every text of a list starts with a bracket. -/
theorem head_listTexts {items : List (Set Bytes)} {bytes : Bytes} (h : bytes ∈ listTexts items) :
    bytes.head? = some (byte '[') := by
  obtain ⟨values, body, rfl, -, -⟩ := h
  rfl

/-- The compact form of a list is among its texts. -/
theorem compactList_mem_listTexts (itemText : α → String) (xs : List α) :
    bytesOf (Compact.list (xs.map itemText)) ∈
      listTexts (xs.map fun x => {bytesOf (itemText x)}) := by
  have hseparator : bytesOf "," = byte ',' :: [] := by decide
  refine ⟨(xs.map itemText).map bytesOf, _, ?_, ?_,
    enclosed_joined hseparator blank_nil blank_nil blank_nil _⟩
  · rw [Compact.list, bytesOf_append, bytesOf_append, List.append_assoc]
    rfl
  · rw [List.map_map, List.forall₂_map_left_iff, List.forall₂_map_right_iff]
    exact List.forall₂_same.mpr fun x _ => rfl

variable {itemText : α → String} (hitem : ∀ x, Spells item (bytesOf (itemText x)) x)

include hitem

/-- Every text of a list is read as the list, where the texts of its items are read as the items. -/
theorem spells_of_mem_listTexts {bytes : Bytes} {xs : List α}
    (h : bytes ∈ listTexts (xs.map fun x => {bytesOf (itemText x)})) :
    Spells (list item) bytes xs := by
  obtain ⟨values, body, rfl, hvalues, hbody⟩ := h
  rw [List.forall₂_map_right_iff] at hvalues
  refine spells_list (hvalues.imp ?_) hbody
  rintro _ x rfl
  exact hitem x

/-- A list of joined items, with blanks behind every comma and inside the brackets. -/
theorem spells_joinedList {text separator : String} {opening between closing : Bytes} {xs : List α}
    (hseparator : bytesOf separator = byte ',' :: between) (hopening : Blank opening)
    (hbetween : Blank between) (hclosing : Blank closing)
    (htext : bytesOf text = byte '[' ::
      (opening ++ (bytesOf (joined separator (xs.map itemText)) ++ (closing ++ [byte ']'])))) :
    Spells (list item) (bytesOf text) xs := by
  have hitems : List.Forall₂ (Spells item) ((xs.map itemText).map bytesOf) xs := by
    rw [List.map_map, List.forall₂_map_left_iff]
    exact List.forall₂_same.mpr fun x _ => hitem x
  rw [htext]
  exact spells_list hitems (enclosed_joined hseparator hopening hbetween hclosing _)

/-- The compact form of a list is read as the list. -/
theorem spells_compactList (xs : List α) :
    Spells (list item) (bytesOf (Compact.list (xs.map itemText))) xs := by
  refine spells_joinedList hitem (show bytesOf "," = byte ',' :: [] by decide) blank_nil blank_nil
    blank_nil ?_
  rw [Compact.list, bytesOf_append, bytesOf_append, List.append_assoc]
  rfl

/-- The indented form of a list is read as the list. -/
theorem spells_indentedList (depth : Nat) (xs : List α) :
    Spells (list item) (bytesOf (Indented.list depth (xs.map itemText))) xs := by
  cases xs with
  | nil => exact spells_compactList hitem []
  | cons x xs =>
    refine spells_joinedList hitem (bytesOf_append "," _) (blank_newLine (depth + 1))
      (blank_newLine (depth + 1)) (blank_newLine depth) ?_
    rw [Indented.list, if_neg (by simp)]
    simp only [bytesOf_append, List.append_assoc]
    rfl

end Lists

section Names

/-- The text of a name is its bytes between quotes. -/
theorem bytesOf_nameText (name : String) :
    bytesOf (nameText name) = byte '"' :: (bytesOf name ++ [byte '"']) := by
  rw [nameText, bytesOf_append, bytesOf_append]
  rfl

/-- The name of a variant, between quotes. -/
theorem spells_variant {α : Type} {variants : List (String × α)} {name : String} {x : α}
    (hname : Plain name) (hfind : variants.find? (fun v => v.1 = name) = some (name, x)) :
    Spells (variant variants) (bytesOf (nameText name)) x := by
  rw [bytesOf_nameText]
  refine Spells.of_skipsBlanks ⟨by decide, by decide⟩ (skipsBlanks_peekValue.bind _)
    fun rest _ => ?_
  have htext := text_plain hname rest
  rw [variant, List.cons_append, bind_reads (peekValue_cons (by decide) _)]
  simp only [if_true]
  rw [bind_reads (advance_cons _ _), List.append_assoc, List.singleton_append, bind_reads htext,
    variantOf, hfind]
  rfl

/-- A value stands for itself where it could be null. -/
theorem Spells.optional {α : Type} {item : Reader α} {bytes : Bytes} {x : α}
    (h : Spells item bytes x) (hnull : bytes.head? ≠ some (byte 'n')) :
    Spells (optional item) bytes (some x) := by
  obtain ⟨b, tail, rfl, hb⟩ := h.starts
  refine Spells.of_skipsBlanks hb (skipsBlanks_peek.bind _) fun rest hrest => ?_
  rw [Document.optional, List.cons_append, bind_reads (peek_cons hb.notBlank _)]
  simp only [if_neg (show some b ≠ some (byte 'n') from hnull)]
  rw [← List.cons_append, bind_reads (h.reads_front hrest)]
  rfl

/-- The word `null` is read as no value. -/
theorem spells_null {α : Type} (item : Reader α) :
    Spells (optional item) (bytesOf "null") none := by
  rw [show bytesOf "null" = byte 'n' :: ['u', 'l', 'l'].map byte by decide]
  refine Spells.of_skipsBlanks ⟨by decide, by decide⟩ (skipsBlanks_peek.bind _) fun rest _ => ?_
  rw [optional, List.cons_append, bind_reads (peek_cons (by decide) _)]
  simp only [if_true]
  rw [bind_reads (advance_cons _ _), bind_reads (literal_reads _ rest)]
  rfl

/-- The texts of a value that may be null, given those of the value. -/
def nullableTexts {α : Type} (texts : α → Set Bytes) : Option α → Set Bytes
  | none => {bytesOf "null"}
  | some x => texts x

/-- A list is not null. -/
theorem spells_of_mem_nullableTexts {α : Type} {item : Reader α} {texts : α → Set Bytes}
    {value : Option α} {bytes : Bytes} (h : bytes ∈ nullableTexts texts value)
    (hlist : ∀ x, bytes ∈ texts x → bytes.head? = some (byte '['))
    (hitem : ∀ x, bytes ∈ texts x → Spells item bytes x) :
    Spells (optional item) bytes value := by
  cases value with
  | none =>
    obtain rfl : bytes = bytesOf "null" := h
    exact spells_null item
  | some x =>
    have hnull : bytes.head? ≠ some (byte 'n') := by
      rw [hlist x h]
      decide
    exact (hitem x h).optional hnull

end Names

end QuantizedConv.Document
