import QuantizedConv.Document.Value

/-!
# Records of a document

A record is an object with known members, in any order and among others that are passed over, or
a list of its members in their order. Either way its members are collected in a draft first, and
the record is finished when all of them are there, or have a default.
-/

set_option autoImplicit false

namespace QuantizedConv.Document

/-- A member of a record that is collected in a draft of type `σ`. -/
structure Member (σ : Type) where
  /-- The key of the member. -/
  name : String
  /-- Whether a draft has the member. -/
  present : σ → Bool
  /-- Reads the member into a draft. -/
  read : σ → Reader σ

/-- The member that `field` gets from a draft and `store` puts there. -/
def member {σ β : Type} (name : String) (field : σ → Option β) (store : σ → β → σ)
    (value : Reader β) : Member σ where
  name
  present draft := (field draft).isSome
  read draft := do return store draft (← value)

/-- A format of records of type `α`, collected in drafts of type `σ`. -/
structure Record (σ α : Type) where
  /-- The name of the format in messages. -/
  title : String
  /-- The members in their order. -/
  members : List (Member σ)
  /-- The draft without members. -/
  blank : σ
  /-- The record of a draft, or the name of the first member that it lacks. -/
  finish : σ → Except String α

/-- How the text of a record is at hand. -/
inductive Delivery where
  /-- It is read as it comes, and a list that goes on too long is malformed. -/
  | streamed
  /-- It was checked and set aside, and a list that goes on too long has the wrong length. -/
  | setAside
deriving DecidableEq, Repr

/-- A member that a record must have. -/
def required {β : Type} (name : String) : Option β → Except String β
  | some value => .ok value
  | none => .error name

namespace Record

variable {σ α : Type}

/-- What is wanted where a record is. -/
def wanted (format : Record σ α) : String := "struct " ++ format.title

/-- The member of a name. -/
def find? (format : Record σ α) (name : String) : Option (Member σ) :=
  format.members.find? fun m => m.name = name

/-- The members of an object up to its end, at most `bound` of them. -/
def memberSteps (format : Record σ α) : Nat → Bool → σ → Reader σ
  | 0, _, _ => throw .endInObject
  | bound + 1, first, draft => do
    if ← nextMember first then
      advance
      let name ← text
      match format.find? name with
      | some m =>
        if m.present draft then throw (.duplicateMember name)
        colon
        let extended ← m.read draft
        memberSteps format bound false extended
      | none =>
        colon
        passValue
        memberSteps format bound false draft
    else return draft

/-- A record from the members of an object. -/
def ofObject (format : Record σ α) : Reader α := do
  advance
  let bytes ← get
  let draft ← memberSteps format (bytes.length + 1) true format.blank
  match format.finish draft with
  | .error name => throw (.missingMember name)
  | .ok record =>
    advance
    return record

/-- The members of a list in their order, as far as it goes. -/
def elementSteps : List (Member σ) → Bool → σ → Reader σ
  | [], _, draft => return draft
  | m :: rest, first, draft => do
    if ← nextElement first then
      let extended ← m.read draft
      elementSteps rest false extended
    else return draft

/-- Counts on from `count` the elements up to the end of a list that has begun, at most `bound` of
them. -/
def surplusSteps : Nat → Nat → Reader Nat
  | 0, _ => throw .endInList
  | bound + 1, count => do
    if ← nextElement false then
      passValue
      surplusSteps bound (count + 1)
    else return count

/-- Takes the end of a list whose first `count` elements were the members of a record. -/
def closeElements (delivery : Delivery) (count : Nat) : Reader Unit := do
  match delivery with
  | .streamed => closeList
  | .setAside =>
    let bytes ← get
    let surplus ← surplusSteps (bytes.length + 1) 0
    if surplus ≠ 0 then throw (.wrongLength (count + surplus) s!"{count} elements in sequence")
    closeList

/-- A record from the elements of a list. -/
def ofList (format : Record σ α) (delivery : Delivery) : Reader α := do
  advance
  let draft ← elementSteps format.members true format.blank
  match format.finish draft with
  | .error name =>
    let position := format.members.findIdx fun m => m.name = name
    let count := format.members.length
    throw (.wrongLength position (format.wanted ++ s!" with {count} elements"))
  | .ok record =>
    closeElements delivery format.members.length
    return record

/-- A record, from an object or from a list. -/
def read (format : Record σ α) (delivery : Delivery) : Reader α := do
  let b ← peekValue
  if b = byte '[' then format.ofList delivery
  else if b = byte '\x7b' then format.ofObject
  else unwanted format.wanted

/-- Reads a member that was set aside, as the text that starts with its value, into a draft. A member
of another name is left out. -/
def takeAside (format : Record σ α) (draft : σ) (entry : String × Bytes) : Except Problem σ :=
  match format.find? entry.1 with
  | none => .ok draft
  | some m =>
    if m.present draft then .error (.duplicateMember entry.1)
    else do
      let (extended, _) ← (m.read draft).run entry.2
      .ok extended

/-- A record from members that were set aside. -/
def ofAside (format : Record σ α) (entries : List (String × Bytes)) : Except Problem α := do
  let draft ← entries.foldlM format.takeAside format.blank
  match format.finish draft with
  | .error name => .error (.missingMember name)
  | .ok record => .ok record

end Record

end QuantizedConv.Document
