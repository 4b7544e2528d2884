import QuantizedConv.Document.Problem

/-!
# Readers

A reader takes something from the front of the bytes of a document and leaves the rest, or meets a
problem. Here are the readers of punctuation: blanks, literals, and what stands between the elements
of a list and the members of an object.
-/

set_option autoImplicit false

namespace QuantizedConv.Document

/-- The bytes of a document that are still to be read. -/
abbrev Bytes := List UInt8

/-- Reads an `α` from the front of a document. -/
abbrev Reader (α : Type) := StateT Bytes (Except Problem) α

/-- The byte of an ASCII character. -/
def byte (c : Char) : UInt8 := c.toUInt8

/-- The bytes of a text. -/
def bytesOf (s : String) : Bytes := s.toUTF8.data.toList

/-- Blanks may stand between any two tokens. -/
def isBlank (b : UInt8) : Bool :=
  b == byte ' ' || b == byte '\t' || b == byte '\n' || b == byte '\r'

/-- The bytes behind the blanks. -/
def skipBlanks (bytes : Bytes) : Bytes := bytes.dropWhile isBlank

/-- The next byte that is no blank, which is not taken. -/
def peek : Reader (Option UInt8) := fun bytes =>
  let rest := skipBlanks bytes
  .ok (rest.head?, rest)

/-- The next byte that is no blank, which is not taken; there must be one. -/
def peekValue : Reader UInt8 := do
  match ← peek with
  | some b => return b
  | none => throw .endInValue

/-- Takes one byte. -/
def advance : Reader Unit := modify List.tail

/-- Takes the rest of a literal whose first byte is gone. -/
def literal : List Char → Reader Unit
  | [] => return ()
  | c :: rest => do
    match ← get with
    | [] => throw .endInValue
    | b :: bytes =>
      if b = byte c then
        set bytes
        literal rest
      else throw .expectedIdent

/-- Takes the colon behind a key. -/
def colon : Reader Unit := do
  match ← peek with
  | none => throw .endInObject
  | some b => if b = byte ':' then advance else throw .expectedColon

/-- Whether a list has another element, which then follows. The end of the list is not taken. -/
def nextElement (first : Bool) : Reader Bool := do
  match ← peek with
  | none => throw .endInList
  | some b =>
    if b = byte ']' then return false
    else if first then return true
    else if b = byte ',' then
      advance
      match ← peek with
      | none => throw .endInValue
      | some next => if next = byte ']' then throw .trailingComma else return true
    else throw .expectedListEnd

/-- Whether an object has another member, whose key then follows. The end of the object is not
taken. -/
def nextMember (first : Bool) : Reader Bool := do
  match ← peek with
  | none => throw .endInObject
  | some b =>
    if b = byte '\x7d' then return false
    else if first then
      if b = byte '"' then return true else throw .keyNotString
    else if b = byte ',' then
      advance
      match ← peek with
      | none => throw .endInValue
      | some next =>
        if next = byte '"' then return true
        else if next = byte '\x7d' then throw .trailingComma
        else throw .keyNotString
    else throw .expectedObjectEnd

/-- Takes the end of a list of which no more is wanted. -/
def closeList : Reader Unit := do
  match ← peek with
  | none => throw .endInList
  | some b =>
    if b = byte ']' then advance
    else if b = byte ',' then
      advance
      if (← peek) = some (byte ']') then throw .trailingComma else throw .trailingCharacters
    else throw .trailingCharacters

/-- The whole of a document: what the reader takes, and nothing but blanks behind it. -/
def whole {α : Type} (reader : Reader α) (bytes : Bytes) : Except Problem α := do
  let (value, rest) ← reader.run bytes
  if (skipBlanks rest).isEmpty then .ok value else .error .trailingCharacters

end QuantizedConv.Document
