import QuantizedConv.Decimal.Layout
import QuantizedConv.Text.Quoted

/-!
# What can be wrong with a document

A document is read from left to right and the first problem met is reported. A problem is one of
three kinds: the text ends too early, the text is not well formed, or what it says does not fit what
is being read. `Problem.message` is its wording, without the place where it was met.
-/

set_option autoImplicit false

namespace QuantizedConv.Document

/-- A number of a document. Literals with a fraction or an exponent are real, and so are minus zero
and integers outside 64 bits. -/
inductive Number where
  /-- An integer literal. -/
  | integer (value : Int)
  /-- Any other literal, as a signed binary64 number. -/
  | real (negative : Bool) (magnitude : Magnitude)
deriving DecidableEq, Repr

/-- What a document holds where something else was wanted. -/
inductive Found where
  /-- The null literal. -/
  | null
  /-- A truth value. -/
  | boolean (value : Bool)
  /-- A number. -/
  | number (value : Number)
  /-- A string. -/
  | string (value : String)
  /-- A list. -/
  | sequence
  /-- An object. -/
  | map
deriving DecidableEq, Repr

/-- Reals have their shortest digits; positional from a hundred-thousandth to below ten to the
sixteenth. -/
def realLayout : Decimal.Layout := ⟨-5, 15, "+"⟩

/-- The wording of what was found. -/
def Found.describe : Found → String
  | .null => "null"
  | .boolean value => s!"boolean `{value}`"
  | .number (.integer value) => s!"integer `{value}`"
  | .number (.real negative magnitude) =>
      "floating point `" ++ Decimal.renderReal realLayout negative magnitude ++ "`"
  | .string value => "string " ++ Text.quoted value
  | .sequence => "sequence"
  | .map => "map"

/-- The kinds of problems. -/
inductive ProblemKind where
  /-- The text ends too early. -/
  | truncated
  /-- The text is not well formed. -/
  | malformed
  /-- The text does not say what is wanted. -/
  | mismatch
deriving DecidableEq, Repr

/-- The first problem of a document. -/
inductive Problem where
  /-- The text ends inside a list. -/
  | endInList
  /-- The text ends inside an object. -/
  | endInObject
  /-- The text ends inside a string. -/
  | endInString
  /-- The text ends where a value should be. -/
  | endInValue
  /-- A key is not followed by a colon. -/
  | expectedColon
  /-- An element of a list is followed neither by a comma nor by the end of the list. -/
  | expectedListEnd
  /-- A member of an object is followed neither by a comma nor by the end of the object. -/
  | expectedObjectEnd
  /-- A word is none of the three literals. -/
  | expectedIdent
  /-- No value starts here. -/
  | expectedValue
  /-- A backslash is not followed by an escape. -/
  | invalidEscape
  /-- A number is not well formed. -/
  | invalidNumber
  /-- A number is beyond the finite reals. -/
  | numberOutOfRange
  /-- The bytes of a string are not text. -/
  | invalidCodePoint
  /-- A string holds a control character. -/
  | controlCharacter
  /-- A key is not a string. -/
  | keyNotString
  /-- Half of a surrogate pair stands alone. -/
  | loneSurrogate
  /-- A comma stands before the end of a list or object. -/
  | trailingComma
  /-- Something follows the value. -/
  | trailingCharacters
  /-- The second half of a surrogate pair is missing. -/
  | unexpectedEndOfHexEscape
  /-- Lists and objects are nested too deeply. -/
  | nestedTooDeeply
  /-- A record lacks a member. -/
  | missingMember (name : String)
  /-- A record has a member twice. -/
  | duplicateMember (name : String)
  /-- A name is none of the known ones. -/
  | unknownVariant (name : String) (known : List String)
  /-- A value has another type than wanted. -/
  | wrongType (found : Found) (wanted : String)
  /-- An integer is out of range. -/
  | outOfRange (value : Int) (wanted : String)
  /-- A list has the wrong length. -/
  | wrongLength (length : Nat) (wanted : String)
deriving DecidableEq, Repr

namespace Problem

/-- The kind of a problem. -/
def kind : Problem → ProblemKind
  | .endInList | .endInObject | .endInString | .endInValue => .truncated
  | .missingMember _ | .duplicateMember _ | .unknownVariant .. | .wrongType .. | .outOfRange ..
  | .wrongLength .. => .mismatch
  | _ => .malformed

/-- The wording of a problem. -/
def message : Problem → String
  | .endInList => "EOF while parsing a list"
  | .endInObject => "EOF while parsing an object"
  | .endInString => "EOF while parsing a string"
  | .endInValue => "EOF while parsing a value"
  | .expectedColon => "expected `:`"
  | .expectedListEnd => "expected `,` or `]`"
  | .expectedObjectEnd => "expected `,` or `\x7d`"
  | .expectedIdent => "expected ident"
  | .expectedValue => "expected value"
  | .invalidEscape => "invalid escape"
  | .invalidNumber => "invalid number"
  | .numberOutOfRange => "number out of range"
  | .invalidCodePoint => "invalid unicode code point"
  | .controlCharacter => "control character (\\u0000-\\u001F) found while parsing a string"
  | .keyNotString => "key must be a string"
  | .loneSurrogate => "lone leading surrogate in hex escape"
  | .trailingComma => "trailing comma"
  | .trailingCharacters => "trailing characters"
  | .unexpectedEndOfHexEscape => "unexpected end of hex escape"
  | .nestedTooDeeply => "recursion limit exceeded"
  | .missingMember name => s!"missing field `{name}`"
  | .duplicateMember name => s!"duplicate field `{name}`"
  | .unknownVariant name known =>
      s!"unknown variant `{name}`, expected "
        ++ " or ".intercalate (known.map fun k => "`" ++ k ++ "`")
  | .wrongType found wanted => "invalid type: " ++ found.describe ++ ", expected " ++ wanted
  | .outOfRange value wanted => s!"invalid value: integer `{value}`, expected {wanted}"
  | .wrongLength length wanted => s!"invalid length {length}, expected {wanted}"

end Problem

end QuantizedConv.Document
