/-!
# Writing documents

The compact form has no blanks. The indented form has one item a line, two blanks deeper than the
list or record it belongs to; a list without items has no line of its own in either form.
-/

set_option autoImplicit false

namespace QuantizedConv.Document

/-- Texts with a separator between any two. -/
def joined (separator : String) : List String → String
  | [] => ""
  | text :: rest => rest.foldl (fun front next => front ++ separator ++ next) text

/-- A size. -/
def sizeText (n : UInt64) : String := toString n.toNat

/-- A 32-bit integer. -/
def int32Text (n : Int32) : String := toString n.toInt

/-- A name, between quotes. -/
def nameText (name : String) : String := "\"" ++ name ++ "\""

namespace Compact

/-- A list of items. -/
def list (items : List String) : String := "[" ++ joined "," items ++ "]"

/-- A record of members. -/
def record (members : List (String × String)) : String :=
  "\x7b" ++ joined "," (members.map fun (name, value) => nameText name ++ ":" ++ value) ++ "\x7d"

end Compact

namespace Indented

/-- A line break and the blanks of a depth. -/
def newLine (depth : Nat) : String := "\n" ++ String.ofList (List.replicate (2 * depth) ' ')

/-- A list of items that starts at a depth. -/
def list (depth : Nat) (items : List String) : String :=
  if items.isEmpty then "[]"
  else
    "[" ++ newLine (depth + 1) ++ joined ("," ++ newLine (depth + 1)) items ++ newLine depth ++ "]"

/-- A record of members that starts at a depth. -/
def record (depth : Nat) (members : List (String × String)) : String :=
  "\x7b" ++ newLine (depth + 1)
    ++ joined ("," ++ newLine (depth + 1))
      (members.map fun (name, value) => nameText name ++ ": " ++ value)
    ++ newLine depth ++ "\x7d"

end Indented

end QuantizedConv.Document
