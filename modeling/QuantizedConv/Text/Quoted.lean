import QuantizedConv.Text.Standalone

/-!
# Quoted text

How messages show a piece of text: between double quotes, with an escape for quotes, backslashes
and the common controls, and with its code point for any other character that does not stand for
itself.
-/

set_option autoImplicit false

namespace QuantizedConv.Text

/-- A code point in lowercase hexadecimal, between braces. -/
def codePoint (c : Char) : String :=
  "\\u\x7b" ++ String.ofList (Nat.toDigits 16 c.toNat) ++ "\x7d"

/-- One character of a quoted text. -/
def quotedChar (c : Char) : String :=
  if c = '"' then "\\\""
  else if c = '\\' then "\\\\"
  else if c = '\n' then "\\n"
  else if c = '\r' then "\\r"
  else if c = '\t' then "\\t"
  else if c.toNat = 0 then "\\0"
  else if isStandalone c then String.singleton c
  else codePoint c

/-- A text between double quotes. -/
def quoted (s : String) : String :=
  "\"" ++ s.toList.foldl (fun text c => text ++ quotedChar c) "" ++ "\""

end QuantizedConv.Text
