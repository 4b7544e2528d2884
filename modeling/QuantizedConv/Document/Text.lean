import QuantizedConv.Document.Number

/-!
# Strings of a document

A string is taken byte by byte up to its closing quote, escapes are replaced by the characters they
stand for, and the result must be text. A string that nobody wants is passed over without that last
check.
-/

set_option autoImplicit false

namespace QuantizedConv.Document

/-- The value of a hexadecimal digit. -/
def hexValue? (b : UInt8) : Option Nat :=
  if isDigit b then some (digitValue b)
  else if byte 'a' ≤ b && b ≤ byte 'f' then some (b.toNat - (byte 'a').toNat + 10)
  else if byte 'A' ≤ b && b ≤ byte 'F' then some (b.toNat - (byte 'A').toNat + 10)
  else none

/-- The value of four hexadecimal digits. -/
def hexQuad? (a b c d : UInt8) : Option Nat := do
  return (((← hexValue? a) * 16 + (← hexValue? b)) * 16 + (← hexValue? c)) * 16 + (← hexValue? d)

/-- The character of an escape of one letter. -/
def plainEscape? (b : UInt8) : Option UInt8 :=
  if b = byte '"' ∨ b = byte '\\' ∨ b = byte '/' then some b
  else if b = byte 'b' then some 0x08
  else if b = byte 'f' then some 0x0c
  else if b = byte 'n' then some 0x0a
  else if b = byte 'r' then some 0x0d
  else if b = byte 't' then some 0x09
  else none

/-- Whether a code unit is the first half of a surrogate pair. -/
def isHighSurrogate (n : Nat) : Bool := 0xD800 ≤ n && n ≤ 0xDBFF

/-- Whether a code unit is the second half of a surrogate pair. -/
def isLowSurrogate (n : Nat) : Bool := 0xDC00 ≤ n && n ≤ 0xDFFF

/-- The bytes of a character. -/
def encodeChar (n : Nat) : Bytes := String.utf8EncodeChar (Char.ofNat n)

/-- The code point of a surrogate pair. -/
def pairCodePoint (high low : Nat) : Nat := (high - 0xD800) * 0x400 + (low - 0xDC00) + 0x10000

/-- The bytes of a string up to its closing quote, with escapes replaced, and what follows it.
`taken` is what was read of it, last byte first. -/
def stringBytes (taken : Bytes) : Bytes → Except Problem (Bytes × Bytes)
  | [] => .error .endInString
  | b :: rest =>
    if b = byte '"' then .ok (taken.reverse, rest)
    else if b = byte '\\' then
      match rest with
      | [] => .error .endInString
      | e :: rest =>
        match plainEscape? e with
        | some c => stringBytes (c :: taken) rest
        | none =>
          if e ≠ byte 'u' then .error .invalidEscape
          else
            match rest with
            | a :: b :: c :: d :: rest =>
              match hexQuad? a b c d with
              | none => .error .invalidEscape
              | some high =>
                if isLowSurrogate high then .error .loneSurrogate
                else if isHighSurrogate high then
                  match rest with
                  | [] => .error .endInString
                  | slash :: rest =>
                    if slash ≠ byte '\\' then .error .unexpectedEndOfHexEscape
                    else
                      match rest with
                      | [] => .error .endInString
                      | u :: rest =>
                        if u ≠ byte 'u' then .error .unexpectedEndOfHexEscape
                        else
                          match rest with
                          | a :: b :: c :: d :: rest =>
                            match hexQuad? a b c d with
                            | none => .error .invalidEscape
                            | some low =>
                              if isLowSurrogate low then
                                stringBytes ((encodeChar (pairCodePoint high low)).reverse ++ taken) rest
                              else .error .loneSurrogate
                          | _ => .error .endInString
                else stringBytes ((encodeChar high).reverse ++ taken) rest
            | _ => .error .endInString
    else if b < 0x20 then .error .controlCharacter
    else stringBytes (b :: taken) rest

/-- The text of bytes, if they are text. -/
def decode? (bytes : Bytes) : Option String := String.fromUTF8? ⟨bytes.toArray⟩

/-- A string behind its opening quote. -/
def text : Reader String := fun bytes => do
  let (content, rest) ← stringBytes [] bytes
  match decode? content with
  | some s => .ok (s, rest)
  | none => .error .invalidCodePoint

/-- Passes over a string behind its opening quote. -/
def passString : Bytes → Except Problem Bytes
  | [] => .error .endInString
  | b :: rest =>
    if b = byte '"' then .ok rest
    else if b = byte '\\' then
      match rest with
      | [] => .error .endInString
      | e :: rest =>
        if (plainEscape? e).isSome then passString rest
        else if e ≠ byte 'u' then .error .invalidEscape
        else
          match rest with
          | a :: b :: c :: d :: rest =>
            match hexQuad? a b c d with
            | none => .error .invalidEscape
            | some _ => passString rest
          | _ => .error .endInString
    else if b < 0x20 then .error .controlCharacter
    else passString rest

end QuantizedConv.Document
