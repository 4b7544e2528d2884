import Mathlib.Tactic
import QuantizedConv.Proofs.Spelling

/-!
# Strings

What may stand between the quotes of a string (`StringText`), and the text that it denotes
(`Denotes`): bytes as they are, short escapes, and escapes of four digits, which come in pairs for the
characters beyond them. A reader gives the text that a string denotes (`text_denotes`). A string that
nobody wants is passed over without asking what it denotes (`passString_reads`), so that there half of
a surrogate pair may stand alone.
-/

set_option autoImplicit false

namespace QuantizedConv.Document

section Grammar

/-- A string that is written as it is: no quotes, no backslashes and no control characters. -/
def Plain (s : String) : Prop :=
  ∀ b ∈ bytesOf s, b ≠ byte '"' ∧ b ≠ byte '\\' ∧ ¬b < 0x20

/-- It can be decided whether a string is written as it is, byte by byte. -/
instance (s : String) : Decidable (Plain s) :=
  List.decidableBAll (fun b => b ≠ byte '"' ∧ b ≠ byte '\\' ∧ ¬b < 0x20) (bytesOf s)

/-- A hexadecimal digit, of either case, and its value. -/
def HexDigit (b : UInt8) (n : ℕ) : Prop :=
  n < 16 ∧ (b = byte (Nat.digitChar n) ∨ b = byte (Nat.digitChar n).toUpper)

/-- Four hexadecimal digits and their value. -/
inductive HexCode : Bytes → ℕ → Prop
  | mk {a b c d : UInt8} {p q r s : ℕ} (ha : HexDigit a p) (hb : HexDigit b q) (hc : HexDigit c r)
      (hd : HexDigit d s) : HexCode [a, b, c, d] (p * 0x1000 + q * 0x100 + r * 0x10 + s)

/-- The letters of short escapes, and the characters they stand for. -/
def letterEscapes : List (Char × Char) :=
  [('"', '"'), ('\\', '\\'), ('/', '/'), ('b', '\x08'), ('f', '\x0c'), ('n', '\n'), ('r', '\r'),
    ('t', '\t')]

/-- What may stand between the quotes of a string. -/
inductive StringText : Bytes → Prop
  | done : StringText []
  | plain {b : UInt8} {rest : Bytes} (hquote : b ≠ byte '"') (hslash : b ≠ byte '\\')
      (hcontrol : ¬b < 0x20) (hrest : StringText rest) : StringText (b :: rest)
  | letter {l c : Char} {rest : Bytes} (hletter : (l, c) ∈ letterEscapes)
      (hrest : StringText rest) : StringText (byte '\\' :: byte l :: rest)
  | code {digits rest : Bytes} {n : ℕ} (hdigits : HexCode digits n) (hrest : StringText rest) :
      StringText (byte '\\' :: byte 'u' :: (digits ++ rest))

/-- What stands between the quotes of a string, and the bytes of the text that it denotes. A character
beyond four digits is written as a surrogate pair. -/
inductive Denotes : Bytes → Bytes → Prop
  | done : Denotes [] []
  | plain {b : UInt8} {rest content : Bytes} (hquote : b ≠ byte '"') (hslash : b ≠ byte '\\')
      (hcontrol : ¬b < 0x20) (hrest : Denotes rest content) : Denotes (b :: rest) (b :: content)
  | letter {l c : Char} {rest content : Bytes} (hletter : (l, c) ∈ letterEscapes)
      (hrest : Denotes rest content) : Denotes (byte '\\' :: byte l :: rest) (byte c :: content)
  | code {c : Char} {digits rest content : Bytes} (hdigits : HexCode digits c.toNat)
      (hrest : Denotes rest content) :
      Denotes (byte '\\' :: byte 'u' :: (digits ++ rest)) (String.utf8EncodeChar c ++ content)
  | pair {c : Char} {digits digits' rest content : Bytes} {high low : ℕ}
      (hdigits : HexCode digits (0xD800 + high)) (hdigits' : HexCode digits' (0xDC00 + low))
      (hhigh : high < 0x400) (hlow : low < 0x400) (hc : c.toNat = 0x10000 + high * 0x400 + low)
      (hrest : Denotes rest content) :
      Denotes (byte '\\' :: byte 'u' :: (digits ++ byte '\\' :: byte 'u' :: (digits' ++ rest)))
        (String.utf8EncodeChar c ++ content)

end Grammar

section Reading

/-- The bytes of a text are decoded as the text. -/
theorem decode?_bytesOf (s : String) : decode? (bytesOf s) = some s := by
  have hbytes : (⟨(bytesOf s).toArray⟩ : ByteArray) = s.toByteArray := by
    simp only [bytesOf, String.toUTF8, Array.toArray_toList]
  rw [decode?, hbytes, String.fromUTF8?, dif_pos s.isValidUTF8]
  rfl

/-- A quote ends the bytes of a string. -/
theorem stringBytes_quote (taken rest : Bytes) :
    stringBytes taken (byte '"' :: rest) = .ok (taken.reverse, rest) := by
  unfold stringBytes
  exact if_pos rfl

/-- A byte without a special meaning stands for itself. -/
theorem stringBytes_cons {b : UInt8} (hquote : b ≠ byte '"') (hslash : b ≠ byte '\\')
    (hcontrol : ¬b < 0x20) (taken rest : Bytes) :
    stringBytes taken (b :: rest) = stringBytes (b :: taken) rest := by
  rw [stringBytes.eq_def]
  simp only [if_neg hquote, if_neg hslash, if_neg hcontrol]

/-- A hexadecimal digit is read as its value. -/
theorem hexValue?_of_hexDigit {b : UInt8} {n : ℕ} (h : HexDigit b n) : hexValue? b = some n := by
  obtain ⟨hn, hb⟩ := h
  interval_cases n <;> rcases hb with rfl | rfl <;> decide

/-- Four hexadecimal digits are read as their value. -/
theorem HexCode.exists_quad {digits : Bytes} {n : ℕ} (h : HexCode digits n) :
    ∃ a b c d, digits = [a, b, c, d] ∧ hexQuad? a b c d = some n := by
  cases h with
  | @mk a b c d p q r s ha hb hc hd =>
    refine ⟨a, b, c, d, rfl, ?_⟩
    simp only [hexQuad?, hexValue?_of_hexDigit ha, hexValue?_of_hexDigit hb,
      hexValue?_of_hexDigit hc, hexValue?_of_hexDigit hd, Option.bind_eq_bind, Option.bind_some,
      Option.pure_def, Option.some.injEq]
    ring

/-- The letter of a short escape is read as the character that it stands for. -/
theorem plainEscape?_of_letter {l c : Char} (h : (l, c) ∈ letterEscapes) :
    plainEscape? (byte l) = some (byte c) :=
  (show ∀ e ∈ letterEscapes, plainEscape? (byte e.1) = some (byte e.2) by decide) (l, c) h

/-- A short escape denotes its character. -/
theorem stringBytes_letter {l c : Char} (h : (l, c) ∈ letterEscapes) (taken rest : Bytes) :
    stringBytes taken (byte '\\' :: byte l :: rest) = stringBytes (byte c :: taken) rest := by
  rw [stringBytes.eq_def]
  simp only [if_neg (show byte '\\' ≠ byte '"' by decide), if_true, plainEscape?_of_letter h]

/-- No character is half of a surrogate pair. -/
theorem not_surrogate (c : Char) :
    isLowSurrogate c.toNat = false ∧ isHighSurrogate c.toNat = false := by
  have hvalid : c.toNat < 0xD800 ∨ 0xDFFF < c.toNat ∧ c.toNat < 0x110000 := c.valid
  simp only [isLowSurrogate, isHighSurrogate, Bool.and_eq_false_iff, decide_eq_false_iff_not]
  omega

/-- An escape of four digits denotes the character with that code. -/
theorem stringBytes_code {c : Char} {digits : Bytes} (h : HexCode digits c.toNat)
    (taken rest : Bytes) :
    stringBytes taken (byte '\\' :: byte 'u' :: (digits ++ rest)) =
      stringBytes ((String.utf8EncodeChar c).reverse ++ taken) rest := by
  obtain ⟨a, b, d, e, rfl, hquad⟩ := h.exists_quad
  obtain ⟨hlow, hhigh⟩ := not_surrogate c
  have hletter : plainEscape? (byte 'u') = none := by decide
  rw [stringBytes.eq_def]
  simp only [if_neg (show byte '\\' ≠ byte '"' by decide), if_true, hletter, ne_eq, not_true_eq_false,
    if_false, List.cons_append, List.nil_append, hquad, hlow, hhigh, Bool.false_eq_true, encodeChar,
    Char.ofNat_toNat]

/-- Two escapes that make a surrogate pair denote the character beyond four digits. -/
theorem stringBytes_pair {c : Char} {digits digits' : Bytes} {high low : ℕ}
    (hdigits : HexCode digits (0xD800 + high)) (hdigits' : HexCode digits' (0xDC00 + low))
    (hhigh : high < 0x400) (hlow : low < 0x400) (hc : c.toNat = 0x10000 + high * 0x400 + low)
    (taken rest : Bytes) :
    stringBytes taken
        (byte '\\' :: byte 'u' :: (digits ++ byte '\\' :: byte 'u' :: (digits' ++ rest))) =
      stringBytes ((String.utf8EncodeChar c).reverse ++ taken) rest := by
  obtain ⟨a, b, d, e, rfl, hquad⟩ := hdigits.exists_quad
  obtain ⟨a', b', d', e', rfl, hquad'⟩ := hdigits'.exists_quad
  have hletter : plainEscape? (byte 'u') = none := by decide
  have hfirst : isLowSurrogate (0xD800 + high) = false ∧ isHighSurrogate (0xD800 + high) = true := by
    simp only [isLowSurrogate, isHighSurrogate, Bool.and_eq_false_iff, Bool.and_eq_true,
      decide_eq_false_iff_not, decide_eq_true_eq]
    omega
  have hsecond : isLowSurrogate (0xDC00 + low) = true := by
    simp only [isLowSurrogate, Bool.and_eq_true, decide_eq_true_eq]
    omega
  have hpair : pairCodePoint (0xD800 + high) (0xDC00 + low) = c.toNat := by
    simp only [pairCodePoint]
    omega
  rw [stringBytes.eq_def]
  simp only [if_neg (show byte '\\' ≠ byte '"' by decide), if_true, hletter, ne_eq, not_true_eq_false,
    if_false, List.cons_append, List.nil_append, hquad, hquad', hfirst.1, hfirst.2, hsecond,
    Bool.false_eq_true, encodeChar, hpair, Char.ofNat_toNat]

/-- The bytes of a string are read as what it denotes, up to the closing quote. -/
theorem stringBytes_denotes {content denoted : Bytes} (h : Denotes content denoted)
    (taken rest : Bytes) :
    stringBytes taken (content ++ byte '"' :: rest) = .ok (taken.reverse ++ denoted, rest) := by
  induction h generalizing taken with
  | done => rw [List.nil_append, stringBytes_quote, List.append_nil]
  | plain hquote hslash hcontrol _ ih =>
    rw [List.cons_append, stringBytes_cons hquote hslash hcontrol, ih]
    simp
  | letter hletter _ ih =>
    rw [List.cons_append, List.cons_append, stringBytes_letter hletter, ih]
    simp
  | code hdigits _ ih =>
    rw [List.cons_append, List.cons_append, List.append_assoc, stringBytes_code hdigits, ih]
    simp
  | pair hdigits hdigits' hhigh hlow hc _ ih =>
    simp only [List.cons_append, List.append_assoc]
    rw [stringBytes_pair hdigits hdigits' hhigh hlow hc, ih]
    simp

/-- **A string is read as the text that it denotes.** -/
theorem text_denotes {content : Bytes} {s : String} (h : Denotes content (bytesOf s))
    (rest : Bytes) : text (content ++ byte '"' :: rest) = .ok (s, rest) := by
  simp only [text, stringBytes_denotes h, List.reverse_nil, List.nil_append, bind, Except.bind,
    decode?_bytesOf]

/-- Bytes without a special meaning denote themselves. -/
theorem denotes_plain {content : Bytes}
    (h : ∀ b ∈ content, b ≠ byte '"' ∧ b ≠ byte '\\' ∧ ¬b < 0x20) : Denotes content content := by
  induction content with
  | nil => exact .done
  | cons b content ih =>
    rw [List.forall_mem_cons] at h
    obtain ⟨⟨hquote, hslash, hcontrol⟩, hrest⟩ := h
    exact .plain hquote hslash hcontrol (ih hrest)

/-- A plain string is read as itself. -/
theorem text_plain {s : String} (h : Plain s) (rest : Bytes) :
    text (bytesOf s ++ byte '"' :: rest) = .ok (s, rest) :=
  text_denotes (denotes_plain h) rest

/-- A string that nobody wants is passed over, whatever it denotes. -/
theorem passString_reads {content : Bytes} (h : StringText content) (rest : Bytes) :
    passString (content ++ byte '"' :: rest) = .ok rest := by
  induction h with
  | done =>
    rw [List.nil_append, passString.eq_def]
    exact if_pos rfl
  | plain hquote hslash hcontrol _ ih =>
    rw [List.cons_append, passString.eq_def]
    simp only [if_neg hquote, if_neg hslash, if_neg hcontrol, ih]
  | letter hletter _ ih =>
    rw [List.cons_append, List.cons_append, passString.eq_def]
    simp only [if_neg (show byte '\\' ≠ byte '"' by decide), if_true, plainEscape?_of_letter hletter,
      Option.isSome_some, ih]
  | code hdigits _ ih =>
    obtain ⟨a, b, c, d, rfl, hquad⟩ := hdigits.exists_quad
    have hletter : (plainEscape? (byte 'u')).isSome = false := by decide
    rw [List.cons_append, List.cons_append, List.append_assoc, passString.eq_def]
    simp only [if_neg (show byte '\\' ≠ byte '"' by decide), if_true, hletter, Bool.false_eq_true,
      if_false, ne_eq, not_true_eq_false, List.cons_append, List.nil_append, hquad, ih]

end Reading

end QuantizedConv.Document
