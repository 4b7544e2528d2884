import QuantizedConv.Document.Record
import QuantizedConv.Document.Writer

/-!
# Texts that spell a value

Bytes spell a value for a reader (`Spells`) when the reader takes exactly them, whatever stands
behind, and gives the value; blanks in front do not matter. What stands behind must not go on as a
number would (`Detached`), since that is the one thing a reader looks at without taking it. Here are
the parts of such texts that are no values themselves: blanks and punctuation.
-/

set_option autoImplicit false

namespace QuantizedConv.Document

section Runs

variable {α β : Type}

/-- What a reader leaves is what the next one starts from. -/
theorem bind_reads {reader : Reader α} {bytes rest : Bytes} {value : α}
    (h : reader bytes = .ok (value, rest)) (next : α → Reader β) :
    (reader >>= next) bytes = next value rest := by
  change (reader bytes >>= fun result => next result.1 result.2) = next value rest
  rw [h]
  rfl

/-- Blanks, and nothing else. -/
def Blank (gap : Bytes) : Prop := ∀ b ∈ gap, isBlank b = true

/-- The empty text is blank. -/
theorem blank_nil : Blank [] := by
  intro b hb
  cases hb

/-- A space is blank. -/
theorem blank_space : Blank [byte ' '] := by
  intro b hb
  rw [List.mem_singleton.mp hb]
  decide

/-- Blanks in front are skipped. -/
theorem skipBlanks_append {gap : Bytes} (hgap : Blank gap) (bytes : Bytes) :
    skipBlanks (gap ++ bytes) = skipBlanks bytes := by
  induction gap with
  | nil => rfl
  | cons b gap ih =>
    have hb : isBlank b = true := hgap b List.mem_cons_self
    have hrest : Blank gap := fun c hc => hgap c (List.mem_cons_of_mem b hc)
    rw [List.cons_append, skipBlanks, List.dropWhile_cons_of_pos hb]
    exact ih hrest

/-- Nothing is skipped in front of a byte that is not blank. -/
theorem skipBlanks_cons {b : UInt8} (hb : isBlank b = false) (rest : Bytes) :
    skipBlanks (b :: rest) = b :: rest := by
  rw [skipBlanks, List.dropWhile_cons_of_neg (by simp [hb])]

/-- A reader that passes over blanks before anything else. -/
def SkipsBlanks (reader : Reader α) : Prop :=
  ∀ gap bytes, Blank gap → reader (gap ++ bytes) = reader bytes

/-- A reader that starts with one that passes over blanks does so too. -/
theorem SkipsBlanks.bind {reader : Reader α} (h : SkipsBlanks reader) (next : α → Reader β) :
    SkipsBlanks (reader >>= next) := by
  intro gap bytes hgap
  change (reader (gap ++ bytes) >>= fun result => next result.1 result.2) =
    (reader bytes >>= fun result => next result.1 result.2)
  rw [h gap bytes hgap]

/-- Looking at the next byte passes over blanks. -/
theorem skipsBlanks_peek : SkipsBlanks peek := by
  intro gap bytes hgap
  simp only [peek, skipBlanks_append hgap]

/-- Looking at the first byte of a value passes over blanks. -/
theorem skipsBlanks_peekValue : SkipsBlanks peekValue := skipsBlanks_peek.bind _

/-- The next byte is the first one, where it is not blank. -/
theorem peek_cons {b : UInt8} (hb : isBlank b = false) (rest : Bytes) :
    peek (b :: rest) = .ok (some b, b :: rest) := by
  simp only [peek, skipBlanks_cons hb, List.head?_cons]

/-- The first byte of a value is the first one, where it is not blank. -/
theorem peekValue_cons {b : UInt8} (hb : isBlank b = false) (rest : Bytes) :
    peekValue (b :: rest) = .ok (b, b :: rest) :=
  bind_reads (peek_cons hb rest) _

end Runs

/-- Whether a number that has begun goes on with a byte. -/
def continuesNumber (b : UInt8) : Bool :=
  isDigit b || b == byte '.' || b == byte 'e' || b == byte 'E'

/-- A text that does not go on as a number would. -/
def Detached (rest : Bytes) : Prop := ∀ b, rest.head? = some b → continuesNumber b = false

/-- The end of a text is detached. -/
theorem detached_nil : Detached [] := by
  intro b hb
  cases hb

/-- What starts with a byte that continues no number is detached. -/
theorem detached_cons {b : UInt8} (hb : continuesNumber b = false) (rest : Bytes) :
    Detached (b :: rest) := by
  intro c hc
  cases hc
  exact hb

/-- A blank does not go on a number. -/
theorem continuesNumber_of_isBlank {b : UInt8} (hb : isBlank b = true) :
    continuesNumber b = false := by
  simp only [isBlank, Bool.or_eq_true, beq_iff_eq] at hb
  obtain ((rfl | rfl) | rfl) | rfl := hb <;> decide

/-- What is detached stays so behind blanks. -/
theorem Detached.gap {gap rest : Bytes} (hgap : Blank gap) (h : Detached rest) :
    Detached (gap ++ rest) := by
  cases gap with
  | nil => exact h
  | cons b gap =>
    exact detached_cons (continuesNumber_of_isBlank (hgap b List.mem_cons_self)) (gap ++ rest)

/-- A value does not start with a blank or with the end of a list. -/
structure StartsItem (b : UInt8) : Prop where
  notBlank : isBlank b = false
  notClose : b ≠ byte ']'

/-- Bytes that start as a value does. -/
def Starts (bytes : Bytes) : Prop := ∃ b rest, bytes = b :: rest ∧ StartsItem b

/-- **Bytes that spell a value** for a reader. -/
structure Spells {α : Type} (reader : Reader α) (bytes : Bytes) (value : α) : Prop where
  starts : Starts bytes
  reads : ∀ gap rest, Blank gap → Detached rest →
    reader (gap ++ (bytes ++ rest)) = .ok (value, rest)

namespace Spells

variable {α β : Type} {reader : Reader α} {bytes : Bytes} {value : α}

/-- A reader that passes over blanks need not be followed through them. -/
theorem of_skipsBlanks {b : UInt8} {tail : Bytes} (hstarts : StartsItem b)
    (hskips : SkipsBlanks reader)
    (hreads : ∀ rest, Detached rest → reader (b :: tail ++ rest) = .ok (value, rest)) :
    Spells reader (b :: tail) value := by
  refine ⟨⟨b, tail, rfl, hstarts⟩, fun gap rest hgap hrest => ?_⟩
  rw [hskips gap _ hgap]
  exact hreads rest hrest

/-- Bytes that spell a value are read as the value where nothing stands in front of them. -/
theorem reads_front (h : Spells reader bytes value) {rest : Bytes} (hrest : Detached rest) :
    reader (bytes ++ rest) = .ok (value, rest) := h.reads [] rest blank_nil hrest

/-- Bytes that spell a value spell its image for the reader of images. -/
theorem map (h : Spells reader bytes value) (f : α → β) :
    Spells (do return f (← reader)) bytes (f value) := by
  refine ⟨h.starts, fun gap rest hgap hrest => ?_⟩
  rw [bind_reads (h.reads gap rest hgap hrest)]
  rfl

/-- A document that spells a value, between blanks, is read as that value. -/
theorem whole (h : Spells reader bytes value) {gap gap' : Bytes} (hgap : Blank gap)
    (hgap' : Blank gap') : Document.whole reader (gap ++ (bytes ++ gap')) = .ok value := by
  have hdetached : Detached gap' := by
    have hend := detached_nil.gap hgap'
    rwa [List.append_nil] at hend
  have hblank : skipBlanks gap' = [] := by
    have hskip := skipBlanks_append hgap' []
    rwa [List.append_nil] at hskip
  have hrun : reader.run (gap ++ (bytes ++ gap')) = .ok (value, gap') :=
    h.reads gap gap' hgap hdetached
  rw [Document.whole, hrun]
  simp only [bind, Except.bind, hblank, List.isEmpty_nil, if_true]

/-- Bytes that spell a value are, as a whole document, read as the value. -/
theorem whole_eq (h : Spells reader bytes value) : Document.whole reader bytes = .ok value := by
  have hwhole := h.whole blank_nil blank_nil
  rwa [List.nil_append, List.append_nil] at hwhole

end Spells

section Punctuation

variable {gap gap' bytes : Bytes}

/-- Advancing takes one byte. -/
theorem advance_cons (b : UInt8) (rest : Bytes) : advance (b :: rest) = .ok ((), rest) := rfl

/-- Looking at all bytes takes none of them. -/
theorem get_reads (bytes : Bytes) : (get : Reader Bytes) bytes = .ok (bytes, bytes) := rfl

/-- The letters of a literal are taken. -/
theorem literal_reads (letters : List Char) (rest : Bytes) :
    literal letters (letters.map byte ++ rest) = .ok ((), rest) := by
  induction letters with
  | nil => rfl
  | cons c letters ih =>
    rw [literal, List.map_cons, List.cons_append, bind_reads (get_reads _)]
    simp only [if_true]
    rw [bind_reads (show (set (letters.map byte ++ rest) : Reader Unit) _ = .ok ((), _) from rfl)]
    exact ih

/-- A colon is taken, with the blanks in front of it. -/
theorem colon_reads (hgap : Blank gap) (rest : Bytes) :
    colon (gap ++ byte ':' :: rest) = .ok ((), rest) := by
  have hskips : SkipsBlanks colon := skipsBlanks_peek.bind _
  rw [hskips gap _ hgap, colon, bind_reads (peek_cons (by decide) rest)]
  rfl

/-- The end of a list. -/
theorem nextElement_close (first : Bool) (hgap : Blank gap) (rest : Bytes) :
    nextElement first (gap ++ byte ']' :: rest) = .ok (false, byte ']' :: rest) := by
  have hskips : SkipsBlanks (nextElement first) := skipsBlanks_peek.bind _
  rw [hskips gap _ hgap, nextElement, bind_reads (peek_cons (by decide) rest)]
  rfl

/-- The first element of a list. -/
theorem nextElement_first (hgap : Blank gap) (hbytes : Starts bytes) (rest : Bytes) :
    nextElement true (gap ++ (bytes ++ rest)) = .ok (true, bytes ++ rest) := by
  obtain ⟨b, tail, rfl, hb⟩ := hbytes
  have hskips : SkipsBlanks (nextElement true) := skipsBlanks_peek.bind _
  rw [hskips gap _ hgap, nextElement, List.cons_append, bind_reads (peek_cons hb.notBlank _)]
  simp only [if_neg hb.notClose]
  rfl

/-- Another element of a list. -/
theorem nextElement_comma (hgap : Blank gap) (hgap' : Blank gap') (hbytes : Starts bytes)
    (rest : Bytes) :
    nextElement false (gap ++ byte ',' :: (gap' ++ (bytes ++ rest))) =
      .ok (true, bytes ++ rest) := by
  obtain ⟨b, tail, rfl, hb⟩ := hbytes
  have hskips : SkipsBlanks (nextElement false) := skipsBlanks_peek.bind _
  rw [hskips gap _ hgap, nextElement, bind_reads (peek_cons (by decide) _)]
  simp only [if_neg (show byte ',' ≠ byte ']' by decide), Bool.false_eq_true, if_false, if_true]
  rw [bind_reads (advance_cons _ _), (skipsBlanks_peek.bind _) gap' _ hgap', List.cons_append,
    bind_reads (peek_cons hb.notBlank _)]
  simp only [if_neg hb.notClose]
  rfl

/-- The bracket that closes a list is taken. -/
theorem closeList_reads (rest : Bytes) : closeList (byte ']' :: rest) = .ok ((), rest) := by
  rw [closeList, bind_reads (peek_cons (by decide) rest)]
  rfl

/-- The end of an object. -/
theorem nextMember_close (first : Bool) (hgap : Blank gap) (rest : Bytes) :
    nextMember first (gap ++ byte '\x7d' :: rest) = .ok (false, byte '\x7d' :: rest) := by
  have hskips : SkipsBlanks (nextMember first) := skipsBlanks_peek.bind _
  rw [hskips gap _ hgap, nextMember, bind_reads (peek_cons (by decide) rest)]
  rfl

/-- The first member of an object. -/
theorem nextMember_first (hgap : Blank gap) (hbytes : bytes.head? = some (byte '"'))
    (rest : Bytes) : nextMember true (gap ++ (bytes ++ rest)) = .ok (true, bytes ++ rest) := by
  obtain ⟨tail, rfl⟩ := List.head?_eq_some_iff.mp hbytes
  have hskips : SkipsBlanks (nextMember true) := skipsBlanks_peek.bind _
  rw [hskips gap _ hgap, nextMember, List.cons_append, bind_reads (peek_cons (by decide) _)]
  rfl

/-- Another member of an object. -/
theorem nextMember_comma (hgap : Blank gap) (hgap' : Blank gap')
    (hbytes : bytes.head? = some (byte '"')) (rest : Bytes) :
    nextMember false (gap ++ byte ',' :: (gap' ++ (bytes ++ rest))) =
      .ok (true, bytes ++ rest) := by
  obtain ⟨tail, rfl⟩ := List.head?_eq_some_iff.mp hbytes
  have hskips : SkipsBlanks (nextMember false) := skipsBlanks_peek.bind _
  rw [hskips gap _ hgap, nextMember, bind_reads (peek_cons (by decide) _)]
  simp only [if_neg (show byte ',' ≠ byte '\x7d' by decide), Bool.false_eq_true, if_false, if_true]
  rw [bind_reads (advance_cons _ _), (skipsBlanks_peek.bind _) gap' _ hgap', List.cons_append,
    bind_reads (peek_cons (by decide) _)]
  rfl

end Punctuation

end QuantizedConv.Document
