import QuantizedConv.Proofs.Scanning

/-!
# Values that are passed over

The grammar of values, apart from any reader: literals, numbers, strings, and lists and objects of any
depth, with blanks between any two tokens (`JsonText`). A scan that passes over values takes every one
of them, and nothing behind it (`JsonText.passes`). It follows the value frame by frame and looks into
none of its scalars, so that a number may have any size and a string need not denote any text.
-/

set_option autoImplicit false

namespace QuantizedConv.Document

section Numbers

/-- Digits, at least one. -/
def DigitsText (ds : Bytes) : Prop := ds ≠ [] ∧ ∀ b ∈ ds, isDigit b = true

/-- The digits of a number before its point: no zero in front of others. -/
inductive WholeText : Bytes → Prop
  | zero : WholeText [byte '0']
  | digits {b : UInt8} {ds : Bytes} (hb : isDigit b = true) (hzero : b ≠ byte '0')
      (hds : ∀ d ∈ ds, isDigit d = true) : WholeText (b :: ds)

/-- The part of a number behind its point, with the point, or none. -/
inductive FractionText : Bytes → Prop
  | none : FractionText []
  | some {ds : Bytes} (hds : DigitsText ds) : FractionText (byte '.' :: ds)

/-- The exponent of a number, with its mark and a sign or without, or none. -/
inductive ExponentText : Bytes → Prop
  | none : ExponentText []
  | some {mark : UInt8} {sign ds : Bytes} (hmark : mark = byte 'e' ∨ mark = byte 'E')
      (hsign : sign = [] ∨ sign = [byte '+'] ∨ sign = [byte '-']) (hds : DigitsText ds) :
      ExponentText (mark :: (sign ++ ds))

/-- A number: a sign or none, digits, and a fraction and an exponent or none. -/
inductive NumberText : Bytes → Prop
  | mk {sign whole fraction exponent : Bytes} (hsign : sign = [] ∨ sign = [byte '-'])
      (hwhole : WholeText whole) (hfraction : FractionText fraction)
      (hexponent : ExponentText exponent) :
      NumberText (sign ++ (whole ++ (fraction ++ exponent)))

variable {rest : Bytes}

/-- One digit is a text of digits. -/
theorem digitsText_singleton {b : UInt8} (hb : isDigit b = true) : DigitsText [b] :=
  ⟨by simp, List.forall_mem_singleton.mpr hb⟩

/-- The part of a number before its point is a text of digits. -/
theorem WholeText.all_digits {whole : Bytes} (h : WholeText whole) : DigitsText whole := by
  cases h with
  | zero => exact digitsText_singleton (by decide)
  | digits hb _ hds => exact ⟨by simp, List.forall_mem_cons.mpr ⟨hb, hds⟩⟩

/-- A digit differs from every byte that is no digit. -/
theorem isDigit_ne {b c : UInt8} (hb : isDigit b = true) (hc : isDigit c = false) : b ≠ c := by
  rintro rfl
  rw [hb] at hc
  cases hc

/-- Only the digit zero has the value zero. -/
theorem digitValue_ne_zero {b : UInt8} (hb : isDigit b = true) (hzero : b ≠ byte '0') :
    digitValue b ≠ 0 := by
  simp only [isDigit, Bool.and_eq_true, decide_eq_true_eq, UInt8.le_iff_toNat_le] at hb
  have hne : b.toNat ≠ (byte '0').toNat := fun h => hzero (UInt8.toNat.inj h)
  simp only [digitValue]
  omega

/-- A text of digits starts with a digit. -/
theorem DigitsText.exists_cons {ds : Bytes} (h : DigitsText ds) :
    ∃ b tail, ds = b :: tail ∧ isDigit b = true := by
  obtain ⟨b, tail, rfl⟩ := List.exists_cons_of_ne_nil h.1
  exact ⟨b, tail, rfl, h.2 b List.mem_cons_self⟩

/-- Digits are passed over up to the first byte that is none. -/
theorem passDigits_reads {ds : Bytes} (h : DigitsText ds)
    (hrest : ∀ b ∈ rest.head?, isDigit b = false) : passDigits (ds ++ rest) = .ok ((), rest) := by
  obtain ⟨b, tail, rfl, -⟩ := h.exists_cons
  rw [passDigits, bind_reads (digits_append h.2 hrest)]
  simp only [List.map_cons, List.isEmpty_cons, Bool.false_eq_true, if_false]
  rfl

/-- An exponent is passed over, where there is one. -/
theorem passExponent_reads {exponent : Bytes} (h : ExponentText exponent) (hrest : Detached rest) :
    passExponent (exponent ++ rest) = .ok ((), rest) := by
  cases h with
  | none =>
    have hmark : ¬(rest.head? = some (byte 'e') ∨ rest.head? = some (byte 'E')) := by
      rintro (h | h) <;> exact absurd (hrest _ h) (by decide)
    rw [List.nil_append, passExponent, bind_reads (show front rest = .ok (rest.head?, rest) from rfl)]
    simp only [if_neg hmark]
    rfl
  | @some mark sign ds hmark hsign hds =>
    have hdigits := passDigits_reads hds hrest.not_isDigit
    obtain ⟨b, tail, hhead, hb⟩ := hds.exists_cons
    have hfirst : some mark = some (byte 'e') ∨ some mark = some (byte 'E') :=
      hmark.imp (congrArg some) (congrArg some)
    have hplain : ¬(some b = some (byte '+') ∨ some b = some (byte '-')) := by
      rintro (h | h) <;> cases h <;> revert hb <;> decide
    rw [List.cons_append, List.append_assoc, passExponent, bind_reads (front_cons _ _)]
    simp only [if_pos hfirst]
    rw [bind_reads (advance_cons _ _)]
    rcases hsign with rfl | rfl | rfl
    · rw [hhead] at hdigits ⊢
      rw [List.nil_append, List.cons_append, bind_reads (front_cons _ _)]
      simp only [if_neg hplain]
      exact hdigits
    · rw [List.singleton_append, bind_reads (front_cons _ _)]
      simp only [true_or, if_true]
      rw [bind_reads (advance_cons _ _)]
      exact hdigits
    · rw [List.singleton_append, bind_reads (front_cons _ _)]
      simp only [or_true, if_true]
      rw [bind_reads (advance_cons _ _)]
      exact hdigits

/-- What starts with an exponent, or ends there, does not start with a digit. -/
theorem ExponentText.not_isDigit {exponent : Bytes} (h : ExponentText exponent)
    (hrest : Detached rest) : ∀ b ∈ (exponent ++ rest).head?, isDigit b = false := by
  cases h with
  | none => exact hrest.not_isDigit
  | some hmark =>
    rintro b ⟨⟩
    rcases hmark with rfl | rfl <;> decide

/-- What starts with a fraction or an exponent, or ends there, does not start with a digit. -/
theorem FractionText.not_isDigit {fraction exponent : Bytes} (h : FractionText fraction)
    (hexponent : ExponentText exponent) (hrest : Detached rest) :
    ∀ b ∈ (fraction ++ (exponent ++ rest)).head?, isDigit b = false := by
  cases h with
  | none => exact hexponent.not_isDigit hrest
  | some =>
    rintro b ⟨⟩
    decide

/-- A fraction and an exponent are passed over, where they are. -/
theorem passFraction_reads {fraction exponent : Bytes} (hfraction : FractionText fraction)
    (hexponent : ExponentText exponent) (hrest : Detached rest) :
    (do
      if (← front) = some (byte '.') then
        advance
        passDigits
      passExponent) (fraction ++ (exponent ++ rest)) = .ok ((), rest) := by
  have hbehind := passExponent_reads hexponent hrest
  cases hfraction with
  | none =>
    have hpoint : ¬(exponent ++ rest).head? = some (byte '.') := by
      intro h
      cases hexponent with
      | none => exact absurd (hrest _ h) (by decide)
      | some hmark =>
        cases h
        rcases hmark with h | h <;> revert h <;> decide
    rw [List.nil_append,
      bind_reads (show front (exponent ++ rest) = .ok ((exponent ++ rest).head?, _) from rfl)]
    simp only [if_neg hpoint]
    exact hbehind
  | some hds =>
    rw [List.cons_append, bind_reads (front_cons _ _)]
    simp only [if_true]
    rw [bind_reads (advance_cons _ _),
      bind_reads (passDigits_reads hds (hexponent.not_isDigit hrest))]
    exact hbehind

/-- A sign in front of a number changes nothing. -/
theorem passNumber_minus {b : UInt8} (hb : isDigit b = true) (tail : Bytes) :
    passNumber (byte '-' :: b :: tail) = passNumber (b :: tail) := by
  have hplain : ¬some b = some (byte '-') := fun h => isDigit_ne hb (by decide) (Option.some.inj h)
  rw [passNumber, bind_reads (front_cons _ _), bind_reads (front_cons _ _)]
  simp only [if_true, if_neg hplain]
  rw [bind_reads (advance_cons _ _)]

/-- **A number is passed over, however large it is.** -/
theorem passNumber_reads {bytes : Bytes} (h : NumberText bytes) (hrest : Detached rest) :
    passNumber (bytes ++ rest) = .ok ((), rest) := by
  cases h with
  | @mk sign whole fraction exponent hsign hwhole hfraction hexponent =>
    obtain ⟨b, tail, hhead, hb⟩ := hwhole.all_digits.exists_cons
    have hplain : ¬some b = some (byte '-') := fun h =>
      isDigit_ne hb (by decide) (Option.some.inj h)
    have hdigits := digits_append hwhole.all_digits.2 (hfraction.not_isDigit hexponent hrest)
    have hlead : ¬(digitValue b = 0 ∧ (!(tail.map digitValue).isEmpty) = true) := by
      rintro ⟨hzero, hmore⟩
      cases hwhole with
      | zero =>
        cases hhead
        cases hmore
      | digits hb' hne =>
        cases hhead
        exact digitValue_ne_zero hb hne hzero
    have hunsigned : passNumber (whole ++ (fraction ++ (exponent ++ rest))) = .ok ((), rest) := by
      rw [hhead] at hdigits ⊢
      rw [List.cons_append] at hdigits ⊢
      rw [passNumber, bind_reads (front_cons _ _)]
      simp only [if_neg hplain]
      rw [bind_reads hdigits]
      simp only [List.map_cons, if_neg hlead]
      exact passFraction_reads hfraction hexponent hrest
    simp only [List.append_assoc]
    rcases hsign with rfl | rfl
    · exact hunsigned
    · rw [hhead] at hunsigned ⊢
      exact (passNumber_minus hb _).trans hunsigned

/-- A number starts with a digit or a minus. -/
theorem NumberText.starts {bytes : Bytes} (h : NumberText bytes) :
    ∃ b tail, bytes = b :: tail ∧ startsNumber b = true := by
  cases h with
  | @mk sign whole fraction exponent hsign hwhole hfraction hexponent =>
    obtain ⟨b, tail, rfl, hb⟩ := hwhole.all_digits.exists_cons
    rcases hsign with rfl | rfl
    · exact ⟨b, _, rfl, by simp [startsNumber, hb]⟩
    · exact ⟨byte '-', _, rfl, by decide⟩

end Numbers

/-- **A well-formed value**, with any blanks between its tokens. -/
inductive JsonText : Bytes → Prop
  | null : JsonText (bytesOf "null")
  | true : JsonText (bytesOf "true")
  | false : JsonText (bytesOf "false")
  | number {bytes : Bytes} (h : NumberText bytes) : JsonText bytes
  | string {content : Bytes} (h : StringText content) :
      JsonText (byte '"' :: (content ++ [byte '"']))
  | list {items : List Bytes} {body : Bytes} (hitems : ∀ item ∈ items, JsonText item)
      (hbody : Enclosed (byte ']') items body) : JsonText (byte '[' :: body)
  | object {members : List (Bytes × Bytes)} {items : List Bytes} {body : Bytes}
      (hkeys : ∀ m ∈ members, StringText m.1) (hvalues : ∀ m ∈ members, JsonText m.2)
      (hitems : List.Forall₂ KeyedText members items) (hbody : Enclosed (byte '\x7d') items body) :
      JsonText (byte '\x7b' :: body)

section Values

/-- The rules of a passing scan. -/
def passRules : ScanRules where
  number := passNumber
  string := fun bytes => do
    let rest ← passString bytes
    .ok ((), rest)
  depthLimit := none

/-- Passing over a value is a scan by the rules for values that nobody wants. -/
theorem passValue_eq : passValue = scan passRules := rfl

/-- The rules for values that nobody wants admit any depth. -/
theorem passRules_admits (count : ℕ) : passRules.Admits count := by
  rintro _ ⟨⟩

/-- The rules for values that nobody wants pass over strings. -/
theorem passRules_string {content : Bytes} (h : StringText content) (rest : Bytes) :
    passRules.string (content ++ byte '"' :: rest) = .ok ((), rest) := by
  simp only [passRules, passString_reads h]
  rfl

/-- A passing scan has no limit of depth. -/
theorem Scans.any_depth {bytes : Bytes} {depth : ℕ} (h : Scans passRules depth bytes) (depth' : ℕ) :
    Scans passRules depth' bytes :=
  ⟨h.starts, fun stack _ => h.takes stack (passRules_admits _)⟩

/-- A word that the scan knows by its first letter. -/
theorem scans_literal (rules : ScanRules) {word : String} (first : Char) (letters : List Char)
    (hword : bytesOf word = byte first :: letters.map byte) (hb : StartsItem (byte first))
    (hframe : frameOf? (byte first) = none)
    (hscalar : scanScalar rules (byte first) = (advance >>= fun _ => literal letters)) (depth : ℕ) :
    Scans rules depth (bytesOf word) := by
  rw [hword]
  refine scans_scalar hb hframe ?_ depth
  intro rest _
  rw [hscalar, bind_reads (advance_cons _ _)]
  exact literal_reads letters rest

/-- A string is scanned where the rules take what stands between its quotes. -/
theorem scans_string {rules : ScanRules} {content : Bytes}
    (hstring : ∀ rest, rules.string (content ++ byte '"' :: rest) = .ok ((), rest)) (depth : ℕ) :
    Scans rules depth (byte '"' :: (content ++ [byte '"'])) := by
  refine scans_scalar ⟨by decide, by decide⟩ (by decide) ?_ depth
  intro rest _
  have hscalar : scanScalar rules (byte '"') = (advance >>= fun _ => rules.string) := rfl
  rw [hscalar, bind_reads (advance_cons _ _), List.append_assoc, List.singleton_append]
  exact hstring rest

/-- Each value takes a passing scan to behind it. The induction is on how the value is put together;
the depth of what is inside does not matter. -/
theorem JsonText.scans {bytes : Bytes} (h : JsonText bytes) : Scans passRules 0 bytes := by
  induction h with
  | null =>
    exact scans_literal passRules 'n' ['u', 'l', 'l'] (by decide) ⟨by decide, by decide⟩
      (by decide) rfl 0
  | true =>
    exact scans_literal passRules 't' ['r', 'u', 'e'] (by decide) ⟨by decide, by decide⟩
      (by decide) rfl 0
  | false =>
    exact scans_literal passRules 'f' ['a', 'l', 's', 'e'] (by decide) ⟨by decide, by decide⟩
      (by decide) rfl 0
  | number h =>
    obtain ⟨b, tail, rfl, hb⟩ := h.starts
    refine scans_number hb ?_ 0
    intro rest hrest
    exact passNumber_reads h hrest
  | string h => exact scans_string (passRules_string h) 0
  | list _ hbody ih =>
    have hframe := scans_frame (show frameOf? (byte '[') = some .list by decide)
      ⟨by decide, by decide⟩ hbody fun item hitem => scansKeyed_item (ih item hitem)
    exact hframe.any_depth 0
  | object hkeys _ hitems hbody ih =>
    have hframe := scans_keyed hitems hbody (fun m hm => passRules_string (hkeys m hm)) ih
    exact hframe.any_depth 0

/-- **A well-formed value is passed over**, and nothing behind it. -/
theorem JsonText.passes {bytes : Bytes} (h : JsonText bytes) {gap rest : Bytes} (hgap : Blank gap)
    (hrest : Detached rest) : passValue (gap ++ (bytes ++ rest)) = .ok ((), rest) := by
  rw [passValue_eq]
  exact h.scans.scan_reads (passRules_admits 0) hgap hrest

end Values

end QuantizedConv.Document
