import Mathlib.Tactic
import QuantizedConv.Proofs.Spelling

/-!
# Numerals

Written in decimal, an integer between `-2 ^ 63` and `2 ^ 64` is read as itself, and so every size and
every 32-bit integer is. The digits of a number are those of its tenth and one more, and reading
them one by one gives back the number.
-/

set_option autoImplicit false

namespace QuantizedConv.Document

section Writing

/-- The bytes of joined texts are the joined bytes. -/
theorem bytesOf_append (s t : String) : bytesOf (s ++ t) = bytesOf s ++ bytesOf t := by
  simp only [bytesOf, String.toUTF8_eq_toByteArray, String.toByteArray_append,
    ByteArray.data_append, Array.toList_append]

/-- The decimal digits of a number. -/
def numeral (n : Nat) : Bytes := bytesOf (toString n)

/-- The byte of a digit. -/
def digitByte (d : Nat) : UInt8 := UInt8.ofNat ((byte '0').toNat + d)

/-- A decimal digit is written as its byte. -/
theorem bytesOf_digitChar {d : Nat} (hd : d < 10) :
    bytesOf (String.ofList [Nat.digitChar d]) = [digitByte d] := by
  interval_cases d <;> decide +kernel

/-- The numeral of a digit is that digit. -/
theorem numeral_of_lt {n : Nat} (hn : n < 10) : numeral n = [digitByte n] := by
  rw [numeral, ← bytesOf_digitChar hn, Nat.toString_eq_repr, Nat.repr_eq_ofList_toDigits,
    Nat.toDigits_of_lt_base hn]

/-- The numeral of a larger number ends with its last digit. -/
theorem numeral_of_le {n : Nat} (hn : 10 ≤ n) :
    numeral n = numeral (n / 10) ++ [digitByte (n % 10)] := by
  have hdigit : n % 10 < 10 := Nat.mod_lt n (by decide)
  rw [numeral, numeral, ← bytesOf_digitChar hdigit, ← bytesOf_append, Nat.toString_eq_repr,
    Nat.toString_eq_repr, Nat.repr_eq_ofList_toDigits, Nat.repr_eq_ofList_toDigits,
    Nat.toDigits_of_base_le (by decide) hn, String.ofList_append]

/-- The byte of a digit is read as a digit. -/
theorem isDigit_digitByte {d : Nat} (hd : d < 10) : isDigit (digitByte d) = true := by
  interval_cases d <;> decide

/-- The byte of a digit has its value. -/
theorem digitValue_digitByte {d : Nat} (hd : d < 10) : digitValue (digitByte d) = d := by
  interval_cases d <;> decide

/-- Numerals have nothing but digits. -/
theorem isDigit_of_mem_numeral (n : Nat) : ∀ b ∈ numeral n, isDigit b = true := by
  induction n using Nat.strong_induction_on with
  | _ n ih =>
    intro b hb
    by_cases hn : n < 10
    · rw [numeral_of_lt hn, List.mem_singleton] at hb
      rw [hb]
      exact isDigit_digitByte hn
    · rw [numeral_of_le (by omega), List.mem_append, List.mem_singleton] at hb
      rcases hb with hfront | hlast
      · exact ih (n / 10) (by omega) b hfront
      · rw [hlast]
        exact isDigit_digitByte (Nat.mod_lt n (by decide))

/-- A numeral of a positive number starts with a digit that is not zero. -/
theorem numeral_head {n : Nat} (hn : 0 < n) :
    ∃ b rest, numeral n = b :: rest ∧ isDigit b = true ∧ b ≠ byte '0' := by
  induction n using Nat.strong_induction_on with
  | _ n ih =>
    by_cases hlt : n < 10
    · refine ⟨digitByte n, [], numeral_of_lt hlt, isDigit_digitByte hlt, ?_⟩
      interval_cases n <;> decide
    · obtain ⟨b, rest, hfront, hb⟩ := ih (n / 10) (by omega) (by omega)
      refine ⟨b, rest ++ [digitByte (n % 10)], ?_, hb⟩
      rw [numeral_of_le (by omega), hfront, List.cons_append]

/-- A numeral starts with a digit. -/
theorem numeral_cons (n : Nat) : ∃ b rest, numeral n = b :: rest ∧ isDigit b = true := by
  rcases Nat.eq_zero_or_pos n with rfl | hpos
  · exact ⟨digitByte 0, [], numeral_of_lt (by decide), isDigit_digitByte (by decide)⟩
  · obtain ⟨b, rest, hhead, hdigit, -⟩ := numeral_head hpos
    exact ⟨b, rest, hhead, hdigit⟩

/-- The number that digits write, behind `significand`. -/
def appendDigits (significand : Nat) (ds : List Nat) : Nat :=
  ds.foldl (fun value d => value * 10 + d) significand

/-- The digits of a numeral make up its number. -/
theorem appendDigits_numeral (n : Nat) : appendDigits 0 ((numeral n).map digitValue) = n := by
  induction n using Nat.strong_induction_on with
  | _ n ih =>
    by_cases hn : n < 10
    · simp [numeral_of_lt hn, appendDigits, digitValue_digitByte hn]
    · have hfront := ih (n / 10) (by omega)
      have hdigit : n % 10 < 10 := Nat.mod_lt n (by decide)
      rw [appendDigits] at hfront
      rw [numeral_of_le (by omega), appendDigits, List.map_append, List.foldl_append, hfront]
      simp only [List.map_cons, List.map_nil, List.foldl_cons, List.foldl_nil,
        digitValue_digitByte hdigit]
      omega

/-- Appending digits makes no number smaller. -/
theorem le_appendDigits (significand : Nat) (ds : List Nat) :
    significand ≤ appendDigits significand ds := by
  induction ds generalizing significand with
  | nil => exact le_rfl
  | cons d ds ih =>
    have hrest : significand * 10 + d ≤ appendDigits significand (d :: ds) := ih _
    omega

end Writing

section Reading

variable {rest : Bytes}

/-- A size has room for all its digits. -/
theorem absorb_eq {significand : Nat} {ds : List Nat}
    (h : appendDigits significand ds < Checked.sizeBound) (count : Nat) :
    absorb significand count ds = (appendDigits significand ds, count + ds.length) := by
  induction ds generalizing significand count with
  | nil => rfl
  | cons d ds ih =>
    have hstep : significand * 10 + d < Checked.sizeBound :=
      lt_of_le_of_lt (le_appendDigits (significand * 10 + d) ds) h
    rw [absorb, if_pos hstep, ih h, List.length_cons]
    exact congrArg _ (by omega)

/-- What is detached does not start with a digit. -/
theorem Detached.not_isDigit (h : Detached rest) : ∀ b ∈ rest.head?, isDigit b = false := by
  intro b hb
  have hcontinues := h b hb
  simp only [continuesNumber, Bool.or_eq_false_iff] at hcontinues
  exact hcontinues.1.1.1

/-- All digits in front of something else are taken, and no more. -/
theorem digits_append {ds : Bytes} (hds : ∀ b ∈ ds, isDigit b = true)
    (hrest : ∀ b ∈ rest.head?, isDigit b = false) :
    digits (ds ++ rest) = .ok (ds.map digitValue, rest) := by
  have htaken : rest.takeWhile isDigit = [] := by
    cases rest with
    | nil => rfl
    | cons b rest => exact List.takeWhile_cons_of_neg (by simp [hrest b rfl])
  have hleft : rest.dropWhile isDigit = rest := by
    cases rest with
    | nil => rfl
    | cons b rest => exact List.dropWhile_cons_of_neg (by simp [hrest b rfl])
  rw [digits, List.takeWhile_append_of_pos hds, List.dropWhile_append_of_pos hds, htaken, hleft,
    List.append_nil]

/-- The digits of a numeral are read up to its end. -/
theorem digits_numeral (n : Nat) (hrest : Detached rest) :
    digits (numeral n ++ rest) = .ok ((numeral n).map digitValue, rest) :=
  digits_append (isDigit_of_mem_numeral n) hrest.not_isDigit

/-- The front of some bytes is the first of them, which stays. -/
theorem front_cons (b : UInt8) (rest : Bytes) : front (b :: rest) = .ok (some b, b :: rest) := rfl

/-- A number without point and exponent is an integer literal. -/
theorem numberTail_detached (negative : Bool) (significand : Nat) (hrest : Detached rest) :
    numberTail negative significand 0 rest = integerLiteral negative significand rest := by
  cases rest with
  | nil => rfl
  | cons b rest =>
    have hb := hrest b rfl
    simp only [continuesNumber, Bool.or_eq_false_iff, beq_eq_false_iff_ne] at hb
    obtain ⟨⟨⟨-, hpoint⟩, he⟩, hE⟩ := hb
    rw [numberTail, bind_reads (front_cons b rest)]
    simp only [if_neg hpoint, he, hE, or_self, if_false, if_true]

/-- The numeral of a size is read as an integer literal. -/
theorem unsigned_numeral (negative : Bool) {n : Nat} (hn : n < Checked.sizeBound)
    (hrest : Detached rest) :
    unsigned negative (numeral n ++ rest) = integerLiteral negative n rest := by
  rcases Nat.eq_zero_or_pos n with rfl | hpos
  · rw [numeral_of_lt (by decide), List.singleton_append, unsigned,
      bind_reads (front_cons _ rest)]
    simp only [if_pos (show digitByte 0 = byte '0' by decide)]
    rw [bind_reads (advance_cons _ rest), ← numberTail_detached negative 0 hrest]
    cases rest with
    | nil => rfl
    | cons b rest =>
      rw [bind_reads (front_cons b rest)]
      simp only [hrest.not_isDigit b rfl, Bool.false_eq_true, if_false]
  · obtain ⟨b, tail, hhead, hdigit, hzero⟩ := numeral_head hpos
    have hvalue := appendDigits_numeral n
    have hfront : front (numeral n ++ rest) = .ok (some b, numeral n ++ rest) := by
      rw [hhead, List.cons_append, front_cons]
    rw [unsigned, bind_reads hfront]
    simp only [if_neg hzero, hdigit, if_true]
    rw [bind_reads (digits_numeral n hrest)]
    simp only [absorb_eq (show appendDigits 0 ((numeral n).map digitValue) < _ by rwa [hvalue]),
      hvalue, Nat.zero_add, Nat.sub_self]
    exact numberTail_detached negative n hrest

/-- The bytes of an integer, with a sign in front where it is negative. -/
def integerBytes (value : Int) : Bytes := bytesOf (toString value)

/-- A natural number is written as its numeral. -/
theorem integerBytes_natCast (n : Nat) : integerBytes n = numeral n := rfl

/-- A negative number is written as a minus and the numeral of its magnitude. -/
theorem integerBytes_negSucc (n : Nat) :
    integerBytes (Int.negSucc n) = byte '-' :: numeral (n + 1) := by
  change bytesOf ("-" ++ (n + 1).repr) = byte '-' :: numeral (n + 1)
  rw [bytesOf_append]
  rfl

/-- An integer is written with a byte in front that starts a number. -/
theorem integerBytes_cons (value : Int) :
    ∃ b tail, integerBytes value = b :: tail ∧ startsNumber b = true := by
  cases value with
  | ofNat n =>
    obtain ⟨b, tail, hhead, hdigit⟩ := numeral_cons n
    exact ⟨b, tail, hhead, by simp [startsNumber, hdigit]⟩
  | negSucc n => exact ⟨byte '-', numeral (n + 1), integerBytes_negSucc n, by decide⟩

/-- **An integer of 64 bits, signed or not, is read as itself.** -/
theorem number_integerBytes {value : Int} (hlow : -(Checked.signedBound : Int) ≤ value)
    (hhigh : value < Checked.sizeBound) (hrest : Detached rest) :
    number (integerBytes value ++ rest) = .ok (.integer value, rest) := by
  cases value with
  | ofNat n =>
    have hn : n < Checked.sizeBound := Int.ofNat_lt.mp hhigh
    obtain ⟨b, tail, hhead, hdigit⟩ := numeral_cons n
    have hplain : some b ≠ some (byte '-') := by
      rintro ⟨⟩
      revert hdigit
      decide
    have hfront : front (numeral n ++ rest) = .ok (some b, numeral n ++ rest) := by
      rw [hhead, List.cons_append, front_cons]
    rw [Int.ofNat_eq_natCast, integerBytes_natCast, number, bind_reads hfront]
    simp only [if_neg hplain]
    rw [unsigned_numeral false hn hrest]
    rfl
  | negSucc n =>
    have hbound : n + 1 ≤ Checked.signedBound := by omega
    have hn : n + 1 < Checked.sizeBound := lt_of_le_of_lt hbound (by decide)
    rw [integerBytes_negSucc, List.cons_append, number, bind_reads (front_cons _ _)]
    simp only [if_true]
    rw [bind_reads (advance_cons _ _), unsigned_numeral true hn hrest, integerLiteral, if_pos rfl,
      if_pos ⟨by omega, hbound⟩]
    rfl

/-- A byte that starts a number differs from every byte that starts none. -/
theorem startsNumber_ne {b c : UInt8} (hb : startsNumber b = true) (hc : startsNumber c = false) :
    b ≠ c := by
  rintro rfl
  rw [hb] at hc
  cases hc

/-- A byte that starts a number starts an item. -/
theorem startsItem_of_startsNumber {b : UInt8} (h : startsNumber b = true) : StartsItem b := by
  refine ⟨?_, startsNumber_ne h (by decide)⟩
  simp only [isBlank, Bool.or_eq_false_iff, beq_eq_false_iff_ne]
  exact ⟨⟨⟨startsNumber_ne h (by decide), startsNumber_ne h (by decide)⟩,
    startsNumber_ne h (by decide)⟩, startsNumber_ne h (by decide)⟩

/-- An integer spells what it is accepted as. -/
theorem spells_integer {α : Type} (wanted : String) {ofInt? : Int → Option α} {value : Int} {x : α}
    (hlow : -(Checked.signedBound : Int) ≤ value) (hhigh : value < Checked.sizeBound)
    (hx : ofInt? value = some x) : Spells (integer wanted ofInt?) (integerBytes value) x := by
  obtain ⟨b, tail, hhead, hb⟩ := integerBytes_cons value
  have hstarts := startsItem_of_startsNumber hb
  rw [hhead]
  refine Spells.of_skipsBlanks hstarts (skipsBlanks_peekValue.bind _) fun rest hrest => ?_
  have hnumber := number_integerBytes hlow hhigh hrest
  rw [hhead] at hnumber
  rw [integer, List.cons_append, bind_reads (peekValue_cons hstarts.notBlank _)]
  simp only [if_pos hb]
  rw [← List.cons_append, bind_reads hnumber]
  simp only [hx]
  rfl

/-- A size lies among the integers that are read exactly. -/
theorem size_range (n : UInt64) :
    -(Checked.signedBound : Int) ≤ n.toNat ∧ (n.toNat : Int) < Checked.sizeBound := by
  have hlt : n.toNat < Checked.sizeBound := n.toNat_lt
  exact ⟨by omega, by exact_mod_cast hlt⟩

/-- A 32-bit integer lies among the integers that are read exactly. -/
theorem int32_range (n : Int32) :
    -(Checked.signedBound : Int) ≤ n.toInt ∧ n.toInt < Checked.sizeBound := by
  have hmin : -(Checked.signedBound : Int) ≤ Int32.minValue.toInt := by decide
  have hmax : Int32.maxValue.toInt < (Checked.sizeBound : Int) := by decide
  exact ⟨hmin.trans n.minValue_le_toInt, lt_of_le_of_lt n.toInt_le hmax⟩

/-- Every size is read as it is written. -/
theorem spells_size (n : UInt64) : Spells size (bytesOf (sizeText n)) n := by
  obtain ⟨hlow, hhigh⟩ := size_range n
  have hvalue : sizeOfInt? (n.toNat : Int) = some n := by
    rw [sizeOfInt?, if_pos ⟨by omega, hhigh⟩, Int.toNat_natCast, UInt64.ofNat_toNat]
  exact spells_integer "usize" hlow hhigh hvalue

/-- Every 32-bit integer is read as it is written. -/
theorem spells_int32 (n : Int32) : Spells int32 (bytesOf (int32Text n)) n := by
  obtain ⟨hlow, hhigh⟩ := int32_range n
  have hvalue : int32OfInt? n.toInt = some n := by
    rw [int32OfInt?, if_pos ⟨n.minValue_le_toInt, n.toInt_le⟩, Int32.ofInt_toInt]
  exact spells_integer "i32" hlow hhigh hvalue

end Reading

end QuantizedConv.Document
