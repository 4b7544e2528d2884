import QuantizedConv.Proofs.RowMajor
import Mathlib.Data.List.Basic
import Mathlib.Data.Set.Function

/-!
# Offsets number the elements in order

A row-major position is a number of four digits, whose bases are the extents. Two such numbers are
compared digit by digit from the outermost on (`digits_lt_digits_iff`), so that positions are in the
lexicographic order of the indices, and every number below the number of elements has its digits
(`position_coordinate`). An offset is computed in steps, and each number on the way is below one of the
running products of the extents (`offsetSteps_lt`). So where the elements of a shape can be counted,
its offsets are a bijection from the indices to the numbers below the count. Counting them stops at a
fault exactly where the count says that there is none (`count_eq_elim`).
-/

set_option autoImplicit false

namespace QuantizedConv

/-- Two digits are determined by the number that they make. -/
theorem digits_eq_digits_iff {b i i' j j' : Nat} (hj : j < b) (hj' : j' < b) :
    i * b + j = i' * b + j' ↔ i = i' ∧ j = j' := by
  constructor
  · intro h
    have hhigh := congrArg (· / b) h
    have hlow := congrArg (· % b) h
    simp only [digits_div _ hj, digits_div _ hj', digits_mod _ hj, digits_mod _ hj'] at hhigh hlow
    exact ⟨hhigh, hlow⟩
  · rintro ⟨rfl, rfl⟩
    rfl

/-- Numbers of two digits are compared by the higher digit first. -/
theorem digits_lt_digits_iff {b i i' j j' : Nat} (hj : j < b) (hj' : j' < b) :
    i * b + j < i' * b + j' ↔ i < i' ∨ i = i' ∧ j < j' := by
  rcases lt_trichotomy i i' with hlt | rfl | hgt
  · have hless : i * b + j < i' * b := digits_lt hlt hj
    exact ⟨fun _ => .inl hlt, fun _ => by omega⟩
  · simp
  · have hmore : i' * b + j' < i * b := digits_lt hgt hj'
    exact ⟨fun _ => by omega, fun _ => by omega⟩

/-- The indices of an element, the outermost one first. -/
def Coordinate.indices (t : Coordinate) : List Nat := [t.batch, t.row, t.column, t.channel]

namespace Nhwc

variable {e : Nhwc} {t u : Coordinate}

/-- The numbers that are formed on the way to the position of an element: at each dimension a product,
and then a sum. The last one is the position. -/
def offsetSteps (e : Nhwc) (t : Coordinate) : List Nat :=
  let row := t.batch * e.height + t.row
  let column := row * e.width + t.column
  [t.batch * e.height, row, row * e.width, column, column * e.channels, e.position t]

/-- Inside countable extents all numbers on the way to a position are sizes. -/
theorem offsetSteps_lt (h : e.Countable) (ht : e.Holds t) :
    ∀ step ∈ e.offsetSteps t, step < Checked.sizeBound := by
  have hrow := (digits_lt ht.batch ht.row).trans h.planes
  have hcolumn := (pixel_lt ht.batch ht.row ht.column).trans h.rows
  have hposition := (position_lt ht).trans h.size
  -- a product is not larger than its sum
  have hsum (blocks index : Nat) : blocks ≤ blocks + index := Nat.le_add_right _ _
  simp only [offsetSteps, List.forall_mem_cons, List.not_mem_nil, false_implies, implies_true,
    and_true]
  exact ⟨(hsum _ _).trans_lt hrow, hrow, (hsum _ _).trans_lt hcolumn, hcolumn,
    (hsum _ _).trans_lt hposition, hposition⟩

/-- A position is found again from its indices. -/
theorem position_coordinate (e : Nhwc) (i : Nat) : e.position (e.coordinate i) = i := by
  simp only [position, coordinate, Nat.div_add_mod']

/-- Positions are in the lexicographic order of the indices. -/
theorem position_lt_position_iff (ht : e.Holds t) (hu : e.Holds u) :
    e.position t < e.position u ↔ t.indices < u.indices := by
  simp only [position, digits_lt_digits_iff ht.channel hu.channel,
    digits_lt_digits_iff ht.column hu.column, digits_lt_digits_iff ht.row hu.row,
    digits_eq_digits_iff ht.column hu.column, digits_eq_digits_iff ht.row hu.row,
    Coordinate.indices, List.cons_lt_cons_iff, List.not_lt_nil, and_false, or_false]
  tauto

/-- **Positions are a bijection** from the elements to the numbers below their count. -/
theorem position_bijOn (e : Nhwc) : Set.BijOn e.position {t | e.Holds t} (Set.Iio e.size) := by
  refine ⟨?_, ?_, ?_⟩
  · intro t ht
    exact position_lt ht
  · intro t ht u hu heq
    have hcoordinate := congrArg e.coordinate heq
    rwa [coordinate_position ht, coordinate_position hu] at hcoordinate
  · intro i hi
    exact ⟨e.coordinate i, e.holds_coordinate hi, e.position_coordinate i⟩

end Nhwc

namespace Shape

/-- A running product that stops at an overflow is the checked one, with the overflow as a fault. -/
theorem foldlM_mul_eq_elim (dims : List UInt64) (start : Nat) :
    dims.foldlM (fun product d => Checked.mul product d.toNat) start =
      (dims.foldlM (fun product d => Checked.mul? product d.toNat) start).elim
        (.error .multiplication) .ok := by
  induction dims generalizing start with
  | nil => rfl
  | cons d dims ih =>
    rw [List.foldlM_cons, List.foldlM_cons, Checked.mul, Checked.mul?]
    by_cases hsize : start * d.toNat < Checked.sizeBound
    · rw [if_pos hsize, if_pos hsize]
      exact ih (start * d.toNat)
    · rw [if_neg hsize, if_neg hsize]
      rfl

/-- Counting the elements faults exactly where there is no count, and gives the count otherwise. -/
theorem count_eq_elim (s : Shape) : s.count = s.count?.elim (.error .multiplication) .ok :=
  foldlM_mul_eq_elim s.dims 1

/-- **Offsets number the elements of a shape in row-major order.** In a shape of rank four whose
elements can be counted, every offset is computed with no number on the way leaving the sizes, the
offsets are a bijection from the indices below the dimensions to the numbers below the count, and they
are in the lexicographic order of the indices. In a shape of any rank, counting the elements stops at a
fault exactly when there is no count, and gives that count otherwise. -/
theorem offsets_number_elements (s : Shape) :
    (∀ n, s.rank = 4 → s.count? = some n → ∃ e, Nhwc.ofShape? s = some e ∧
        (∀ t, e.Holds t → (∀ step ∈ e.offsetSteps t, step < Checked.sizeBound) ∧
          s.offset t.batch t.row t.column t.channel = .ok (e.position t)) ∧
        Set.BijOn e.position {t | e.Holds t} (Set.Iio n) ∧
        ∀ t u, e.Holds t → e.Holds u → (t.indices < u.indices ↔ e.position t < e.position u)) ∧
      s.count = s.count?.elim (.error .multiplication) .ok := by
  refine ⟨?_, s.count_eq_elim⟩
  intro n hrank hn
  obtain ⟨d₀, d₁, d₂, d₃, hdims⟩ := List.length_eq_four.mp hrank
  have hs := Nhwc.ofShape?_eq_some_iff.mpr ⟨d₀, d₁, d₂, d₃, hdims, rfl⟩
  obtain ⟨hcount, rfl⟩ := (count?_eq_some_iff hs).mp hn
  refine ⟨_, hs, ?_, Nhwc.position_bijOn _, ?_⟩
  · intro t ht
    exact ⟨Nhwc.offsetSteps_lt hcount ht,
      offset_eq_position hs hcount ht.batch ht.row ht.column ht.channel.le⟩
  · intro t u ht hu
    exact (Nhwc.position_lt_position_iff ht hu).symm

/-- The last element of a shape with as many elements as a size can be. -/
theorem offsets_number_elements_largest :
    (nhwc 3 6148914691236517205 1 1).count? = some 18446744073709551615 ∧
      (nhwc 3 6148914691236517205 1 1).offset 2 6148914691236517204 0 0 =
        .ok 18446744073709551614 := by
  have hcount : (nhwc 3 6148914691236517205 1 1).count? = some 18446744073709551615 := by decide
  obtain ⟨hfour, -⟩ := offsets_number_elements (nhwc 3 6148914691236517205 1 1)
  obtain ⟨e, he, hoffsets, -, -⟩ := hfour _ rfl hcount
  cases he
  have hlast : Nhwc.Holds ⟨3, 6148914691236517205, 1, 1⟩ ⟨2, 6148914691236517204, 0, 0⟩ :=
    ⟨by decide, by decide, by decide, by decide⟩
  exact ⟨hcount, (hoffsets _ hlast).2⟩

end Shape

end QuantizedConv
