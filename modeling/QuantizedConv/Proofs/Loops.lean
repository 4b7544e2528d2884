import QuantizedConv.Window.Layer
import Mathlib.Tactic.Ring

/-!
# What loops preserve

The rules by which every statement about a kernel goes through its loops. A counting loop takes one
more step at its end (`foldIndices_succ`); from that, a loop whose steps succeed and carry an
invariant from each index to the next succeeds and carries it to the end (`foldIndices_ok`), and a
loop with a step that never succeeds does not succeed either (`foldIndices_error`). The same two
rules hold for the loop nest over all output pixels (`foldPixels_ok`, `foldPixels_error`), where the
invariant is indexed by the number of pixels that were visited.
-/

set_option autoImplicit false

namespace QuantizedConv

section Checked

variable {ε α β : Type}

/-- A computation of two steps succeeds exactly when both do. -/
theorem bind_eq_ok_iff {first : Except ε α} {second : α → Except ε β} {result : β} :
    first >>= second = .ok result ↔ ∃ value, first = .ok value ∧ second value = .ok result := by
  constructor
  · intro h
    cases first with
    | error _ => cases h
    | ok value => exact ⟨value, rfl, h⟩
  · rintro ⟨value, rfl, h⟩
    exact h

/-- A check that succeeds has nothing to hand on. -/
theorem exists_unit_iff {p : Unit → Prop} : (∃ value, p value) ↔ p () := by
  constructor
  · rintro ⟨⟨⟩, h⟩
    exact h
  · intro h
    exact ⟨(), h⟩

/-- A step that succeeds hands its value to the next one. -/
theorem bind_of_ok {first : Except ε α} {value : α} (h : first = .ok value)
    (second : α → Except ε β) : first >>= second = second value := by
  rw [h]
  rfl

/-- A step that does not succeed is the last one. -/
theorem bind_of_error {first : Except ε α} {error : ε} (h : first = .error error)
    (second : α → Except ε β) : first >>= second = .error error := by
  rw [h]
  rfl

end Checked

section Indices

variable {ε β : Type}

/-- A counting loop from `index` on takes its last step after all others. -/
theorem foldFrom_succ (step : β → Nat → Except ε β) (count index : Nat) (value : β) :
    foldFrom step (count + 1) index value =
      (foldFrom step count index value >>= fun last => step last (index + count)) := by
  induction count generalizing index value with
  | zero =>
    simp only [foldFrom, Nat.add_zero, bind, Except.bind]
    cases step value index <;> rfl
  | succ count ih =>
    rw [foldFrom]
    conv => rhs; rw [foldFrom]
    cases step value index with
    | error error => rfl
    | ok next =>
      simp only
      rw [ih (index + 1) next, Nat.add_right_comm, Nat.add_assoc]

/-- A counting loop takes its last step after all others. -/
theorem foldIndices_succ (count : Nat) (step : β → Nat → Except ε β) (start : β) :
    foldIndices (count + 1) step start =
      (foldIndices count step start >>= fun last => step last count) := by
  rw [foldIndices, foldFrom_succ, Nat.zero_add]
  rfl

/-- **The loop rule.** If every step succeeds from a value that satisfies the invariant of its index,
and gives one that satisfies the invariant of the next index, then the loop succeeds, and its result
satisfies the invariant of the bound. -/
theorem foldIndices_ok {count : Nat} {step : β → Nat → Except ε β} {start : β}
    (Inv : Nat → β → Prop) (hstart : Inv 0 start)
    (hstep : ∀ i < count, ∀ v, Inv i v → ∃ v', step v i = .ok v' ∧ Inv (i + 1) v') :
    ∃ v, foldIndices count step start = .ok v ∧ Inv count v := by
  induction count with
  | zero => exact ⟨start, rfl, hstart⟩
  | succ count ih =>
    obtain ⟨v, hv, hinv⟩ := ih fun i hi => hstep i (by omega)
    obtain ⟨v', hv', hinv'⟩ := hstep count (by omega) v hinv
    refine ⟨v', ?_, hinv'⟩
    rw [foldIndices_succ, hv]
    exact hv'

/-- A loop whose steps all succeed with a value that does not depend on anything but the index gives
the value of the bound. -/
theorem foldIndices_eq_ok {count : Nat} {step : β → Nat → Except ε β} {start : β} (value : Nat → β)
    (hstart : start = value 0) (hstep : ∀ i < count, step (value i) i = .ok (value (i + 1))) :
    foldIndices count step start = .ok (value count) := by
  have hloop : ∃ v, foldIndices count step start = .ok v ∧ v = value count := by
    refine foldIndices_ok (fun i v => v = value i) hstart ?_
    rintro i hi v rfl
    exact ⟨_, hstep i hi, rfl⟩
  obtain ⟨v, hv, rfl⟩ := hloop
  exact hv

/-- Two loops whose steps agree at every index agree. -/
theorem foldIndices_congr {count : Nat} {step step' : β → Nat → Except ε β} (start : β)
    (hstep : ∀ i < count, ∀ v, step v i = step' v i) :
    foldIndices count step start = foldIndices count step' start := by
  induction count with
  | zero => rfl
  | succ count ih =>
    rw [foldIndices_succ, foldIndices_succ, ih fun i hi => hstep i (by omega)]
    congr 1
    funext last
    exact hstep count (by omega) last

/-- A loop goes on where a shorter one ends. -/
theorem foldIndices_add (m n : Nat) (step : β → Nat → Except ε β) (start : β) :
    foldIndices (m + n) step start =
      (foldIndices m step start >>= foldIndices n fun value i => step value (m + i)) := by
  induction n with
  | zero =>
    rw [Nat.add_zero]
    cases foldIndices m step start <;> rfl
  | succ n ih =>
    rw [← Nat.add_assoc, foldIndices_succ, ih]
    cases foldIndices m step start with
    | error error => rfl
    | ok value =>
      rw [bind_of_ok rfl, bind_of_ok rfl, foldIndices_succ]

/-- A loop inside a loop visits the numbers of two digits in order, each one once. -/
theorem foldIndices_mul (m n : Nat) (step : β → Nat → Except ε β) (start : β) :
    foldIndices m (fun value i => foldIndices n (fun value j => step value (i * n + j)) value)
        start =
      foldIndices (m * n) step start := by
  induction m with
  | zero =>
    rw [Nat.zero_mul]
    rfl
  | succ m ih =>
    rw [foldIndices_succ, ih, Nat.succ_mul, foldIndices_add]

/-- A loop with a step that never succeeds does not succeed. -/
theorem foldIndices_error {count : Nat} {step : β → Nat → Except ε β} (start : β) {i : Nat}
    (hi : i < count) (hstep : ∀ v, ∃ error, step v i = .error error) :
    ∃ error, foldIndices count step start = .error error := by
  induction count with
  | zero => omega
  | succ count ih =>
    rw [foldIndices_succ]
    cases hfirst : foldIndices count step start with
    | error error => exact ⟨error, rfl⟩
    | ok v =>
      have hlast : i = count := by
        by_contra hne
        obtain ⟨error, herror⟩ := ih (by omega)
        rw [hfirst] at herror
        cases herror
      subst hlast
      exact hstep v

end Indices

section Pixels

variable {ε ρ κ σ : Type} {output : Nhwc} {ofRow : Nat → Except Fault ρ}
  {ofColumn : Nat → Except Fault κ} {stop : σ → Fault → ε}
  {visit : σ → Nat → Nat → ρ → Nat → κ → Except ε σ}

/-- **The rule for all pixels.** The invariant is indexed by the row-major number of the pixel that
is visited next. -/
theorem foldPixels_ok {start : σ} (Inv : Nat → σ → Prop) (rowOf : Nat → ρ) (columnOf : Nat → κ)
    (hrow : ∀ row < output.height, ofRow row = .ok (rowOf row))
    (hcolumn : ∀ column < output.width, ofColumn column = .ok (columnOf column))
    (hstart : Inv 0 start)
    (hvisit : ∀ batch < output.batches, ∀ row < output.height, ∀ column < output.width, ∀ s,
      Inv ((batch * output.height + row) * output.width + column) s →
      ∃ s', visit s batch row (rowOf row) column (columnOf column) = .ok s' ∧
        Inv ((batch * output.height + row) * output.width + column + 1) s') :
    ∃ s, foldPixels output ofRow ofColumn stop visit start = .ok s ∧
      Inv (output.batches * output.height * output.width) s := by
  refine foldIndices_ok (fun batch => Inv (batch * output.height * output.width))
    (by simpa using hstart) ?_
  intro batch hbatch s hs
  -- the rows of one batch
  rw [show (batch + 1) * output.height * output.width =
    (batch * output.height + output.height) * output.width by ring]
  refine foldIndices_ok (fun row => Inv ((batch * output.height + row) * output.width))
    (by simpa using hs) ?_
  intro row hr s hs
  -- the pixels of one row
  rw [show (batch * output.height + (row + 1)) * output.width =
    (batch * output.height + row) * output.width + output.width by ring]
  simp only [hrow row hr]
  refine foldIndices_ok (fun column => Inv ((batch * output.height + row) * output.width + column))
    hs ?_
  intro column hc s hs
  simp only [hcolumn column hc]
  exact hvisit batch hbatch row hr column hc s hs

/-- A pixel whose visit never succeeds keeps the whole loop nest from succeeding. -/
theorem foldPixels_error (start : σ) (rowOf : Nat → ρ) (columnOf : Nat → κ)
    (hrow : ∀ row < output.height, ofRow row = .ok (rowOf row))
    (hcolumn : ∀ column < output.width, ofColumn column = .ok (columnOf column))
    {batch row column : Nat} (hb : batch < output.batches) (hr : row < output.height)
    (hc : column < output.width)
    (hvisit : ∀ s, ∃ error, visit s batch row (rowOf row) column (columnOf column) =
      .error error) :
    ∃ error, foldPixels output ofRow ofColumn stop visit start = .error error := by
  refine foldIndices_error start hb fun s => foldIndices_error s hr fun s => ?_
  simp only [hrow row hr]
  refine foldIndices_error s hc fun s => ?_
  simp only [hcolumn column hc]
  exact hvisit s

end Pixels

end QuantizedConv
