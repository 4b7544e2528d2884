import QuantizedConv.Proofs.Writing

/-!
# Accumulators that wrap

Accumulators wrap at 32 bits after every product and every sum. Since wrapping respects sums and
products, an accumulator is the exact integer sum of its terms, wrapped once (`foldl_wrapped`). For
the dot product of two slices the terms are products of the integers at consecutive positions
(`dot_slices`).
-/

set_option autoImplicit false

namespace QuantizedConv

/-- The integer at a position of a tensor, zero behind its end. -/
def Tensor.integer {α : Type} [Activation α] (tensor : Tensor α) (position : Nat) : Int :=
  tensor.data[position]?.elim 0 fun x => (Activation.widen x).toInt

/-- An accumulator that gets wrapped terms is what it was before plus the sum of the terms, wrapped
once. The terms are known by their positions in the list. -/
theorem foldl_wrapped_add {β : Type} {step : Int32 → β → Int32} (xs : List β) (term : Nat → Int)
    (hstep : ∀ i x, xs[i]? = some x → ∀ acc, step acc x = acc + Int32.ofInt (term i))
    (acc : Int) :
    xs.foldl step (Int32.ofInt acc) =
      Int32.ofInt (acc + ∑ i ∈ Finset.range xs.length, term i) := by
  induction xs generalizing term acc with
  | nil => simp
  | cons x xs ih =>
    have hrest : ∀ i y, xs[i]? = some y → ∀ acc, step acc y = acc + Int32.ofInt (term (i + 1)) :=
      fun i y hy => hstep (i + 1) y (by rwa [List.getElem?_cons_succ])
    rw [List.foldl_cons, hstep 0 x rfl, ← Int32.ofInt_add, ih (fun i => term (i + 1)) hrest,
      List.length_cons, Finset.sum_range_succ', add_assoc, add_comm (term 0)]

/-- An accumulator that starts at zero is the sum of its terms, wrapped once. -/
theorem foldl_wrapped {β : Type} {step : Int32 → β → Int32} {xs : List β} {count : Nat}
    (hlength : xs.length = count) (term : Nat → Int)
    (hstep : ∀ i x, xs[i]? = some x → ∀ acc, step acc x = acc + Int32.ofInt (term i)) :
    xs.foldl step 0 = Int32.ofInt (∑ i ∈ Finset.range count, term i) := by
  have hsum := foldl_wrapped_add xs term hstep 0
  rwa [hlength, zero_add] at hsum

/-- An element of a slice is an element of the array. -/
theorem getElem?_extract_toList {β : Type} {xs : Array β} {start count i : Nat} {x : β}
    (h : (xs.extract start (start + count)).toList[i]? = some x) : xs[start + i]? = some x := by
  rw [Array.getElem?_toList, Array.getElem?_extract] at h
  split at h
  · exact h
  · cases h

/-- Two slices of the same length, element by element. -/
theorem length_zip_extract {β γ : Type} {xs : Array β} {ys : Array γ} {i j count : Nat}
    (hxs : i + count ≤ xs.size) (hys : j + count ≤ ys.size) :
    ((xs.extract i (i + count)).toList.zip (ys.extract j (j + count)).toList).length = count := by
  rw [List.length_zip, Array.length_toList, Array.length_toList, Array.size_extract,
    Array.size_extract]
  omega

namespace Dense

variable {α : Type} [Activation α]

/-- The dot product of two slices, over the integers and wrapped once. -/
theorem dot_slices (filter : Tensor Int8) (input : Tensor α) (offset : Int32)
    {filterBase inputBase count : Nat} (hfilter : filterBase + count ≤ filter.data.size)
    (hinput : inputBase + count ≤ input.data.size) :
    dot (filter.data.extract filterBase (filterBase + count)).toList
        (input.data.extract inputBase (inputBase + count)).toList offset =
      Int32.ofInt (∑ i ∈ Finset.range count, filter.integer (filterBase + i) *
        (input.integer (inputBase + i) + offset.toInt)) := by
  unfold dot
  refine foldl_wrapped (length_zip_extract hfilter hinput) _ ?_
  rintro i ⟨w, x⟩ hpair acc
  obtain ⟨hw, hx⟩ := List.getElem?_zip_eq_some.mp hpair
  simp only [Tensor.integer, getElem?_extract_toList hw, getElem?_extract_toList hx,
    Option.elim_some, Int32.ofInt_mul, Int32.ofInt_add, Int32.ofInt_toInt]
  rfl

end Dense

end QuantizedConv
