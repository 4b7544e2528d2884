import QuantizedConv.Proofs.Faults

/-!
# What a call leaves in the array of its caller

A call that ends well leaves the elements of its output in front, in row-major order, and what was
there before behind them (`Filled.toList_eq`). The elements do not depend on the array, so that a call
into a fresh array of the right size gives exactly them, unless the array is refused for its size.
`WritesOutput` says this of a kernel with its two ways of being called. It holds of a kernel that
refuses (`writesOutput_of_refused`), of one that stops at a fault (`writesOutput_of_faulted`) and of
one that fills its output (`writesOutput_of_filled`), and every kernel does one of the three.
-/

set_option autoImplicit false

namespace QuantizedConv

variable {α : Type}

/-- The elements of an output in row-major order. -/
def Nhwc.tabulate (output : Nhwc) (result : Coordinate → α) : List α :=
  (List.range output.size).map fun i => result (output.coordinate i)

/-- A table has one value for each element of the extents. -/
theorem Nhwc.length_tabulate (output : Nhwc) (result : Coordinate → α) :
    (output.tabulate result).length = output.size := by
  simp [tabulate]

/-- An array that is filled holds the elements of the output in front, and is unchanged behind. -/
theorem Filled.toList_eq {output : Nhwc} {result : Coordinate → α} {before buffer : Array α}
    (h : Filled output result before output.size buffer) :
    buffer.toList = output.tabulate result ++ before.toList.drop output.size := by
  have hlength := output.length_tabulate result
  apply List.ext_getElem?
  intro i
  rw [Array.getElem?_toList]
  by_cases hi : i < output.size
  · rw [h.done i hi, List.getElem?_append_left (by omega)]
    simp [Nhwc.tabulate, hi]
  · rw [h.rest i (by omega), List.getElem?_append_right (by omega), List.getElem?_drop, hlength,
      Nat.add_sub_cancel' (by omega), Array.getElem?_toList]

/-- **Exactly the output is written.** There are elements that depend on nothing but the layer, the
operands and the shape, such that for every array with room for the output: a call that ends well
leaves the elements in front of what stood behind them before, and the call into a fresh array gives
the same elements, or is refused for their number; a call that is refused leaves the array as it was,
and the call into a fresh array is refused for the same reason. -/
def WritesOutput (shape : Shape) (inPlace : Array α → Outcome α)
    (fresh : Except Failure (Array α)) : Prop :=
  ∃ elements : List α, ∀ buffer : Array α, (∀ n, shape.count? = some n → n ≤ buffer.size) →
    ((inPlace buffer).ending = .ok () →
      shape.count? = some elements.length ∧
      (inPlace buffer).buffer.toList = elements ++ buffer.toList.drop elements.length ∧
      fresh = if 0x7fffffff ≤ elements.length then
          .error (.refused (.scratchTooLarge elements.length))
        else .ok elements.toArray) ∧
    ∀ refusal, (inPlace buffer).ending = .error (.refused refusal) →
      (inPlace buffer).buffer = buffer ∧ fresh = .error (.refused refusal)

section Kernels

variable {shape : Shape} {output : Nhwc} {inPlace : Array α → Outcome α}
  {fresh : Except Failure (Array α)}

/-- A kernel that refuses every array, and a fresh one for the same reason, writes exactly its output. -/
theorem writesOutput_of_refused {refusal : Refusal}
    (hcalls : ∀ buffer, inPlace buffer = .refused buffer refusal)
    (hfresh : fresh = .error (.refused refusal)) : WritesOutput shape inPlace fresh := by
  refine ⟨[], fun buffer _ => ?_⟩
  rw [hcalls buffer]
  constructor
  · intro hok
    cases hok
  · intro other hother
    cases hother
    exact ⟨rfl, hfresh⟩

/-- A kernel that stops at a fault in every array with room never ends well, and so writes exactly its
output. -/
theorem writesOutput_of_faulted (hcount : shape.count? = some output.size)
    (hcalls : ∀ buffer : Array α, output.size ≤ buffer.size →
      ∃ written fault, inPlace buffer = .faulted written fault) :
    WritesOutput shape inPlace fresh := by
  refine ⟨[], fun buffer hroom => ?_⟩
  obtain ⟨written, fault, hfaulted⟩ := hcalls buffer (hroom _ hcount)
  rw [hfaulted]
  constructor
  · intro hok
    cases hok
  · intro refusal hrefused
    cases hrefused

/-- The size of a fresh array is the number of its elements, below the limit. -/
theorem freshSize_of_count {n : Nat} (hcount : shape.count? = some n) :
    freshSize shape = if scratchLimit ≤ n then .error (.scratchTooLarge n) else .ok n := by
  rw [freshSize, bind_of_ok (Contract.count_eq_ok_iff.mpr hcount)]

/-- A kernel that fills every array with room, and so a fresh one, writes exactly its output. -/
theorem writesOutput_of_filled [Activation α] (result : Coordinate → α)
    (hcount : shape.count? = some output.size)
    (hcalls : ∀ buffer, output.size ≤ buffer.size → ∃ written,
      inPlace buffer = ⟨written, .ok ()⟩ ∧ Filled output result buffer output.size written)
    (hfresh : fresh = match freshSize shape with
      | .error refusal => .error (.refused refusal)
      | .ok size => (inPlace (zeros α shape size).data).result) :
    WritesOutput shape inPlace fresh := by
  have hlength := output.length_tabulate result
  refine ⟨output.tabulate result, fun buffer hroom => ?_⟩
  obtain ⟨written, hwritten, hfilled⟩ := hcalls buffer (hroom _ hcount)
  rw [hwritten, hlength]
  constructor
  · intro _
    refine ⟨hcount, hfilled.toList_eq, ?_⟩
    rw [hfresh, freshSize_of_count hcount]
    by_cases hlimit : scratchLimit ≤ output.size
    · have hliteral : 0x7fffffff ≤ output.size := hlimit
      simp only [if_pos hlimit, if_pos hliteral]
    · have hliteral : ¬0x7fffffff ≤ output.size := hlimit
      simp only [if_neg hlimit, if_neg hliteral]
      -- the fresh array has no element behind the output
      obtain ⟨elements, helements, hfresh⟩ := hcalls (zeros α shape output.size).data
        (by simp [zeros])
      have hlist := hfresh.toList_eq
      rw [List.drop_eq_nil_of_le (by simp [zeros]), List.append_nil] at hlist
      rw [helements, Outcome.result, ← hlist, Array.toArray_toList]
  · intro refusal hrefused
    cases hrefused

end Kernels

variable [Activation α]

/-- A dense kernel writes exactly its output. -/
theorem Dense.writesOutput (layer : Layer) (operands : Operands α) (shape : Shape) :
    WritesOutput shape (fun buffer => convolve layer operands ⟨shape, buffer⟩)
      (convolveFresh layer operands shape) := by
  cases hcontract : Contract.dense layer operands shape with
  | error refusal =>
    have hrefused : ∀ buffer, check layer operands ⟨shape, buffer⟩ = .error refusal :=
      fun _ => bind_of_error hcontract _
    refine writesOutput_of_refused (fun buffer => convolve_of_refusal (hrefused buffer)) ?_
    exact Fresh.call_of_error hcontract _
  | ok e =>
    have h := admitted_iff.mp hcontract
    have hcount := (Shape.count?_eq_some_iff h.output).mpr ⟨h.outputCount, rfl⟩
    refine writesOutput_of_filled (result layer operands e) hcount (fun buffer hroom => ?_)
      (Fresh.call_of_ok hcontract _)
    exact convolve_of_check (check_eq_ok_iff.mpr ⟨h, hroom⟩)

/-- A depthwise kernel writes exactly its output. -/
theorem Depthwise.writesOutput (layer : DepthwiseLayer) (operands : Operands α) (shape : Shape) :
    WritesOutput shape (fun buffer => convolve layer operands ⟨shape, buffer⟩)
      (convolveFresh layer operands shape) := by
  cases hcontract : Contract.depthwise layer operands shape with
  | error refusal =>
    have hrefused : ∀ buffer, check layer operands ⟨shape, buffer⟩ = .error refusal :=
      fun _ => bind_of_error hcontract _
    refine writesOutput_of_refused (fun buffer => convolve_of_refusal (hrefused buffer)) ?_
    exact Fresh.call_of_error hcontract _
  | ok e =>
    have h := admitted_iff.mp hcontract
    have hcount := (Shape.count?_eq_some_iff h.output).mpr ⟨h.outputCount, rfl⟩
    by_cases hweights : ∀ t, e.output.Holds t → WeightedAt layer operands e t
    · refine writesOutput_of_filled (result layer operands e) hcount (fun buffer hroom => ?_)
        (Fresh.call_of_ok hcontract _)
      exact convolve_of_weighted (check_eq_ok_iff.mpr ⟨h, hroom⟩) hweights
    · -- a missing weight stops the call, whatever the array holds
      obtain ⟨t, ht, hmissing⟩ : ∃ t, e.output.Holds t ∧ ¬WeightedAt layer operands e t := by
        simpa only [not_forall, exists_prop] using hweights
      refine writesOutput_of_faulted hcount fun buffer hroom => ?_
      exact convolve_of_not_weighted (check_eq_ok_iff.mpr ⟨h, hroom⟩) ht hmissing

/-- **Kernels write exactly their output, and agree with their calls into fresh arrays.** -/
theorem kernels_write_output (layer : Layer) (depthwise : DepthwiseLayer) (operands : Operands α)
    (shape : Shape) :
    WritesOutput shape (fun buffer => Dense.convolve layer operands ⟨shape, buffer⟩)
        (Dense.convolveFresh layer operands shape) ∧
      WritesOutput shape (fun buffer => Depthwise.convolve depthwise operands ⟨shape, buffer⟩)
        (Depthwise.convolveFresh depthwise operands shape) :=
  ⟨Dense.writesOutput layer operands shape, Depthwise.writesOutput depthwise operands shape⟩

end QuantizedConv
