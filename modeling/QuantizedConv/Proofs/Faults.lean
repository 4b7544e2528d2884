import QuantizedConv.Case.Run
import QuantizedConv.Proofs.DepthwiseConvolution
import QuantizedConv.Proofs.PatchConvolution

/-!
# Which calls stop at a fault

The contract of a dense call keeps every sum, product, index and slice on the way inside its bounds,
directly and through the patch matrix: a dense call ends well where its contract holds, and is refused
with the array unchanged where not. The contract of a depthwise call does not ask for a filter with a
batch. A depthwise call can end in three ways (`Depthwise.convolve_cases`); into a given array, into a
fresh one (`Depthwise.convolveFresh_safe_iff`) or as the run of a case (`Case.runAs_safe_iff`), it is
safe exactly when no weight is missing that its windows need. One that misses a weight leaves the
elements before it written.
-/

set_option autoImplicit false

namespace QuantizedConv

/-- The result of a call that ended well or was refused. -/
def Safe {β : Type} (result : Except Failure β) : Prop :=
  (∃ value, result = .ok value) ∨ ∃ refusal, result = .error (.refused refusal)

/-- A refusal is safe. -/
theorem safe_refused {β : Type} (refusal : Refusal) :
    Safe (.error (.refused refusal) : Except Failure β) :=
  .inr ⟨refusal, rfl⟩

/-- What is done with the value of a call does not change whether it is safe. -/
theorem safe_map_iff {β γ : Type} (f : β → γ) (result : Except Failure β) :
    Safe (result.map f) ↔ Safe result := by
  cases result with
  | ok value => exact ⟨fun _ => .inl ⟨value, rfl⟩, fun _ => .inl ⟨f value, rfl⟩⟩
  | error failure => cases failure <;> simp [Safe, Except.map]

section Fresh

variable {α : Type} {layer : Layer} {operands : Operands α} {outputShape : Shape} {e : CallExtents}

/-- The size of a fresh output is the number of its elements. -/
theorem freshSize_eq (h : Admitted layer operands outputShape e) {size : Nat}
    (hsize : freshSize outputShape = .ok size) : size = e.output.size := by
  rw [freshSize, bind_eq_ok_iff] at hsize
  obtain ⟨n, hcount, hn⟩ := hsize
  rw [Contract.count_eq_ok_iff, Shape.count?_eq_some_iff h.output] at hcount
  obtain ⟨-, rfl⟩ := hcount
  split at hn
  · cases hn
  · cases hn
    rfl

/-- A call into a fresh array that is accepted writes into an array that is accepted too. -/
theorem withOutput_of_fresh [Activation α] {contract : Except Refusal CallExtents} {size : Nat}
    (hcontract : ∀ e, contract = .ok e → Admitted layer operands outputShape e)
    (hfresh : Fresh.check contract outputShape = .ok (e, size)) :
    (do
      let e ← contract
      Contract.filled .output (zeros α outputShape size)
      .ok e) = .ok e := by
  simp only [Fresh.check, bind_eq_ok_iff, Except.ok.injEq, Prod.mk.injEq] at hfresh
  obtain ⟨_, hok, _, hsize, rfl, rfl⟩ := hfresh
  refine (Contract.withOutput_eq_ok_iff hcontract).mpr ⟨hok, ?_⟩
  rw [zeros, Array.size_replicate, freshSize_eq (hcontract _ hok) hsize]

variable {contract : Except Refusal CallExtents}

/-- A call that is not accepted is refused for the reason that its check gives. -/
theorem Fresh.call_of_refusal [Activation α] {refusal : Refusal}
    (hcheck : Fresh.check contract outputShape = .error refusal) (kernel : Tensor α → Outcome α) :
    Fresh.call contract kernel outputShape = .error (.refused refusal) := by
  rw [Fresh.call, hcheck]

/-- A call that is accepted is the call of its kernel on a fresh array. -/
theorem Fresh.call_of_check [Activation α] {size : Nat}
    (hcheck : Fresh.check contract outputShape = .ok (e, size)) (kernel : Tensor α → Outcome α) :
    Fresh.call contract kernel outputShape = (kernel (zeros α outputShape size)).result := by
  rw [Fresh.call, hcheck]

/-- A call whose contract fails is refused for the reason that the contract gives. -/
theorem Fresh.call_of_error [Activation α] {refusal : Refusal}
    (hcontract : contract = .error refusal) (kernel : Tensor α → Outcome α) :
    Fresh.call contract kernel outputShape = .error (.refused refusal) :=
  call_of_refusal (bind_of_error hcontract _) kernel

/-- A call whose contract holds allocates its array and calls the kernel on it. -/
theorem Fresh.call_of_ok [Activation α] (hcontract : contract = .ok e)
    (kernel : Tensor α → Outcome α) :
    Fresh.call contract kernel outputShape =
      match freshSize outputShape with
      | .error refusal => .error (.refused refusal)
      | .ok size => (kernel (zeros α outputShape size)).result := by
  rw [Fresh.call, Fresh.check, bind_of_ok hcontract]
  cases freshSize outputShape <;> rfl

end Fresh

variable {α : Type} [Activation α]

namespace Dense

variable {layer : Layer} {operands : Operands α} {outputShape : Shape}

/-- A dense call that is accepted with a fresh array is accepted with that array. -/
theorem check_of_freshCheck {e : CallExtents} {size : Nat}
    (hfresh : freshCheck layer operands outputShape = .ok (e, size)) :
    check layer operands (zeros α outputShape size) = .ok e :=
  withOutput_of_fresh (fun _ he => (admitted_iff.mp he).toAdmitted) hfresh

/-- **Dense kernels never stop at a fault.** For every layer, operands of any shapes and sizes, every
output and every limit, a dense call ends well where its contract holds, and is refused for the reason
that the contract gives, with the output unchanged, where not. -/
theorem calls_never_fault (layer : Layer) (operands : Operands α) (output : Tensor α)
    (outputShape : Shape) (limit : Nat) :
    ((∃ e, check layer operands output = .ok e ∧
          (convolve layer operands output).ending = .ok ()) ∨
        ∃ refusal, check layer operands output = .error refusal ∧
          convolve layer operands output = .refused output.data refusal) ∧
      ((∃ e, Patches.check layer operands output limit = .ok e ∧
          (Patches.convolve layer operands output limit).ending = .ok ()) ∨
        ∃ refusal, Patches.check layer operands output limit = .error refusal ∧
          Patches.convolve layer operands output limit = .refused output.data refusal) ∧
      ((∃ e size, freshCheck layer operands outputShape = .ok (e, size) ∧
          ∃ elements, convolveFresh layer operands outputShape = .ok elements) ∨
        ∃ refusal, freshCheck layer operands outputShape = .error refusal ∧
          convolveFresh layer operands outputShape = .error (.refused refusal)) := by
  refine ⟨?_, ?_, ?_⟩
  · cases hcheck : check layer operands output with
    | error refusal => exact .inr ⟨refusal, rfl, convolve_of_refusal hcheck⟩
    | ok e =>
      obtain ⟨buffer, hconvolve, -⟩ := convolve_of_check hcheck
      exact .inl ⟨e, rfl, by rw [hconvolve]⟩
  · cases hcheck : Patches.check layer operands output limit with
    | error refusal =>
      exact .inr ⟨refusal, rfl, by rw [Patches.convolve, hcheck]⟩
    | ok e =>
      obtain ⟨buffer, hconvolve, -⟩ := Patches.convolve_of_check hcheck
      exact .inl ⟨e, rfl, by rw [hconvolve]⟩
  · cases hfresh : freshCheck layer operands outputShape with
    | error refusal =>
      exact .inr ⟨refusal, rfl, Fresh.call_of_refusal hfresh _⟩
    | ok accepted =>
      obtain ⟨e, size⟩ := accepted
      obtain ⟨buffer, hconvolve, -⟩ := convolve_of_check (check_of_freshCheck hfresh)
      refine .inl ⟨e, size, rfl, buffer, ?_⟩
      rw [convolveFresh, Fresh.call_of_check hfresh, hconvolve, Outcome.result]

end Dense

namespace Depthwise

variable {layer : DepthwiseLayer} {operands : Operands α} {outputShape : Shape}

/-- How a depthwise call can end. -/
theorem convolve_cases (layer : DepthwiseLayer) (operands : Operands α) (output : Tensor α) :
    (∃ refusal, check layer operands output = .error refusal ∧
        convolve layer operands output = .refused output.data refusal) ∨
      (∃ e, check layer operands output = .ok e ∧ ¬MissingWeight layer operands e ∧
        ∃ buffer, convolve layer operands output = ⟨buffer, .ok ()⟩ ∧
          Filled e.output (result layer operands e) output.data e.output.size buffer) ∨
      ∃ e, check layer operands output = .ok e ∧ MissingWeight layer operands e ∧
        ∃ buffer fault, convolve layer operands output = .faulted buffer fault := by
  cases hcheck : check layer operands output with
  | error refusal => exact .inl ⟨refusal, rfl, convolve_of_refusal hcheck⟩
  | ok e =>
    have hmissing := missingWeight_iff (check_eq_ok_iff.mp hcheck).1
    by_cases hweights : ∀ t, e.output.Holds t → WeightedAt layer operands e t
    · exact .inr (.inl ⟨e, rfl, fun hm => hmissing.mp hm hweights,
        convolve_of_weighted hcheck hweights⟩)
    · obtain ⟨t, hholds, hnot⟩ : ∃ t, e.output.Holds t ∧ ¬WeightedAt layer operands e t := by
        simpa only [not_forall, exists_prop] using hweights
      exact .inr (.inr ⟨e, rfl, hmissing.mpr hweights,
        convolve_of_not_weighted hcheck hholds hnot⟩)

/-- A depthwise call that is accepted with a fresh array is accepted with that array. -/
theorem check_of_freshCheck {e : CallExtents} {size : Nat}
    (hfresh : freshCheck layer operands outputShape = .ok (e, size)) :
    check layer operands (zeros α outputShape size) = .ok e :=
  withOutput_of_fresh (fun _ he => (admitted_iff.mp he).toAdmitted) hfresh

/-- A depthwise call into a fresh array is safe exactly when it misses no weight. -/
theorem convolveFresh_safe_iff :
    Safe (convolveFresh layer operands outputShape) ↔
      ¬∃ e size, freshCheck layer operands outputShape = .ok (e, size) ∧
        MissingWeight layer operands e := by
  cases hfresh : freshCheck layer operands outputShape with
  | error refusal =>
    rw [convolveFresh, Fresh.call_of_refusal hfresh]
    constructor
    · rintro - ⟨e, size, hok, -⟩
      cases hok
    · exact fun _ => safe_refused refusal
  | ok accepted =>
    obtain ⟨e, size⟩ := accepted
    have hcheck := check_of_freshCheck hfresh
    rw [convolveFresh, Fresh.call_of_check hfresh]
    obtain ⟨refusal, hrefused, -⟩ | ⟨_, hok, hweights, buffer, hconvolve, -⟩ |
        ⟨_, hok, hmissing, buffer, fault, hconvolve⟩ :=
      convolve_cases layer operands (zeros α outputShape size)
    · rw [hcheck] at hrefused
      cases hrefused
    · rw [hcheck] at hok
      cases hok
      simp [hconvolve, Outcome.result, Safe, hweights]
    · rw [hcheck] at hok
      cases hok
      simp [hconvolve, Outcome.result, Outcome.faulted, Safe, hmissing]

end Depthwise

namespace Case

/-- The kernel of a depthwise case is accepted and misses a weight. -/
def MissesWeight (α : Type) [Activation α] (c : Case) : Prop :=
  ∃ operands, c.operands α = .ok operands ∧
    ∃ e size, Depthwise.freshCheck c.depthwiseLayer operands c.outputShape = .ok (e, size) ∧
      Depthwise.MissingWeight c.depthwiseLayer operands e

/-- A depthwise case runs as a depthwise call into a fresh array, however it is lowered. -/
theorem kernelOutput_depthwise {c : Case} (hkind : c.kind = .depthwise) (lowering : Lowering)
    (operands : Operands α) :
    c.kernelOutput lowering operands =
      Depthwise.convolveFresh c.depthwiseLayer operands c.outputShape := by
  have hcontract : c.contract operands =
      Contract.depthwise c.depthwiseLayer operands c.outputShape := by
    rw [contract, hkind]
  have hcall : c.call lowering operands =
      Depthwise.convolve c.depthwiseLayer operands := by
    unfold call
    rw [hkind]
  rw [kernelOutput, hcontract, hcall, Depthwise.convolveFresh]

/-- The run of a depthwise case is safe exactly when its kernel misses no weight. -/
theorem runAs_safe_iff (c : Case) (lowering : Lowering) :
    Safe (runAs α { c with kind := .depthwise } lowering) ↔ ¬c.MissesWeight α := by
  have hoperands : Case.operands α { c with kind := .depthwise } = c.operands α := rfl
  rw [runAs, hoperands]
  cases hnarrow : c.operands α with
  | error refusal =>
    constructor
    · rintro - ⟨operands, hok, -⟩
      rw [hnarrow] at hok
      cases hok
    · exact fun _ => safe_refused refusal
  | ok operands =>
    have hkernel : kernelOutput { c with kind := .depthwise } lowering operands =
        Depthwise.convolveFresh c.depthwiseLayer operands c.outputShape :=
      kernelOutput_depthwise rfl lowering operands
    simp only [safe_map_iff, hkernel, Depthwise.convolveFresh_safe_iff, MissesWeight, hnarrow,
      Except.ok.injEq, exists_eq_left']

end Case

namespace Depthwise

/-- **Depthwise calls are safe exactly when no weight is missing.** A depthwise call ends well, with
all elements written, or is refused with the output unchanged, for every layer and for operands of
any shapes and sizes, unless its filter has no batch and an element of the array is needed that is not
there. The same holds of calls into a fresh array and of runs of depthwise cases. -/
theorem calls_safe_iff (layer : DepthwiseLayer) (operands : Operands α) (output : Tensor α)
    (outputShape : Shape) (c : Case) (lowering : Lowering) :
    (((∃ e buffer, check layer operands output = .ok e ∧
            convolve layer operands output = ⟨buffer, .ok ()⟩ ∧
            Filled e.output (result layer operands e) output.data e.output.size buffer) ∨
          ∃ refusal, convolve layer operands output = .refused output.data refusal) ↔
        ¬∃ e, check layer operands output = .ok e ∧ MissingWeight layer operands e) ∧
      (Safe (convolveFresh layer operands outputShape) ↔
        ¬∃ e size, freshCheck layer operands outputShape = .ok (e, size) ∧
          MissingWeight layer operands e) ∧
      (Safe (Case.run { c with kind := .depthwise } lowering) ↔
        match c.element with
        | .i8 => ¬c.MissesWeight Int8
        | .u8 => ¬c.MissesWeight UInt8) := by
  refine ⟨?_, convolveFresh_safe_iff, ?_⟩
  · obtain ⟨refusal, hrefused, hconvolve⟩ | ⟨e, hok, hweights, buffer, hconvolve, hfilled⟩ |
        ⟨e, hok, hmissing, buffer, fault, hconvolve⟩ := convolve_cases layer operands output
    · simp [hrefused, hconvolve]
    · refine ⟨?_, fun _ => .inl ⟨e, buffer, hok, hconvolve, hfilled⟩⟩
      rintro - ⟨e', hok', hmissing⟩
      rw [hok] at hok'
      cases hok'
      exact hweights hmissing
    · simp [hok, hmissing, hconvolve, Outcome.faulted, Outcome.refused]
  · unfold Case.run
    cases c.element with
    | i8 => exact Case.runAs_safe_iff c lowering
    | u8 => exact Case.runAs_safe_iff c lowering

/-- A layer whose first window lies on padding. -/
def paddedLayer : DepthwiseLayer := { width := { padding := 1 }, outputOffset := 3 }

/-- Operands with a filter that has no batch and no weights. -/
def batchlessOperands : Operands Int8 where
  input := ⟨.nhwc 1 1 1 1, #[5]⟩
  filter := ⟨.nhwc 0 1 1 1, #[]⟩
  bias := none
  scales := ⟨#[1073741824], #[1]⟩

/-- A depthwise call can be accepted, write its first element, and stop at a fault. -/
theorem convolve_half_written :
    check paddedLayer batchlessOperands ⟨.nhwc 1 1 2 1, #[9, 9]⟩ =
        .ok ⟨⟨1, 1, 1, 1⟩, ⟨0, 1, 1, 1⟩, ⟨1, 1, 2, 1⟩⟩ ∧
      convolve paddedLayer batchlessOperands ⟨.nhwc 1 1 2 1, #[9, 9]⟩ =
        .faulted #[3, 9] (.index 0 0) :=
  ⟨rfl, rfl⟩

end Depthwise

end QuantizedConv
