import QuantizedConv.Kernel.Dense
import QuantizedConv.Kernel.Depthwise
import QuantizedConv.Proofs.RowMajor

/-!
# What an accepted call satisfies

Each check of a contract succeeds exactly when a plain statement over the naturals holds. Together
they are `Admitted`: what the loops of a kernel may rely on once the contract of the call is met.
The contracts of the dense and of the depthwise kernels are `Admitted` with the channel relations of
the kernel (`dense_eq_ok_iff`, `depthwise_eq_ok_iff`).
-/

set_option autoImplicit false

namespace QuantizedConv

/-- The coordinates of all taps along an axis, and its padding, are in the signed range. -/
structure Axis.Fits (axis : Axis) (output filter : Nat) : Prop where
  reach : (output - 1) * axis.stride.toNat + (filter - 1) * axis.dilation.toNat <
    Checked.signedBound
  padding : axis.padding.toNat < Checked.signedBound

/-- What every kernel may rely on once the contract of a call is met. -/
structure Admitted {α : Type} (layer : Layer) (operands : Operands α) (outputShape : Shape)
    (e : CallExtents) : Prop where
  input : Nhwc.ofShape? operands.input.shape = some e.input
  filter : Nhwc.ofShape? operands.filter.shape = some e.filter
  output : Nhwc.ofShape? outputShape = some e.output
  batches : e.input.batches = e.output.batches
  bias : ∀ tensor, operands.bias = some tensor →
    tensor.shape.count? = some e.output.channels ∧ e.output.channels ≤ tensor.data.size
  multiplier : operands.scales.multiplier.size = e.output.channels
  shift : operands.scales.shift.size = e.output.channels
  inputCount : e.input.Countable
  inputData : e.input.size ≤ operands.input.data.size
  filterCount : e.filter.Countable
  filterData : e.filter.size ≤ operands.filter.data.size
  outputCount : e.output.Countable
  height : layer.height.Fits e.output.height e.filter.height
  width : layer.width.Fits e.output.width e.filter.width

namespace Contract

variable {α : Type}

/-- A shape has extents exactly when it has four dimensions. -/
theorem extents_eq_ok_iff {operand : Operand} {shape : Shape} {e : Nhwc} :
    extents operand shape = .ok e ↔ Nhwc.ofShape? shape = some e := by
  unfold extents
  split <;> rename_i h <;> simp [h]

/-- Two numbers that must agree are accepted exactly when they are equal. -/
theorem equal_eq_ok_iff {relation : Relation} {left right : Nat} :
    equal relation left right = .ok () ↔ left = right := by
  unfold equal
  split <;> rename_i h <;> simp [h]

/-- The number of elements is accepted exactly when it is a size. -/
theorem count_eq_ok_iff {operand : Operand} {shape : Shape} {n : Nat} :
    count operand shape = .ok n ↔ shape.count? = some n := by
  unfold count
  split <;> rename_i h <;> simp [h]

/-- An array is long enough exactly when its shape can be counted and needs no more. -/
theorem filled_eq_ok_iff {operand : Operand} {tensor : Tensor α} :
    filled operand tensor = .ok () ↔
      ∃ n, tensor.shape.count? = some n ∧ n ≤ tensor.data.size := by
  unfold filled
  rw [bind_eq_ok_iff]
  simp only [count_eq_ok_iff]
  refine exists_congr fun n => and_congr_right fun _ => ?_
  by_cases h : tensor.data.size < n
  · simp [h]
  · simp [h, Nat.le_of_not_lt h]

/-- The array of a tensor of rank four is long enough. -/
theorem filled_eq_ok_iff_of_extents {operand : Operand} {tensor : Tensor α} {e : Nhwc}
    (hs : Nhwc.ofShape? tensor.shape = some e) :
    filled operand tensor = .ok () ↔ e.Countable ∧ e.size ≤ tensor.data.size := by
  rw [filled_eq_ok_iff]
  constructor
  · rintro ⟨n, hn, hle⟩
    obtain ⟨hcount, rfl⟩ := (Shape.count?_eq_some_iff hs).mp hn
    exact ⟨hcount, hle⟩
  · rintro ⟨hcount, hle⟩
    exact ⟨e.size, (Shape.count?_eq_some_iff hs).mpr ⟨hcount, rfl⟩, hle⟩

/-- A bias is accepted exactly when it has one element for each channel and its array holds them. -/
theorem biasFits_eq_ok_iff {bias : Option (Tensor Int32)} {channels : Nat} :
    biasFits bias channels = .ok () ↔ ∀ tensor, bias = some tensor →
      tensor.shape.count? = some channels ∧ channels ≤ tensor.data.size := by
  cases bias with
  | none => simp [biasFits]
  | some tensor =>
    simp only [biasFits, bind_eq_ok_iff, exists_unit_iff, count_eq_ok_iff, equal_eq_ok_iff,
      filled_eq_ok_iff, Option.some.injEq]
    constructor
    · rintro ⟨n, hn, rfl, m, hm, hle⟩ _ rfl
      rw [hn] at hm
      cases hm
      exact ⟨hn, hle⟩
    · intro h
      obtain ⟨hn, hle⟩ := h tensor rfl
      exact ⟨channels, hn, rfl, channels, hn, hle⟩

/-- The scales are accepted exactly when there is one multiplier and one shift for each channel. -/
theorem scalesFit_eq_ok_iff {scales : ChannelScales} {channels : Nat} :
    scalesFit scales channels = .ok () ↔
      scales.multiplier.size = channels ∧ scales.shift.size = channels := by
  unfold scalesFit
  by_cases hm : scales.multiplier.size = channels
  · by_cases hs : scales.shift.size = channels
    · simp [hm, hs]
    · simp [hm, hs]
  · simp [hm]

/-- The furthest step along an axis is a size exactly when the two products and their sum are. -/
theorem reach?_eq_some_iff {axis : Axis} {output filter n : Nat} :
    reach? axis output filter = some n ↔
      n < Checked.sizeBound ∧
        n = (output - 1) * axis.stride.toNat + (filter - 1) * axis.dilation.toNat := by
  simp only [reach?, Checked.mul?, Checked.add?, Option.bind_eq_bind]
  generalize (output - 1) * axis.stride.toNat = windows
  generalize (filter - 1) * axis.dilation.toNat = taps
  constructor
  · intro h
    by_cases hw : windows < Checked.sizeBound
    · by_cases ht : taps < Checked.sizeBound
      · by_cases hs : windows + taps < Checked.sizeBound
        · simp only [hw, ht, hs, if_true, Option.bind_some, Option.some.injEq] at h
          omega
        · simp [hw, ht, hs] at h
      · simp [hw, ht] at h
    · simp [hw] at h
  · rintro ⟨hn, rfl⟩
    rw [if_pos (by omega), Option.bind_some, if_pos (by omega), Option.bind_some, if_pos hn]

/-- The window check along an axis, over the naturals. -/
theorem windowFits_eq_ok_iff {axis : Axis} {output filter : Nat} :
    windowFits axis output filter = .ok () ↔ axis.Fits output filter := by
  have hbounds : Checked.signedBound < Checked.sizeBound := by decide
  unfold windowFits
  constructor
  · intro h
    split at h
    · rename_i reach hreach
      obtain ⟨-, rfl⟩ := reach?_eq_some_iff.mp hreach
      split at h
      · rename_i hfits
        exact ⟨hfits.1, hfits.2⟩
      · cases h
    · cases h
  · rintro ⟨hreach, hpadding⟩
    rw [reach?_eq_some_iff.mpr ⟨hreach.trans hbounds, rfl⟩]
    exact if_pos ⟨hreach, hpadding⟩

/-- The extents of a call are those of its three tensors, each of which must have four
dimensions. -/
theorem callExtents_eq_ok_iff {operands : Operands α} {outputShape : Shape} {e : CallExtents} :
    callExtents operands outputShape = .ok e ↔
      Nhwc.ofShape? operands.input.shape = some e.input ∧
      Nhwc.ofShape? operands.filter.shape = some e.filter ∧
      Nhwc.ofShape? outputShape = some e.output := by
  simp only [callExtents, bind_eq_ok_iff, extents_eq_ok_iff, Except.ok.injEq]
  constructor
  · rintro ⟨input, hi, filter, hf, output, ho, rfl⟩
    exact ⟨hi, hf, ho⟩
  · rintro ⟨hi, hf, ho⟩
    exact ⟨e.input, hi, e.filter, hf, e.output, ho, rfl⟩

/-- The checks behind the extents, for tensors of rank four. -/
theorem operandsFit_eq_ok_iff {layer : Layer} {operands : Operands α} {outputShape : Shape}
    {e : CallExtents} (hcall : callExtents operands outputShape = .ok e)
    (hbatches : e.input.batches = e.output.batches) :
    operandsFit layer operands outputShape e = .ok () ↔
      Admitted layer operands outputShape e := by
  obtain ⟨hi, hf, ho⟩ := callExtents_eq_ok_iff.mp hcall
  simp only [operandsFit, bind_eq_ok_iff, exists_unit_iff, biasFits_eq_ok_iff,
    scalesFit_eq_ok_iff, filled_eq_ok_iff_of_extents hi, filled_eq_ok_iff_of_extents hf, count_eq_ok_iff,
    Shape.count?_eq_some_iff ho, windowFits_eq_ok_iff]
  constructor
  · rintro ⟨hbias, ⟨hm, hs⟩, ⟨hic, hid⟩, ⟨hfc, hfd⟩, -, ⟨hoc, -⟩, hh, hw⟩
    exact ⟨hi, hf, ho, hbatches, hbias, hm, hs, hic, hid, hfc, hfd, hoc, hh, hw⟩
  · intro h
    exact ⟨h.bias, ⟨h.multiplier, h.shift⟩, ⟨h.inputCount, h.inputData⟩,
      ⟨h.filterCount, h.filterData⟩, e.output.size, ⟨h.outputCount, rfl⟩, h.height, h.width⟩

/-- **The contract of a dense convolution.** -/
theorem dense_eq_ok_iff {layer : Layer} {operands : Operands α} {outputShape : Shape}
    {e : CallExtents} :
    dense layer operands outputShape = .ok e ↔
      Admitted layer operands outputShape e ∧ e.input.channels = e.filter.channels ∧
        e.filter.batches = e.output.channels := by
  simp only [dense, bind_eq_ok_iff, exists_unit_iff, equal_eq_ok_iff, Except.ok.injEq]
  constructor
  · rintro ⟨e', hcall, hb, hd, hn, hfit, rfl⟩
    exact ⟨(operandsFit_eq_ok_iff hcall hb).mp hfit, hd, hn⟩
  · rintro ⟨h, hd, hn⟩
    have hcall := callExtents_eq_ok_iff.mpr ⟨h.input, h.filter, h.output⟩
    exact ⟨e, hcall, h.batches, hd, hn, (operandsFit_eq_ok_iff hcall h.batches).mpr h, rfl⟩

/-- The output channels are accepted exactly when they are the input channels times the depth
multiplier, a number that is a size. -/
theorem groupsFit_eq_ok_iff {depthMultiplier input output : Nat} :
    groupsFit depthMultiplier input output = .ok () ↔
      input * depthMultiplier < Checked.sizeBound ∧ output = input * depthMultiplier := by
  unfold groupsFit Checked.mul?
  by_cases h : input * depthMultiplier < Checked.sizeBound
  · simp [h, equal_eq_ok_iff]
  · simp [h]

/-- **The contract of a depthwise convolution.** -/
theorem depthwise_eq_ok_iff {layer : DepthwiseLayer} {operands : Operands α} {outputShape : Shape}
    {e : CallExtents} :
    depthwise layer operands outputShape = .ok e ↔
      Admitted layer.toLayer operands outputShape e ∧
        (e.input.channels * layer.depthMultiplier.toNat < Checked.sizeBound ∧
          e.output.channels = e.input.channels * layer.depthMultiplier.toNat) ∧
        e.filter.channels = e.output.channels := by
  simp only [depthwise, bind_eq_ok_iff, exists_unit_iff, equal_eq_ok_iff, groupsFit_eq_ok_iff,
    Except.ok.injEq]
  constructor
  · rintro ⟨e', hcall, hb, hg, hd, hfit, rfl⟩
    exact ⟨(operandsFit_eq_ok_iff hcall hb).mp hfit, hg, hd⟩
  · rintro ⟨h, hg, hd⟩
    have hcall := callExtents_eq_ok_iff.mpr ⟨h.input, h.filter, h.output⟩
    exact ⟨e, hcall, h.batches, hg, hd, (operandsFit_eq_ok_iff hcall h.batches).mpr h, rfl⟩

/-- A call that writes into a given array is accepted where its contract holds and the array has room
for its output. -/
theorem withOutput_eq_ok_iff {layer : Layer} {operands : Operands α} {output : Tensor α}
    {contract : Except Refusal CallExtents} {e : CallExtents}
    (hcontract : ∀ e, contract = .ok e → Admitted layer operands output.shape e) :
    (do let e ← contract; filled .output output; .ok e) = .ok e ↔
      contract = .ok e ∧ e.output.size ≤ output.data.size := by
  simp only [bind_eq_ok_iff, exists_unit_iff, Except.ok.injEq]
  constructor
  · rintro ⟨e', hok, hfilled, rfl⟩
    have h := hcontract e' hok
    exact ⟨hok, ((filled_eq_ok_iff_of_extents h.output).mp hfilled).2⟩
  · rintro ⟨hok, hsize⟩
    have h := hcontract e hok
    exact ⟨e, hok, (filled_eq_ok_iff_of_extents h.output).mpr ⟨h.outputCount, hsize⟩, rfl⟩

end Contract

end QuantizedConv
