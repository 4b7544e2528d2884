import QuantizedConv.Proofs.WrappedSum

/-!
# Dense convolution is the mathematical convolution

A dense call whose contract holds computes every element of the output without a fault: the element
at `t` is `Dense.result`, the activation of the exact integer sum over the cells of its window and
all input channels, wrapped to 32 bits once (`element_eq`). The loop nest writes these results and
nothing else (`convolve_of_check`). Over the unbounded integers, `Dense.exactSum` is the sum that
defines the convolution: it leaves out the cells whose coordinates are outside the input, and the
output of every call that ends well is made of these sums.
-/

set_option autoImplicit false

namespace QuantizedConv.Dense

/-- What the loops of a dense kernel rely on. -/
structure Admitted {α : Type} (layer : Layer) (operands : Operands α) (outputShape : Shape)
    (e : CallExtents) : Prop extends QuantizedConv.Admitted layer operands outputShape e where
  depth : e.input.channels = e.filter.channels
  filters : e.filter.batches = e.output.channels

section Contract

variable {α : Type} {layer : Layer} {operands : Operands α} {outputShape : Shape} {e : CallExtents}

/-- The contract of a dense call holds exactly when the call is admitted. -/
theorem admitted_iff :
    Contract.dense layer operands outputShape = .ok e ↔ Admitted layer operands outputShape e := by
  rw [Contract.dense_eq_ok_iff]
  exact ⟨fun h => ⟨h.1, h.2.1, h.2.2⟩, fun h => ⟨h.toAdmitted, h.depth, h.filters⟩⟩

/-- A dense call is accepted exactly when it is admitted and the array has room for the output. -/
theorem check_eq_ok_iff {output : Tensor α} :
    check layer operands output = .ok e ↔
      Admitted layer operands output.shape e ∧ e.output.size ≤ output.data.size := by
  unfold check
  rw [Contract.withOutput_eq_ok_iff fun e he => (admitted_iff.mp he).toAdmitted, admitted_iff]

end Contract

variable {α : Type} [Activation α]

/-- What one cell adds to the exact sum of an output channel. -/
def cellTerm (layer : Layer) (operands : Operands α) (e : CallExtents) (batch channel : Nat)
    (cell : WindowCell) : Int :=
  ∑ c ∈ Finset.range e.input.channels,
    operands.filter.integer
        (e.filter.position ⟨channel, cell.filterRow, cell.filterColumn, c⟩) *
      (operands.input.integer (e.input.position ⟨batch, cell.inputRow, cell.inputColumn, c⟩) +
        layer.inputOffset.toInt)

/-- The exact sum of the window of an output element, without the bias. -/
def sum (layer : Layer) (operands : Operands α) (e : CallExtents) (t : Coordinate) : Int :=
  layer.windowSum e.filter e.input t.row t.column
    (cellTerm layer operands e t.batch t.channel)

/-- An output element. -/
def result (layer : Layer) (operands : Operands α) (e : CallExtents) (t : Coordinate) : α :=
  operands.activation layer t.channel (operands.biasAt t.channel + sum layer operands e t)

variable {layer : Layer} {operands : Operands α} {outputShape : Shape} {e : CallExtents}

/-- The slices under a cell inside the input are read without a fault. -/
theorem cellSum_eq (h : Admitted layer operands outputShape e) {batch row column channel : Nat}
    (hb : batch < e.output.batches) (hk : channel < e.output.channels) {cell : WindowCell}
    (hfr : cell.filterRow < e.filter.height) (hfc : cell.filterColumn < e.filter.width)
    (hir : cell.inputRow < e.input.height) (hic : cell.inputColumn < e.input.width) :
    cellSum layer operands e (layer.windowAt batch row column) channel cell =
      .ok (Int32.ofInt (cellTerm layer operands e batch channel cell)) := by
  have hbatch : batch < e.input.batches := h.batches ▸ hb
  have hfilter : channel < e.filter.batches := h.filters ▸ hk
  -- both slices end inside their arrays
  have hinputEnd := Nhwc.slice_end_le hbatch hir hic
  have hfilterEnd : e.filter.position ⟨channel, cell.filterRow, cell.filterColumn, 0⟩ +
      e.input.channels ≤ e.filter.size := by
    rw [h.depth]
    exact Nhwc.slice_end_le hfilter hfr hfc
  have hinputOffset := Shape.offset_eq_position h.input h.inputCount
    (t := ⟨batch, cell.inputRow, cell.inputColumn, 0⟩) hbatch hir hic (Nat.zero_le _)
  have hfilterOffset := Shape.offset_eq_position h.filter h.filterCount
    (t := ⟨channel, cell.filterRow, cell.filterColumn, 0⟩) hfilter hfr hfc (Nat.zero_le _)
  have hinputData := hinputEnd.trans h.inputData
  have hfilterData := hfilterEnd.trans h.filterData
  rw [cellSum, Layer.windowAt, bind_of_ok hinputOffset, bind_of_ok hfilterOffset,
    bind_of_ok (Checked.add_eq (hinputEnd.trans_lt h.inputCount.size)),
    bind_of_ok (Checked.slice_eq (Nat.le_add_right _ _) hinputData),
    bind_of_ok (Checked.add_eq (hfilterEnd.trans_lt h.filterCount.size)),
    bind_of_ok (Checked.slice_eq (Nat.le_add_right _ _) hfilterData),
    dot_slices operands.filter operands.input layer.inputOffset hfilterData hinputData]
  rfl

/-- Every output element is computed without a fault. -/
theorem element_eq (h : Admitted layer operands outputShape e) {t : Coordinate}
    (ht : e.output.Holds t) :
    element layer operands e (layer.windowAt t.batch t.row t.column) t.channel =
      .ok (result layer operands e t) := by
  have hsum : accumulate layer operands e (layer.windowAt t.batch t.row t.column) t.channel =
      .ok (Int32.ofInt (sum layer operands e t)) := by
    refine Layer.foldInside_eq_sum h.fits ht.row ht.column t.batch _ ?_
    intro filterRow hfr filterColumn hfc cell hcell acc
    obtain ⟨⟨rfl, rfl⟩, ⟨-, hir⟩, -, hic⟩ := Layer.cellAt_eq_some hcell
    rw [bind_of_ok (cellSum_eq h ht.batch ht.channel hfr hfc hir hic)]
  rw [element, bind_of_ok hsum]
  exact Operands.activate_eq h.toAdmitted ht.channel _

/-- **A dense call whose contract holds ends well**, and leaves its results in front of what was
there before. -/
theorem convolve_of_check {output : Tensor α} (hcheck : check layer operands output = .ok e) :
    ∃ buffer, convolve layer operands output = ⟨buffer, .ok ()⟩ ∧
      Filled e.output (result layer operands e) output.data e.output.size buffer := by
  obtain ⟨h, hsize⟩ := check_eq_ok_iff.mp hcheck
  rw [convolve, hcheck]
  refine Outcome.putWindows_ok h.fits output.data ?_
  intro batch hb row hr column hc buffer hbuffer
  exact Outcome.putChannels_ok h.output h.outputCount hsize hb hr hc
    (fun channel hk => element_eq h (t := ⟨batch, row, column, channel⟩) ⟨hb, hr, hc, hk⟩) hbuffer

/-- A dense call whose contract does not hold is refused. -/
theorem convolve_of_refusal {output : Tensor α} {refusal : Refusal}
    (hcheck : check layer operands output = .error refusal) :
    convolve layer operands output = .refused output.data refusal := by
  rw [convolve, hcheck]

/-- How a dense call can end. -/
theorem convolve_cases (layer : Layer) (operands : Operands α) (output : Tensor α) :
    (∃ refusal, check layer operands output = .error refusal ∧
        convolve layer operands output = .refused output.data refusal) ∨
      ∃ e, Admitted layer operands output.shape e ∧
        ∃ buffer, convolve layer operands output = ⟨buffer, .ok ()⟩ ∧
          Filled e.output (result layer operands e) output.data e.output.size buffer := by
  cases hcheck : check layer operands output with
  | error refusal => exact .inl ⟨refusal, rfl, convolve_of_refusal hcheck⟩
  | ok e => exact .inr ⟨e, (check_eq_ok_iff.mp hcheck).1, convolve_of_check hcheck⟩

/-- The exact sum that defines a convolution: the bias, and weight times input plus offset over all
cells and all input channels. The coordinates of a cell are taken over the unbounded integers, and
cells outside the input are left out. -/
def exactSum (layer : Layer) (operands : Operands α) (e : CallExtents) (t : Coordinate) : Int :=
  operands.biasAt t.channel +
    ∑ filterRow ∈ Finset.range e.filter.height, ∑ filterColumn ∈ Finset.range e.filter.width,
      ∑ c ∈ Finset.range e.input.channels,
        let row := layer.height.coordinate t.row filterRow
        let column := layer.width.coordinate t.column filterColumn
        if (0 ≤ row ∧ row < e.input.height) ∧ 0 ≤ column ∧ column < e.input.width then
          operands.filter.integer (e.filter.position ⟨t.channel, filterRow, filterColumn, c⟩) *
            (operands.input.integer (e.input.position ⟨t.batch, row.toNat, column.toNat, c⟩) +
              layer.inputOffset.toInt)
        else 0

/-- Over an input that can be addressed, the sum of the windows is the exact sum. -/
theorem exactSum_eq (h : Admitted layer operands outputShape e)
    (hinput : operands.input.data.size < Checked.signedBound) {t : Coordinate}
    (ht : e.output.Holds t) :
    exactSum layer operands e t = operands.biasAt t.channel + sum layer operands e t := by
  unfold exactSum sum Layer.windowSum
  congr 1
  refine Finset.sum_congr rfl fun filterRow _ => Finset.sum_congr rfl fun filterColumn _ => ?_
  by_cases hchannels : e.input.channels = 0
  · -- no input channels, so that the extents of the input are not bounded by its elements
    simp only [hchannels, Finset.range_zero, Finset.sum_empty]
    cases layer.cellAt e.input t.row t.column filterRow filterColumn with
    | none => rfl
    | some cell => simp [cellTerm, hchannels]
  · rw [Layer.cellAt_eq_ite (h.area_lt hinput ht.batch (by omega))]
    split
    · rename_i hinside
      exact Finset.sum_congr rfl fun c _ => if_pos hinside
    · rename_i houtside
      exact Finset.sum_eq_zero fun c _ => if_neg houtside

/-- **Direct convolution computes the convolution.** In every call that ends well, each output
element is its exact sum, wrapped to 32 bits once and then scaled, moved, clamped and narrowed; a sum
that fits 32 bits is not changed by the wrap, whatever overflows on the way. All elements that the sum
speaks of are there. -/
theorem convolve_eq_exactSum (layer : Layer) (operands : Operands α) (output : Tensor α)
    (hok : (convolve layer operands output).ending = .ok ())
    (hinput : operands.input.data.size < Checked.signedBound) :
    ∃ e, Contract.callExtents operands output.shape = .ok e ∧
      (e.input.size ≤ operands.input.data.size ∧ e.filter.size ≤ operands.filter.data.size ∧
        ∀ tensor, operands.bias = some tensor → e.output.channels ≤ tensor.data.size) ∧
      ∀ b < e.input.batches, ∀ y < e.output.height, ∀ x < e.output.width,
        ∀ oc < e.output.channels, ∃ multiplier shift,
          operands.scales.multiplier[oc]? = some multiplier ∧
          operands.scales.shift[oc]? = some shift ∧
          (convolve layer operands output).buffer[
              ((b * e.output.height + y) * e.output.width + x) * e.output.channels + oc]? =
            some (Activation.narrow (requantize ⟨multiplier, shift⟩ layer.outputOffset
              layer.activation (Int32.ofInt (exactSum layer operands e ⟨b, y, x, oc⟩)))) ∧
          (-2147483648 ≤ exactSum layer operands e ⟨b, y, x, oc⟩ →
            exactSum layer operands e ⟨b, y, x, oc⟩ ≤ 2147483647 →
            (Int32.ofInt (exactSum layer operands e ⟨b, y, x, oc⟩)).toInt =
              exactSum layer operands e ⟨b, y, x, oc⟩) := by
  cases hcheck : check layer operands output with
  | error refusal =>
    rw [convolve_of_refusal hcheck] at hok
    cases hok
  | ok e =>
    obtain ⟨h, -⟩ := check_eq_ok_iff.mp hcheck
    obtain ⟨buffer, hconvolve, hfilled⟩ := convolve_of_check hcheck
    refine ⟨e, Contract.callExtents_eq_ok_iff.mpr ⟨h.input, h.filter, h.output⟩,
      ⟨h.inputData, h.filterData, fun tensor htensor => (h.bias tensor htensor).2⟩, ?_⟩
    intro b hb y hy x hx oc hoc
    have ht : e.output.Holds ⟨b, y, x, oc⟩ := ⟨h.batches ▸ hb, hy, hx, hoc⟩
    have hmultiplier : oc < operands.scales.multiplier.size := h.multiplier ▸ hoc
    have hshift : oc < operands.scales.shift.size := h.shift ▸ hoc
    refine ⟨operands.scales.multiplier.getD oc 0, operands.scales.shift.getD oc 0, ?_, ?_, ?_, ?_⟩
    · rw [Array.getD_eq_getD_getElem?, Array.getElem?_eq_getElem hmultiplier]
      rfl
    · rw [Array.getD_eq_getD_getElem?, Array.getElem?_eq_getElem hshift]
      rfl
    · rw [hconvolve, exactSum_eq h hinput ht]
      exact hfilled.at_position ht
    · intro hlow hhigh
      exact Int32.toInt_ofInt_of_le (by omega) (by omega)

/-- A layer with padding, strides and dilations, whose products leave 32 bits. -/
def overflowingLayer : Layer :=
  { height := { stride := 2, padding := 1 }, width := { dilation := 2, padding := 1 },
    inputOffset := 2147483647, outputOffset := -1 }

/-- The operands of a call whose accumulators overflow on the way. -/
def overflowingOperands : Operands Int8 where
  input := ⟨.nhwc 1 2 3 1, #[1, -2, 3, -4, 5, -6]⟩
  filter := ⟨.nhwc 1 2 2 1, #[1, 2, 3, -4]⟩
  bias := some ⟨⟨[1]⟩, #[8]⟩
  scales := ⟨#[1], #[-25]⟩

/-- The output of that call, with an element to spare. -/
def overflowingOutput : Tensor Int8 := ⟨.nhwc 1 2 2 1, #[0, 0, 0, 0, 9]⟩

/-- The second element of that call: the exact sum is the least 32-bit integer, although both of its
products overflow. -/
theorem convolve_eq_exactSum_overflowing :
    (convolve overflowingLayer overflowingOperands overflowingOutput).ending = .ok () ∧
      overflowingOperands.input.data.size < Checked.signedBound ∧
      ∃ e, Contract.callExtents overflowingOperands overflowingOutput.shape = .ok e ∧
        exactSum overflowingLayer overflowingOperands e ⟨0, 0, 1, 0⟩ = -2147483648 ∧
        (convolve overflowingLayer overflowingOperands overflowingOutput).buffer[1]? =
          some (-65 : Int8) := by
  have hok : (convolve overflowingLayer overflowingOperands overflowingOutput).ending = .ok () := by
    decide
  have hinput : overflowingOperands.input.data.size < Checked.signedBound := by decide
  obtain ⟨e, hcall, -, helements⟩ :=
    convolve_eq_exactSum overflowingLayer overflowingOperands overflowingOutput hok hinput
  have hextents : e = ⟨⟨1, 2, 3, 1⟩, ⟨1, 2, 2, 1⟩, ⟨1, 2, 2, 1⟩⟩ := by
    cases hcall
    rfl
  subst hextents
  have hsum : exactSum overflowingLayer overflowingOperands
      ⟨⟨1, 2, 3, 1⟩, ⟨1, 2, 2, 1⟩, ⟨1, 2, 2, 1⟩⟩ ⟨0, 0, 1, 0⟩ = -2147483648 := by decide
  obtain ⟨multiplier, shift, hmultiplier, hshift, helement, -⟩ :=
    helements 0 (by decide) 0 (by decide) 1 (by decide) 0 (by decide)
  cases hmultiplier
  cases hshift
  refine ⟨hok, hinput, _, hcall, hsum, ?_⟩
  rw [hsum] at helement
  exact helement

end QuantizedConv.Dense
