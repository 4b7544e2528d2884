import QuantizedConv.Proofs.WrappedSum

/-!
# Depthwise convolution and the weights it needs

The contract of a depthwise call relates the filter to the output by its channels only. The kernel
reads the weights at batch `0`, and nothing says that the filter has a batch. `MissingWeight` says
that some window lies over the input with a cell whose weight is not in the array, which needs a
filter with no batch (`missingWeight_iff`). It is the only way for an accepted call to stop at a fault:
where no weight is missing every element is written (`convolve_of_weighted`), and where one is, the
call stops when it gets there (`convolve_of_not_weighted`).
-/

set_option autoImplicit false

namespace QuantizedConv.Depthwise

/-- What the loops of a depthwise kernel rely on. -/
structure Admitted {α : Type} (layer : DepthwiseLayer) (operands : Operands α) (outputShape : Shape)
    (e : CallExtents) : Prop
    extends QuantizedConv.Admitted layer.toLayer operands outputShape e where
  product : e.input.channels * layer.depthMultiplier.toNat < Checked.sizeBound
  groups : e.output.channels = e.input.channels * layer.depthMultiplier.toNat
  depth : e.filter.channels = e.output.channels

section Contract

variable {α : Type} {layer : DepthwiseLayer} {operands : Operands α} {outputShape : Shape}
  {e : CallExtents}

/-- The contract of a depthwise call holds exactly when the call is admitted. -/
theorem admitted_iff :
    Contract.depthwise layer operands outputShape = .ok e ↔
      Admitted layer operands outputShape e := by
  rw [Contract.depthwise_eq_ok_iff]
  exact ⟨fun h => ⟨h.1, h.2.1.1, h.2.1.2, h.2.2⟩,
    fun h => ⟨h.toAdmitted, ⟨h.product, h.groups⟩, h.depth⟩⟩

/-- A depthwise call is accepted exactly when it is admitted and the array has room for the
output. -/
theorem check_eq_ok_iff {output : Tensor α} :
    check layer operands output = .ok e ↔
      Admitted layer operands output.shape e ∧ e.output.size ≤ output.data.size := by
  unfold check
  rw [Contract.withOutput_eq_ok_iff fun e he => (admitted_iff.mp he).toAdmitted, admitted_iff]

/-- The weight of a cell and an output channel is in the array of the filter, at a position that is a
size. -/
def HasWeight (operands : Operands α) (e : CallExtents) (filterRow filterColumn channel : Nat) :
    Prop :=
  e.filter.position ⟨0, filterRow, filterColumn, channel⟩ < operands.filter.data.size ∧
    e.filter.position ⟨0, filterRow, filterColumn, channel⟩ < Checked.sizeBound

/-- All weights are there that an output element needs: those of the cells inside the input. -/
def WeightedAt (layer : DepthwiseLayer) (operands : Operands α) (e : CallExtents)
    (t : Coordinate) : Prop :=
  ∀ filterRow < e.filter.height, ∀ filterColumn < e.filter.width, ∀ cell,
    layer.toLayer.cellAt e.input t.row t.column filterRow filterColumn = some cell →
      HasWeight operands e filterRow filterColumn t.channel

/-- Some output element needs a weight that is not there, and the filter has no batch. -/
def MissingWeight (layer : DepthwiseLayer) (operands : Operands α) (e : CallExtents) : Prop :=
  e.filter.batches = 0 ∧ ∃ t, e.output.Holds t ∧
    ∃ filterRow < e.filter.height, ∃ filterColumn < e.filter.width, ∃ cell,
      layer.toLayer.cellAt e.input t.row t.column filterRow filterColumn = some cell ∧
        ¬HasWeight operands e filterRow filterColumn t.channel

/-- A filter with a batch holds all its weights. -/
theorem Admitted.hasWeight (h : Admitted layer operands outputShape e)
    (hbatches : 0 < e.filter.batches) {filterRow filterColumn channel : Nat}
    (hfr : filterRow < e.filter.height) (hfc : filterColumn < e.filter.width)
    (hk : channel < e.output.channels) :
    HasWeight operands e filterRow filterColumn channel := by
  have hposition := Nhwc.position_lt (e := e.filter) (t := ⟨0, filterRow, filterColumn, channel⟩)
    ⟨hbatches, hfr, hfc, h.depth ▸ hk⟩
  exact ⟨hposition.trans_le h.filterData, hposition.trans h.filterCount.size⟩

/-- No weight is missing exactly when every output element has its weights. -/
theorem missingWeight_iff (h : Admitted layer operands outputShape e) :
    MissingWeight layer operands e ↔
      ¬∀ t, e.output.Holds t → WeightedAt layer operands e t := by
  constructor
  · rintro ⟨-, t, ht, filterRow, hfr, filterColumn, hfc, cell, hcell, hmissing⟩ hweighted
    exact hmissing (hweighted t ht filterRow hfr filterColumn hfc cell hcell)
  · intro hnot
    simp only [WeightedAt, not_forall] at hnot
    obtain ⟨t, ht, filterRow, hfr, filterColumn, hfc, cell, hcell, hmissing⟩ := hnot
    refine ⟨?_, t, ht, filterRow, hfr, filterColumn, hfc, cell, hcell, hmissing⟩
    by_contra hbatches
    exact hmissing (h.hasWeight (Nat.pos_of_ne_zero hbatches) hfr hfc ht.channel)

/-- The input under a cell is always read. -/
theorem Admitted.input_offset (h : Admitted layer operands outputShape e) {batch group : Nat}
    (hb : batch < e.output.batches) (hg : group < e.input.channels) {cell : WindowCell}
    (hir : cell.inputRow < e.input.height) (hic : cell.inputColumn < e.input.width) :
    operands.input.shape.offset batch cell.inputRow cell.inputColumn group =
        .ok (e.input.position ⟨batch, cell.inputRow, cell.inputColumn, group⟩) ∧
      e.input.position ⟨batch, cell.inputRow, cell.inputColumn, group⟩ <
        operands.input.data.size := by
  have hbatch : batch < e.input.batches := h.batches ▸ hb
  have hposition := Nhwc.position_lt (e := e.input)
    (t := ⟨batch, cell.inputRow, cell.inputColumn, group⟩) ⟨hbatch, hir, hic, hg⟩
  exact ⟨Shape.offset_eq_position h.input h.inputCount
    (t := ⟨batch, cell.inputRow, cell.inputColumn, group⟩) hbatch hir hic (Nat.le_of_lt hg),
    hposition.trans_le h.inputData⟩

/-- The group of an output channel is an input channel. -/
theorem Admitted.group_lt (h : Admitted layer operands outputShape e) {channel : Nat}
    (hchannel : channel < e.output.channels) :
    channel / layer.depthMultiplier.toNat < e.input.channels := by
  rw [h.groups] at hchannel
  exact Nat.div_lt_of_lt_mul (by rwa [Nat.mul_comm])

/-- The number of an output channel is computed. -/
theorem channelOf_eq (h : Admitted layer operands outputShape e) {group member : Nat}
    (hg : group < e.input.channels) (hm : member < layer.depthMultiplier.toNat) :
    channelOf layer group member = .ok (group * layer.depthMultiplier.toNat + member) ∧
      group * layer.depthMultiplier.toNat + member < e.output.channels := by
  have hchannel := digits_lt hg hm
  have hproduct := h.product
  have hsum : member + group * layer.depthMultiplier.toNat < Checked.sizeBound := by omega
  refine ⟨?_, h.groups ▸ hchannel⟩
  rw [channelOf, bind_of_ok (Checked.mul_eq (by omega)), Checked.add_eq hsum, Nat.add_comm]

end Contract

variable {α : Type} [Activation α]

/-- What one cell adds to the exact sum of an output channel. -/
def cellProduct (layer : DepthwiseLayer) (operands : Operands α) (e : CallExtents)
    (batch group channel : Nat) (cell : WindowCell) : Int :=
  operands.filter.integer (e.filter.position ⟨0, cell.filterRow, cell.filterColumn, channel⟩) *
    (operands.input.integer (e.input.position ⟨batch, cell.inputRow, cell.inputColumn, group⟩) +
      layer.inputOffset.toInt)

/-- The exact sum of the window of an output element, without the bias. -/
def sum (layer : DepthwiseLayer) (operands : Operands α) (e : CallExtents) (t : Coordinate) : Int :=
  layer.toLayer.windowSum e.filter e.input t.row t.column
    (cellProduct layer operands e t.batch (t.channel / layer.depthMultiplier.toNat) t.channel)

/-- An output element. -/
def result (layer : DepthwiseLayer) (operands : Operands α) (e : CallExtents) (t : Coordinate) : α :=
  operands.activation layer.toLayer t.channel
    (operands.biasAt t.channel + sum layer operands e t)

variable {layer : DepthwiseLayer} {operands : Operands α} {outputShape : Shape} {e : CallExtents}

/-- A cell adds its product where its weight is there. -/
theorem cellTerm_eq (h : Admitted layer operands outputShape e) {batch row column group channel : Nat}
    (hb : batch < e.output.batches) (hg : group < e.input.channels) (hk : channel < e.output.channels)
    {cell : WindowCell} (hfc : cell.filterColumn < e.filter.width)
    (hir : cell.inputRow < e.input.height) (hic : cell.inputColumn < e.input.width)
    (hweight : HasWeight operands e cell.filterRow cell.filterColumn channel) :
    cellTerm layer operands (layer.toLayer.windowAt batch row column) group channel cell =
      .ok (Int32.ofInt (cellProduct layer operands e batch group channel cell)) := by
  obtain ⟨hinput, hinside⟩ := h.input_offset hb hg hir hic
  have hdepth := h.depth
  have hfilter := Shape.offset_eq_of_position_lt h.filter (by omega) (by omega) hweight.2
  rw [cellTerm, Layer.windowAt, bind_of_ok hinput, bind_of_ok (Checked.get_eq hinside),
    bind_of_ok hfilter, bind_of_ok (Checked.get_eq hweight.1)]
  simp only [cellProduct, Tensor.integer, Array.getElem?_eq_getElem hinside,
    Array.getElem?_eq_getElem hweight.1, Option.elim_some, Int32.ofInt_mul, Int32.ofInt_add,
    Int32.ofInt_toInt]
  rfl

/-- A cell adds something only where its weight is there. -/
theorem hasWeight_of_cellTerm (h : Admitted layer operands outputShape e) {window : Window}
    {group channel : Nat} {cell : WindowCell} {term : Int32}
    (hterm : cellTerm layer operands window group channel cell = .ok term) :
    HasWeight operands e cell.filterRow cell.filterColumn channel := by
  simp only [cellTerm, bind_eq_ok_iff] at hterm
  obtain ⟨-, -, -, -, place, hoffset, weight, hget, -⟩ := hterm
  obtain ⟨rfl, hsize⟩ := Shape.of_offset_eq h.filter hoffset
  refine ⟨?_, hsize⟩
  by_contra hdata
  rw [Checked.get_eq_error (Nat.le_of_not_lt hdata)] at hget
  cases hget

/-- An output element is computed where its weights are there. -/
theorem element_eq (h : Admitted layer operands outputShape e) {t : Coordinate}
    (ht : e.output.Holds t) (hweights : WeightedAt layer operands e t) :
    element layer operands e (layer.toLayer.windowAt t.batch t.row t.column)
        (t.channel / layer.depthMultiplier.toNat) t.channel =
      .ok (result layer operands e t) := by
  have hgroup := h.group_lt ht.channel
  have hsum : accumulate layer operands e (layer.toLayer.windowAt t.batch t.row t.column)
      (t.channel / layer.depthMultiplier.toNat) t.channel =
      .ok (Int32.ofInt (sum layer operands e t)) := by
    refine Layer.foldInside_eq_sum h.fits ht.row ht.column t.batch _ ?_
    intro filterRow hfr filterColumn hfc cell hcell acc
    have hweight := hweights filterRow hfr filterColumn hfc cell hcell
    obtain ⟨⟨rfl, rfl⟩, ⟨-, hir⟩, -, hic⟩ := Layer.cellAt_eq_some hcell
    rw [bind_of_ok (cellTerm_eq h ht.batch hgroup ht.channel hfc hir hic hweight)]
  rw [element, bind_of_ok hsum]
  exact Operands.activate_eq h.toAdmitted ht.channel _

/-- An output element is not computed where one of its weights is not there. -/
theorem element_error (h : Admitted layer operands outputShape e) {t : Coordinate}
    (ht : e.output.Holds t) (hweights : ¬WeightedAt layer operands e t) (group : Nat) :
    ∃ fault, element layer operands e (layer.toLayer.windowAt t.batch t.row t.column) group
      t.channel = .error fault := by
  simp only [WeightedAt, not_forall] at hweights
  obtain ⟨filterRow, hfr, filterColumn, hfc, cell, hcell, hmissing⟩ := hweights
  obtain ⟨⟨rfl, rfl⟩, -, -⟩ := Layer.cellAt_eq_some hcell
  have hsum : ∃ fault, accumulate layer operands e
      (layer.toLayer.windowAt t.batch t.row t.column) group t.channel = .error fault := by
    refine Layer.foldInside_error h.fits ht.row ht.column t.batch 0 hfr hfc hcell fun acc => ?_
    cases hterm : cellTerm layer operands (layer.toLayer.windowAt t.batch t.row t.column) group
      t.channel cell with
    | error fault => exact ⟨fault, rfl⟩
    | ok term => exact absurd (hasWeight_of_cellTerm h hterm) hmissing
  obtain ⟨fault, hfault⟩ := hsum
  refine ⟨fault, ?_⟩
  rw [element, hfault]
  rfl

/-- All channels of a pixel are written, group by group, where their weights are there. -/
theorem writeWindow_ok (h : Admitted layer operands outputShape e) {before : Array α}
    (hsize : e.output.size ≤ before.size) {batch row column : Nat} (hb : batch < e.output.batches)
    (hr : row < e.output.height) (hc : column < e.output.width)
    (hweights : ∀ channel < e.output.channels,
      WeightedAt layer operands e ⟨batch, row, column, channel⟩) {buffer : Array α}
    (hbuffer : Filled e.output (result layer operands e) before
      (((batch * e.output.height + row) * e.output.width + column) * e.output.channels) buffer) :
    ∃ next, writeWindow layer operands outputShape e buffer
        (layer.toLayer.windowAt batch row column) = .ok next ∧
      Filled e.output (result layer operands e) before
        (((batch * e.output.height + row) * e.output.width + column + 1) * e.output.channels)
        next := by
  have hend : ((batch * e.output.height + row) * e.output.width + column + 1) * e.output.channels =
      ((batch * e.output.height + row) * e.output.width + column) * e.output.channels +
        e.input.channels * layer.depthMultiplier.toNat := by
    rw [Nat.succ_mul, ← h.groups]
  rw [hend]
  refine foldIndices_ok (fun group => Filled e.output (result layer operands e) before
    (((batch * e.output.height + row) * e.output.width + column) * e.output.channels +
      group * layer.depthMultiplier.toNat)) (by simpa only [Nat.zero_mul, Nat.add_zero] using hbuffer) ?_
  intro group hg buffer hbuffer
  rw [Nat.succ_mul, ← Nat.add_assoc]
  refine foldIndices_ok (fun member => Filled e.output (result layer operands e) before
    (((batch * e.output.height + row) * e.output.width + column) * e.output.channels +
      group * layer.depthMultiplier.toNat + member)) hbuffer ?_
  intro member hm buffer hbuffer
  obtain ⟨hchannelOf, hchannel⟩ := channelOf_eq h hg hm
  have hcomputed := element_eq h
    (t := ⟨batch, row, column, group * layer.depthMultiplier.toNat + member⟩)
    ⟨hb, hr, hc, hchannel⟩ (hweights _ hchannel)
  rw [digits_div group hm] at hcomputed
  rw [hchannelOf, Nat.add_assoc] at *
  exact Outcome.put_ok h.output h.outputCount hsize ⟨hb, hr, hc, hchannel⟩ hcomputed hbuffer

/-- A pixel is not written where a weight of one of its channels is not there. -/
theorem writeWindow_error (h : Admitted layer operands outputShape e) {t : Coordinate}
    (ht : e.output.Holds t) (hweights : ¬WeightedAt layer operands e t) (buffer : Array α) :
    ∃ stopped, writeWindow layer operands outputShape e buffer
      (layer.toLayer.windowAt t.batch t.row t.column) = .error stopped := by
  have hchannel := ht.channel
  rw [h.groups] at hchannel
  have hmultiplier : 0 < layer.depthMultiplier.toNat :=
    Nat.pos_of_ne_zero fun hzero => by rw [hzero, Nat.mul_zero] at hchannel; omega
  have hgroup := h.group_lt ht.channel
  have hmember := Nat.mod_lt t.channel hmultiplier
  -- the fault comes at the latest in the group and at the member of the channel
  refine foldIndices_error buffer hgroup fun buffer =>
    foldIndices_error buffer hmember fun buffer => ?_
  obtain ⟨hchannelOf, -⟩ := channelOf_eq h hgroup hmember
  rw [Nat.div_add_mod'] at hchannelOf
  obtain ⟨fault, hfault⟩ :=
    element_error h ht hweights (t.channel / layer.depthMultiplier.toNat)
  rw [hchannelOf]
  exact ⟨⟨fault, buffer⟩, Outcome.put_error hfault⟩

/-- **A depthwise call whose weights are there ends well**, and leaves its results in front of what
was there before. -/
theorem convolve_of_weighted {output : Tensor α} (hcheck : check layer operands output = .ok e)
    (hweights : ∀ t, e.output.Holds t → WeightedAt layer operands e t) :
    ∃ buffer, convolve layer operands output = ⟨buffer, .ok ()⟩ ∧
      Filled e.output (result layer operands e) output.data e.output.size buffer := by
  obtain ⟨h, hsize⟩ := check_eq_ok_iff.mp hcheck
  rw [convolve, hcheck]
  refine Outcome.putWindows_ok h.fits output.data ?_
  intro batch hb row hr column hc buffer hbuffer
  exact writeWindow_ok h hsize hb hr hc (fun channel hk => hweights _ ⟨hb, hr, hc, hk⟩) hbuffer

/-- A depthwise call that misses a weight stops at a fault. -/
theorem convolve_of_not_weighted {output : Tensor α} (hcheck : check layer operands output = .ok e)
    {t : Coordinate} (ht : e.output.Holds t) (hweights : ¬WeightedAt layer operands e t) :
    ∃ buffer fault, convolve layer operands output = .faulted buffer fault := by
  obtain ⟨h, -⟩ := check_eq_ok_iff.mp hcheck
  have hloops : ∃ stopped, layer.toLayer.foldWindows e.output
      (fun buffer fault => ⟨fault, buffer⟩) (writeWindow layer operands output.shape e)
      output.data = .error stopped :=
    Layer.foldWindows_error output.data h.fits ht.batch ht.row ht.column
      fun buffer => writeWindow_error h ht hweights buffer
  obtain ⟨stopped, hstopped⟩ := hloops
  refine ⟨stopped.state, stopped.fault, ?_⟩
  rw [convolve, hcheck]
  simp only [hstopped, Outcome.ofWrites]

/-- A depthwise call whose contract does not hold is refused. -/
theorem convolve_of_refusal {output : Tensor α} {refusal : Refusal}
    (hcheck : check layer operands output = .error refusal) :
    convolve layer operands output = .refused output.data refusal := by
  rw [convolve, hcheck]

end QuantizedConv.Depthwise
