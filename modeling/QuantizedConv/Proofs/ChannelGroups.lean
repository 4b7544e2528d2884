import QuantizedConv.Proofs.Faults

/-!
# Depthwise convolution, channel by channel

The kernel runs over the groups of a pixel and over the members of each group, and finds the output
channel from the two. The group of a channel is what dividing by the depth multiplier leaves, so
that the two loops are one loop over the output channels (`writeWindow_eq_channels`), also with
a multiplier of `0`, where there are none. Each channel is then written once, from the input channel
of its group (`convolve_eq_channelSum`).
-/

set_option autoImplicit false

namespace QuantizedConv.Depthwise

variable {α : Type} [Activation α] {layer : DepthwiseLayer} {operands : Operands α}
  {outputShape : Shape} {e : CallExtents}

/-- The loop over the output channels of a pixel, each from the input channel of its group. -/
def writeChannels (layer : DepthwiseLayer) (operands : Operands α) (shape : Shape)
    (e : CallExtents) (buffer : Array α) (window : Window) :
    Except (Stopped (Array α)) (Array α) :=
  foldIndices e.output.channels (fun buffer channel =>
    Outcome.put shape (window.target channel)
      (element layer operands e window (channel / layer.depthMultiplier.toNat) channel) buffer)
    buffer

/-- Going over all groups and all their members is going over all output channels once. -/
theorem writeWindow_eq_channels (h : Admitted layer operands outputShape e) (buffer : Array α)
    (window : Window) :
    writeWindow layer operands outputShape e buffer window =
      writeChannels layer operands outputShape e buffer window := by
  unfold writeWindow writeChannels
  rw [h.groups, ← foldIndices_mul]
  apply foldIndices_congr
  intro group hg buffer
  apply foldIndices_congr
  intro member hm buffer
  -- the channel of a group and a member gives the group back
  obtain ⟨hchannelOf, -⟩ := channelOf_eq h hg hm
  rw [hchannelOf, digits_div group hm]
  rfl

/-- The exact sum that defines an output channel: the bias, and weight times input plus offset over
all cells, read from the input channel of the group. The coordinates of a cell are taken over the
unbounded integers, and cells outside the input are left out. -/
def channelSum (layer : DepthwiseLayer) (operands : Operands α) (e : CallExtents)
    (t : Coordinate) : Int :=
  operands.biasAt t.channel +
    ∑ filterRow ∈ Finset.range e.filter.height, ∑ filterColumn ∈ Finset.range e.filter.width,
      let row := layer.height.coordinate t.row filterRow
      let column := layer.width.coordinate t.column filterColumn
      if (0 ≤ row ∧ row < e.input.height) ∧ 0 ≤ column ∧ column < e.input.width then
        operands.filter.integer (e.filter.position ⟨0, filterRow, filterColumn, t.channel⟩) *
          (operands.input.integer (e.input.position
              ⟨t.batch, row.toNat, column.toNat, t.channel / layer.depthMultiplier.toNat⟩) +
            layer.inputOffset.toInt)
      else 0

/-- The sum of an output channel is its bias plus the sum of its window. -/
theorem channelSum_eq (h : Admitted layer operands outputShape e)
    (hinput : operands.input.data.size < Checked.signedBound) {t : Coordinate}
    (ht : e.output.Holds t) :
    channelSum layer operands e t = operands.biasAt t.channel + sum layer operands e t := by
  unfold channelSum sum Layer.windowSum
  have hchannels : 0 < e.input.channels := Nat.zero_lt_of_lt (h.group_lt ht.channel)
  have harea := h.area_lt hinput ht.batch hchannels
  congr 1
  refine Finset.sum_congr rfl fun filterRow _ => Finset.sum_congr rfl fun filterColumn _ => ?_
  rw [Layer.cellAt_eq_ite harea]
  split
  · rename_i hinside
    exact if_pos hinside
  · rename_i houtside
    exact if_neg houtside

/-- **Depthwise convolution computes its definition.** In every call that ends well, each output
element is the exact sum of its channel, wrapped to 32 bits once and then scaled, moved, clamped and
narrowed. The channels of a pixel are written one after the other, each of them once. All elements
that the sum speaks of are there. -/
theorem convolve_eq_channelSum (layer : DepthwiseLayer) (operands : Operands α) (output : Tensor α)
    (hok : (convolve layer operands output).ending = .ok ())
    (hinput : operands.input.data.size < Checked.signedBound) :
    ∃ e, Contract.callExtents operands output.shape = .ok e ∧
      e.output.channels = e.input.channels * layer.depthMultiplier.toNat ∧
      (∀ buffer window, writeWindow layer operands output.shape e buffer window =
        writeChannels layer operands output.shape e buffer window) ∧
      (e.input.size ≤ operands.input.data.size ∧
        (∀ t, e.output.Holds t → WeightedAt layer operands e t) ∧
        ∀ tensor, operands.bias = some tensor → e.output.channels ≤ tensor.data.size) ∧
      ∀ b < e.input.batches, ∀ y < e.output.height, ∀ x < e.output.width,
        ∀ oc < e.input.channels * layer.depthMultiplier.toNat, ∃ multiplier shift,
          operands.scales.multiplier[oc]? = some multiplier ∧
          operands.scales.shift[oc]? = some shift ∧
          (convolve layer operands output).buffer[
              ((b * e.output.height + y) * e.output.width + x) * e.output.channels + oc]? =
            some (Activation.narrow (requantize ⟨multiplier, shift⟩ layer.outputOffset
              layer.activation (Int32.ofInt (channelSum layer operands e ⟨b, y, x, oc⟩)))) := by
  obtain ⟨refusal, -, hrefused⟩ | ⟨e, hcheck, hpresent, buffer, hconvolve, hfilled⟩ |
      ⟨e, -, -, buffer, fault, hfaulted⟩ := convolve_cases layer operands output
  · rw [hrefused] at hok
    cases hok
  · obtain ⟨h, -⟩ := check_eq_ok_iff.mp hcheck
    have hweights : ∀ t, e.output.Holds t → WeightedAt layer operands e t := by
      by_contra hnot
      exact hpresent ((missingWeight_iff h).mpr hnot)
    refine ⟨e, Contract.callExtents_eq_ok_iff.mpr ⟨h.input, h.filter, h.output⟩, h.groups,
      writeWindow_eq_channels h,
      ⟨h.inputData, hweights, fun tensor htensor => (h.bias tensor htensor).2⟩, ?_⟩
    intro b hb y hy x hx oc hoc
    rw [← h.groups] at hoc
    have ht : e.output.Holds ⟨b, y, x, oc⟩ := ⟨h.batches ▸ hb, hy, hx, hoc⟩
    have hmultiplier : oc < operands.scales.multiplier.size := h.multiplier ▸ hoc
    have hshift : oc < operands.scales.shift.size := h.shift ▸ hoc
    refine ⟨operands.scales.multiplier.getD oc 0, operands.scales.shift.getD oc 0, ?_, ?_, ?_⟩
    · rw [Array.getD_eq_getD_getElem?, Array.getElem?_eq_getElem hmultiplier]
      rfl
    · rw [Array.getD_eq_getD_getElem?, Array.getElem?_eq_getElem hshift]
      rfl
    · rw [hconvolve, channelSum_eq h hinput ht]
      exact hfilled.at_position ht
  · rw [hfaulted] at hok
    cases hok

/-- A layer whose windows hang over the input at both ends, with two output channels for each input
channel. -/
def overhangingLayer : DepthwiseLayer :=
  { height := { stride := 2, padding := 1 }, depthMultiplier := 2, inputOffset := 1 }

/-- Operands with a bias and the scale one in each channel. -/
def overhangingOperands : Operands Int8 where
  input := ⟨.nhwc 1 2 1 2, #[1, -2, 3, -4]⟩
  filter := ⟨.nhwc 1 2 1 4, #[1, 2, 3, 4, 5, 6, 7, 8]⟩
  bias := some ⟨⟨[4]⟩, #[10, 20, 30, 40]⟩
  scales := ⟨#[1, 1, 1, 1], #[0, 0, 0, 0]⟩

/-- The third channel of the second pixel has only the first row of the filter over the input, and
reads the second input channel. -/
theorem convolve_eq_channelSum_overhanging :
    (convolve overhangingLayer overhangingOperands ⟨.nhwc 1 2 1 4, .replicate 8 0⟩).ending =
        .ok () ∧
      overhangingOperands.input.data.size < Checked.signedBound ∧
      ∃ e, Contract.callExtents overhangingOperands (.nhwc 1 2 1 4) = .ok e ∧
        channelSum overhangingLayer overhangingOperands e ⟨0, 1, 0, 2⟩ = 30 + 3 * (-4 + 1) ∧
        (convolve overhangingLayer overhangingOperands
          ⟨.nhwc 1 2 1 4, .replicate 8 0⟩).buffer[6]? = some (21 : Int8) := by
  have hok : (convolve overhangingLayer overhangingOperands
      ⟨.nhwc 1 2 1 4, .replicate 8 0⟩).ending = .ok () := by
    decide
  have hinput : overhangingOperands.input.data.size < Checked.signedBound := by decide
  obtain ⟨e, hcall, -, -, -, helements⟩ :=
    convolve_eq_channelSum overhangingLayer overhangingOperands _ hok hinput
  have hextents : e = ⟨⟨1, 2, 1, 2⟩, ⟨1, 2, 1, 4⟩, ⟨1, 2, 1, 4⟩⟩ := by
    cases hcall
    rfl
  subst hextents
  have hsum : channelSum overhangingLayer overhangingOperands
      ⟨⟨1, 2, 1, 2⟩, ⟨1, 2, 1, 4⟩, ⟨1, 2, 1, 4⟩⟩ ⟨0, 1, 0, 2⟩ = 30 + 3 * (-4 + 1) := by decide
  obtain ⟨multiplier, shift, hmultiplier, hshift, helement⟩ :=
    helements 0 (by decide) 1 (by decide) 0 (by decide) 2 (by decide)
  cases hmultiplier
  cases hshift
  refine ⟨hok, hinput, _, hcall, hsum, ?_⟩
  rw [hsum] at helement
  exact helement

end QuantizedConv.Depthwise
