import QuantizedConv.Proofs.Faults

/-!
# Depthwise convolution as dense convolution

A depthwise filter is a dense filter in disguise: output channel `o` has its own weights at the one
input channel `o / multiplier` and zeros at all others. Written out that way (`BlockDiagonal`) the
filter has one batch for each output channel, and the sum of a dense window over all input channels
has a single term that is not zero (`cellTerm_of_blockDiagonal`). The two kernels then write the same
results over the same array, whatever overflows on the way.
-/

set_option autoImplicit false

namespace QuantizedConv

/-- The sum of a window depends on the terms of its cells only. -/
theorem Layer.windowSum_congr {layer : Layer} {filter input : Nhwc} {row column : Nat}
    {term term' : WindowCell → Int}
    (h : ∀ filterRow < filter.height, ∀ filterColumn < filter.width, ∀ cell,
      layer.cellAt input row column filterRow filterColumn = some cell → term cell = term' cell) :
    layer.windowSum filter input row column term =
      layer.windowSum filter input row column term' := by
  unfold windowSum
  refine Finset.sum_congr rfl fun filterRow hfr => Finset.sum_congr rfl fun filterColumn hfc => ?_
  rw [Finset.mem_range] at hfr hfc
  cases hcell : layer.cellAt input row column filterRow filterColumn with
  | none => rfl
  | some cell => exact h filterRow hfr filterColumn hfc cell hcell

namespace Depthwise

/-- The extents of a dense filter in the place of a depthwise one: a batch for each output channel,
and all input channels. -/
def denseFilter (e : CallExtents) : Nhwc :=
  ⟨e.output.channels, e.filter.height, e.filter.width, e.input.channels⟩

/-- A dense filter with the weights of a depthwise filter on its diagonal blocks: at input channel
`o / depthMultiplier` of output channel `o`, and zeros elsewhere. -/
structure BlockDiagonal (layer : DepthwiseLayer) (filter : Tensor Int8) (e : CallExtents)
    (dense : Tensor Int8) : Prop where
  shape : Nhwc.ofShape? dense.shape = some (denseFilter e)
  size : dense.data.size = (denseFilter e).size
  entry : ∀ o < e.output.channels, ∀ y < e.filter.height, ∀ x < e.filter.width,
    ∀ i < e.input.channels,
      dense.data[(denseFilter e).position ⟨o, y, x, i⟩]? =
        if i = o / layer.depthMultiplier.toNat then filter.data[e.filter.position ⟨0, y, x, o⟩]?
        else some 0

section Contract

variable {α : Type} {layer : DepthwiseLayer} {operands : Operands α} {outputShape : Shape}
  {e : CallExtents} {dense : Tensor Int8}

/-- A weight of the block-diagonal filter is the depthwise weight of its channel on the block, and
zero off it. -/
theorem BlockDiagonal.integer_eq (h : BlockDiagonal layer operands.filter e dense) {o y x i : Nat}
    (ho : o < e.output.channels) (hy : y < e.filter.height) (hx : x < e.filter.width)
    (hi : i < e.input.channels) :
    dense.integer ((denseFilter e).position ⟨o, y, x, i⟩) =
      if i = o / layer.depthMultiplier.toNat then
        operands.filter.integer (e.filter.position ⟨0, y, x, o⟩)
      else 0 := by
  unfold Tensor.integer
  rw [h.entry o ho y hy x hx i hi]
  split <;> rfl

/-- A dense call with a block-diagonal filter that can be counted meets its contract where the
depthwise call does. -/
theorem Admitted.toDense (h : Admitted layer operands outputShape e)
    (hdense : BlockDiagonal layer operands.filter e dense) (hcount : (denseFilter e).Countable) :
    Dense.Admitted layer.toLayer { operands with filter := dense } outputShape
      { e with filter := denseFilter e } where
  input := h.input
  filter := hdense.shape
  output := h.output
  batches := h.batches
  bias := h.bias
  multiplier := h.multiplier
  shift := h.shift
  inputCount := h.inputCount
  inputData := h.inputData
  filterCount := hcount
  filterData := le_of_eq hdense.size.symm
  outputCount := h.outputCount
  height := h.height
  width := h.width
  depth := rfl
  filters := rfl

end Contract

variable {α : Type} [Activation α] {layer : DepthwiseLayer} {operands : Operands α}
  {outputShape : Shape} {e : CallExtents} {dense : Tensor Int8}

/-- A cell of a dense window over a block-diagonal filter adds the one product of the depthwise
window: all other input channels have weight zero. -/
theorem cellTerm_of_blockDiagonal (h : Admitted layer operands outputShape e)
    (hdense : BlockDiagonal layer operands.filter e dense) {batch channel : Nat}
    (hchannel : channel < e.output.channels) {cell : WindowCell}
    (hfr : cell.filterRow < e.filter.height) (hfc : cell.filterColumn < e.filter.width) :
    Dense.cellTerm layer.toLayer { operands with filter := dense }
        { e with filter := denseFilter e } batch channel cell =
      cellProduct layer operands e batch (channel / layer.depthMultiplier.toNat) channel cell := by
  have hgroup := h.group_lt hchannel
  unfold Dense.cellTerm cellProduct
  rw [Finset.sum_eq_single (channel / layer.depthMultiplier.toNat)]
  · rw [hdense.integer_eq hchannel hfr hfc hgroup, if_pos rfl]
  · intro i hi hne
    rw [hdense.integer_eq hchannel hfr hfc (Finset.mem_range.mp hi), if_neg hne, zero_mul]
  · intro hnot
    exact absurd (Finset.mem_range.mpr hgroup) hnot

/-- Both kernels compute the same elements. -/
theorem result_of_blockDiagonal (h : Admitted layer operands outputShape e)
    (hdense : BlockDiagonal layer operands.filter e dense) {t : Coordinate}
    (ht : t.channel < e.output.channels) :
    Dense.result layer.toLayer { operands with filter := dense }
        { e with filter := denseFilter e } t =
      result layer operands e t := by
  have hsum : Dense.sum layer.toLayer { operands with filter := dense }
      { e with filter := denseFilter e } t = sum layer operands e t := by
    refine Layer.windowSum_congr fun filterRow hfr filterColumn hfc cell hcell => ?_
    obtain ⟨⟨rfl, rfl⟩, -, -⟩ := Layer.cellAt_eq_some hcell
    exact cellTerm_of_blockDiagonal h hdense ht hfr hfc
  unfold Dense.result result
  rw [hsum]
  rfl

/-- **Depthwise convolution is dense convolution with a block-diagonal filter.** For every depth
multiplier, a depthwise call that ends well leaves the same array as the dense call that differs in
its filter only, where the running products of the dense extents are sizes; the dense call ends well
too. Nothing is asked of the number of batches of the depthwise filter, of which the first counts. -/
theorem convolve_eq_blockDiagonal (layer : DepthwiseLayer) (operands : Operands α)
    (output : Tensor α) (e : CallExtents) (dense : Tensor Int8)
    (hextents : Contract.callExtents operands output.shape = .ok e)
    (hok : (convolve layer operands output).ending = .ok ())
    (hdense : BlockDiagonal layer operands.filter e dense)
    (hcount : (denseFilter e).Countable) :
    Dense.convolve layer.toLayer { operands with filter := dense } output =
      convolve layer operands output := by
  obtain ⟨refusal, -, hrefused⟩ | ⟨e', hcheck, -, buffer, hconvolve, hfilled⟩ |
      ⟨e', -, -, buffer, fault, hfaulted⟩ := convolve_cases layer operands output
  · rw [hrefused] at hok
    cases hok
  · obtain ⟨h, hsize⟩ := check_eq_ok_iff.mp hcheck
    have hsame : e' = e := by
      have hcall := Contract.callExtents_eq_ok_iff.mpr ⟨h.input, h.filter, h.output⟩
      rw [hextents] at hcall
      cases hcall
      rfl
    subst hsame
    have hdenseCheck : Dense.check layer.toLayer { operands with filter := dense } output =
        .ok { e' with filter := denseFilter e' } :=
      Dense.check_eq_ok_iff.mpr ⟨h.toDense hdense hcount, hsize⟩
    obtain ⟨buffer', hdirect, hfilled'⟩ := Dense.convolve_of_check hdenseCheck
    have hbuffer : buffer' = buffer := by
      refine hfilled'.unique hfilled fun i hi => result_of_blockDiagonal h hdense ?_
      have hpositive : 0 < e'.output.channels :=
        Nat.pos_of_ne_zero fun hzero => by simp [Nhwc.size, hzero] at hi
      exact Nat.mod_lt i hpositive
    rw [hdirect, hconvolve, hbuffer]
  · rw [hfaulted] at hok
    cases hok

/-- A layer with padding and dilation, and two output channels for each input channel. -/
def pairedLayer : DepthwiseLayer :=
  { width := { dilation := 2, padding := 1 }, inputOffset := 2147483647, depthMultiplier := 2 }

/-- Operands with two input channels and four output channels. -/
def pairedOperands : Operands Int8 where
  input := ⟨.nhwc 1 1 2 2, #[1, -2, 3, -4]⟩
  filter := ⟨.nhwc 1 1 2 4, #[1, 2, 3, 4, 5, 6, 7, 8]⟩
  bias := none
  scales := ⟨#[1, 1, 1, 1], #[-25, -25, -25, -25]⟩

/-- The filter of these operands with its zeros written out. -/
def pairedDense : Tensor Int8 :=
  ⟨.nhwc 4 1 2 2, #[1, 0, 5, 0, 2, 0, 6, 0, 0, 3, 0, 7, 0, 4, 0, 8]⟩

/-- A call whose accumulators overflow. -/
theorem convolve_eq_blockDiagonal_paired :
    Dense.convolve pairedLayer.toLayer { pairedOperands with filter := pairedDense }
          ⟨.nhwc 1 1 2 4, #[9, 9, 9, 9, 9, 9, 9, 9, 9]⟩ =
        convolve pairedLayer pairedOperands ⟨.nhwc 1 1 2 4, #[9, 9, 9, 9, 9, 9, 9, 9, 9]⟩ ∧
      convolve pairedLayer pairedOperands ⟨.nhwc 1 1 2 4, #[9, 9, 9, 9, 9, 9, 9, 9, 9]⟩ =
        ⟨#[-64, 0, 64, 0, -64, 0, 64, 0, 9], .ok ()⟩ := by
  have hdense : BlockDiagonal pairedLayer pairedOperands.filter
      ⟨⟨1, 1, 2, 2⟩, ⟨1, 1, 2, 4⟩, ⟨1, 1, 2, 4⟩⟩ pairedDense :=
    ⟨rfl, rfl, by decide⟩
  refine ⟨convolve_eq_blockDiagonal pairedLayer pairedOperands _ _ pairedDense rfl rfl hdense
    ⟨by decide, by decide, by decide⟩, ?_⟩
  set_option maxRecDepth 1024 in rfl

end Depthwise

end QuantizedConv
