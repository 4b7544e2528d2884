import QuantizedConv.Proofs.Faults
import QuantizedConv.Proofs.Requirements

/-!
# Resolved padding is accepted

A padding scheme chooses the output extents of a layer and the padding that they need, and a kernel
checks that its windows stay in the signed range, each with an arithmetic of its own. They agree. The
last window of either scheme starts inside the input (`PaddingScheme.last_window_le`), so that it
reaches no further than the input and the filter together, and half of what it reaches over the input
is the padding. Where that sum is in the signed range along both axes, the extents are resolved without
a fault and every kernel accepts them, whatever the batches and channels.
-/

set_option autoImplicit false

namespace QuantizedConv

/-- The extent that a dilated filter covers, over the naturals. -/
def coverage (filter dilation : Nat) : Nat :=
  if filter = 0 then 0 else (filter - 1) * dilation + 1

/-- The way from the first cell of a filter to the last lies inside what it covers. -/
theorem taps_le_coverage (filter dilation : Nat) : (filter - 1) * dilation ≤ coverage filter dilation := by
  unfold coverage
  split
  · rename_i hzero
    simp [hzero]
  · exact Nat.le_succ _

/-- The extent that a filter covers is computed without a fault, where it is a size. -/
theorem coveredExtent_eq {filter dilation : Nat}
    (h : coverage filter dilation < Checked.sizeBound) :
    coveredExtent filter dilation = .ok (coverage filter dilation) := by
  unfold coveredExtent
  unfold coverage at h ⊢
  split
  · rfl
  · rename_i hfilter
    rw [if_neg hfilter] at h
    rw [bind_of_ok (Checked.mul_eq (by omega)), Checked.add_eq h]

namespace PaddingScheme

/-- The number of windows along an axis, over the naturals. -/
def windows (scheme : PaddingScheme) (input covered stride : Nat) : Nat :=
  match scheme with
  | .same => (input + stride - 1) / stride
  | .valid => (input + stride - covered) / stride

/-- The number of windows is computed without a fault, where the numbers on the way are sizes. -/
theorem outputExtent_eq (scheme : PaddingScheme) {input filter stride dilation : Nat}
    (hstep : input + stride < Checked.sizeBound)
    (hcovered : coverage filter dilation < Checked.sizeBound) :
    scheme.outputExtent input filter stride dilation =
      .ok (scheme.windows input (coverage filter dilation) stride) := by
  unfold outputExtent
  split
  · -- no window without a stride, as a quotient by zero is zero
    rename_i hstride
    cases scheme <;> simp [windows, hstride]
  · cases scheme with
    | same =>
      simp only
      rw [bind_of_ok (Checked.add_eq hstep)]
      rfl
    | valid =>
      simp only
      rw [bind_of_ok (coveredExtent_eq hcovered), bind_of_ok (Checked.add_eq hstep)]
      split
      · rfl
      · rename_i hshort
        simp [windows, Nat.sub_eq_zero_of_le (Nat.le_of_not_le hshort)]

/-- There are at most as many windows as input and stride together. -/
theorem windows_le (scheme : PaddingScheme) (input covered stride : Nat) :
    scheme.windows input covered stride ≤ input + stride := by
  cases scheme with
  | same => exact (Nat.div_le_self _ _).trans (Nat.sub_le _ _)
  | valid => exact (Nat.div_le_self _ _).trans (Nat.sub_le _ _)

/-- The last window starts inside the input. -/
theorem last_window_le (scheme : PaddingScheme) (input covered stride : Nat) :
    (scheme.windows input covered stride - 1) * stride ≤ input := by
  rw [Nat.sub_mul, Nat.one_mul]
  cases scheme with
  | same =>
    have hquotient := Nat.div_mul_le_self (input + stride - 1) stride
    simp only [windows]
    omega
  | valid =>
    have hquotient := Nat.div_mul_le_self (input + stride - covered) stride
    simp only [windows]
    omega

end PaddingScheme

/-- The padding in front is computed without a fault, where the extent of all windows is a size. -/
theorem leadingPadding_eq {stride dilation input filter output : Nat}
    (h : (output - 1) * stride + coverage filter dilation < Checked.sizeBound) :
    leadingPadding stride dilation input filter output =
      .ok (if output = 0 then 0
        else ((output - 1) * stride + coverage filter dilation - input) / 2) := by
  unfold leadingPadding
  split
  · rfl
  · rw [bind_of_ok (coveredExtent_eq (by omega)), bind_of_ok (Checked.mul_eq (by omega)),
      bind_of_ok (Checked.add_eq h)]

/-- The input and the filter along an axis are together in the signed range, and the input and the
stride are a size. -/
structure Axis.Resolvable (axis : Axis) (input filter : Nat) : Prop where
  reach : input + coverage filter axis.dilation.toNat < Checked.signedBound
  step : input + axis.stride.toNat < Checked.sizeBound

/-- Along an axis, the number of windows and their padding are found without a fault, and the window
check accepts them. -/
theorem Axis.Resolvable.resolved {axis : Axis} {input filter : Nat}
    (h : axis.Resolvable input filter) (scheme : PaddingScheme) :
    ∃ output padding : UInt64,
      scheme.outputExtent input filter axis.stride.toNat axis.dilation.toNat = .ok output.toNat ∧
      leadingPadding axis.stride.toNat axis.dilation.toNat input filter output.toNat =
        .ok padding.toNat ∧
      Axis.Fits { axis with padding := padding } output.toNat filter := by
  have hbounds : Checked.signedBound < Checked.sizeBound := by decide
  have hreach := h.reach
  have hstep := h.step
  have htaps := taps_le_coverage filter axis.dilation.toNat
  -- the windows enter only by these bounds, which both schemes share
  obtain ⟨output, hextent, hwindows, hlast⟩ : ∃ output,
      scheme.outputExtent input filter axis.stride.toNat axis.dilation.toNat = .ok output ∧
      output ≤ input + axis.stride.toNat ∧ (output - 1) * axis.stride.toNat ≤ input :=
    ⟨_, scheme.outputExtent_eq hstep (by omega), scheme.windows_le _ _ _,
      scheme.last_window_le _ _ _⟩
  obtain ⟨padding, hleading, hpadding⟩ : ∃ padding,
      leadingPadding axis.stride.toNat axis.dilation.toNat input filter output = .ok padding ∧
      padding < Checked.signedBound := by
    refine ⟨_, leadingPadding_eq (by omega), ?_⟩
    split <;> omega
  have houtput : (UInt64.ofNat output).toNat = output :=
    UInt64.toNat_ofNat_of_lt' (hwindows.trans_lt hstep)
  have hsize : (UInt64.ofNat padding).toNat = padding :=
    UInt64.toNat_ofNat_of_lt' (hpadding.trans hbounds)
  refine ⟨.ofNat output, .ofNat padding, ?_, ?_, ?_, ?_⟩
  · rw [hextent, houtput]
  · rw [houtput, hleading, hsize]
  · simp only [houtput]
    omega
  · simp only [hsize]
    exact hpadding

/-- A layer is resolved from the numbers of windows and the paddings of its two axes. -/
theorem Layer.resolve_eq {layer : Layer} {scheme : PaddingScheme}
    {inputHeight inputWidth filterHeight filterWidth outputHeight outputWidth : Nat}
    {padding : Padding}
    (hrows : scheme.outputExtent inputHeight filterHeight layer.height.stride.toNat
      layer.height.dilation.toNat = .ok outputHeight)
    (hcolumns : scheme.outputExtent inputWidth filterWidth layer.width.stride.toNat
      layer.width.dilation.toNat = .ok outputWidth)
    (htop : leadingPadding layer.height.stride.toNat layer.height.dilation.toNat inputHeight
      filterHeight outputHeight = .ok padding.height.toNat)
    (hleft : leadingPadding layer.width.stride.toNat layer.width.dilation.toNat inputWidth
      filterWidth outputWidth = .ok padding.width.toNat) :
    layer.resolve scheme inputHeight inputWidth filterHeight filterWidth =
      .ok (layer.withPadding padding, outputHeight, outputWidth) := by
  unfold resolve
  simp only
  rw [bind_of_ok hrows, bind_of_ok hcolumns, bind_of_ok htop, bind_of_ok hleft]
  simp only [UInt64.ofNat_toNat]

/-- The elements of a shape can be counted, and the array has them all. -/
structure Tensor.Complete {α : Type} (tensor : Tensor α) : Prop where
  countable : tensor.shape.Countable
  enough : tensor.shape.product ≤ tensor.data.size

/-- The tensors of a call have their elements, and there is a scale, and a bias or none, for each output
channel. -/
structure Supplied {α : Type} (operands : Operands α) (output : Tensor α) (channels : Nat) : Prop where
  input : operands.input.Complete
  filter : operands.filter.Complete
  output : output.Complete
  bias : ∀ tensor, operands.bias = some tensor → tensor.Complete ∧ tensor.shape.product = channels
  multiplier : operands.scales.multiplier.size = channels
  shift : operands.scales.shift.size = channels

section Kernels

variable {α : Type} {layer : Layer} {operands : Operands α} {output : Tensor α} {e : CallExtents}

/-- The extents of a call whose shapes have four dimensions are these dimensions. -/
theorem Contract.callExtents_of_nhwc {n h w c k fh fw fc m oh ow oc : UInt64}
    (hinput : operands.input.shape = .nhwc n h w c)
    (hfilter : operands.filter.shape = .nhwc k fh fw fc)
    (houtput : output.shape = .nhwc m oh ow oc) :
    Contract.callExtents operands output.shape = .ok
      ⟨⟨n.toNat, h.toNat, w.toNat, c.toNat⟩, ⟨k.toNat, fh.toNat, fw.toNat, fc.toNat⟩,
        ⟨m.toNat, oh.toNat, ow.toNat, oc.toNat⟩⟩ := by
  rw [Contract.callExtents, hinput, hfilter, houtput]
  rfl

/-- A complete tensor can be counted by its extents and holds that many elements. -/
theorem Tensor.Complete.extents {tensor : Tensor α} {e : Nhwc} (h : tensor.Complete)
    (hs : Nhwc.ofShape? tensor.shape = some e) : e.Countable ∧ e.size ≤ tensor.data.size := by
  obtain ⟨-, hcountable, hproduct⟩ := Shape.of_extents hs
  exact ⟨hcountable.mp h.countable, hproduct ▸ h.enough⟩

variable (h : Supplied operands output e.output.channels)
  (hcall : Contract.callExtents operands output.shape = .ok e)
  (hbatches : e.input.batches = e.output.batches)
  (hheight : layer.height.Fits e.output.height e.filter.height)
  (hwidth : layer.width.Fits e.output.width e.filter.width)
include h hcall hbatches hheight hwidth

/-- Beside its windows, a call needs nothing but its tensors. -/
theorem Supplied.admitted :
    Admitted layer operands output.shape e ∧ e.output.size ≤ output.data.size := by
  obtain ⟨hinput, hfilter, houtput⟩ := Contract.callExtents_eq_ok_iff.mp hcall
  obtain ⟨hinputCount, hinputData⟩ := h.input.extents hinput
  obtain ⟨hfilterCount, hfilterData⟩ := h.filter.extents hfilter
  obtain ⟨houtputCount, houtputData⟩ := h.output.extents houtput
  refine ⟨⟨hinput, hfilter, houtput, hbatches, ?_, h.multiplier, h.shift, hinputCount, hinputData,
    hfilterCount, hfilterData, houtputCount, hheight, hwidth⟩, houtputData⟩
  intro tensor htensor
  obtain ⟨hcomplete, hchannels⟩ := h.bias tensor htensor
  exact ⟨Shape.count?_eq_some_iff_product.mpr ⟨hcomplete.countable, hchannels.symm⟩,
    hchannels ▸ hcomplete.enough⟩

/-- A dense call that is supplied, with a filter that matches both channel counts, ends well. -/
theorem Dense.convolve_of_supplied [Activation α] (hdepth : e.input.channels = e.filter.channels)
    (hfilters : e.filter.batches = e.output.channels) :
    (Dense.convolve layer operands output).ending = .ok () := by
  obtain ⟨hadmitted, hroom⟩ := h.admitted hcall hbatches hheight hwidth
  obtain ⟨buffer, hconvolve, -⟩ :=
    Dense.convolve_of_check (Dense.check_eq_ok_iff.mpr ⟨⟨hadmitted, hdepth, hfilters⟩, hroom⟩)
  rw [hconvolve]

/-- A depthwise call that is supplied, with a filter that matches the channel groups, ends well. -/
theorem Depthwise.convolve_of_supplied [Activation α] {depthMultiplier : UInt64}
    (hproduct : e.input.channels * depthMultiplier.toNat < Checked.sizeBound)
    (hgroups : e.output.channels = e.input.channels * depthMultiplier.toNat)
    (hdepth : e.filter.channels = e.output.channels) (hfilter : 0 < e.filter.batches) :
    (Depthwise.convolve ⟨layer, depthMultiplier⟩ operands output).ending = .ok () := by
  obtain ⟨hadmitted, hroom⟩ := h.admitted hcall hbatches hheight hwidth
  have hdepthwise : Depthwise.Admitted ⟨layer, depthMultiplier⟩ operands output.shape e :=
    ⟨hadmitted, hproduct, hgroups, hdepth⟩
  -- a filter with a batch has all weights, also those of cells on padding
  have hweights (t : Coordinate) (ht : e.output.Holds t) :
      Depthwise.WeightedAt ⟨layer, depthMultiplier⟩ operands e t := by
    intro filterRow hfr filterColumn hfc _ _
    exact hdepthwise.hasWeight hfilter hfr hfc ht.channel
  obtain ⟨buffer, hconvolve, -⟩ :=
    Depthwise.convolve_of_weighted (Depthwise.check_eq_ok_iff.mpr ⟨hdepthwise, hroom⟩) hweights
  rw [hconvolve]

end Kernels

/-- **Resolved padding is accepted.** Where the sums of an axis are in range along both axes, a layer is
resolved without a fault for either scheme, strides of zero included. Nothing but its padding changes,
both windows are accepted, and so are all calls with the resolved extents, of the dense kernel and of
the depthwise one, for any number of batches and channels that can be counted. -/
theorem Layer.resolve_accepted {α : Type} [Activation α] (layer : Layer) (scheme : PaddingScheme)
    (inputHeight inputWidth filterHeight filterWidth : UInt64)
    (hheight : layer.height.Resolvable inputHeight.toNat filterHeight.toNat)
    (hwidth : layer.width.Resolvable inputWidth.toNat filterWidth.toNat) :
    ∃ (padding : Padding) (outputHeight outputWidth : UInt64),
      layer.resolve scheme inputHeight.toNat inputWidth.toNat filterHeight.toNat
          filterWidth.toNat =
        .ok (layer.withPadding padding, outputHeight.toNat, outputWidth.toNat) ∧
      Contract.windowFits (layer.withPadding padding).height outputHeight.toNat
        filterHeight.toNat = .ok () ∧
      Contract.windowFits (layer.withPadding padding).width outputWidth.toNat
        filterWidth.toNat = .ok () ∧
      (∀ (operands : Operands α) (output : Tensor α) (batches channels filters : UInt64),
        operands.input.shape = .nhwc batches inputHeight inputWidth channels →
        operands.filter.shape = .nhwc filters filterHeight filterWidth channels →
        output.shape = .nhwc batches outputHeight outputWidth filters →
        Supplied operands output filters.toNat →
          (Dense.convolve (layer.withPadding padding) operands output).ending = .ok ()) ∧
      ∀ (operands : Operands α) (output : Tensor α)
        (batches channels depthMultiplier outputChannels : UInt64),
        outputChannels.toNat = channels.toNat * depthMultiplier.toNat →
        operands.input.shape = .nhwc batches inputHeight inputWidth channels →
        operands.filter.shape = .nhwc 1 filterHeight filterWidth outputChannels →
        output.shape = .nhwc batches outputHeight outputWidth outputChannels →
        Supplied operands output outputChannels.toNat →
          (Depthwise.convolve ⟨layer.withPadding padding, depthMultiplier⟩ operands
            output).ending = .ok () := by
  obtain ⟨outputHeight, top, hrows, htop, hfitsRows⟩ := hheight.resolved scheme
  obtain ⟨outputWidth, left, hcolumns, hleft, hfitsColumns⟩ := hwidth.resolved scheme
  refine ⟨⟨top, left⟩, outputHeight, outputWidth, resolve_eq hrows hcolumns htop hleft,
    Contract.windowFits_eq_ok_iff.mpr hfitsRows, Contract.windowFits_eq_ok_iff.mpr hfitsColumns,
    ?_, ?_⟩
  · intro operands output batches channels filters hinput hfilter houtput hsupplied
    have hcall := Contract.callExtents_of_nhwc hinput hfilter houtput
    exact Dense.convolve_of_supplied hsupplied hcall rfl hfitsRows hfitsColumns rfl rfl
  · intro operands output batches channels depthMultiplier outputChannels hchannels hinput hfilter
      houtput hsupplied
    have hcall := Contract.callExtents_of_nhwc hinput hfilter houtput
    have hproduct : channels.toNat * depthMultiplier.toNat < Checked.sizeBound :=
      hchannels ▸ outputChannels.toNat_lt
    exact Depthwise.convolve_of_supplied hsupplied hcall rfl hfitsRows hfitsColumns hproduct
      hchannels rfl Nat.one_pos

/-- A layer with other strides and dilations along each axis, and padding that is not resolved. -/
def unresolvedLayer : Layer where
  height := { stride := 2, dilation := 3, padding := 9 }
  width := { stride := 3, dilation := 2 }

/-- Operands of a depthwise call with two output channels. -/
def resolvedOperands : Operands Int8 where
  input := ⟨.nhwc 1 5 4 1, .replicate 20 3⟩
  filter := ⟨.nhwc 1 2 3 2, .replicate 12 (-2)⟩
  bias := some ⟨⟨[2]⟩, #[100, -100]⟩
  scales := ⟨#[1, 1], #[0, 0]⟩

/-- Windows that reach over the input at both ends of both axes. -/
theorem resolve_accepted_strided :
    unresolvedLayer.height.Resolvable 5 2 ∧ unresolvedLayer.width.Resolvable 4 3 ∧
      unresolvedLayer.resolve .same 5 4 2 3 = .ok (unresolvedLayer.withPadding ⟨1, 2⟩, 3, 2) ∧
      (Depthwise.convolve ⟨unresolvedLayer.withPadding ⟨1, 2⟩, 2⟩ resolvedOperands
        ⟨.nhwc 1 3 2 2, .replicate 12 0⟩).ending = .ok () := by
  have hheight : unresolvedLayer.height.Resolvable 5 2 := ⟨by decide, by decide⟩
  have hwidth : unresolvedLayer.width.Resolvable 4 3 := ⟨by decide, by decide⟩
  have hvalues : unresolvedLayer.resolve .same 5 4 2 3 =
      .ok (unresolvedLayer.withPadding ⟨1, 2⟩, 3, 2) := rfl
  have hsupplied : Supplied resolvedOperands ⟨.nhwc 1 3 2 2, .replicate 12 0⟩ 2 := by
    refine ⟨⟨by decide, by decide⟩, ⟨by decide, by decide⟩, ⟨by decide, by decide⟩, ?_, rfl, rfl⟩
    rintro _ ⟨⟩
    exact ⟨⟨by decide, by decide⟩, by decide⟩
  obtain ⟨padding, outputHeight, outputWidth, hresolve, -, -, -, hdepthwise⟩ :=
    Layer.resolve_accepted (α := Int8) unresolvedLayer .same 5 4 2 3 hheight hwidth
  simp only [UInt64.reduceToNat, hvalues, Except.ok.injEq, Prod.mk.injEq] at hresolve
  obtain ⟨hlayer, hrows, hcolumns⟩ := hresolve
  have houtputHeight : outputHeight = 3 := UInt64.toNat.inj hrows.symm
  have houtputWidth : outputWidth = 2 := UInt64.toNat.inj hcolumns.symm
  subst houtputHeight houtputWidth
  rw [← hlayer] at hdepthwise
  exact ⟨hheight, hwidth, hvalues,
    hdepthwise resolvedOperands _ 1 1 2 2 rfl rfl rfl rfl hsupplied⟩

end QuantizedConv
