import QuantizedConv.Proofs.CaseRuns
import QuantizedConv.Proofs.ExactScaling
import QuantizedConv.Proofs.Recoding

/-!
# Unsigned activations as signed ones

An unsigned activation with zero point `z` stands for the same value as the signed one 128 below it
with zero point `z - 128`. On the way through a kernel this meets a wrapping sum (the input offset), a
saturating one (the output offset), a clamp whose bounds may cross, and a saturating narrowing. Over
the integers each of them is a composition of minima and maxima (`toInt_requantize`), and inside an
activation range of unsigned values all of them move with the zero point (`requantize_recentered`), for
accumulators near the ends of the 32-bit range too. So `recenter` is a recoding, and all kernels do the
same on unsigned and on recentered operands.
-/

set_option autoImplicit false

namespace QuantizedConv

/-- The signed activation 128 below an unsigned one. -/
def recenter (x : UInt8) : Int8 := Int8.ofInt ((x.toNat : Int) - 128)

/-- The layer for recentered activations: all zero points and bounds are 128 lower, and the input
offset, which is added to take the zero point away, is 128 higher. -/
def Layer.recentered (layer : Layer) : Layer :=
  { layer with
    inputOffset := layer.inputOffset + 128
    outputOffset := layer.outputOffset - 128
    activation := ⟨layer.activation.lowest - 128, layer.activation.highest - 128⟩ }

/-- A recentered byte has a value that is smaller by 128. -/
theorem toInt_recenter (x : UInt8) : (recenter x).toInt = (x.toNat : Int) - 128 := by
  have hx : x.toNat < 256 := x.toNat_lt
  exact Int8.toInt_ofInt_of_le (by omega) (by omega)

/-- A widened byte keeps its value. -/
theorem toInt_widen (x : UInt8) : (Activation.widen x).toInt = x.toNat := by
  have hx : x.toNat < 256 := x.toNat_lt
  have hvalue := BitVec.toInt_eq_toNat_cond x.toUInt32.toBitVec
  change x.toUInt32.toBitVec.toInt = x.toNat
  have hword : x.toUInt32.toBitVec.toNat = x.toNat := UInt8.toNat_toUInt32 x
  split at hvalue <;> omega

/-- Recentering and widening subtracts 128 from the widened byte. -/
theorem widen_recenter (x : UInt8) :
    Activation.widen (recenter x) = Activation.widen x - 128 := by
  have hx : x.toNat < 256 := x.toNat_lt
  have hwide := toInt_widen x
  have hconstant : (128 : Int32).toInt = 128 := rfl
  have hdifference : (Activation.widen x - 128).toInt = (x.toNat : Int) - 128 := by
    rw [toInt_sub_of_le (by omega) (by omega)]
    omega
  apply Int32.toInt_inj.mp
  rw [hdifference, ← toInt_recenter x]
  exact Int8.toInt_toInt32 (recenter x)

/-- Narrowing changes nothing inside the element type. -/
theorem widen_narrow {α : Type} [Activation α] {element : ElementType} (h : Represents α element)
    {v : Int32} (hv : element.Holds v) : Activation.widen (Activation.narrow v : α) = v := by
  obtain ⟨x, hnarrow, hwiden⟩ := h.inside v hv
  unfold Activation.narrow? at hnarrow
  split at hnarrow
  · cases hnarrow
    exact hwiden
  · cases hnarrow

section Output

variable {layer : Layer} (hoffset : -2147483648 + 128 ≤ layer.outputOffset.toInt)
  (hlowest : 0 ≤ layer.activation.lowest.toInt ∧ layer.activation.lowest.toInt ≤ 255)
  (hhighest : 0 ≤ layer.activation.highest.toInt ∧ layer.activation.highest.toInt ≤ 255)

include hlowest hhighest

/-- Outputs in a range of unsigned values are unsigned values, also where the bounds cross. -/
theorem requantize_holds (scale : FixedScale) (acc : Int32) :
    ElementType.u8.Holds (requantize scale layer.outputOffset layer.activation acc) := by
  change 0 ≤ Int32.toInt _ ∧ Int32.toInt _ ≤ 255
  rw [toInt_requantize]
  omega

include hoffset

/-- Requantization moves with the zero point of the output. Where the saturating sum stops short on
one side, the clamp has both results at the same bound. -/
theorem requantize_recentered (scale : FixedScale) (acc : Int32) :
    requantize scale layer.recentered.outputOffset layer.recentered.activation acc =
      requantize scale layer.outputOffset layer.activation acc - 128 := by
  have hconstant : (128 : Int32).toInt = 128 := rfl
  have hoffset' : (layer.outputOffset - 128).toInt = layer.outputOffset.toInt - 128 := by
    have hbound := layer.outputOffset.toInt_lt
    rw [toInt_sub_of_le (by omega) (by omega), hconstant]
  have hlowest' : (layer.activation.lowest - 128).toInt = layer.activation.lowest.toInt - 128 := by
    rw [toInt_sub_of_le (by omega) (by omega), hconstant]
  have hhighest' : (layer.activation.highest - 128).toInt =
      layer.activation.highest.toInt - 128 := by
    rw [toInt_sub_of_le (by omega) (by omega), hconstant]
  obtain ⟨hlow, hhigh⟩ := requantize_holds hlowest hhighest scale acc
  apply Int32.toInt_inj.mp
  rw [toInt_sub_of_le (by omega) (by omega), toInt_requantize, toInt_requantize, hconstant]
  simp only [Layer.recentered]
  rw [hoffset', hlowest', hhighest']
  omega

/-- Moving all zero points by 128 is a recoding of unsigned activations. -/
theorem recoding_recenter : Recoding recenter layer layer.recentered where
  height := rfl
  width := rfl
  input x := by
    rw [widen_recenter, Layer.recentered]
    grind
  output scale acc := by
    have hholds := requantize_holds hlowest hhighest scale acc
    have hmoved := requantize_recentered hoffset hlowest hhighest scale acc
    have hconstant : (128 : Int32).toInt = 128 := rfl
    have hsigned : ElementType.i8.Holds
        (requantize scale layer.outputOffset layer.activation acc - 128) := by
      obtain ⟨hlow, hhigh⟩ := hholds
      change -128 ≤ Int32.toInt _ ∧ Int32.toInt _ ≤ 127
      rw [toInt_sub_of_le (by omega) (by omega)]
      omega
    -- both sides widen to the same integer
    have hwiden : Activation.widen (Activation.narrow
          (requantize scale layer.outputOffset layer.activation acc - 128) : Int8) =
        Activation.widen (recenter (Activation.narrow
          (requantize scale layer.outputOffset layer.activation acc))) := by
      rw [widen_recenter, widen_narrow represents_int8 hsigned,
        widen_narrow represents_uint8 hholds]
    rw [hmoved]
    apply Int8.toInt_inj.mp
    rw [← Int8.toInt_toInt32, ← Int8.toInt_toInt32]
    exact congrArg Int32.toInt hwiden

end Output

/-- **Kernels do not see where the zero point is.** A call on unsigned activations and the call with
inputs, outputs, bounds and zero points moved down by 128 end in the same way, with the same refusal or
the same fault, and leave the same array but for the move. The range is one of unsigned values, in
either order, and the output offset can be moved; the input offset may wrap. -/
theorem kernels_recenter (layer : Layer) (multiplier : UInt64) (operands : Operands UInt8)
    (output : Tensor UInt8) (limit : Nat)
    (hoffset : -2147483648 + 128 ≤ layer.outputOffset.toInt)
    (hlowest : 0 ≤ layer.activation.lowest.toInt ∧ layer.activation.lowest.toInt ≤ 255)
    (hhighest : 0 ≤ layer.activation.highest.toInt ∧ layer.activation.highest.toInt ≤ 255) :
    Dense.convolve layer.recentered (operands.map recenter) (output.map recenter) =
        (Dense.convolve layer operands output).map recenter ∧
      Patches.convolve layer.recentered (operands.map recenter) (output.map recenter) limit =
        (Patches.convolve layer operands output limit).map recenter ∧
      Depthwise.convolve ⟨layer.recentered, multiplier⟩ (operands.map recenter)
          (output.map recenter) =
        (Depthwise.convolve ⟨layer, multiplier⟩ operands output).map recenter := by
  have h := recoding_recenter hoffset hlowest hhighest
  exact ⟨Dense.convolve_map h operands output, Patches.convolve_map h operands output limit,
    Depthwise.convolve_map h operands output⟩

/-- A layer with offsets as far out as they can be moved. -/
def edgeLayer : Layer :=
  { width := { padding := 1 }, inputOffset := 2147483519, outputOffset := -2147483520,
    activation := ⟨3, 250⟩ }

/-- Two inputs, of which the first wraps when the offset is added. -/
def edgeOperands : Operands UInt8 where
  input := ⟨.nhwc 1 1 2 1, #[200, 7]⟩
  filter := ⟨.nhwc 1 1 1 1, #[-1]⟩
  bias := none
  scales := ⟨#[1073741824], #[1]⟩

/-- The same inputs, with a filter that has no batch. -/
def edgeBatchless : Operands UInt8 := { edgeOperands with filter := ⟨.nhwc 0 1 1 1, #[]⟩ }

/-- An output with an element to spare. -/
def edgeOutput : Tensor UInt8 := ⟨.nhwc 1 1 3 1, #[9, 9, 9, 255]⟩

/-- A call whose middle element saturates on the way to `127`, and a depthwise call that stops behind
its first element. -/
theorem kernels_recenter_at_edges :
    (Dense.convolve edgeLayer edgeOperands edgeOutput = ⟨#[3, 127, 3, 255], .ok ()⟩ ∧
        Dense.convolve edgeLayer.recentered (edgeOperands.map recenter) (edgeOutput.map recenter) =
          ⟨#[-125, -1, -125, 127], .ok ()⟩) ∧
      Depthwise.convolve ⟨edgeLayer, 1⟩ edgeBatchless edgeOutput =
          .faulted #[3, 9, 9, 255] (.index 0 0) ∧
        Depthwise.convolve ⟨edgeLayer.recentered, 1⟩ (edgeBatchless.map recenter)
            (edgeOutput.map recenter) =
          .faulted #[-125, -119, -119, 127] (.index 0 0) := by
  have hoffset : -2147483648 + 128 ≤ edgeLayer.outputOffset.toInt := by decide
  have hlowest : 0 ≤ edgeLayer.activation.lowest.toInt ∧
      edgeLayer.activation.lowest.toInt ≤ 255 := by decide
  have hhighest : 0 ≤ edgeLayer.activation.highest.toInt ∧
      edgeLayer.activation.highest.toInt ≤ 255 := by decide
  obtain ⟨hdense, -, -⟩ :=
    kernels_recenter edgeLayer 1 edgeOperands edgeOutput 0 hoffset hlowest hhighest
  obtain ⟨-, -, hdepthwise⟩ :=
    kernels_recenter edgeLayer 1 edgeBatchless edgeOutput 0 hoffset hlowest hhighest
  have hwritten : Dense.convolve edgeLayer edgeOperands edgeOutput =
      ⟨#[3, 127, 3, 255], .ok ()⟩ := rfl
  have hstopped : Depthwise.convolve ⟨edgeLayer, 1⟩ edgeBatchless edgeOutput =
      .faulted #[3, 9, 9, 255] (.index 0 0) := rfl
  have hmoved : #[3, 127, 3, 255].map recenter = #[-125, -1, -125, 127] ∧
      #[3, 9, 9, 255].map recenter = #[-125, -119, -119, 127] := by
    simp only [List.map_toArray, List.map_cons, List.map_nil]
    decide
  rw [hdense, hdepthwise, hwritten, hstopped]
  simp only [Outcome.map, Outcome.faulted, hmoved, and_self]

end QuantizedConv
