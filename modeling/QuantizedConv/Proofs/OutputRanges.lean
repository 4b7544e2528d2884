import QuantizedConv.Proofs.ZeroPoint

/-!
# Outputs respect the activation range

Whatever the accumulator is, and however it wrapped, the last two steps of an output element are a
clamp to the activation range and a saturating narrowing. Over the integers both are compositions of
minima and maxima (`toInt_requantize`, `Saturates`), so a narrowed output lies between the narrowed
bounds, and is the narrowed lower bound where the bounds cross (`bounds_narrow_requantize`). All three
kernels end every element of their output in this way (`Activates`): a call that ends well has written
all of them, and left none of the old ones in front.
-/

set_option autoImplicit false

namespace QuantizedConv

section Elements

variable {α : Type} [Activation α]

/-- Narrowing takes a 32-bit integer to the nearest activation. -/
def Saturates (α : Type) [Activation α] : Prop :=
  ∀ v, (Activation.widen (Activation.narrow v : α)).toInt =
    min (max v.toInt (Activation.lowest α).toInt) (Activation.highest α).toInt

/-- Clamping 32-bit integers is clamping over the integers. -/
theorem toInt_clamped (v lowest highest : Int32) :
    (min (max v lowest) highest).toInt = min (max v.toInt lowest.toInt) highest.toInt := by
  rw [toInt_min, toInt_max]

/-- Clamping twice to one range is clamping once. -/
theorem clamped_clamped {v lowest highest : Int32} (h : lowest ≤ highest) :
    min (max (min (max v lowest) highest) lowest) highest = min (max v lowest) highest := by
  rw [Int32.le_iff_toInt_le] at h
  apply clamp_eq
  · rw [Int32.le_iff_toInt_le, toInt_clamped]
    omega
  · rw [Int32.le_iff_toInt_le, toInt_clamped]
    omega

/-- Activations that represent the integers of their range, with a narrowing that clamps to it. -/
theorem Represents.saturates {element : ElementType} (h : Represents α element)
    (hholds : ∀ v, element.Holds (min (max v (Activation.lowest α)) (Activation.highest α)))
    (hclamps : ∀ v, (Activation.narrow (min (max v (Activation.lowest α)) (Activation.highest α)) :
      α) = Activation.narrow v) : Saturates α := by
  intro v
  rw [← hclamps v, widen_narrow h (hholds v), toInt_clamped]

/-- Narrowing to signed activations saturates. -/
theorem saturates_int8 : Saturates Int8 := by
  apply represents_int8.saturates
  · intro v
    have hlowest : (Activation.lowest Int8).toInt = -128 := rfl
    have hhighest : (Activation.highest Int8).toInt = 127 := rfl
    simp only [ElementType.Holds, toInt_clamped]
    omega
  · intro v
    exact congrArg Int32.toInt8 (clamped_clamped (by decide))

/-- Narrowing to unsigned activations saturates. -/
theorem saturates_uint8 : Saturates UInt8 := by
  apply represents_uint8.saturates
  · intro v
    have hlowest : (Activation.lowest UInt8).toInt = 0 := rfl
    have hhighest : (Activation.highest UInt8).toInt = 255 := rfl
    simp only [ElementType.Holds, toInt_clamped]
    omega
  · intro v
    exact congrArg (fun w : Int32 => w.toUInt32.toUInt8) (clamped_clamped (by decide))

/-- What an activation range says about an activation: it lies between the narrowed bounds, or is the
narrowed lower bound if the bounds cross; and it lies in the range if the bounds are activations. -/
structure ActivationRange.Bounds (range : ActivationRange) (x : α) : Prop where
  between : range.lowest ≤ range.highest →
    Activation.widen (Activation.narrow range.lowest : α) ≤ Activation.widen x ∧
      Activation.widen x ≤ Activation.widen (Activation.narrow range.highest : α)
  pinned : range.highest < range.lowest → x = Activation.narrow range.lowest
  inside : range.lowest ≤ range.highest → Activation.lowest α ≤ range.lowest →
    range.highest ≤ Activation.highest α →
    range.lowest ≤ Activation.widen x ∧ Activation.widen x ≤ range.highest

/-- Requantization ends in the range, or at its lower bound if the bounds cross. -/
theorem requantize_bounds (scale : FixedScale) (outputOffset : Int32) (range : ActivationRange)
    (acc : Int32) :
    (range.lowest.toInt ≤ range.highest.toInt →
        range.lowest.toInt ≤ (requantize scale outputOffset range acc).toInt ∧
          (requantize scale outputOffset range acc).toInt ≤ range.highest.toInt) ∧
      (range.highest.toInt < range.lowest.toInt →
        requantize scale outputOffset range acc = range.lowest) := by
  constructor
  · intro h
    rw [toInt_requantize]
    omega
  · intro h
    rw [← Int32.toInt_inj, toInt_requantize]
    omega

/-- An activation lies between the bounds of its range, whatever was accumulated. -/
theorem bounds_narrow_requantize (hα : Saturates α) (scale : FixedScale) (outputOffset : Int32)
    (range : ActivationRange) (acc : Int32) :
    range.Bounds (Activation.narrow (requantize scale outputOffset range acc) : α) := by
  obtain ⟨hordered, hcrossed⟩ := requantize_bounds scale outputOffset range acc
  constructor
  · intro h
    have hrange := hordered (Int32.le_iff_toInt_le.mp h)
    simp only [Int32.le_iff_toInt_le, hα _]
    omega
  · intro h
    rw [hcrossed (Int32.lt_iff_toInt_lt.mp h)]
  · intro h hlowest hhighest
    have hrange := hordered (Int32.le_iff_toInt_le.mp h)
    simp only [Int32.le_iff_toInt_le, hα _] at hlowest hhighest ⊢
    omega

end Elements

/-- In every call that ends well, the elements of the output respect the range. -/
def KeepsRange {α : Type} [Activation α] (range : ActivationRange)
    (call : Operands α → Tensor α → Outcome α) : Prop :=
  ∀ operands output, (call operands output).ending = .ok () →
    ∃ n, output.shape.count? = some n ∧
      ∀ i < n, ∃ x, (call operands output).buffer[i]? = some x ∧ range.Bounds x

/-- In every call that ends well, the elements of the output are the activations of some sums. -/
def Activates {α : Type} [Activation α] (layer : Layer)
    (call : Operands α → Tensor α → Outcome α) : Prop :=
  ∀ operands output, (call operands output).ending = .ok () →
    ∃ (extents : Nhwc) (sum : Coordinate → Int),
      Nhwc.ofShape? output.shape = some extents ∧ extents.Countable ∧
        Filled extents (fun t => operands.activation layer t.channel (sum t)) output.data
          extents.size (call operands output).buffer

section Kernels

variable {α : Type} [Activation α]

/-- A kernel whose outputs are activations of sums keeps the range of its layer. -/
theorem Activates.keepsRange {layer : Layer} {call : Operands α → Tensor α → Outcome α}
    (h : Activates layer call) (hα : Saturates α) : KeepsRange layer.activation call := by
  intro operands output hok
  obtain ⟨extents, sum, hshape, hcount, hfilled⟩ := h operands output hok
  refine ⟨extents.size, (Shape.count?_eq_some_iff hshape).mpr ⟨hcount, rfl⟩, ?_⟩
  intro i hi
  exact ⟨_, hfilled.done i hi, bounds_narrow_requantize hα _ _ _ _⟩

/-- The outputs of dense convolution are activations of sums. -/
theorem Dense.activates (layer : Layer) : Activates (α := α) layer (Dense.convolve layer) := by
  intro operands output hok
  rcases Dense.convolve_cases layer operands output with
    ⟨refusal, -, hcall⟩ | ⟨e, h, buffer, hcall, hfilled⟩
  · rw [hcall] at hok
    cases hok
  · rw [hcall]
    exact ⟨e.output, _, h.output, h.outputCount, hfilled⟩

/-- The outputs of dense convolution through the patch matrix are activations of sums. -/
theorem Patches.activates (layer : Layer) (limit : Nat) :
    Activates (α := α) layer fun operands output => Patches.convolve layer operands output limit := by
  intro operands output hok
  rcases Patches.convolve_cases layer operands output limit with
    ⟨refusal, -, hcall⟩ | ⟨e, h, buffer, hcall, hfilled⟩
  · simp only [hcall] at hok
    cases hok
  · simp only [hcall]
    exact ⟨e.output, _, h.output, h.outputCount, hfilled⟩

/-- The outputs of depthwise convolution are activations of sums. -/
theorem Depthwise.activates (layer : DepthwiseLayer) :
    Activates (α := α) layer.toLayer (Depthwise.convolve layer) := by
  intro operands output hok
  rcases Depthwise.convolve_cases layer operands output with ⟨refusal, -, hcall⟩ |
      ⟨e, hcheck, -, buffer, hcall, hfilled⟩ | ⟨e, -, -, buffer, fault, hcall⟩
  · rw [hcall] at hok
    cases hok
  · obtain ⟨h, -⟩ := Depthwise.check_eq_ok_iff.mp hcheck
    rw [hcall]
    exact ⟨e.output, _, h.output, h.outputCount, hfilled⟩
  · rw [hcall] at hok
    cases hok

end Kernels

/-- **Kernel outputs respect the activation range.** In every call of a kernel that ends well, on
signed or on unsigned activations, every element of the output lies between the narrowed bounds of the
range, or is the narrowed lower bound if the bounds cross, whatever the operands, scales and offsets
are and wherever the accumulators wrap. -/
theorem kernels_keep_range (layer : Layer) (depthwise : DepthwiseLayer) (limit : Nat) :
    (KeepsRange (α := Int8) layer.activation (Dense.convolve layer) ∧
        KeepsRange (α := Int8) layer.activation
          (fun operands output => Patches.convolve layer operands output limit) ∧
        KeepsRange (α := Int8) depthwise.activation (Depthwise.convolve depthwise)) ∧
      KeepsRange (α := UInt8) layer.activation (Dense.convolve layer) ∧
        KeepsRange (α := UInt8) layer.activation
          (fun operands output => Patches.convolve layer operands output limit) ∧
        KeepsRange (α := UInt8) depthwise.activation (Depthwise.convolve depthwise) := by
  refine ⟨⟨?_, ?_, ?_⟩, ?_, ?_, ?_⟩
  · exact (Dense.activates layer).keepsRange saturates_int8
  · exact (Patches.activates layer limit).keepsRange saturates_int8
  · exact (Depthwise.activates depthwise).keepsRange saturates_int8
  · exact (Dense.activates layer).keepsRange saturates_uint8
  · exact (Patches.activates layer limit).keepsRange saturates_uint8
  · exact (Depthwise.activates depthwise).keepsRange saturates_uint8

/-- A layer whose bounds cross, both above all signed activations. -/
def crossedLayer : Layer := { activation := ⟨300, 200⟩ }

/-- Operands of a single product. -/
def singleProduct : Operands Int8 where
  input := ⟨.nhwc 1 1 1 1, #[5]⟩
  filter := ⟨.nhwc 1 1 1 1, #[-3]⟩
  bias := none
  scales := ⟨#[1], #[0]⟩

/-- With crossed bounds above all signed activations, the output is the greatest one. -/
theorem kernels_keep_range_crossed :
    (Dense.convolve crossedLayer singleProduct ⟨.nhwc 1 1 1 1, #[9, 9]⟩).ending = .ok () ∧
      (Dense.convolve crossedLayer singleProduct ⟨.nhwc 1 1 1 1, #[9, 9]⟩).buffer[0]? =
        some (127 : Int8) := by
  have hok : (Dense.convolve crossedLayer singleProduct ⟨.nhwc 1 1 1 1, #[9, 9]⟩).ending =
      .ok () := by decide
  obtain ⟨⟨hdense, -, -⟩, -⟩ := kernels_keep_range crossedLayer {} 0
  obtain ⟨n, hn, helements⟩ := hdense singleProduct ⟨.nhwc 1 1 1 1, #[9, 9]⟩ hok
  cases hn
  obtain ⟨x, hx, hbounds⟩ := helements 0 (by decide)
  refine ⟨hok, ?_⟩
  rw [hx, hbounds.pinned (by decide)]
  rfl

end QuantizedConv
