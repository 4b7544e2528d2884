import QuantizedConv.Proofs.Faults
import QuantizedConv.Proofs.Requirements
import Mathlib.Algebra.BigOperators.Ring.List
import Mathlib.Algebra.Order.BigOperators.Group.List
import Mathlib.Data.List.TakeWhile

/-!
# Which shapes can be counted

The elements of a shape are counted by a running product from the outermost dimension, which must stay
a size at every step. The largest product on the way is that of the dimensions in front of the first
zero (`leadingProduct_le`), so that is the number that decides (`count?_eq_ite`). A shape without a zero
is counted exactly when its number of elements is a size. A shape with a zero has no elements, and yet
it is not counted where the dimensions in front of the zero already leave the sizes
(`OverflowsBeforeZero`): these are the shapes for which the count is not the exact one, and whose count
depends on the order of the dimensions.

For the kernels, a refusal for the size of a tensor has its reason in the shape of that tensor
(`Refusal.Justified`, carried through the checks by `RefusesJustly.bind`). So a tensor without elements
whose shape is counted is never the reason, however short its array, and an output without elements is
left as it was.
-/

set_option autoImplicit false

namespace QuantizedConv

namespace Shape

/-- The product of the dimensions in front of the first zero. -/
def productBeforeZero (s : Shape) : Nat :=
  ((s.dims.takeWhile (· ≠ 0)).map UInt64.toNat).prod

/-- The product of all dimensions but the zeros. -/
def nonzeroProduct (s : Shape) : Nat :=
  ((s.dims.filter (· ≠ 0)).map UInt64.toNat).prod

/-- The number of elements, where it is a size. -/
def exactCount? (s : Shape) : Option Nat :=
  if s.product < Checked.sizeBound then some s.product else none

/-- A shape has no elements, and the dimensions in front of the first zero leave the sizes. -/
structure OverflowsBeforeZero (s : Shape) : Prop where
  zero : 0 ∈ s.dims
  overflow : Checked.sizeBound ≤ s.productBeforeZero

/-- Leaving out dimensions that are not zero makes no product larger. -/
theorem product_le_of_sublist {few dims : List UInt64} (h : few.Sublist dims)
    (hnonzero : ∀ d ∈ dims, d ≠ 0) :
    (few.map UInt64.toNat).prod ≤ (dims.map UInt64.toNat).prod := by
  apply (h.map UInt64.toNat).prod_le_prod'
  intro n hn
  obtain ⟨d, hd, rfl⟩ := List.mem_map.mp hn
  apply Nat.one_le_iff_ne_zero.mpr
  intro hzero
  exact hnonzero d hd (UInt64.toNat_inj.mp hzero)

/-- A zero among the dimensions makes the product zero. -/
theorem product_eq_zero_of_mem {dims : List UInt64} (h : 0 ∈ dims) :
    (dims.map UInt64.toNat).prod = 0 :=
  List.prod_eq_zero (List.mem_map.mpr ⟨0, h, rfl⟩)

/-- The dimensions in front of the first zero are not zero. -/
theorem ne_zero_of_mem_takeWhile {dims : List UInt64} {d : UInt64}
    (h : d ∈ dims.takeWhile (· ≠ 0)) : d ≠ 0 := by
  simpa using List.mem_takeWhile_imp h

/-- Without a zero, all dimensions are in front of the first one. -/
theorem takeWhile_of_nonzero {dims : List UInt64} (h : 0 ∉ dims) :
    dims.takeWhile (· ≠ 0) = dims := by
  rw [List.takeWhile_eq_self_iff]
  intro d hd
  apply decide_eq_true
  rintro rfl
  exact h hd

variable (s : Shape)

/-- No product on the way is larger than that of the dimensions in front of the first zero. -/
theorem leadingProduct_le (axes : Nat) : s.leadingProduct axes ≤ s.productBeforeZero := by
  unfold leadingProduct productBeforeZero
  by_cases hzero : 0 ∈ s.dims.take axes
  · rw [product_eq_zero_of_mem hzero]
    exact Nat.zero_le _
  · -- the dimensions that were taken all stand in front of the zero
    rw [← takeWhile_of_nonzero hzero, ← List.take_takeWhile]
    apply product_le_of_sublist (List.take_sublist _ _)
    intro d hd
    exact ne_zero_of_mem_takeWhile hd

/-- A shape can be counted exactly when the product in front of the first zero is a size. -/
theorem countable_iff : s.Countable ↔ s.productBeforeZero < Checked.sizeBound := by
  constructor
  · intro h
    have hprefix := List.takeWhile_prefix (l := s.dims) (· ≠ 0)
    have hlast := h _ hprefix.length_le
    rwa [leadingProduct, ← List.prefix_iff_eq_take.mp hprefix] at hlast
  · intro h axes _
    exact (s.leadingProduct_le axes).trans_lt h

/-- The number of elements is the product of the dimensions. -/
theorem product_eq : s.product = (s.dims.map UInt64.toNat).prod := by
  rw [product, leadingProduct, rank, List.take_length]

/-- The count of a shape of any rank, over the naturals. -/
theorem count?_eq_ite :
    s.count? = if s.productBeforeZero < Checked.sizeBound then some s.product else none := by
  split
  · rename_i h
    exact count?_eq_some_iff_product.mpr ⟨s.countable_iff.mpr h, rfl⟩
  · rename_i h
    exact count?_eq_none (mt s.countable_iff.mp h)

variable {s}

/-- A shape with a zero is counted as empty, unless the dimensions in front of the zero leave the
sizes. -/
theorem count?_of_zero (hzero : 0 ∈ s.dims) :
    s.count? = if s.productBeforeZero < Checked.sizeBound then some 0 else none := by
  rw [count?_eq_ite, product_eq, product_eq_zero_of_mem hzero]

/-- A shape with a zero dimension is counted, unless it overflows in front of it. -/
theorem count?_eq_zero (hzero : 0 ∈ s.dims) (h : ¬s.OverflowsBeforeZero) : s.count? = some 0 := by
  rw [count?_of_zero hzero, if_pos]
  apply Nat.lt_of_not_le
  intro hoverflow
  exact h ⟨hzero, hoverflow⟩

/-- A shape that overflows before its zero is not counted. -/
theorem OverflowsBeforeZero.count? (h : s.OverflowsBeforeZero) : s.count? = none := by
  rw [count?_of_zero h.zero, if_neg (Nat.not_lt_of_le h.overflow)]

/-- A shape without a zero is counted exactly. -/
theorem count?_of_nonzero (hzero : 0 ∉ s.dims) : s.count? = s.exactCount? := by
  rw [count?_eq_ite, exactCount?, product_eq, productBeforeZero, takeWhile_of_nonzero hzero]

/-- The count is the exact one, unless the shape overflows in front of a zero. -/
theorem count?_eq_exactCount?_iff : s.count? = s.exactCount? ↔ ¬s.OverflowsBeforeZero := by
  by_cases hzero : 0 ∈ s.dims
  · have hexact : s.exactCount? = some 0 := by
      rw [exactCount?, product_eq, product_eq_zero_of_mem hzero]
      rfl
    rw [hexact]
    constructor
    · intro hcount hoverflow
      rw [hoverflow.count?] at hcount
      cases hcount
    · exact count?_eq_zero hzero
  · constructor
    · intro _ hoverflow
      exact hzero hoverflow.zero
    · intro _
      exact count?_of_nonzero hzero

/-- The product in front of the first zero is at most that of all dimensions but the zeros. -/
theorem productBeforeZero_le_nonzeroProduct : s.productBeforeZero ≤ s.nonzeroProduct := by
  have hfilter : (s.dims.takeWhile (· ≠ 0)).filter (· ≠ 0) = s.dims.takeWhile (· ≠ 0) := by
    rw [List.filter_eq_self]
    intro d hd
    exact decide_eq_true (ne_zero_of_mem_takeWhile hd)
  unfold productBeforeZero nonzeroProduct
  rw [← hfilter]
  apply product_le_of_sublist ((List.takeWhile_sublist _).filter _)
  intro d hd
  exact of_decide_eq_true (List.mem_filter.mp hd).2

/-- With all zeros behind the other dimensions, the running product takes in all that is not zero. -/
theorem productBeforeZero_of_zeros_last (dims : List UInt64) :
    productBeforeZero ⟨dims.filter (· ≠ 0) ++ dims.filter (fun d => !decide (d ≠ 0))⟩ =
      nonzeroProduct ⟨dims⟩ := by
  have hfront : ∀ d ∈ dims.filter (· ≠ 0), decide (d ≠ 0) = true := by
    intro d hd
    exact (List.mem_filter.mp hd).2
  have hback : (dims.filter (fun d => !decide (d ≠ 0))).takeWhile (· ≠ 0) = [] := by
    rw [List.takeWhile_eq_nil_iff]
    intro hlength hnonzero
    have hzero := (List.mem_filter.mp (List.getElem_mem hlength)).2
    rw [List.get_eq_getElem] at hnonzero
    rw [hnonzero] at hzero
    cases hzero
  simp only [productBeforeZero, nonzeroProduct]
  rw [List.takeWhile_append_of_pos hfront, hback, List.append_nil]

/-- The count does not depend on the order of the dimensions exactly when there is no zero among them,
or the others cannot overflow in any order. -/
theorem count?_perm_iff :
    (∀ t : Shape, t.dims.Perm s.dims → t.count? = s.count?) ↔
      (0 ∈ s.dims → s.nonzeroProduct < Checked.sizeBound) := by
  constructor
  · intro h hzero
    -- with the zero in front nothing overflows, and with all zeros behind everything can
    have hfirst := h ⟨0 :: s.dims.erase 0⟩ (List.perm_cons_erase hzero).symm
    have hlast := h ⟨s.dims.filter (· ≠ 0) ++ s.dims.filter (fun d => !decide (d ≠ 0))⟩
      (List.filter_append_perm _ _)
    have hcount : count? ⟨0 :: s.dims.erase 0⟩ = some 0 := by
      apply count?_eq_zero List.mem_cons_self
      intro hoverflow
      exact absurd hoverflow.overflow (by simp [productBeforeZero, Checked.sizeBound])
    rw [← hfirst, hcount, count?_eq_ite, productBeforeZero_of_zeros_last] at hlast
    split at hlast
    · assumption
    · cases hlast
  · intro h t hperm
    by_cases hzero : 0 ∈ s.dims
    · have hproduct : t.nonzeroProduct = s.nonzeroProduct :=
        ((hperm.filter _).map _).prod_eq
      have ht : t.productBeforeZero < Checked.sizeBound := by
        have hle := productBeforeZero_le_nonzeroProduct (s := t)
        rw [hproduct] at hle
        exact hle.trans_lt (h hzero)
      have hs := productBeforeZero_le_nonzeroProduct.trans_lt (h hzero)
      rw [count?_of_zero hzero, count?_of_zero (hperm.mem_iff.mpr hzero), if_pos ht, if_pos hs]
    · rw [count?_of_nonzero hzero, count?_of_nonzero (mt hperm.mem_iff.mp hzero), exactCount?,
        exactCount?, product_eq, product_eq, (hperm.map _).prod_eq]

end Shape

/-- The shape of each tensor of a call; there may be no bias. -/
def Operands.shapeOf {α : Type} (operands : Operands α) (outputShape : Shape) :
    Operand → Option Shape
  | .input => some operands.input.shape
  | .filter => some operands.filter.shape
  | .bias => operands.bias.map Tensor.shape
  | .output => some outputShape

/-- A refusal for the size of a tensor has its reason in the shape of the tensor: it cannot be counted,
or has more elements than there are. -/
def Refusal.Justified (shapes : Operand → Option Shape) : Refusal → Prop
  | .shapeOverflow operand => ∃ shape, shapes operand = some shape ∧ shape.count? = none
  | .shortBuffer operand needed actual =>
      ∃ shape, shapes operand = some shape ∧ shape.count? = some needed ∧ actual < needed
  | _ => True

/-- All refusals of a computation have their reason. -/
def RefusesJustly {β : Type} (shapes : Operand → Option Shape) (result : Except Refusal β) : Prop :=
  ∀ refusal, result = .error refusal → refusal.Justified shapes

section Checks

variable {α β γ : Type} {shapes : Operand → Option Shape}

/-- A check that accepts refuses nothing. -/
theorem RefusesJustly.ok (value : β) : RefusesJustly shapes (.ok value : Except Refusal β) := by
  intro refusal h
  cases h

/-- A refusal that has its reason is just. -/
theorem RefusesJustly.error {refusal : Refusal} (h : refusal.Justified shapes) :
    RefusesJustly shapes (.error refusal : Except Refusal β) := by
  intro other hother
  cases hother
  exact h

/-- A sequence of checks refuses justly where each of them does. -/
theorem RefusesJustly.bind {first : Except Refusal β} {second : β → Except Refusal γ}
    (hfirst : RefusesJustly shapes first)
    (hsecond : ∀ value, first = .ok value → RefusesJustly shapes (second value)) :
    RefusesJustly shapes (first >>= second) := by
  cases first with
  | error refusal => exact .error (hfirst refusal rfl)
  | ok value => exact hsecond value rfl

namespace Contract

/-- The check of the rank blames no size. -/
theorem extents_refusesJustly (operand : Operand) (shape : Shape) :
    RefusesJustly shapes (extents operand shape) := by
  unfold extents
  split
  · exact .ok _
  · exact .error trivial

/-- The check of two numbers that must agree blames no size. -/
theorem equal_refusesJustly (relation : Relation) (left right : Nat) :
    RefusesJustly shapes (equal relation left right) := by
  unfold equal
  split
  · exact .ok _
  · exact .error trivial

/-- A shape that is not counted is refused for its own size. -/
theorem count_refusesJustly {operand : Operand} {shape : Shape}
    (h : shapes operand = some shape) : RefusesJustly shapes (count operand shape) := by
  unfold count
  split
  · exact .ok _
  · rename_i hnone
    exact .error ⟨shape, h, hnone⟩

/-- A tensor is refused for its own size, or for an array that is too short for it. -/
theorem filled_refusesJustly {operand : Operand} {tensor : Tensor α}
    (h : shapes operand = some tensor.shape) : RefusesJustly shapes (filled operand tensor) := by
  apply (count_refusesJustly h).bind
  intro needed hneeded
  split
  · rename_i hshort
    exact .error ⟨tensor.shape, h, count_eq_ok_iff.mp hneeded, hshort⟩
  · exact .ok _

/-- A bias is refused for its own size only. -/
theorem biasFits_refusesJustly {bias : Option (Tensor Int32)}
    (h : shapes .bias = bias.map Tensor.shape) (channels : Nat) :
    RefusesJustly shapes (biasFits bias channels) := by
  cases bias with
  | none => exact .ok _
  | some tensor =>
    apply (count_refusesJustly h).bind
    intro n _
    apply (equal_refusesJustly _ _ _).bind
    intro _ _
    exact filled_refusesJustly h

/-- The check of the scales blames no size of a tensor. -/
theorem scalesFit_refusesJustly (scales : ChannelScales) (channels : Nat) :
    RefusesJustly shapes (scalesFit scales channels) := by
  unfold scalesFit
  split
  · exact .error trivial
  · split
    · exact .error trivial
    · exact .ok _

/-- The check of the windows blames no size of a tensor. -/
theorem windowFits_refusesJustly (axis : Axis) (output filter : Nat) :
    RefusesJustly shapes (windowFits axis output filter) := by
  unfold windowFits
  split
  · split
    · exact .ok _
    · exact .error trivial
  · exact .error trivial

/-- The check of the channel groups blames no size of a tensor. -/
theorem groupsFit_refusesJustly (depthMultiplier input output : Nat) :
    RefusesJustly shapes (groupsFit depthMultiplier input output) := by
  unfold groupsFit
  split
  · exact equal_refusesJustly _ _ _
  · exact .error trivial

variable (operands : Operands α) (outputShape : Shape)

/-- The check of the three ranks blames no size. -/
theorem callExtents_refusesJustly : RefusesJustly shapes (callExtents operands outputShape) := by
  apply (extents_refusesJustly _ _).bind
  intro _ _
  apply (extents_refusesJustly _ _).bind
  intro _ _
  apply (extents_refusesJustly _ _).bind
  intro _ _
  exact .ok _

/-- The checks that all kernels share refuse a size for the shape of its tensor only. -/
theorem operandsFit_refusesJustly (layer : Layer) (e : CallExtents) :
    RefusesJustly (operands.shapeOf outputShape) (operandsFit layer operands outputShape e) := by
  apply (biasFits_refusesJustly rfl _).bind
  intro _ _
  apply (scalesFit_refusesJustly _ _).bind
  intro _ _
  apply (filled_refusesJustly rfl).bind
  intro _ _
  apply (filled_refusesJustly rfl).bind
  intro _ _
  apply (count_refusesJustly rfl).bind
  intro _ _
  apply (windowFits_refusesJustly _ _ _).bind
  intro _ _
  exact windowFits_refusesJustly _ _ _

/-- The contract of a dense call refuses a size for the shape of its tensor only. -/
theorem dense_refusesJustly (layer : Layer) :
    RefusesJustly (operands.shapeOf outputShape) (dense layer operands outputShape) := by
  apply (callExtents_refusesJustly operands outputShape).bind
  intro e _
  apply (equal_refusesJustly _ _ _).bind
  intro _ _
  apply (equal_refusesJustly _ _ _).bind
  intro _ _
  apply (equal_refusesJustly _ _ _).bind
  intro _ _
  apply (operandsFit_refusesJustly operands outputShape layer e).bind
  intro _ _
  exact .ok _

/-- The contract of a depthwise call refuses a size for the shape of its tensor only. -/
theorem depthwise_refusesJustly (layer : DepthwiseLayer) :
    RefusesJustly (operands.shapeOf outputShape) (depthwise layer operands outputShape) := by
  apply (callExtents_refusesJustly operands outputShape).bind
  intro e _
  apply (equal_refusesJustly _ _ _).bind
  intro _ _
  apply (groupsFit_refusesJustly _ _ _).bind
  intro _ _
  apply (equal_refusesJustly _ _ _).bind
  intro _ _
  apply (operandsFit_refusesJustly operands outputShape layer.toLayer e).bind
  intro _ _
  exact .ok _

/-- The check of the output array comes behind that of the contract. -/
theorem withOutput_refusesJustly {operands : Operands α} {output : Tensor α}
    {contract : Except Refusal CallExtents}
    (h : RefusesJustly (operands.shapeOf output.shape) contract) :
    RefusesJustly (operands.shapeOf output.shape)
      (do let e ← contract; filled .output output; .ok e) := by
  apply h.bind
  intro e _
  apply (filled_refusesJustly rfl).bind
  intro _ _
  exact .ok _

end Contract

/-- A refusal for the memory of the patch matrix blames no tensor. -/
theorem Patches.scratchFits_refusesJustly (e : CallExtents) (limit : Nat) :
    RefusesJustly shapes (Patches.scratchFits e limit) := by
  unfold Patches.scratchFits
  split
  · exact .error trivial
  · split
    · exact .ok _
    · exact .error trivial

end Checks

/-- A kernel takes a tensor without elements, if its shape is counted, for what it is: no call is
refused for the size of its shape or for the length of its array, and an output without elements is
left as it was. -/
def TakesEmpty {α : Type} (call : Operands α → Tensor α → Outcome α) : Prop :=
  ∀ operands output operand shape, operands.shapeOf output.shape operand = some shape →
    0 ∈ shape.dims → ¬shape.OverflowsBeforeZero →
    (call operands output).ending ≠ .error (.refused (.shapeOverflow operand)) ∧
      (∀ needed actual,
        (call operands output).ending ≠ .error (.refused (.shortBuffer operand needed actual))) ∧
      (operand = .output → (call operands output).buffer = output.data)

section Kernels

variable {α : Type}

/-- An array that was filled with no elements is as it was. -/
theorem Filled.eq_before {output : Nhwc} {result : Coordinate → α} {before buffer : Array α}
    (h : Filled output result before output.size buffer) (hempty : output.size = 0) :
    buffer = before := by
  apply Array.ext_getElem?
  intro i
  exact h.rest i (by omega)

/-- It is enough that every call of a kernel is refused for a reason, or fills its output, or stops at a
fault where the output has an element. -/
theorem takesEmpty_of_endings {call : Operands α → Tensor α → Outcome α}
    (hends : ∀ operands output,
      (∃ refusal, refusal.Justified (operands.shapeOf output.shape) ∧
          call operands output = .refused output.data refusal) ∨
        ∃ e, Nhwc.ofShape? output.shape = some e ∧
          ((∃ result buffer, call operands output = ⟨buffer, .ok ()⟩ ∧
              Filled e result output.data e.size buffer) ∨
            (∃ t, e.Holds t) ∧ ∃ buffer fault, call operands output = .faulted buffer fault)) :
    TakesEmpty call := by
  intro operands output operand shape hshape hzero hcounted
  have hcount := Shape.count?_eq_zero hzero hcounted
  rcases hends operands output with ⟨refusal, hjustified, hcall⟩ | ⟨e, he, hcall⟩
  · rw [hcall]
    refine ⟨?_, ?_, fun _ => rfl⟩
    · intro hrefused
      cases hrefused
      obtain ⟨other, hother, hnone⟩ := hjustified
      rw [hshape] at hother
      cases hother
      rw [hcount] at hnone
      cases hnone
    · intro needed actual hrefused
      cases hrefused
      obtain ⟨other, hother, hneeded, hlt⟩ := hjustified
      rw [hshape] at hother
      cases hother
      rw [hcount] at hneeded
      cases hneeded
      exact Nat.not_lt_zero _ hlt
  · -- such a call is not refused, and it does not write where there is no element
    have hempty (hoperand : operand = .output) : e.size = 0 := by
      subst hoperand
      cases hshape
      obtain ⟨-, -, hproduct⟩ := Shape.of_extents he
      rw [← hproduct, Shape.product_eq, Shape.product_eq_zero_of_mem hzero]
    rcases hcall with ⟨result, buffer, hcall, hfilled⟩ | ⟨⟨t, ht⟩, buffer, fault, hcall⟩
    · rw [hcall]
      refine ⟨by simp, by simp, ?_⟩
      intro hoperand
      exact hfilled.eq_before (hempty hoperand)
    · rw [hcall, Outcome.faulted]
      refine ⟨by simp, by simp, ?_⟩
      intro hoperand
      have hlt := Nhwc.position_lt ht
      rw [hempty hoperand] at hlt
      exact absurd hlt (Nat.not_lt_zero _)

variable [Activation α]

/-- Dense convolution takes tensors without elements for what they are. -/
theorem Dense.takesEmpty (layer : Layer) : TakesEmpty (α := α) (Dense.convolve layer) := by
  apply takesEmpty_of_endings
  intro operands output
  have hjust := Contract.withOutput_refusesJustly
    (Contract.dense_refusesJustly operands output.shape layer)
  rcases Dense.convolve_cases layer operands output with
    ⟨refusal, hcheck, hcall⟩ | ⟨e, h, buffer, hcall, hfilled⟩
  · exact .inl ⟨refusal, hjust refusal hcheck, hcall⟩
  · exact .inr ⟨e.output, h.output, .inl ⟨_, buffer, hcall, hfilled⟩⟩

/-- Dense convolution through the patch matrix takes tensors without elements for what they are. -/
theorem Patches.takesEmpty (layer : Layer) (limit : Nat) :
    TakesEmpty (α := α) fun operands output => Patches.convolve layer operands output limit := by
  apply takesEmpty_of_endings
  intro operands output
  have hjust : RefusesJustly (operands.shapeOf output.shape)
      (Patches.check layer operands output limit) := by
    apply (Contract.withOutput_refusesJustly
      (Contract.dense_refusesJustly operands output.shape layer)).bind
    intro e _
    apply (Patches.scratchFits_refusesJustly e limit).bind
    intro _ _
    exact .ok _
  rcases Patches.convolve_cases layer operands output limit with
    ⟨refusal, hcheck, hcall⟩ | ⟨e, h, buffer, hcall, hfilled⟩
  · exact .inl ⟨refusal, hjust refusal hcheck, hcall⟩
  · exact .inr ⟨e.output, h.output, .inl ⟨_, buffer, hcall, hfilled⟩⟩

/-- Depthwise convolution takes tensors without elements for what they are. -/
theorem Depthwise.takesEmpty (layer : DepthwiseLayer) :
    TakesEmpty (α := α) (Depthwise.convolve layer) := by
  apply takesEmpty_of_endings
  intro operands output
  have hjust := Contract.withOutput_refusesJustly
    (Contract.depthwise_refusesJustly operands output.shape layer)
  rcases Depthwise.convolve_cases layer operands output with ⟨refusal, hcheck, hcall⟩ |
      ⟨e, hcheck, -, buffer, hcall, hfilled⟩ | ⟨e, hcheck, hmissing, hcall⟩
  · exact .inl ⟨refusal, hjust refusal hcheck, hcall⟩
  · obtain ⟨h, -⟩ := Depthwise.check_eq_ok_iff.mp hcheck
    exact .inr ⟨e.output, h.output, .inl ⟨_, buffer, hcall, hfilled⟩⟩
  · obtain ⟨h, -⟩ := Depthwise.check_eq_ok_iff.mp hcheck
    -- the weight that is missing is needed for some element
    obtain ⟨t, ht, -⟩ : ∃ t, e.output.Holds t ∧ ¬Depthwise.WeightedAt layer operands e t := by
      simpa only [not_forall, exists_prop] using (Depthwise.missingWeight_iff h).mp hmissing
    exact .inr ⟨e.output, h.output, .inr ⟨⟨t, ht⟩, hcall⟩⟩

end Kernels

/-- **Shapes are counted exactly, unless they overflow in front of a zero.** For every shape of any
rank, the count is the product of the dimensions where that is a size and nothing otherwise, exactly
when the shape does not overflow in front of a zero. It does not depend on the order of the dimensions
exactly when no order overflows in front of a zero. A shape with a zero dimension is counted as without
elements, and refused as too large where it overflows in front of the zero; in all other calls the
kernels take a tensor with a zero dimension for one without elements. -/
theorem Shape.counted_exactly_iff {α : Type} [Activation α] (s : Shape) (layer : Layer)
    (depthwise : DepthwiseLayer) (limit : Nat) :
    (s.count? = (if s.product < Checked.sizeBound then some s.product else none) ↔
        ¬s.OverflowsBeforeZero) ∧
      ((∀ t : Shape, t.dims.Perm s.dims → t.count? = s.count?) ↔
        (0 ∈ s.dims → s.nonzeroProduct < Checked.sizeBound)) ∧
      (0 ∈ s.dims → ¬s.OverflowsBeforeZero → ∀ operand, Contract.count operand s = .ok 0) ∧
      (s.OverflowsBeforeZero →
        s.product = 0 ∧ ∀ operand, Contract.count operand s = .error (.shapeOverflow operand)) ∧
      TakesEmpty (α := α) (Dense.convolve layer) ∧
      TakesEmpty (α := α) (fun operands output => Patches.convolve layer operands output limit) ∧
      TakesEmpty (α := α) (Depthwise.convolve depthwise) := by
  refine ⟨count?_eq_exactCount?_iff, count?_perm_iff, ?_, ?_, Dense.takesEmpty layer,
    Patches.takesEmpty layer limit, Depthwise.takesEmpty depthwise⟩
  · intro hzero hcounted operand
    exact Contract.count_eq_ok_iff.mpr (count?_eq_zero hzero hcounted)
  · intro hoverflow
    refine ⟨?_, ?_⟩
    · rw [product_eq, product_eq_zero_of_mem hoverflow.zero]
    · intro operand
      rw [Contract.count, hoverflow.count?]

/-- Operands whose input has no channels, and so no elements. -/
def channellessOperands : Operands Int8 where
  input := ⟨.nhwc 1 4294967296 4294967296 0, #[]⟩
  filter := ⟨.nhwc 1 1 1 0, #[]⟩
  bias := none
  scales := ⟨#[1], #[0]⟩

/-- A shape without elements is not counted if its zero comes last, and is counted if it comes first;
a call whose input has such a shape is refused. -/
theorem Shape.zero_behind_overflow :
    Shape.product ⟨[4294967296, 4294967296, 0]⟩ = 0 ∧
      Shape.count? ⟨[4294967296, 4294967296, 0]⟩ = none ∧
      Shape.count? ⟨[0, 4294967296, 4294967296]⟩ = some 0 ∧
      Dense.convolve {} channellessOperands ⟨.nhwc 1 1 1 1, #[9]⟩ =
        .refused #[9] (.shapeOverflow .input) :=
  ⟨by decide, by decide, by decide, rfl⟩

end QuantizedConv
