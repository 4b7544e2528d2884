import QuantizedConv.Proofs.DenseConvolution

/-!
# What a dense call requires

The contract of a dense call, read as a list: what is required of the call, each with the refusal of
a call that does not satisfy it, in the order in which the refusals win (`Dense.requirements`). The
requirements speak of plain products and sums of naturals, for shapes of any rank and dimensions of
any size. `Reports` ties such a list to a computation: it succeeds where all requirements hold, and is
refused for the first one that does not. Every check of the contract reports its requirements, and a
computation in steps reports those of its steps one after the other (`Reports.bind`).
-/

set_option autoImplicit false

namespace QuantizedConv

namespace Shape

/-- One dimension of a shape, zero where there is none. -/
def extent (s : Shape) (axis : Nat) : Nat := s.dims[axis]?.elim 0 UInt64.toNat

/-- The product of the outermost dimensions, over the naturals. -/
def leadingProduct (s : Shape) (axes : Nat) : Nat := ((s.dims.take axes).map UInt64.toNat).prod

/-- The product of all dimensions, over the naturals. -/
def product (s : Shape) : Nat := s.leadingProduct s.rank

/-- The product of the outermost dimensions is a size, however many of them are taken. -/
def Countable (s : Shape) : Prop := ∀ axes ≤ s.rank, s.leadingProduct axes < Checked.sizeBound

/-- It can be decided whether a shape can be counted, as it has finitely many dimensions. -/
instance (s : Shape) : Decidable s.Countable := Nat.decidableBallLE _ _

/-- A running product succeeds exactly when all products on the way are sizes. -/
theorem foldlM_mul?_eq_some_iff {start : Nat} (hstart : start < Checked.sizeBound)
    (dims : List UInt64) {n : Nat} :
    dims.foldlM (fun product d => Checked.mul? product d.toNat) start = some n ↔
      (∀ axes ≤ dims.length,
        start * ((dims.take axes).map UInt64.toNat).prod < Checked.sizeBound) ∧
      n = start * (dims.map UInt64.toNat).prod := by
  induction dims generalizing start with
  | nil =>
    simp only [List.foldlM_nil, Option.pure_def, Option.some.injEq, List.take_nil, List.map_nil,
      List.prod_nil, Nat.mul_one]
    exact ⟨fun h => ⟨fun _ _ => hstart, h.symm⟩, fun h => h.2.symm⟩
  | cons d dims ih =>
    rw [List.foldlM_cons, Option.bind_eq_bind]
    by_cases hnext : start * d.toNat < Checked.sizeBound
    · rw [Checked.mul?, if_pos hnext, Option.bind_some, ih hnext]
      simp only [List.map_cons, List.prod_cons, Nat.mul_assoc, List.length_cons]
      refine and_congr_left fun _ => ⟨fun h axes haxes => ?_, fun h axes haxes => ?_⟩
      · cases axes with
        | zero => simpa using hstart
        | succ axes => simpa using h axes (by omega)
      · simpa using h (axes + 1) (by omega)
    · -- the first dimension already leaves the sizes, and so does the product with it alone
      rw [Checked.mul?, if_neg hnext, Option.bind_none]
      constructor
      · intro h
        cases h
      · rintro ⟨h, -⟩
        have hfirst := h 1 (by simp)
        simp only [List.take_succ_cons, List.take_zero, List.map_cons, List.map_nil, List.prod_cons,
          List.prod_nil, Nat.mul_one] at hfirst
        exact absurd hfirst hnext

/-- The elements of a shape of any rank can be counted exactly when the products of its outermost
dimensions are sizes. -/
theorem count?_eq_some_iff_product {s : Shape} {n : Nat} :
    s.count? = some n ↔ s.Countable ∧ n = s.product := by
  have hone : 1 < Checked.sizeBound := by decide
  rw [count?, foldlM_mul?_eq_some_iff hone]
  simp only [Nat.one_mul, Countable, product, leadingProduct, rank, List.take_length]

/-- The extents of a shape of rank four are its dimensions, and its products theirs. -/
theorem of_extents {s : Shape} {e : Nhwc} (hs : Nhwc.ofShape? s = some e) :
    e = ⟨s.extent 0, s.extent 1, s.extent 2, s.extent 3⟩ ∧ (s.Countable ↔ e.Countable) ∧
      s.product = e.size := by
  obtain ⟨n, h, w, c, hdims, rfl⟩ := Nhwc.ofShape?_eq_some_iff.mp hs
  refine ⟨by simp [extent, hdims], ?_, ?_⟩
  · have hfour := @count?_eq_some_iff s _ hs
    have hany := @count?_eq_some_iff_product s
    constructor
    · intro h
      exact (hfour.mp (hany.mpr ⟨h, rfl⟩)).1
    · intro h
      exact (hany.mp (hfour.mpr ⟨h, rfl⟩)).1
  · simp [product, leadingProduct, rank, hdims, Nhwc.size, Nat.mul_assoc]

/-- A shape that cannot be counted is not counted. -/
theorem count?_eq_none {s : Shape} (h : ¬s.Countable) : s.count? = none := by
  cases hcount : s.count? with
  | none => rfl
  | some n => exact absurd (count?_eq_some_iff_product.mp hcount).1 h

end Shape

/-- Something that is required of a call, and the refusal of a call that does not satisfy it. -/
structure Requirement where
  /-- What is required. -/
  holds : Prop
  /-- Why a call is refused where it does not hold. -/
  refusal : Refusal
  /-- Requirements can be checked. -/
  decidable : Decidable holds := by infer_instance

namespace Requirement

/-- Requirements carry the decision whether they hold. -/
instance (r : Requirement) : Decidable r.holds := r.decidable

/-- A tensor has four dimensions. -/
def rankFour (operand : Operand) (shape : Shape) : Requirement where
  holds := shape.rank = 4
  refusal := .rank operand 4 shape.rank

/-- Two extents are equal. -/
def same (relation : Relation) (left right : Nat) : Requirement where
  holds := left = right
  refusal := .extents relation left right

/-- The number of elements of a shape is a size, and so is every product on the way to it. -/
def countable (operand : Operand) (shape : Shape) : Requirement where
  holds := shape.Countable
  refusal := .shapeOverflow operand

/-- An array holds as many elements as its shape has. -/
def enough {α : Type} (operand : Operand) (tensor : Tensor α) : Requirement where
  holds := tensor.shape.product ≤ tensor.data.size
  refusal := .shortBuffer operand tensor.shape.product tensor.data.size

/-- An array has one entry for each output channel. -/
def perChannel (array : ChannelArray) (entries : Array Int32) (channels : Nat) : Requirement where
  holds := entries.size = channels
  refusal := .channelCount array channels entries.size

/-- The furthest tap of the last window along an axis, and the padding, are signed coordinates. -/
def window (axis : Axis) (output filter : Nat) : Requirement where
  holds := (max output 1 - 1) * axis.stride.toNat + (max filter 1 - 1) * axis.dilation.toNat <
      Checked.signedBound ∧
    axis.padding.toNat < Checked.signedBound
  refusal := .windowOverflow

/-- A bias, where there is one, has one element for each output channel. -/
def bias (bias : Option (Tensor Int32)) (channels : Nat) : List Requirement :=
  bias.elim [] fun tensor =>
    [countable .bias tensor.shape, same .biasCount tensor.shape.product channels,
      enough .bias tensor]

/-- The first requirement that does not hold. -/
def first? (requirements : List Requirement) : Option Requirement :=
  requirements.find? fun r => !decide r.holds

/-- No requirement is refused exactly when all of them hold. -/
theorem first?_eq_none_iff {requirements : List Requirement} :
    first? requirements = none ↔ ∀ r ∈ requirements, r.holds := by
  simp [first?]

/-- The first requirement that does not hold stands behind requirements that do. -/
theorem first?_eq_some_iff {requirements : List Requirement} {broken : Requirement} :
    first? requirements = some broken ↔
      ∃ before after, requirements = before ++ broken :: after ∧
        (∀ r ∈ before, r.holds) ∧ ¬broken.holds := by
  rw [first?, List.find?_eq_some_iff_append]
  constructor
  · rintro ⟨hbroken, before, after, hlist, hbefore⟩
    exact ⟨before, after, hlist, by simpa using hbefore, by simpa using hbroken⟩
  · rintro ⟨before, after, hlist, hbefore, hbroken⟩
    exact ⟨by simpa using hbroken, before, after, hlist, by simpa using hbefore⟩

end Requirement

/-- A computation succeeds where all requirements hold, and is refused for the first one that does
not. -/
structure Reports {β : Type} (requirements : List Requirement) (result : Except Refusal β) :
    Prop where
  accepted : Requirement.first? requirements = none → ∃ value, result = .ok value
  refused : ∀ broken, Requirement.first? requirements = some broken →
    result = .error broken.refusal

namespace Reports

variable {β γ : Type} {first : Except Refusal β} {requirements others : List Requirement}

/-- Nothing is required of a computation that succeeds. -/
theorem nil (value : β) : Reports [] (.ok value : Except Refusal β) where
  accepted _ := ⟨value, rfl⟩
  refused _ h := by cases h

/-- A single check. -/
theorem single {r : Requirement} (haccepted : r.holds → ∃ value, first = .ok value)
    (hrefused : ¬r.holds → first = .error r.refusal) : Reports [r] first := by
  by_cases hr : r.holds
  · refine ⟨fun _ => haccepted hr, fun broken hbroken => ?_⟩
    simp [Requirement.first?, hr] at hbroken
  · refine ⟨fun hnone => ?_, fun broken hbroken => ?_⟩
    · simp [Requirement.first?, hr] at hnone
    · simp only [Requirement.first?, hr, decide_false, Bool.not_false, List.find?_cons_of_pos,
        Option.some.injEq] at hbroken
      rw [hrefused hr, hbroken]

/-- The requirements of a second step come behind those of the first. -/
theorem bind {second : β → Except Refusal γ} (hfirst : Reports requirements first)
    (hsecond : ∀ value, first = .ok value → Reports others (second value)) :
    Reports (requirements ++ others) (first >>= second) := by
  have happend : Requirement.first? (requirements ++ others) =
      (Requirement.first? requirements).or (Requirement.first? others) := List.find?_append
  cases hbroken : Requirement.first? requirements with
  | some broken =>
    have herror := hfirst.refused broken hbroken
    rw [hbroken, Option.some_or] at happend
    refine ⟨fun hnone => ?_, fun other hother => ?_⟩
    · rw [happend] at hnone
      cases hnone
    · rw [happend] at hother
      cases hother
      exact bind_of_error herror second
  | none =>
    obtain ⟨value, hvalue⟩ := hfirst.accepted hbroken
    rw [hbroken, Option.none_or] at happend
    have hrest := hsecond value hvalue
    rw [bind_of_ok hvalue]
    exact ⟨fun hnone => hrest.accepted (happend ▸ hnone),
      fun other hother => hrest.refused other (happend ▸ hother)⟩

/-- A last step that only gives a value requires nothing. -/
theorem thenOk (result : β → γ) (hfirst : Reports requirements first) :
    Reports requirements (first >>= fun value => .ok (result value)) := by
  have h := hfirst.bind fun value _ => nil (result value)
  rwa [List.append_nil] at h

end Reports

namespace Contract

variable {α : Type}

/-- The extents of a tensor require four dimensions. -/
theorem reports_extents (operand : Operand) (shape : Shape) :
    Reports [.rankFour operand shape] (extents operand shape) := by
  unfold extents
  apply Reports.single
  · intro hrank
    obtain ⟨n, h, w, c, hdims⟩ := List.length_eq_four.mp hrank
    rw [Nhwc.ofShape?_eq_some_iff.mpr ⟨n, h, w, c, hdims, rfl⟩]
    exact ⟨_, rfl⟩
  · intro hrank
    cases hextents : Nhwc.ofShape? shape with
    | none => rfl
    | some e =>
      obtain ⟨n, h, w, c, hdims, -⟩ := Nhwc.ofShape?_eq_some_iff.mp hextents
      exact absurd (congrArg List.length hdims) hrank

/-- Two numbers that must agree are required to be the same. -/
theorem reports_equal (relation : Relation) (left right : Nat) :
    Reports [.same relation left right] (equal relation left right) :=
  .single (fun h => ⟨(), if_pos h⟩) fun h => if_neg h

/-- A shape that is counted can be counted, and its count is the number of its elements. -/
theorem countable_of_count {operand : Operand} {shape : Shape} {n : Nat}
    (h : count operand shape = .ok n) : shape.Countable ∧ n = shape.product :=
  Shape.count?_eq_some_iff_product.mp (count_eq_ok_iff.mp h)

/-- A shape that can be counted is counted. -/
theorem count_of_countable (operand : Operand) {shape : Shape} (h : shape.Countable) :
    count operand shape = .ok shape.product :=
  count_eq_ok_iff.mpr (Shape.count?_eq_some_iff_product.mpr ⟨h, rfl⟩)

/-- Counting requires that the shape can be counted. -/
theorem reports_count (operand : Operand) (shape : Shape) :
    Reports [.countable operand shape] (count operand shape) := by
  refine .single (fun h => ⟨_, count_of_countable operand h⟩) fun h => ?_
  rw [count, Shape.count?_eq_none h]
  rfl

/-- Behind the count of a shape, the length of the array is left to check. -/
theorem reports_room (operand : Operand) (tensor : Tensor α) :
    Reports [.enough operand tensor]
      (if tensor.data.size < tensor.shape.product then
        .error (.shortBuffer operand tensor.shape.product tensor.data.size)
      else .ok () : Except Refusal Unit) :=
  .single (fun h => ⟨(), if_neg (Nat.not_lt_of_le h)⟩) fun h => if_pos (Nat.lt_of_not_le h)

/-- A filled tensor requires a shape that can be counted and enough elements. -/
theorem reports_filled (operand : Operand) (tensor : Tensor α) :
    Reports [.countable operand tensor.shape, .enough operand tensor] (filled operand tensor) := by
  refine (reports_count operand tensor.shape).bind fun n hn => ?_
  obtain ⟨-, rfl⟩ := countable_of_count hn
  exact reports_room operand tensor

/-- A shape that was counted before is not refused for its count again. -/
theorem reports_filled_of_countable (operand : Operand) {tensor : Tensor α}
    (hcount : tensor.shape.Countable) :
    Reports [.enough operand tensor] (filled operand tensor) := by
  rw [filled, bind_of_ok (count_of_countable operand hcount)]
  exact reports_room operand tensor

/-- The check of a bias reports its requirements in their order. -/
theorem reports_biasFits (bias : Option (Tensor Int32)) (channels : Nat) :
    Reports (Requirement.bias bias channels) (biasFits bias channels) := by
  cases bias with
  | none => exact .nil ()
  | some tensor =>
    refine (reports_count .bias tensor.shape).bind fun n hn => ?_
    obtain ⟨hcount, rfl⟩ := countable_of_count hn
    exact (reports_equal .biasCount _ channels).bind fun _ _ =>
      reports_filled_of_countable .bias hcount

/-- An array with an entry for each channel requires as many entries as channels. -/
theorem reports_perChannel (array : ChannelArray) (entries : Array Int32) (channels : Nat) :
    Reports [.perChannel array entries channels]
      (if entries.size = channels then .ok ()
      else .error (.channelCount array channels entries.size) : Except Refusal Unit) :=
  .single (fun h => ⟨(), if_pos h⟩) fun h => if_neg h

/-- The check of the scales requires the multipliers first and the shifts then. -/
theorem reports_scalesFit (scales : ChannelScales) (channels : Nat) :
    Reports [.perChannel .multiplier scales.multiplier channels,
      .perChannel .shift scales.shift channels] (scalesFit scales channels) := by
  -- the two tests, one after the other
  have hsteps : scalesFit scales channels =
      ((if scales.multiplier.size = channels then .ok ()
        else .error (.channelCount .multiplier channels scales.multiplier.size)) >>= fun _ : Unit =>
      if scales.shift.size = channels then .ok ()
        else .error (.channelCount .shift channels scales.shift.size)) := by
    unfold scalesFit
    by_cases hm : scales.multiplier.size = channels
    · by_cases hs : scales.shift.size = channels <;> simp [hm, hs, bind, Except.bind]
    · simp [hm, bind, Except.bind]
  rw [hsteps]
  exact (reports_perChannel .multiplier scales.multiplier channels).bind fun _ _ =>
    reports_perChannel .shift scales.shift channels

/-- The check of an axis requires that its taps and its padding are signed coordinates. -/
theorem reports_windowFits (axis : Axis) (output filter : Nat) :
    Reports [.window axis output filter] (windowFits axis output filter) := by
  have houtput : max output 1 - 1 = output - 1 := by omega
  have hfilter : max filter 1 - 1 = filter - 1 := by omega
  have hfits : (Requirement.window axis output filter).holds ↔ axis.Fits output filter := by
    simp only [Requirement.window, houtput, hfilter]
    exact ⟨fun h => ⟨h.1, h.2⟩, fun h => ⟨h.reach, h.padding⟩⟩
  apply Reports.single
  · intro h
    exact ⟨(), windowFits_eq_ok_iff.mpr (hfits.mp h)⟩
  · intro h
    -- a window check that does not succeed has one refusal only
    cases hresult : windowFits axis output filter with
    | ok _ => exact absurd (hfits.mpr (windowFits_eq_ok_iff.mp hresult)) h
    | error refusal =>
      unfold windowFits at hresult
      split at hresult
      · split at hresult
        · cases hresult
        · cases hresult
          rfl
      · cases hresult
        rfl

/-- The extents of a call require four dimensions of the input, the filter and the output, in this
order. -/
theorem reports_callExtents (operands : Operands α) (outputShape : Shape) :
    Reports [.rankFour .input operands.input.shape, .rankFour .filter operands.filter.shape,
      .rankFour .output outputShape] (callExtents operands outputShape) :=
  (reports_extents .input _).bind fun _ _ => (reports_extents .filter _).bind fun _ _ =>
    (reports_extents .output _).thenOk _

/-- The checks behind the extents, for tensors of rank four. -/
theorem reports_operandsFit (layer : Layer) (operands : Operands α) (outputShape : Shape)
    (e : CallExtents) :
    Reports (Requirement.bias operands.bias e.output.channels ++
      [.perChannel .multiplier operands.scales.multiplier e.output.channels,
        .perChannel .shift operands.scales.shift e.output.channels,
        .countable .input operands.input.shape, .enough .input operands.input,
        .countable .filter operands.filter.shape, .enough .filter operands.filter,
        .countable .output outputShape,
        .window layer.height e.output.height e.filter.height,
        .window layer.width e.output.width e.filter.width])
      (operandsFit layer operands outputShape e) :=
  (reports_biasFits _ _).bind fun _ _ => (reports_scalesFit _ _).bind fun _ _ =>
    (reports_filled .input _).bind fun _ _ => (reports_filled .filter _).bind fun _ _ =>
      (reports_count .output _).bind fun _ _ => (reports_windowFits layer.height _ _).bind fun _ _ =>
        reports_windowFits layer.width _ _

end Contract

namespace Dense

/-- What is required of a dense call, apart from its output array. -/
def contractRequirements {α : Type} (layer : Layer) (operands : Operands α) (outputShape : Shape) :
    List Requirement :=
  let input := operands.input.shape
  let filter := operands.filter.shape
  let channels := outputShape.extent 3
  [.rankFour .input input, .rankFour .filter filter, .rankFour .output outputShape,
    .same .batches (input.extent 0) (outputShape.extent 0),
    .same .filterDepth (input.extent 3) (filter.extent 3),
    .same .filterCount (filter.extent 0) channels] ++
  (Requirement.bias operands.bias channels ++
  [.perChannel .multiplier operands.scales.multiplier channels,
    .perChannel .shift operands.scales.shift channels,
    .countable .input input, .enough .input operands.input,
    .countable .filter filter, .enough .filter operands.filter,
    .countable .output outputShape,
    .window layer.height (outputShape.extent 1) (filter.extent 1),
    .window layer.width (outputShape.extent 2) (filter.extent 2)])

/-- What is required of a dense call into the array of `output`, in the order in which the refusals
win. -/
def requirements {α : Type} (layer : Layer) (operands : Operands α) (output : Tensor α) :
    List Requirement :=
  contractRequirements layer operands output.shape ++ [.enough .output output]

/-- The contract of a dense call reports its requirements in their order. -/
theorem reports_contract {α : Type} (layer : Layer) (operands : Operands α) (outputShape : Shape) :
    Reports (contractRequirements layer operands outputShape)
      (Contract.dense layer operands outputShape) := by
  refine (Contract.reports_callExtents operands outputShape).bind fun e he => ?_
  -- behind the ranks the extents are the dimensions
  obtain ⟨hi, hf, ho⟩ := Contract.callExtents_eq_ok_iff.mp he
  have hoperands := (Contract.reports_operandsFit layer operands outputShape e).thenOk fun _ => e
  obtain ⟨input, filter, output⟩ := e
  obtain ⟨rfl, -, -⟩ := Shape.of_extents hi
  obtain ⟨rfl, -, -⟩ := Shape.of_extents hf
  obtain ⟨rfl, -, -⟩ := Shape.of_extents ho
  exact (Contract.reports_equal .batches _ _).bind fun _ _ =>
    (Contract.reports_equal .filterDepth _ _).bind fun _ _ =>
    (Contract.reports_equal .filterCount _ _).bind fun _ _ => hoperands

/-- The contract of a dense call reports its requirements. -/
theorem reports_check {α : Type} (layer : Layer) (operands : Operands α) (output : Tensor α) :
    Reports (requirements layer operands output) (check layer operands output) := by
  refine (reports_contract layer operands output.shape).bind fun e he => ?_
  have h := admitted_iff.mp he
  have hcount := (Shape.of_extents h.output).2.1.mpr h.outputCount
  exact (Contract.reports_filled_of_countable .output hcount).thenOk _

/-- **A dense call ends well exactly when all its requirements hold, and is refused for the first one
that does not**, with the array unchanged. -/
theorem convolve_reports_first {α : Type} [Activation α] (layer : Layer) (operands : Operands α)
    (output : Tensor α) :
    ((convolve layer operands output).ending = .ok () ↔
        ∀ r ∈ requirements layer operands output, r.holds) ∧
      ((∀ r ∈ requirements layer operands output, r.holds) ∨
        ∃ before broken after,
          requirements layer operands output = before ++ broken :: after ∧
          (∀ r ∈ before, r.holds) ∧ ¬broken.holds ∧
          convolve layer operands output = .refused output.data broken.refusal) := by
  have hreports := reports_check layer operands output
  cases hfirst : Requirement.first? (requirements layer operands output) with
  | none =>
    obtain ⟨e, hcheck⟩ := hreports.accepted hfirst
    obtain ⟨buffer, hconvolve, -⟩ := convolve_of_check hcheck
    have hall := Requirement.first?_eq_none_iff.mp hfirst
    exact ⟨⟨fun _ => hall, fun _ => by rw [hconvolve]⟩, .inl hall⟩
  | some broken =>
    have hconvolve := convolve_of_refusal (hreports.refused broken hfirst)
    obtain ⟨before, after, hlist, hbefore, hbroken⟩ := Requirement.first?_eq_some_iff.mp hfirst
    refine ⟨⟨fun hok => ?_, fun hall => ?_⟩,
      .inr ⟨before, broken, after, hlist, hbefore, hbroken, hconvolve⟩⟩
    · rw [hconvolve] at hok
      cases hok
    · have hmem : broken ∈ requirements layer operands output := by
        rw [hlist]
        simp
      exact absurd (hall broken hmem) hbroken

/-- A call with two faults is refused for the one that is looked at first: the batches, before the
missing input. -/
example : (Requirement.first? (requirements {} (⟨⟨.nhwc 2 1 1 1, #[]⟩, ⟨.nhwc 1 1 1 1, #[1]⟩, none,
    ⟨#[1], #[0]⟩⟩ : Operands Int8) ⟨.nhwc 1 1 1 1, #[0]⟩)).map Requirement.refusal =
      some (.extents .batches 2 1) := by
  decide

end Dense

end QuantizedConv
