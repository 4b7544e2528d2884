import QuantizedConv.Proofs.FreshOutputs

/-!
# Runs of cases

A run of a case narrows the data, checks the contract, allocates an output and calls a kernel. The
first value that does not fit its element type is what a run reports before anything else
(`narrowAll_of_firstOutside`); data that fits is narrowed without loss (`narrowAll_of_forall`). Behind
that, a run that goes window by window is the call into a fresh array (`kernelOutput_direct`,
`kernelOutput_depthwise`), and a dense run through the patch matrix differs from it only where memory
for the matrix is refused (`kernelOutput_patches`).
-/

set_option autoImplicit false

namespace QuantizedConv

/-- The integers of an element type. -/
def ElementType.Holds : ElementType → Int32 → Prop
  | .i8, v => -128 ≤ v.toInt ∧ v.toInt ≤ 127
  | .u8, v => 0 ≤ v.toInt ∧ v.toInt ≤ 255

/-- The first value of a list that is not of an element type, with its position. -/
structure FirstOutside (element : ElementType) (values : List Int32) (index : Nat)
    (value : Int32) : Prop where
  at_index : values[index]? = some value
  outside : ¬element.Holds value
  first : ∀ j < index, ∀ v, values[j]? = some v → element.Holds v

section Narrowing

/-- Activations of type `α` are the integers of an element type. -/
structure Represents (α : Type) [Activation α] (element : ElementType) : Prop where
  inside : ∀ v, element.Holds v → ∃ x : α, Activation.narrow? v = some x ∧ Activation.widen x = v
  outside : ∀ v, ¬element.Holds v → (Activation.narrow? v : Option α) = none

/-- Clamping does nothing to a value inside the range. -/
theorem clamp_eq {v lowest highest : Int32} (hlow : lowest ≤ v) (hhigh : v ≤ highest) :
    min (max v lowest) highest = v := by
  have hmax : max v lowest = v := by
    change (if v ≤ lowest then lowest else v) = v
    split
    · rename_i hle
      exact Int32.le_antisymm hlow hle
    · rfl
  rw [hmax]
  exact if_pos hhigh

/-- The signed activations are the integers that a signed element type holds. -/
theorem represents_int8 : Represents Int8 .i8 := by
  constructor
  · rintro v ⟨hlow, hhigh⟩
    have hrange : (-128 : Int32) ≤ v ∧ v ≤ 127 :=
      ⟨Int32.le_iff_toInt_le.mpr hlow, Int32.le_iff_toInt_le.mpr hhigh⟩
    refine ⟨v.toInt8, ?_, ?_⟩
    · have hnarrow : (Activation.narrow v : Int8) = v.toInt8 :=
        congrArg Int32.toInt8 (clamp_eq hrange.1 hrange.2)
      rw [← hnarrow]
      exact if_pos hrange
    · apply Int32.toInt_inj.mp
      change v.toInt8.toInt32.toInt = v.toInt
      rw [Int8.toInt_toInt32, Int32.toInt_toInt8, Int.bmod_eq_of_le (by omega) (by omega)]
  · intro v hnot
    refine if_neg ?_
    rintro ⟨hlow, hhigh⟩
    exact hnot ⟨Int32.le_iff_toInt_le.mp hlow, Int32.le_iff_toInt_le.mp hhigh⟩

/-- The unsigned activations are the integers that an unsigned element type holds. -/
theorem represents_uint8 : Represents UInt8 .u8 := by
  constructor
  · rintro v ⟨hlow, hhigh⟩
    have hrange : (0 : Int32) ≤ v ∧ v ≤ 255 :=
      ⟨Int32.le_iff_toInt_le.mpr hlow, Int32.le_iff_toInt_le.mpr hhigh⟩
    refine ⟨v.toUInt32.toUInt8, ?_, ?_⟩
    · have hnarrow : (Activation.narrow v : UInt8) = v.toUInt32.toUInt8 :=
        congrArg (fun w : Int32 => w.toUInt32.toUInt8) (clamp_eq hrange.1 hrange.2)
      rw [← hnarrow]
      exact if_pos hrange
    · -- below 256 the low byte is the whole word
      have hword : v.toInt = v.toBitVec.toInt := rfl
      have hvalue := BitVec.toInt_eq_toNat_cond v.toBitVec
      have hsmall : v.toBitVec.toNat < 256 := by
        have hbound := v.toBitVec.isLt
        split at hvalue <;> omega
      apply Int32.toBitVec_inj.mp
      apply BitVec.eq_of_toNat_eq
      change (v.toBitVec.setWidth 8 |>.setWidth 32).toNat = v.toBitVec.toNat
      rw [BitVec.toNat_setWidth, BitVec.toNat_setWidth]
      omega
  · intro v hnot
    refine if_neg ?_
    rintro ⟨hlow, hhigh⟩
    exact hnot ⟨Int32.le_iff_toInt_le.mp hlow, Int32.le_iff_toInt_le.mp hhigh⟩

/-- A value that is an activation is narrowed to it. -/
theorem narrowAt_of_some {α : Type} [Activation α] (operand : Operand) {value : Int32} {x : α}
    (h : Activation.narrow? value = some x) (index : Nat) :
    narrowAt operand (value, index) = .ok x := by
  simp only [narrowAt, h]

variable {α : Type} [Activation α] {element : ElementType} (hα : Represents α element)
  (operand : Operand)

include hα

/-- The first value that does not fit is refused. -/
theorem narrowAll_of_firstOutside {values : List Int32} {index : Nat} {value : Int32}
    (h : FirstOutside element values index value) :
    (narrowAll operand values : Except Refusal (List α)) =
      .error (.elementRange operand index value) := by
  have hfrom : ∀ start, (values.zipIdx start).mapM (narrowAt operand : _ → Except Refusal α) =
      .error (.elementRange operand (start + index) value) := by
    obtain ⟨hvalue, houtside, hfirst⟩ := h
    induction values generalizing index with
    | nil => cases hvalue
    | cons v rest ih =>
      intro start
      rw [List.zipIdx_cons, List.mapM_cons]
      cases index with
      | zero =>
        cases hvalue
        apply bind_of_error
        simp only [narrowAt, hα.outside _ houtside, Nat.add_zero]
      | succ index =>
        obtain ⟨x, hx, -⟩ := hα.inside v (hfirst 0 (Nat.succ_pos index) v rfl)
        have hrest := ih (by simpa using hvalue)
          (fun j hj w hw => hfirst (j + 1) (by omega) w (by simpa using hw)) (start + 1)
        rw [bind_of_ok (narrowAt_of_some operand hx start), bind_of_error hrest,
          Nat.add_right_comm, Nat.add_assoc]
  have hall := hfrom 0
  rwa [Nat.zero_add] at hall

/-- Values that fit are narrowed, and keep their value. -/
theorem narrowAll_of_forall {values : List Int32} (h : ∀ v ∈ values, element.Holds v) :
    ∃ xs : List α, narrowAll operand values = .ok xs ∧ xs.map Activation.widen = values := by
  have hfrom : ∀ start, ∃ xs : List α,
      (values.zipIdx start).mapM (narrowAt operand) = .ok xs ∧ xs.map Activation.widen = values := by
    induction values with
    | nil => exact fun _ => ⟨[], rfl, rfl⟩
    | cons v rest ih =>
      intro start
      obtain ⟨x, hx, hwiden⟩ := hα.inside v (h v List.mem_cons_self)
      obtain ⟨xs, hxs, hmap⟩ := ih (fun w hw => h w (List.mem_cons_of_mem v hw)) (start + 1)
      refine ⟨x :: xs, ?_, by rw [List.map_cons, hwiden, hmap]⟩
      rw [List.zipIdx_cons, List.mapM_cons]
      rw [bind_of_ok (narrowAt_of_some operand hx start), bind_of_ok hxs]
      rfl
  exact hfrom 0

end Narrowing

/-- A dense call that is accepted goes through the patch matrix as it does window by window, once the
memory of the matrix is granted. -/
theorem Patches.convolve_of_dense {α : Type} [Activation α] {layer : Layer} {operands : Operands α}
    {output : Tensor α} {e : CallExtents} (limit : Nat)
    (hcheck : Dense.check layer operands output = .ok e) :
    convolve layer operands output limit =
      match scratchFits e limit with
      | .error refusal => .refused output.data refusal
      | .ok () => Dense.convolve layer operands output := by
  cases hscratch : scratchFits e limit with
  | error refusal => exact convolve_of_scratch hcheck hscratch
  | ok granted =>
    have hpatches : check layer operands output limit = .ok e := by
      rw [check, bind_of_ok hcheck, bind_of_ok hscratch]
    obtain ⟨buffer, hconvolve, hfilled⟩ := convolve_of_check hpatches
    obtain ⟨buffer', hdirect, hfilled'⟩ := Dense.convolve_of_check hcheck
    rw [hconvolve, hdirect, hfilled.unique hfilled' fun _ _ => rfl]

namespace Case

variable {α : Type} [Activation α]

/-- What the kernel of a case reads once the data is narrowed. A bias without a shape is a plain
list, and a shape without a bias means nothing. -/
def operandsOf (c : Case) (input : List α) (filter : List Int8) : Operands α where
  input := ⟨c.inputShape, input.toArray⟩
  filter := ⟨c.filterShape, filter.toArray⟩
  bias := c.bias.map fun bias =>
    ⟨c.biasShape.getD ⟨[UInt64.ofNat bias.length]⟩, bias.toArray⟩
  scales := ⟨c.outputMultiplier.toArray, c.outputShift.toArray⟩

/-- The call into a fresh array that a case describes, with its output widened. -/
def freshOutput (c : Case) (operands : Operands α) : Except Failure (List Int32) :=
  let output := match c.kind with
    | .conv => Dense.convolveFresh c.layer operands c.outputShape
    | .depthwise =>
      Depthwise.convolveFresh ⟨c.layer, c.depthMultiplier⟩ operands c.outputShape
  output.map fun elements => elements.toList.map Activation.widen

/-- The bytes of the patch matrix of a case, if its tensors have four dimensions and the bytes are a
size. -/
def scratchBytes? (c : Case) : Option Nat := do
  let input ← Nhwc.ofShape? c.inputShape
  let filter ← Nhwc.ofShape? c.filterShape
  let output ← Nhwc.ofShape? c.outputShape
  Patches.scratchBytes? { input, filter, output }

/-- A dense case that is run window by window is a dense call into a fresh array. -/
theorem kernelOutput_direct {c : Case} (hkind : c.kind = .conv) (operands : Operands α) :
    c.kernelOutput .direct operands =
      Dense.convolveFresh c.layer operands c.outputShape := by
  have hcontract : c.contract operands = Contract.dense c.layer operands c.outputShape := by
    rw [contract, hkind]
  have hcall : c.call .direct operands = Dense.convolve c.layer operands := by
    unfold call
    rw [hkind]
  rw [kernelOutput, hcontract, hcall, Dense.convolveFresh]

/-- A dense case that is run through the patch matrix fails as it does window by window, and
otherwise gives the same output where memory for the matrix is granted. -/
theorem kernelOutput_patches {c : Case} (hkind : c.kind = .conv) (input : List α)
    (filter : List Int8) :
    c.kernelOutput .patches (c.operandsOf input filter) =
      match c.kernelOutput .direct (c.operandsOf input filter) with
      | .error failure => .error failure
      | .ok output =>
        match c.scratchBytes? with
        | none => .error (.refused (.scratchTooLarge 18446744073709551615))
        | some bytes =>
          if bytes < 0x7fffffff then .ok output
          else .error (.refused (.scratchTooLarge bytes)) := by
  generalize hoperands : c.operandsOf input filter = operands
  have hcontract : c.contract operands = Contract.dense c.layer operands c.outputShape := by
    rw [contract, hkind]
  have hcall : c.call .patches operands =
      fun output => Patches.convolve c.layer operands output scratchLimit := by
    unfold call
    rw [hkind]
  rw [kernelOutput_direct hkind, kernelOutput, hcontract, hcall]
  cases hfresh : Dense.freshCheck c.layer operands c.outputShape with
  | error refusal =>
    rw [Dense.convolveFresh, Fresh.call_of_refusal hfresh, Fresh.call_of_refusal hfresh]
  | ok accepted =>
    obtain ⟨e, size⟩ := accepted
    have hcheck := Dense.check_of_freshCheck hfresh
    obtain ⟨buffer, hdirect, -⟩ := Dense.convolve_of_check hcheck
    have h : Dense.Admitted c.layer operands c.outputShape e := (Dense.check_eq_ok_iff.mp hcheck).1
    have hbytes : c.scratchBytes? = Patches.scratchBytes? e := by
      have hinput := h.input
      have hfilter := h.filter
      rw [← hoperands] at hinput hfilter
      simp only [operandsOf] at hinput hfilter
      simp only [scratchBytes?, hinput, hfilter, h.output, Option.bind_eq_bind, Option.bind_some]
    rw [Dense.convolveFresh, Fresh.call_of_check hfresh, Fresh.call_of_check hfresh]
    simp only [Patches.convolve_of_dense scratchLimit hcheck, hdirect, hbytes,
      Patches.scratchFits, Outcome.result]
    cases Patches.scratchBytes? e with
    | none => rfl
    | some bytes =>
      -- the limit lies below what can be addressed
      have hgranted : Patches.granted bytes scratchLimit = true ↔ bytes < 0x7fffffff := by
        rw [Patches.granted_iff, scratchLimit, Checked.signedBound]
        omega
      by_cases hlimit : bytes < 0x7fffffff
      · simp only [hgranted.mpr hlimit, if_pos hlimit, if_true]
      · simp only [mt hgranted.mp hlimit, if_neg hlimit]
        rfl

/-- A run whose input leaves the element type is refused at the first such value. -/
theorem runAs_of_input {c : Case} (hα : Represents α c.element) {index : Nat} {value : Int32}
    (h : FirstOutside c.element c.input index value) (lowering : Lowering) :
    c.runAs α lowering = .error (.refused (.elementRange .input index value)) := by
  rw [runAs, operands, bind_of_error (narrowAll_of_firstOutside hα .input h)]

/-- A run whose filter leaves the signed bytes is refused at the first such value, where the input
is in range. -/
theorem runAs_of_filter {c : Case} (hα : Represents α c.element)
    (hinput : ∀ v ∈ c.input, c.element.Holds v) {index : Nat} {value : Int32}
    (h : FirstOutside .i8 c.filter index value) (lowering : Lowering) :
    c.runAs α lowering = .error (.refused (.elementRange .filter index value)) := by
  obtain ⟨input, hnarrow, -⟩ := narrowAll_of_forall hα .input hinput
  rw [runAs, operands, bind_of_ok hnarrow,
    bind_of_error (narrowAll_of_firstOutside represents_int8 .filter h)]

/-- Data that fits its element types is narrowed without loss, and run window by window as a call
into a fresh array. -/
theorem runAs_direct {c : Case} (hα : Represents α c.element)
    (hinput : ∀ v ∈ c.input, c.element.Holds v)
    (hfilter : ∀ v ∈ c.filter, ElementType.Holds .i8 v) :
    ∃ (input : List α) (filter : List Int8), input.map Activation.widen = c.input ∧
      filter.map Activation.widen = c.filter ∧
      c.runAs α .direct = c.freshOutput (c.operandsOf input filter) := by
  obtain ⟨input, hnarrow, hwiden⟩ := narrowAll_of_forall hα .input hinput
  obtain ⟨filter, hnarrow', hwiden'⟩ := narrowAll_of_forall represents_int8 .filter hfilter
  refine ⟨input, filter, hwiden, hwiden', ?_⟩
  have hoperands : c.operands α = .ok (c.operandsOf input filter) := by
    rw [operands, bind_of_ok hnarrow, bind_of_ok hnarrow']
    rfl
  simp only [runAs, hoperands, freshOutput]
  cases hkind : c.kind with
  | conv => rw [kernelOutput_direct hkind]
  | depthwise => rw [kernelOutput_depthwise hkind, depthwiseLayer]

/-- The operands of a case are those of its narrowed data. -/
theorem operands_eq_ok {c : Case} {narrowed : Operands α} (h : c.operands α = .ok narrowed) :
    ∃ (input : List α) (filter : List Int8), narrowed = c.operandsOf input filter := by
  simp only [operands, bind_eq_ok_iff] at h
  obtain ⟨input, -, filter, -, h⟩ := h
  cases h
  exact ⟨input, filter, rfl⟩

/-- The run of a dense case through the patch matrix is the direct run, up to a refusal for the
memory of the matrix. -/
theorem runAs_patches {c : Case} (hkind : c.kind = .conv) :
    c.runAs α .patches =
      match c.runAs α .direct with
      | .error failure => .error failure
      | .ok output =>
        match c.scratchBytes? with
        | none => .error (.refused (.scratchTooLarge 18446744073709551615))
        | some bytes =>
          if bytes < 0x7fffffff then .ok output
          else .error (.refused (.scratchTooLarge bytes)) := by
  unfold runAs
  cases hoperands : c.operands α with
  | error refusal => rfl
  | ok narrowed =>
    obtain ⟨input, filter, rfl⟩ := operands_eq_ok hoperands
    simp only [kernelOutput_patches hkind]
    cases c.kernelOutput .direct (c.operandsOf input filter) with
    | error failure => rfl
    | ok output =>
      cases c.scratchBytes? with
      | none => rfl
      | some bytes =>
        by_cases hlimit : bytes < 0x7fffffff
        · simp only [if_pos hlimit]
          rfl
        · simp only [if_neg hlimit]
          rfl

/-- A depthwise case runs the same whether or not a patch matrix is asked for. -/
theorem runAs_depthwise {c : Case} (hkind : c.kind = .depthwise) :
    c.runAs α .patches = c.runAs α .direct := by
  unfold runAs
  cases c.operands α with
  | error refusal => rfl
  | ok narrowed => simp only [kernelOutput_depthwise hkind]

/-- A run is a run with the activations of the element type. -/
theorem exists_runAs (c : Case) :
    ∃ (α : Type) (_ : Activation α), Represents α c.element ∧
      ∀ lowering, c.run lowering = c.runAs α lowering := by
  unfold run
  cases c.element with
  | i8 => exact ⟨Int8, inferInstance, represents_int8, fun _ => rfl⟩
  | u8 => exact ⟨UInt8, inferInstance, represents_uint8, fun _ => rfl⟩

/-- **Runs of cases are calls into fresh arrays.** A run reports the first input value that is not of
the element type; else the first filter value that is no signed byte; else, window by window, it is
the call into a fresh array on the narrowed data, with its output widened. The shape of a bias that
is not there does not matter. Through the patch matrix a depthwise case runs in the same way, a dense
case that fails fails in the same way, and one that gives an output gives the same output where the
bytes of the matrix are a size below the limit, and is refused for them otherwise. -/
theorem run_refines_calls (c : Case) :
    (∀ lowering index value, FirstOutside c.element c.input index value →
      c.run lowering = .error (.refused (.elementRange .input index value))) ∧
    (∀ lowering index value, (∀ v ∈ c.input, c.element.Holds v) →
      FirstOutside .i8 c.filter index value →
      c.run lowering = .error (.refused (.elementRange .filter index value))) ∧
    ((∀ v ∈ c.input, c.element.Holds v) → (∀ v ∈ c.filter, ElementType.Holds .i8 v) →
      match c.element with
      | .i8 => ∃ input filter : List Int8, input.map Activation.widen = c.input ∧
          filter.map Activation.widen = c.filter ∧
          c.run .direct = c.freshOutput (c.operandsOf input filter)
      | .u8 => ∃ (input : List UInt8) (filter : List Int8),
          input.map Activation.widen = c.input ∧ filter.map Activation.widen = c.filter ∧
          c.run .direct = c.freshOutput (c.operandsOf input filter)) ∧
    (c.bias = none → ∀ biasShape lowering,
      run { c with biasShape := biasShape } lowering = c.run lowering) ∧
    (c.kind = .depthwise → c.run .patches = c.run .direct) ∧
    (c.kind = .conv → c.run .patches =
      match c.run .direct with
      | .error failure => .error failure
      | .ok output =>
        match c.scratchBytes? with
        | none => .error (.refused (.scratchTooLarge 18446744073709551615))
        | some bytes =>
          if bytes < 0x7fffffff then .ok output
          else .error (.refused (.scratchTooLarge bytes))) := by
  obtain ⟨α, _, hα, hrun⟩ := c.exists_runAs
  refine ⟨?_, ?_, ?_, ?_, ?_, ?_⟩
  · intro lowering index value h
    rw [hrun]
    exact runAs_of_input hα h lowering
  · intro lowering index value hinput h
    rw [hrun]
    exact runAs_of_filter hα hinput h lowering
  · intro hinput hfilter
    unfold run
    cases helement : c.element with
    | i8 => exact runAs_direct (helement ▸ represents_int8) hinput hfilter
    | u8 => exact runAs_direct (helement ▸ represents_uint8) hinput hfilter
  · intro hbias biasShape lowering
    have hoperands : ∀ (β : Type) [Activation β],
        Case.operands β { c with biasShape := biasShape } = c.operands β := by
      intro β _
      simp only [operands, hbias, Option.map_none]
    simp only [run, runAs, hoperands]
    rfl
  · intro hkind
    rw [hrun, hrun]
    exact runAs_depthwise hkind
  · intro hkind
    rw [hrun, hrun]
    exact runAs_patches hkind

end Case

end QuantizedConv
