import QuantizedConv.Kernel.Depthwise
import QuantizedConv.Kernel.Patches
import QuantizedConv.Proofs.CarriedLoops

/-!
# Kernels on recoded activations

Two types of activations can stand for the same values: a map from one to the other changes what is
read by a constant, and the input offset takes it back; what is written goes through the map at the
very end. `Recoding` says what such a map and two layers need to have in common. Then every kernel does
the same on recoded operands, step by step: it accepts the same calls, stops at the same faults, and
its array is at every moment the recoded array. The argument goes along the definitions: computations
are carried over by `carry`, loops carry over what their steps do (`foldIndices_carry`,
`foldPixels_carry`), and each function of a kernel has one lemma.
-/

set_option autoImplicit false

namespace QuantizedConv

variable {α β : Type}

/-- The tensor of the same shape with every element recoded. -/
def Tensor.map (f : α → β) (tensor : Tensor α) : Tensor β := ⟨tensor.shape, tensor.data.map f⟩

/-- The operands with every input recoded. -/
def Operands.map (f : α → β) (operands : Operands α) : Operands β :=
  ⟨operands.input.map f, operands.filter, operands.bias, operands.scales⟩

/-- What a call leaves behind, with every output recoded. -/
def Outcome.map (f : α → β) (outcome : Outcome α) : Outcome β :=
  ⟨outcome.buffer.map f, outcome.ending⟩

/-- A map of activations, and two layers that differ in the offsets and in the range of the outputs:
recoded inputs have the same values with the offset added, and outputs are recoded. -/
structure Recoding [Activation α] [Activation β] (f : α → β) (layer layer' : Layer) : Prop where
  height : layer'.height = layer.height
  width : layer'.width = layer.width
  input : ∀ x, Activation.widen (f x) + layer'.inputOffset =
    Activation.widen x + layer.inputOffset
  output : ∀ scale acc,
    (Activation.narrow (requantize scale layer'.outputOffset layer'.activation acc) : β) =
      f (Activation.narrow (requantize scale layer.outputOffset layer.activation acc))

section Reads

variable (f : α → β)

/-- Reading from a recoded array gives the recoded element. -/
theorem Checked.get_map (xs : Array α) (i : Nat) :
    get (xs.map f) i = carry id f (get xs i) := by
  unfold get
  rw [Array.getElem?_map, Array.size_map]
  cases xs[i]? <;> rfl

/-- A slice of a recoded array is the recoded slice. -/
theorem Checked.slice_map (xs : Array α) (start stop : Nat) :
    slice (xs.map f) start stop = carry id (Array.map f) (slice xs start stop) := by
  unfold slice
  rw [Array.size_map]
  split
  · rfl
  · split
    · rfl
    · exact congrArg Except.ok Array.map_extract.symm

/-- A recoded tensor has as many elements as the tensor. -/
theorem Contract.filled_map (operand : Operand) (tensor : Tensor α) :
    filled operand (tensor.map f) = filled operand tensor := by
  simp only [filled, Tensor.map, Array.size_map]

/-- Writing a recoded element into a recoded array gives the recoded array. -/
theorem Outcome.put_map (shape : Shape) (target : Coordinate) (element : Except Fault α)
    (buffer : Array α) :
    put shape target (carry id f element) (buffer.map f) =
      carry (Stopped.map (Array.map f)) (Array.map f) (put shape target element buffer) := by
  unfold put
  rw [during_carry (Array.map f) buffer f element]
  refine carry_bind fun value => ?_
  -- the place does not depend on the elements
  cases shape.offset target.batch target.row target.column target.channel with
  | error fault => rfl
  | ok place =>
    simp only [Stopped.during]
    rw [bind_of_ok rfl, bind_of_ok rfl, Array.size_map]
    split
    · exact congrArg Except.ok Array.map_setIfInBounds.symm
    · rfl

/-- What recoded writes leave behind is the recoded outcome. -/
theorem Outcome.ofWrites_map (writes : Except (Stopped (Array α)) (Array α)) :
    ofWrites (carry (Stopped.map (Array.map f)) (Array.map f) writes) = (ofWrites writes).map f := by
  cases writes <;> rfl

end Reads

variable [Activation α] [Activation β] {f : α → β} {layer layer' : Layer}

namespace Recoding

/-- Windows are laid in the same way. -/
theorem foldInside_eq {γ : Type} (h : Recoding f layer layer') :
    layer'.foldInside (β := γ) = layer.foldInside := by
  unfold Layer.foldInside
  rw [h.height, h.width]

/-- Both layers visit the same cells of a window. -/
theorem foldWindow_eq {γ : Type} (h : Recoding f layer layer') :
    layer'.foldWindow (β := γ) = layer.foldWindow := by
  unfold Layer.foldWindow
  rw [h.height, h.width]

/-- Both layers visit the same windows. -/
theorem foldWindows_eq {ε σ : Type} (h : Recoding f layer layer') :
    layer'.foldWindows (ε := ε) (σ := σ) = layer.foldWindows := by
  unfold Layer.foldWindows
  rw [h.height, h.width]

/-- The checks that all kernels share accept the same operands. -/
theorem operandsFit_eq (h : Recoding f layer layer') (operands : Operands α) (shape : Shape)
    (e : CallExtents) :
    Contract.operandsFit layer' (operands.map f) shape e =
      Contract.operandsFit layer operands shape e := by
  have hinput : Contract.filled .input (operands.map f).input =
      Contract.filled .input operands.input := Contract.filled_map f .input operands.input
  unfold Contract.operandsFit
  rw [hinput, h.height, h.width]
  rfl

/-- The last step of an element recodes it. -/
theorem activate_eq (h : Recoding f layer layer') (operands : Operands α) (channel : Nat)
    (acc : Int32) :
    (operands.map f).activate layer' channel acc =
      carry id f (operands.activate layer channel acc) := by
  -- the scale is read after the bias, and the value is recoded last
  have hscaled (biased multiplier shift : Int32) :=
    congrArg (Except.ok (ε := Fault)) (h.output ⟨multiplier, shift⟩ biased)
  simp only [Operands.activate, Operands.map]
  cases operands.bias with
  | none =>
    refine bind_carry fun biased => bind_carry fun multiplier => bind_carry fun shift => ?_
    exact hscaled biased multiplier shift
  | some tensor =>
    refine bind_carry fun bias => bind_carry fun biased => bind_carry fun multiplier => ?_
    refine bind_carry fun shift => ?_
    exact hscaled biased multiplier shift

end Recoding

namespace Dense

/-- Dense convolution accepts the same calls on recoded operands. -/
theorem check_map (h : Recoding f layer layer') (operands : Operands α) (output : Tensor α) :
    check layer' (operands.map f) (output.map f) = check layer operands output := by
  have hcontract : Contract.dense layer' (operands.map f) (output.map f).shape =
      Contract.dense layer operands output.shape := by
    refine bind_congr fun e => bind_congr fun _ => bind_congr fun _ => bind_congr fun _ => ?_
    rw [h.operandsFit_eq]
    rfl
  unfold check
  rw [hcontract, Contract.filled_map]

/-- The products of weights and recoded inputs have the same sum. -/
theorem dot_map (h : Recoding f layer layer') (weights : List Int8) (values : List α) :
    dot weights (values.map f) layer'.inputOffset = dot weights values layer.inputOffset := by
  unfold dot
  rw [List.zip_map_right, List.foldl_map]
  simp only [Prod.map, id, h.input]

/-- A cell of the filter adds the same sum on recoded operands. -/
theorem cellSum_map (h : Recoding f layer layer') (operands : Operands α) (e : CallExtents)
    (window : Window) (channel : Nat) (cell : WindowCell) :
    cellSum layer' (operands.map f) e window channel cell =
      cellSum layer operands e window channel cell := by
  refine bind_congr fun inputBase => bind_congr fun filterBase => bind_congr fun inputEnd => ?_
  have hslice := Checked.slice_map f operands.input.data inputBase inputEnd
  refine (congrArg (· >>= _) hslice).trans (carry_bind_eq fun values => ?_)
  refine bind_congr fun filterEnd => bind_congr fun weights => ?_
  rw [Array.toList_map, dot_map h]

/-- An output element of recoded operands is the recoded element. -/
theorem element_map (h : Recoding f layer layer') (operands : Operands α) (e : CallExtents)
    (window : Window) (channel : Nat) :
    element layer' (operands.map f) e window channel =
      carry id f (element layer operands e window channel) := by
  have hsum : accumulate layer' (operands.map f) e window channel =
      accumulate layer operands e window channel := by
    unfold accumulate
    simp only [h.foldInside_eq, cellSum_map h]
  unfold element
  rw [hsum]
  exact bind_carry fun acc => h.activate_eq operands channel acc

/-- A window of recoded operands writes the recoded elements. -/
theorem writeWindow_map (h : Recoding f layer layer') (operands : Operands α) (shape : Shape)
    (e : CallExtents) (buffer : Array α) (window : Window) :
    writeWindow layer' (operands.map f) shape e (buffer.map f) window =
      carry (Stopped.map (Array.map f)) (Array.map f)
        (writeWindow layer operands shape e buffer window) := by
  refine foldIndices_carry (fun channel buffer => ?_) _ buffer
  rw [element_map h]
  exact Outcome.put_map f shape _ _ buffer

/-- **Direct convolution of recoded operands** is the recoded convolution. -/
theorem convolve_map (h : Recoding f layer layer') (operands : Operands α) (output : Tensor α) :
    convolve layer' (operands.map f) (output.map f) = (convolve layer operands output).map f := by
  unfold convolve
  rw [check_map h]
  cases check layer operands output with
  | error refusal => rfl
  | ok e =>
    simp only [h.foldWindows_eq, ← Outcome.ofWrites_map]
    exact congrArg Outcome.ofWrites
      (foldWindows_carry layer e.output (writeWindow_map h operands output.shape e) output.data)

end Dense

namespace Patches

/-- A cell of a window adds the same entries to the patch matrix. -/
theorem cellEntries_map (h : Recoding f layer layer') (operands : Operands α) (e : CallExtents)
    (window : Window) (cell : Option WindowCell) :
    cellEntries layer' (operands.map f) e window cell =
      cellEntries layer operands e window cell := by
  cases cell with
  | none => rfl
  | some cell =>
    refine bind_congr fun base => bind_congr fun stop => ?_
    have hslice := Checked.slice_map f operands.input.data base stop
    refine (congrArg (· >>= _) hslice).trans (carry_bind_eq fun values => ?_)
    rw [Array.map_map]
    exact congrArg (fun g => Except.ok (values.map g)) (funext h.input)

/-- Recoded operands have the same patch matrix. -/
theorem prepare_map (h : Recoding f layer layer') (operands : Operands α) (e : CallExtents) :
    prepare layer' (operands.map f) e = prepare layer operands e := by
  have hrow : appendRow layer' (operands.map f) e = appendRow layer operands e := by
    funext rows window
    unfold appendRow
    simp only [h.foldWindow_eq, cellEntries_map h]
  unfold prepare matrix appendRows
  rw [hrow, h.foldWindows_eq]

/-- An output element from a row of the patch matrix is the recoded element. -/
theorem element_map (h : Recoding f layer layer') (operands : Operands α) (patch : Array Int32)
    (columns channel : Nat) :
    element layer' (operands.map f) patch columns channel =
      carry id f (element layer operands patch columns channel) :=
  bind_carry fun _ => h.activate_eq operands channel _

/-- A pixel is written with the recoded elements. -/
theorem writePixel_map (h : Recoding f layer layer') (operands : Operands α) (shape : Shape)
    (output : Nhwc) (patch : Array Int32) (columns batch row column : Nat) (buffer : Array α) :
    writePixel layer' (operands.map f) shape output patch columns batch row column (buffer.map f) =
      carry (Stopped.map (Array.map f)) (Array.map f)
        (writePixel layer operands shape output patch columns batch row column buffer) := by
  refine foldIndices_carry (fun channel buffer => ?_) _ buffer
  rw [element_map h]
  exact Outcome.put_map f shape _ _ buffer

/-- The running number of the row is the same beside the recoded array. -/
theorem writeRow_map (h : Recoding f layer layer') (operands : Operands α) (shape : Shape)
    (output : Nhwc) (entries : Array Int32) (columns : Nat) (state : Array α × Nat)
    (batch row column : Nat) :
    writeRow layer' (operands.map f) shape output entries columns (state.map (Array.map f) id)
        batch row column =
      carry (Stopped.map (Array.map f)) (Prod.map (Array.map f) id)
        (writeRow layer operands shape output entries columns state batch row column) := by
  obtain ⟨buffer, index⟩ := state
  simp only [writeRow, Prod.map]
  rw [during_map (Array.map f) buffer]
  refine carry_bind fun patch => ?_
  rw [writePixel_map h]
  refine carry_bind fun written => ?_
  rw [during_map (Array.map f) written]
  exact carry_bind fun next => rfl

/-- The whole output is written with the recoded elements. -/
theorem writeRows_map (h : Recoding f layer layer') (operands : Operands α) (shape : Shape)
    (output : Nhwc) (entries : Array Int32) (columns : Nat) (buffer : Array α) :
    writeRows layer' (operands.map f) shape output entries columns (buffer.map f) =
      carry (Stopped.map (Array.map f)) (Array.map f)
        (writeRows layer operands shape output entries columns buffer) := by
  have hloops : foldPixels output .ok .ok
      (fun state fault => (⟨fault, state.1⟩ : Stopped (Array β)))
      (fun state batch row _ column _ => writeRow layer' (operands.map f) shape output entries columns
        state batch row column) (Prod.map (Array.map f) id (buffer, 0)) =
      carry (Stopped.map (Array.map f)) (Prod.map (Array.map f) id)
        (foldPixels output .ok .ok (fun state fault => (⟨fault, state.1⟩ : Stopped (Array α)))
          (fun state batch row _ column _ => writeRow layer operands shape output entries columns
            state batch row column) (buffer, 0)) := by
    refine foldPixels_carry (Stopped.map (Array.map f)) (Prod.map (Array.map f) id) ?_ ?_ (buffer, 0)
    · intro state fault
      rfl
    · intro state batch row _ column _
      exact writeRow_map h operands shape output entries columns state batch row column
  exact (congrArg (· >>= _) hloops).trans (carry_bind fun _ => rfl)

/-- **Convolution of recoded operands through the patch matrix** is the recoded convolution. -/
theorem convolve_map (h : Recoding f layer layer') (operands : Operands α) (output : Tensor α)
    (limit : Nat) :
    convolve layer' (operands.map f) (output.map f) limit =
      (convolve layer operands output limit).map f := by
  have hcheck : check layer' (operands.map f) (output.map f) limit =
      check layer operands output limit := by
    unfold check
    rw [Dense.check_map h]
  unfold convolve
  rw [hcheck]
  cases check layer operands output limit with
  | error refusal => rfl
  | ok e =>
    simp only [prepare_map h]
    cases prepare layer operands e with
    | error fault => rfl
    | ok prepared =>
      simp only [← Outcome.ofWrites_map]
      exact congrArg Outcome.ofWrites
        (writeRows_map h operands output.shape e.output prepared.1 prepared.2 output.data)

end Patches

namespace Depthwise

variable {multiplier : UInt64}

/-- Depthwise convolution accepts the same calls on recoded operands. -/
theorem check_map (h : Recoding f layer layer') (operands : Operands α) (output : Tensor α) :
    check ⟨layer', multiplier⟩ (operands.map f) (output.map f) =
      check ⟨layer, multiplier⟩ operands output := by
  have hcontract : Contract.depthwise ⟨layer', multiplier⟩ (operands.map f) (output.map f).shape =
      Contract.depthwise ⟨layer, multiplier⟩ operands output.shape := by
    refine bind_congr fun e => bind_congr fun _ => bind_congr fun _ => bind_congr fun _ => ?_
    rw [h.operandsFit_eq]
    rfl
  unfold check
  rw [hcontract, Contract.filled_map]

/-- A cell of the filter adds the same term on recoded operands. -/
theorem cellTerm_map (h : Recoding f layer layer') (operands : Operands α) (window : Window)
    (group channel : Nat) (cell : WindowCell) :
    cellTerm ⟨layer', multiplier⟩ (operands.map f) window group channel cell =
      cellTerm ⟨layer, multiplier⟩ operands window group channel cell := by
  refine bind_congr fun place => ?_
  have hget := Checked.get_map f operands.input.data place
  refine (congrArg (· >>= _) hget).trans (carry_bind_eq fun value => ?_)
  refine bind_congr fun filterPlace => bind_congr fun weight => ?_
  exact congrArg (fun x => Except.ok (weight.toInt32 * x)) (h.input value)

/-- A depthwise output element of recoded operands is the recoded element. -/
theorem element_map (h : Recoding f layer layer') (operands : Operands α) (e : CallExtents)
    (window : Window) (group channel : Nat) :
    element ⟨layer', multiplier⟩ (operands.map f) e window group channel =
      carry id f (element ⟨layer, multiplier⟩ operands e window group channel) := by
  have hsum : accumulate ⟨layer', multiplier⟩ (operands.map f) e window group channel =
      accumulate ⟨layer, multiplier⟩ operands e window group channel := by
    unfold accumulate
    simp only [h.foldInside_eq, cellTerm_map h]
  unfold element
  rw [hsum]
  exact bind_carry fun acc => h.activate_eq operands channel acc

/-- A depthwise window of recoded operands writes the recoded elements. -/
theorem writeWindow_map (h : Recoding f layer layer') (operands : Operands α) (shape : Shape)
    (e : CallExtents) (buffer : Array α) (window : Window) :
    writeWindow ⟨layer', multiplier⟩ (operands.map f) shape e (buffer.map f) window =
      carry (Stopped.map (Array.map f)) (Array.map f)
        (writeWindow ⟨layer, multiplier⟩ operands shape e buffer window) := by
  refine foldIndices_carry (fun group buffer => foldIndices_carry (fun member buffer => ?_) _ buffer)
    _ buffer
  rw [during_map (Array.map f) buffer]
  refine carry_bind fun channel => ?_
  rw [element_map h]
  exact Outcome.put_map f shape _ _ buffer

/-- **Depthwise convolution of recoded operands** is the recoded convolution, up to the fault where
there is one. -/
theorem convolve_map (h : Recoding f layer layer') (operands : Operands α) (output : Tensor α) :
    convolve ⟨layer', multiplier⟩ (operands.map f) (output.map f) =
      (convolve ⟨layer, multiplier⟩ operands output).map f := by
  unfold convolve
  rw [check_map h]
  cases check ⟨layer, multiplier⟩ operands output with
  | error refusal => rfl
  | ok e =>
    simp only [h.foldWindows_eq, ← Outcome.ofWrites_map]
    exact congrArg Outcome.ofWrites
      (foldWindows_carry layer e.output (writeWindow_map h operands output.shape e) output.data)

end Depthwise

end QuantizedConv
