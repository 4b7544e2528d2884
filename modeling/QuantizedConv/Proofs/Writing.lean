import QuantizedConv.Proofs.Windows

/-!
# What a kernel writes

All kernels write the elements of the output in row-major order, one after the other. `Filled` is
the invariant of the array on the way: the elements in front are the results of the kernel, and all
that follows is as it was before the call. One write takes it one element further (`put_ok`), all
channels of a pixel take it to the next pixel (`putChannels_ok`), and after all pixels
(`putWindows_ok`) it says what the call leaves behind (`Filled.at_position`). The last step of an element, from accumulator to
activation, succeeds in every channel (`activate_eq`).
-/

set_option autoImplicit false

namespace QuantizedConv

variable {α : Type}

/-- The array of a call after its first `k` elements were written. -/
structure Filled (output : Nhwc) (result : Coordinate → α) (before : Array α) (k : Nat)
    (buffer : Array α) : Prop where
  size : buffer.size = before.size
  done : ∀ i < k, buffer[i]? = some (result (output.coordinate i))
  rest : ∀ i, k ≤ i → buffer[i]? = before[i]?

namespace Filled

variable {output : Nhwc} {result : Coordinate → α} {before buffer : Array α} {k : Nat}

/-- Before the first write nothing has changed. -/
theorem start (output : Nhwc) (result : Coordinate → α) (before : Array α) :
    Filled output result before 0 before :=
  ⟨rfl, fun i hi => absurd hi (Nat.not_lt_zero i), fun _ _ => rfl⟩

/-- Writing the next element takes the array one element further. -/
theorem next (h : Filled output result before k buffer) (hk : k < before.size) :
    Filled output result before (k + 1)
      (buffer.setIfInBounds k (result (output.coordinate k))) := by
  refine ⟨by rw [Array.size_setIfInBounds, h.size], ?_, ?_⟩
  · intro i hi
    by_cases hik : i = k
    · subst hik
      rw [Array.getElem?_setIfInBounds_self, if_pos (h.size.symm ▸ hk)]
    · rw [Array.getElem?_setIfInBounds_ne (Ne.symm hik)]
      exact h.done i (by omega)
  · intro i hi
    rw [Array.getElem?_setIfInBounds_ne (by omega)]
    exact h.rest i (by omega)

/-- After the last write every element holds its result. -/
theorem at_position (h : Filled output result before output.size buffer) {t : Coordinate}
    (ht : output.Holds t) : buffer[output.position t]? = some (result t) := by
  rw [h.done _ (Nhwc.position_lt ht), Nhwc.coordinate_position ht]

/-- Two arrays written over the same one with the same results are equal. -/
theorem unique {other : Coordinate → α} {buffer' : Array α}
    (h : Filled output result before k buffer) (h' : Filled output other before k buffer')
    (heq : ∀ i < k, result (output.coordinate i) = other (output.coordinate i)) :
    buffer = buffer' := by
  refine Array.ext_getElem? fun i => ?_
  by_cases hi : i < k
  · rw [h.done i hi, h'.done i hi, heq i hi]
  · rw [h.rest i (by omega), h'.rest i (by omega)]

end Filled

namespace Outcome

variable {shape : Shape} {output : Nhwc} {result : Coordinate → α} {before buffer : Array α}
  {t : Coordinate} {element : Except Fault α}

/-- A write of an element that was computed. -/
theorem put_ok (hs : Nhwc.ofShape? shape = some output) (hcount : output.Countable)
    (hsize : output.size ≤ before.size) (ht : output.Holds t) (helement : element = .ok (result t))
    (h : Filled output result before (output.position t) buffer) :
    ∃ next, put shape t element buffer = .ok next ∧
      Filled output result before (output.position t + 1) next := by
  have hposition : output.position t < before.size :=
    (Nhwc.position_lt ht).trans_le hsize
  have hoffset :=
    Shape.offset_eq_position hs hcount ht.batch ht.row ht.column (Nat.le_of_lt ht.channel)
  refine ⟨buffer.setIfInBounds (output.position t) (result t), ?_, ?_⟩
  · rw [put, helement, hoffset]
    exact if_pos (h.size.symm ▸ hposition)
  · have hnext := h.next hposition
    rwa [Nhwc.coordinate_position ht] at hnext

/-- A write of an element that was not computed. -/
theorem put_error {fault : Fault} (helement : element = .error fault) :
    put shape t element buffer = .error ⟨fault, buffer⟩ := by
  rw [put, helement]
  rfl

/-- Writing all channels of a pixel in turn. -/
theorem putChannels_ok (hs : Nhwc.ofShape? shape = some output) (hcount : output.Countable)
    (hsize : output.size ≤ before.size) {batch row column : Nat} (hb : batch < output.batches)
    (hr : row < output.height) (hc : column < output.width) {elements : Nat → Except Fault α}
    (helements : ∀ channel < output.channels,
      elements channel = .ok (result ⟨batch, row, column, channel⟩))
    (h : Filled output result before
      (((batch * output.height + row) * output.width + column) * output.channels) buffer) :
    ∃ next, foldIndices output.channels (fun buffer channel =>
        put shape ⟨batch, row, column, channel⟩ (elements channel) buffer) buffer = .ok next ∧
      Filled output result before
        (((batch * output.height + row) * output.width + column + 1) * output.channels) next := by
  rw [Nat.succ_mul]
  refine foldIndices_ok (fun channel => Filled output result before
    (((batch * output.height + row) * output.width + column) * output.channels + channel))
    h ?_
  intro channel hchannel buffer hbuffer
  exact put_ok hs hcount hsize ⟨hb, hr, hc, hchannel⟩ (helements channel hchannel) hbuffer

/-- **Writing all pixels in turn**, each from its window. -/
theorem putWindows_ok {layer : Layer} {filter : Nhwc} (hfits : layer.Fits output filter)
    (before : Array α) {write : Array α → Window → Except (Stopped (Array α)) (Array α)}
    (hwrite : ∀ batch < output.batches, ∀ row < output.height, ∀ column < output.width, ∀ buffer,
      Filled output result before
        (((batch * output.height + row) * output.width + column) * output.channels) buffer →
      ∃ next, write buffer (layer.windowAt batch row column) = .ok next ∧
        Filled output result before
          (((batch * output.height + row) * output.width + column + 1) * output.channels) next) :
    ∃ buffer, ofWrites (layer.foldWindows output (fun buffer fault => ⟨fault, buffer⟩) write
        before) = ⟨buffer, .ok ()⟩ ∧
      Filled output result before output.size buffer := by
  have hloops : ∃ buffer, layer.foldWindows output
      (fun buffer fault => (⟨fault, buffer⟩ : Stopped (Array α))) write before = .ok buffer ∧
      Filled output result before output.size buffer := by
    refine Layer.foldWindows_ok hfits
      (fun pixel => Filled output result before (pixel * output.channels)) ?_ hwrite
    rw [Nat.zero_mul]
    exact Filled.start _ _ _
  obtain ⟨buffer, hwrites, hfilled⟩ := hloops
  exact ⟨buffer, by rw [hwrites, ofWrites], hfilled⟩

end Outcome

namespace Checked

variable {β : Type}

/-- An array is read inside its bounds. -/
theorem get_eq {xs : Array β} {i : Nat} (h : i < xs.size) : get xs i = .ok xs[i] := by
  unfold get
  rw [Array.getElem?_eq_getElem h]

/-- What is read inside the bounds of an array does not depend on the standard element. -/
theorem get_eq_getD {xs : Array β} {i : Nat} (h : i < xs.size) (standard : β) :
    get xs i = .ok (xs.getD i standard) := by
  rw [get_eq h, Array.getD_eq_getD_getElem?, Array.getElem?_eq_getElem h]
  rfl

/-- An array is not read outside its bounds. -/
theorem get_eq_error {xs : Array β} {i : Nat} (h : xs.size ≤ i) :
    get xs i = .error (.index xs.size i) := by
  unfold get
  rw [Array.getElem?_eq_none h]

/-- A slice whose ends lie in order inside an array is cut out. -/
theorem slice_eq {xs : Array β} {start stop : Nat} (horder : start ≤ stop)
    (hstop : stop ≤ xs.size) : slice xs start stop = .ok (xs.extract start stop) := by
  unfold slice
  rw [if_neg (by omega), if_neg (by omega)]

/-- A sum that is a size is computed without a fault. -/
theorem add_eq {a b : Nat} (h : a + b < sizeBound) : add a b = .ok (a + b) := if_pos h

/-- A product that is a size is computed without a fault. -/
theorem mul_eq {a b : Nat} (h : a * b < sizeBound) : mul a b = .ok (a * b) := if_pos h

end Checked

namespace Operands

/-- The bias of a channel, zero where there is none. -/
def biasAt (operands : Operands α) (channel : Nat) : Int :=
  operands.bias.elim 0 fun tensor => (tensor.data.getD channel 0).toInt

/-- The scale of a channel. -/
def scaleAt (operands : Operands α) (channel : Nat) : FixedScale :=
  ⟨operands.scales.multiplier.getD channel 0, operands.scales.shift.getD channel 0⟩

/-- The activation of a channel from an exact sum: the sum is wrapped to 32 bits once, then scaled,
moved, clamped and narrowed. -/
def activation [Activation α] (layer : Layer) (operands : Operands α) (channel : Nat) (sum : Int) :
    α :=
  Activation.narrow (requantize (operands.scaleAt channel) layer.outputOffset layer.activation
    (Int32.ofInt sum))

/-- The last step of an element succeeds in every channel. -/
theorem activate_eq [Activation α] {layer : Layer} {operands : Operands α} {outputShape : Shape}
    {e : CallExtents} (h : Admitted layer operands outputShape e) {channel : Nat}
    (hchannel : channel < e.output.channels) (sum : Int) :
    operands.activate layer channel (Int32.ofInt sum) =
      .ok (operands.activation layer channel (operands.biasAt channel + sum)) := by
  have hmultiplier := Checked.get_eq_getD (h.multiplier ▸ hchannel) (0 : Int32)
  have hshift := Checked.get_eq_getD (h.shift ▸ hchannel) (0 : Int32)
  unfold activate activation biasAt scaleAt
  cases hbias : operands.bias with
  | none =>
    simp only [Option.elim_none, zero_add]
    rw [bind_of_ok rfl, bind_of_ok hmultiplier, bind_of_ok hshift]
  | some tensor =>
    have hget := Checked.get_eq_getD (hchannel.trans_le (h.bias tensor hbias).2) (0 : Int32)
    simp only [Option.elim_some]
    rw [bind_of_ok hget, bind_of_ok rfl, bind_of_ok hmultiplier, bind_of_ok hshift,
      add_comm (tensor.data.getD channel 0).toInt, Int32.ofInt_add, Int32.ofInt_toInt]

end Operands

end QuantizedConv
