import QuantizedConv.Proofs.BlockDiagonal
import QuantizedConv.Proofs.FreshOutputs

/-!
# Batches are independent

The outermost extent of a tensor is its number of batches, so that consecutive batches are a
consecutive piece of the array (`Excerpt`). A call on a piece of the batches of an accepted call is
accepted: all numbers that a contract bounds, and the memory for a patch matrix, only get smaller. It
computes the elements of the accepted call at the same batches (`result_of_excerpt`). `Elementwise`
says what all kernels have in common, and two calls on the two pieces of an input then leave the two
pieces of the output (`Elementwise.batchesIndependent`).
-/

set_option autoImplicit false

namespace QuantizedConv

/-- The element at the same place, `first` batches later. -/
def Coordinate.later (t : Coordinate) (first : Nat) : Coordinate :=
  { t with batch := first + t.batch }

/-- A coordinate moved by no batches is the same coordinate. -/
theorem Coordinate.later_zero (t : Coordinate) : t.later 0 = t := by
  simp only [later, Nat.zero_add]

namespace Nhwc

/-- The number of elements of one batch. -/
def batchSize (e : Nhwc) : Nat := e.height * e.width * e.channels

/-- The same extents with another number of batches. -/
def withBatches (e : Nhwc) (count : Nat) : Nhwc := { e with batches := count }

variable (e : Nhwc) (first count : Nat)

/-- A piece of the batches has as many elements as the piece has batches of that size. -/
theorem size_withBatches : (e.withBatches count).size = count * e.batchSize := by
  simp only [withBatches, size, batchSize, Nat.mul_assoc]

/-- An element of a later piece lies behind all batches in front of the piece. -/
theorem position_later (t : Coordinate) :
    e.position (t.later first) = first * e.batchSize + (e.withBatches count).position t := by
  simp only [position, Coordinate.later, batchSize, withBatches]
  ring

/-- A piece of the batches of a tensor that can be counted can be counted. -/
theorem Countable.withBatches {e : Nhwc} {count : Nat} (h : e.Countable) (hle : count ≤ e.batches) :
    (e.withBatches count).Countable := by
  have hplanes : count * e.height ≤ e.batches * e.height := Nat.mul_le_mul_right _ hle
  have hrows : count * e.height * e.width ≤ e.batches * e.height * e.width :=
    Nat.mul_le_mul_right _ hplanes
  have hsize : count * e.height * e.width * e.channels ≤ e.size := Nat.mul_le_mul_right _ hrows
  exact ⟨hplanes.trans_lt h.planes, hrows.trans_lt h.rows, hsize.trans_lt h.size⟩

/-- The indices of an element that is `first` batches behind another one. -/
theorem coordinate_later {i : Nat} (hi : i < count * e.batchSize) :
    e.coordinate (first * e.batchSize + i) =
      ((e.withBatches count).coordinate i).later first := by
  -- a piece with an element has no extent zero
  have hbatch : 0 < e.batchSize := Nat.pos_of_ne_zero fun hzero => by simp [hzero] at hi
  have hchannels : 0 < e.channels := Nat.pos_of_mul_pos_left hbatch
  have hwidth : 0 < e.width := Nat.pos_of_mul_pos_left (Nat.pos_of_mul_pos_right hbatch)
  have hheight : 0 < e.height := Nat.pos_of_mul_pos_right (Nat.pos_of_mul_pos_right hbatch)
  have hsplit : first * e.batchSize + i = i + first * e.height * e.width * e.channels := by
    rw [batchSize]
    ring
  simp only [coordinate, Coordinate.later, withBatches, hsplit, Nat.add_mul_div_right _ _ hchannels,
    Nat.add_mul_div_right _ _ hwidth, Nat.add_mul_div_right _ _ hheight, Nat.add_mul_mod_self_right,
    Nat.add_comm first]

/-- A table depends only on the values inside the extents. -/
theorem tabulate_congr {α : Type} {result result' : Coordinate → α}
    (h : ∀ t, e.Holds t → result t = result' t) : e.tabulate result = e.tabulate result' :=
  List.map_congr_left fun _ hi => h _ (e.holds_coordinate (List.mem_range.mp hi))

/-- The elements of all batches are those of the first ones and then those of the others. -/
theorem tabulate_append {α : Type} (second : Nat) (result : Coordinate → α) :
    (e.withBatches (first + second)).tabulate result =
      (e.withBatches first).tabulate result ++
        (e.withBatches second).tabulate fun t => result (t.later first) := by
  simp only [tabulate, size_withBatches, Nat.add_mul, List.range_add, List.map_append,
    List.map_map]
  congr 1
  refine List.map_congr_left fun i hi => ?_
  exact congrArg result (e.coordinate_later first second (List.mem_range.mp hi))

end Nhwc

/-- The extents of the same call on another number of batches. -/
def CallExtents.withBatches (e : CallExtents) (count : Nat) : CallExtents :=
  { e with input := e.input.withBatches count, output := e.output.withBatches count }

variable {α : Type}

/-- A tensor that holds `count` batches of another one, from `first` on. -/
structure Excerpt (e : Nhwc) (tensor : Tensor α) (first count : Nat) (part : Tensor α) : Prop where
  shape : Nhwc.ofShape? part.shape = some (e.withBatches count)
  within : first + count ≤ e.batches
  size : part.data.size = count * e.batchSize
  entry : ∀ i < count * e.batchSize, part.data[i]? = tensor.data[first * e.batchSize + i]?

/-- An excerpt has no more batches than the tensor. -/
theorem Excerpt.count_le {e : Nhwc} {tensor part : Tensor α} {first count : Nat}
    (h : Excerpt e tensor first count part) : count ≤ e.batches :=
  (Nat.le_add_left count first).trans h.within

/-- A tensor whose array is cut out of the middle of another, by whole batches, is an excerpt of
it. -/
theorem excerpt_of_append {e : Nhwc} {tensor part : Tensor α} {first count : Nat}
    (front rest : Array α) (hdata : tensor.data = front ++ part.data ++ rest)
    (hfront : front.size = first * e.batchSize) (hpart : part.data.size = count * e.batchSize)
    (hshape : Nhwc.ofShape? part.shape = some (e.withBatches count))
    (hwithin : first + count ≤ e.batches) : Excerpt e tensor first count part := by
  refine ⟨hshape, hwithin, hpart, ?_⟩
  intro i hi
  rw [hdata, Array.append_assoc, Array.getElem?_append_right (by omega), hfront,
    Nat.add_sub_cancel_left, Array.getElem?_append_left (by omega)]

/-- An element of an excerpt is the element of the tensor so many batches later. -/
theorem Excerpt.integer_eq [Activation α] {e : Nhwc} {tensor part : Tensor α} {first count : Nat}
    (h : Excerpt e tensor first count part) {t : Coordinate} (ht : (e.withBatches count).Holds t) :
    part.integer ((e.withBatches count).position t) =
      tensor.integer (e.position (t.later first)) := by
  have hposition := Nhwc.position_lt ht
  rw [Nhwc.size_withBatches] at hposition
  unfold Tensor.integer
  rw [h.entry _ hposition, e.position_later first count t]

section Contract

variable {operands : Operands α} {outputShape partShape : Shape} {e : CallExtents}
  {first count : Nat} {part : Tensor α}

/-- What is asked of all kernels is asked of a piece of the batches too. -/
theorem Admitted.excerpt {layer : Layer} (h : Admitted layer operands outputShape e)
    (hpart : Excerpt e.input operands.input first count part)
    (hshape : Nhwc.ofShape? partShape = some (e.output.withBatches count)) :
    Admitted layer { operands with input := part } partShape (e.withBatches count) where
  input := hpart.shape
  filter := h.filter
  output := hshape
  batches := rfl
  bias := h.bias
  multiplier := h.multiplier
  shift := h.shift
  inputCount := h.inputCount.withBatches hpart.count_le
  inputData := le_of_eq ((e.input.size_withBatches count).trans hpart.size.symm)
  filterCount := h.filterCount
  filterData := h.filterData
  outputCount := h.outputCount.withBatches (h.batches ▸ hpart.count_le)
  height := h.height
  width := h.width

/-- A dense call that is admitted is admitted on an excerpt of its input too. -/
theorem Dense.Admitted.excerpt {layer : Layer} (h : Dense.Admitted layer operands outputShape e)
    (hpart : Excerpt e.input operands.input first count part)
    (hshape : Nhwc.ofShape? partShape = some (e.output.withBatches count)) :
    Dense.Admitted layer { operands with input := part } partShape (e.withBatches count) :=
  ⟨h.toAdmitted.excerpt hpart hshape, h.depth, h.filters⟩

/-- A depthwise call that is admitted is admitted on an excerpt of its input too. -/
theorem Depthwise.Admitted.excerpt {layer : DepthwiseLayer}
    (h : Depthwise.Admitted layer operands outputShape e)
    (hpart : Excerpt e.input operands.input first count part)
    (hshape : Nhwc.ofShape? partShape = some (e.output.withBatches count)) :
    Depthwise.Admitted layer { operands with input := part } partShape (e.withBatches count) :=
  ⟨h.toAdmitted.excerpt hpart hshape, h.product, h.groups, h.depth⟩

/-- The matrix of a piece of the batches has fewer rows, and takes no more memory. -/
theorem Patches.Measured.withBatches {bytes : Nat} (h : Patches.Measured e bytes)
    (hle : count ≤ e.output.batches) :
    ∃ fewer ≤ bytes, Patches.Measured (e.withBatches count) fewer := by
  have hplanes : count * e.output.height ≤ e.output.batches * e.output.height :=
    Nat.mul_le_mul_right _ hle
  have hrows : Patches.rowCount (e.withBatches count) ≤ Patches.rowCount e :=
    Nat.mul_le_mul_right _ hplanes
  have hentries : Patches.rowCount (e.withBatches count) * Patches.columnCount e ≤
      Patches.rowCount e * Patches.columnCount e := Nat.mul_le_mul_right _ hrows
  have htotal := Nat.mul_le_mul_right 4 hentries
  exact ⟨_, htotal.trans_eq h.bytes, hplanes.trans_lt h.planes, hrows.trans_lt h.rows, h.cells,
    h.columns, hentries.trans_lt h.entries, htotal.trans_lt h.total, rfl⟩

end Contract

section Elements

variable [Activation α] {operands : Operands α} {e : CallExtents} {first count : Nat}
  {part : Tensor α}

/-- The results of a dense call on an excerpt are those of the whole call, so many batches later. -/
theorem Dense.result_of_excerpt {layer : Layer}
    (hpart : Excerpt e.input operands.input first count part) {t : Coordinate}
    (ht : t.batch < count) :
    Dense.result layer { operands with input := part } (e.withBatches count) t =
      Dense.result layer operands e (t.later first) := by
  have hsum : Dense.sum layer { operands with input := part } (e.withBatches count) t =
      Dense.sum layer operands e (t.later first) := by
    -- the windows are the same, and the input under each cell is read `first` batches later
    refine Layer.windowSum_congr fun filterRow _ filterColumn _ cell hcell => ?_
    obtain ⟨-, ⟨-, hrow⟩, -, hcolumn⟩ := Layer.cellAt_eq_some hcell
    refine Finset.sum_congr rfl fun c hc => ?_
    have hinteger := hpart.integer_eq (t := ⟨t.batch, cell.inputRow, cell.inputColumn, c⟩)
      ⟨ht, hrow, hcolumn, Finset.mem_range.mp hc⟩
    exact congrArg (fun x => _ * (x + _)) hinteger
  unfold Dense.result
  rw [hsum]
  rfl

/-- The results of a depthwise call on an excerpt are those of the whole call, so many batches
later. -/
theorem Depthwise.result_of_excerpt {layer : DepthwiseLayer} {outputShape : Shape}
    (h : Depthwise.Admitted layer operands outputShape e)
    (hpart : Excerpt e.input operands.input first count part) {t : Coordinate}
    (ht : t.batch < count) (hchannel : t.channel < e.output.channels) :
    Depthwise.result layer { operands with input := part } (e.withBatches count) t =
      Depthwise.result layer operands e (t.later first) := by
  have hsum : Depthwise.sum layer { operands with input := part } (e.withBatches count) t =
      Depthwise.sum layer operands e (t.later first) := by
    refine Layer.windowSum_congr fun filterRow _ filterColumn _ cell hcell => ?_
    obtain ⟨-, ⟨-, hrow⟩, -, hcolumn⟩ := Layer.cellAt_eq_some hcell
    have hinteger := hpart.integer_eq
      (t := ⟨t.batch, cell.inputRow, cell.inputColumn, t.channel / layer.depthMultiplier.toNat⟩)
      ⟨ht, hrow, hcolumn, h.group_lt hchannel⟩
    exact congrArg (fun x => _ * (x + _)) hinteger
  unfold Depthwise.result
  rw [hsum]
  rfl

end Elements

/-- **Batches are independent.** A call on `n` batches that ends well, with arrays exactly as long as
their shapes need, can be made as two calls on its first `n₁` and its last `n₂` batches: both end
well, and what they leave are the two pieces of what the call leaves. -/
def BatchesIndependent (call : Operands α → Tensor α → Outcome α) : Prop :=
  ∀ (operands : Operands α) (n n₁ n₂ h w c oh ow oc : UInt64) (x₁ x₂ y y₁ y₂ : Array α),
    n.toNat = n₁.toNat + n₂.toNat →
    x₁.size = n₁.toNat * h.toNat * w.toNat * c.toNat →
    x₂.size = n₂.toNat * h.toNat * w.toNat * c.toNat →
    y.size = n.toNat * oh.toNat * ow.toNat * oc.toNat →
    y₁.size = n₁.toNat * oh.toNat * ow.toNat * oc.toNat →
    y₂.size = n₂.toNat * oh.toNat * ow.toNat * oc.toNat →
    (call { operands with input := ⟨.nhwc n h w c, x₁ ++ x₂⟩ } ⟨.nhwc n oh ow oc, y⟩).ending =
      .ok () →
    (call { operands with input := ⟨.nhwc n₁ h w c, x₁⟩ } ⟨.nhwc n₁ oh ow oc, y₁⟩).ending =
        .ok () ∧
      (call { operands with input := ⟨.nhwc n₂ h w c, x₂⟩ } ⟨.nhwc n₂ oh ow oc, y₂⟩).ending =
        .ok () ∧
      (call { operands with input := ⟨.nhwc n h w c, x₁ ++ x₂⟩ } ⟨.nhwc n oh ow oc, y⟩).buffer =
        (call { operands with input := ⟨.nhwc n₁ h w c, x₁⟩ } ⟨.nhwc n₁ oh ow oc, y₁⟩).buffer ++
          (call { operands with input := ⟨.nhwc n₂ h w c, x₂⟩ } ⟨.nhwc n₂ oh ow oc, y₂⟩).buffer

/-- What all kernels have in common: a call that is accepted ends well with its results written, no
other call does, and a piece of the batches of an accepted call is accepted with the same results. -/
structure Elementwise (call : Operands α → Tensor α → Outcome α)
    (accepts : Operands α → Shape → CallExtents → Prop)
    (result : Operands α → CallExtents → Coordinate → α) : Prop where
  extents : ∀ operands shape e, accepts operands shape e →
    Nhwc.ofShape? operands.input.shape = some e.input ∧ Nhwc.ofShape? shape = some e.output
  accepted : ∀ operands output, (call operands output).ending = .ok () →
    ∃ e, accepts operands output.shape e
  writes : ∀ operands output e, accepts operands output.shape e →
    e.output.size ≤ output.data.size → ∃ buffer, call operands output = ⟨buffer, .ok ()⟩ ∧
      Filled e.output (result operands e) output.data e.output.size buffer
  excerpt : ∀ operands shape e, accepts operands shape e → ∀ first count part partShape,
    Excerpt e.input operands.input first count part →
    Nhwc.ofShape? partShape = some (e.output.withBatches count) →
      accepts { operands with input := part } partShape (e.withBatches count) ∧
        ∀ t, (e.output.withBatches count).Holds t →
          result { operands with input := part } (e.withBatches count) t =
            result operands e (t.later first)

namespace Elementwise

variable {call : Operands α → Tensor α → Outcome α}
  {accepts : Operands α → Shape → CallExtents → Prop}
  {result : Operands α → CallExtents → Coordinate → α}

/-- Into an array without room to spare, an accepted call leaves its results and nothing else. -/
theorem call_eq (hkernel : Elementwise call accepts result) {operands : Operands α}
    {output : Tensor α} {e : CallExtents} (h : accepts operands output.shape e)
    (hsize : output.data.size = e.output.size) :
    call operands output = ⟨(e.output.tabulate (result operands e)).toArray, .ok ()⟩ := by
  obtain ⟨buffer, hcall, hfilled⟩ := hkernel.writes operands output e h (le_of_eq hsize.symm)
  have hlist := hfilled.toList_eq
  rw [List.drop_eq_nil_of_le (by simp [hsize]), List.append_nil] at hlist
  rw [hcall, ← hlist, Array.toArray_toList]

/-- A call on a piece of the batches leaves the results of the whole call at these batches. -/
theorem call_excerpt (hkernel : Elementwise call accepts result) {operands : Operands α}
    {shape : Shape} {e : CallExtents} (h : accepts operands shape e) {first count : Nat}
    {part output : Tensor α} (hpart : Excerpt e.input operands.input first count part)
    (hshape : Nhwc.ofShape? output.shape = some (e.output.withBatches count))
    (hsize : output.data.size = (e.output.withBatches count).size) :
    call { operands with input := part } output =
      ⟨((e.output.withBatches count).tabulate fun t => result operands e (t.later first)).toArray,
        .ok ()⟩ := by
  obtain ⟨haccepts, hresult⟩ :=
    hkernel.excerpt operands shape e h first count part output.shape hpart hshape
  rw [hkernel.call_eq haccepts hsize]
  have helements := (e.output.withBatches count).tabulate_congr hresult
  exact congrArg (fun elements : List α => (⟨elements.toArray, .ok ()⟩ : Outcome α)) helements

/-- A kernel that computes its elements one by one treats the batches independently. -/
theorem batchesIndependent (hkernel : Elementwise call accepts result) :
    BatchesIndependent call := by
  intro operands n n₁ n₂ h w c oh ow oc x₁ x₂ y y₁ y₂ hn hx₁ hx₂ hy hy₁ hy₂ hok
  obtain ⟨e, he⟩ := hkernel.accepted _ _ hok
  obtain ⟨hinput, houtput⟩ := hkernel.extents _ _ e he
  -- the extents of the call are the dimensions of its shapes
  obtain ⟨⟨_, _, _, _⟩, filter, output⟩ := e
  cases hinput
  cases houtput
  have hbatch (k : Nat) : k * h.toNat * w.toNat * c.toNat = k * (h.toNat * w.toNat * c.toNat) := by
    ring
  have hfirst : Excerpt ⟨n.toNat, h.toNat, w.toNat, c.toNat⟩ ⟨.nhwc n h w c, x₁ ++ x₂⟩ 0 n₁.toNat
      ⟨.nhwc n₁ h w c, x₁⟩ :=
    excerpt_of_append #[] x₂ (by simp) (by simp) (hx₁.trans (hbatch _)) rfl (by simp only; omega)
  have hlast : Excerpt ⟨n.toNat, h.toNat, w.toNat, c.toNat⟩ ⟨.nhwc n h w c, x₁ ++ x₂⟩ n₁.toNat
      n₂.toNat ⟨.nhwc n₂ h w c, x₂⟩ :=
    excerpt_of_append x₁ #[] (by simp) (hx₁.trans (hbatch _)) (hx₂.trans (hbatch _)) rfl
      (by simp only; omega)
  rw [hkernel.call_eq he hy, hkernel.call_excerpt he hfirst rfl hy₁,
    hkernel.call_excerpt he hlast rfl hy₂]
  refine ⟨rfl, rfl, ?_⟩
  have hpieces (elements : Coordinate → α) :=
    Nhwc.tabulate_append ⟨n.toNat, oh.toNat, ow.toNat, oc.toNat⟩ n₁.toNat n₂.toNat elements
  simp only [← hn] at hpieces
  simp only [Coordinate.later_zero, List.append_toArray]
  exact congrArg List.toArray (hpieces _)

end Elementwise

variable [Activation α]

/-- Dense convolution computes its elements one by one. -/
theorem Dense.elementwise (layer : Layer) :
    Elementwise (α := α) (Dense.convolve layer) (Dense.Admitted layer) (Dense.result layer) where
  extents := fun _ _ _ h => ⟨h.input, h.output⟩
  accepted := by
    intro operands output hok
    rcases Dense.convolve_cases layer operands output with ⟨refusal, -, hrefused⟩ | ⟨e, h, -⟩
    · rw [hrefused] at hok
      cases hok
    · exact ⟨e, h⟩
  writes := fun _ _ _ h hsize => Dense.convolve_of_check (Dense.check_eq_ok_iff.mpr ⟨h, hsize⟩)
  excerpt := fun _ _ _ h _ _ _ _ hpart hshape =>
    ⟨h.excerpt hpart hshape, fun _ ht => Dense.result_of_excerpt hpart ht.batch⟩

/-- What a dense call needs that goes through the patch matrix. -/
def Patches.Accepts (layer : Layer) (limit : Nat) (operands : Operands α) (shape : Shape)
    (e : CallExtents) : Prop :=
  Dense.Admitted layer operands shape e ∧
    ∃ bytes, Patches.Measured e bytes ∧ bytes < limit ∧ bytes < Checked.signedBound

/-- Dense convolution through the patch matrix computes its elements one by one. -/
theorem Patches.elementwise (layer : Layer) (limit : Nat) :
    Elementwise (α := α) (fun operands output => Patches.convolve layer operands output limit)
      (Patches.Accepts layer limit) (Dense.result layer) where
  extents := fun _ _ _ h => ⟨h.1.input, h.1.output⟩
  accepted := by
    intro operands output hok
    cases hcheck : Patches.check layer operands output limit with
    | error refusal =>
      rw [Patches.convolve, hcheck] at hok
      cases hok
    | ok e =>
      obtain ⟨hdense, bytes, hbytes, hgranted⟩ := Patches.check_eq_ok_iff.mp hcheck
      exact ⟨e, (Dense.check_eq_ok_iff.mp hdense).1, bytes,
        Patches.scratchBytes?_eq_some_iff.mp hbytes, hgranted⟩
  writes := by
    rintro operands output e ⟨h, bytes, hbytes, hgranted⟩ hsize
    exact Patches.convolve_of_check (Patches.check_eq_ok_iff.mpr
      ⟨Dense.check_eq_ok_iff.mpr ⟨h, hsize⟩, bytes, Patches.scratchBytes?_eq_some_iff.mpr hbytes,
        hgranted⟩)
  excerpt := by
    rintro operands shape e ⟨h, bytes, hbytes, hlimit, hsigned⟩ first count part partShape hpart hshape
    have hle : count ≤ e.output.batches := h.batches ▸ hpart.count_le
    obtain ⟨fewer, hfewer, hmeasured⟩ := hbytes.withBatches hle
    exact ⟨⟨h.excerpt hpart hshape, fewer, hmeasured, hfewer.trans_lt hlimit,
      hfewer.trans_lt hsigned⟩, fun _ ht => Dense.result_of_excerpt hpart ht.batch⟩

/-- What a depthwise call needs to end well. -/
def Depthwise.Accepts (layer : DepthwiseLayer) (operands : Operands α) (shape : Shape)
    (e : CallExtents) : Prop :=
  Depthwise.Admitted layer operands shape e ∧
    ∀ t, e.output.Holds t → Depthwise.WeightedAt layer operands e t

/-- Depthwise convolution computes its elements one by one. -/
theorem Depthwise.elementwise (layer : DepthwiseLayer) :
    Elementwise (α := α) (Depthwise.convolve layer) (Depthwise.Accepts layer)
      (Depthwise.result layer) where
  extents := fun _ _ _ h => ⟨h.1.input, h.1.output⟩
  accepted := by
    intro operands output hok
    obtain ⟨refusal, -, hrefused⟩ | ⟨e, hcheck, hweights, -⟩ | ⟨e, -, -, buffer, fault, hfaulted⟩ :=
      Depthwise.convolve_cases layer operands output
    · rw [hrefused] at hok
      cases hok
    · obtain ⟨h, -⟩ := Depthwise.check_eq_ok_iff.mp hcheck
      exact ⟨e, h, not_not.mp (mt (Depthwise.missingWeight_iff h).mpr hweights)⟩
    · rw [hfaulted] at hok
      cases hok
  writes := fun _ _ _ h hsize =>
    Depthwise.convolve_of_weighted (Depthwise.check_eq_ok_iff.mpr ⟨h.1, hsize⟩) h.2
  excerpt := by
    rintro operands shape e ⟨h, hweights⟩ first count part partShape hpart hshape
    refine ⟨⟨h.excerpt hpart hshape, fun t ht => ?_⟩,
      fun t ht => Depthwise.result_of_excerpt h hpart ht.batch ht.channel⟩
    -- an element needs the weights that the same element of the whole call needs
    have hbatch : first + t.batch < e.output.batches := by
      have hwithin := hpart.within
      have hlt : t.batch < count := ht.batch
      rw [h.batches] at hwithin
      omega
    exact hweights (t.later first) ⟨hbatch, ht.row, ht.column, ht.channel⟩

/-- **The kernels treat all batches apart.** -/
theorem kernels_batches_independent (layer : Layer) (depthwise : DepthwiseLayer) (limit : Nat) :
    BatchesIndependent (α := α) (Dense.convolve layer) ∧
      BatchesIndependent (α := α)
        (fun operands output => Patches.convolve layer operands output limit) ∧
      BatchesIndependent (α := α) (Depthwise.convolve depthwise) :=
  ⟨(Dense.elementwise layer).batchesIndependent,
    (Patches.elementwise layer limit).batchesIndependent,
    (Depthwise.elementwise depthwise).batchesIndependent⟩

/-- A call whose three batches all differ. -/
def threeBatches : Operands Int8 where
  input := ⟨.nhwc 3 1 2 1, #[1, 2, -3, 4, 50, -60]⟩
  filter := ⟨.nhwc 1 1 2 1, #[2, -1]⟩
  bias := some ⟨⟨[1]⟩, #[7]⟩
  scales := ⟨#[1], #[0]⟩

/-- The first batch of that call. -/
def firstBatch : Operands Int8 := { threeBatches with input := ⟨.nhwc 1 1 2 1, #[1, 2]⟩ }

/-- The last two batches of that call. -/
def lastBatches : Operands Int8 :=
  { threeBatches with input := ⟨.nhwc 2 1 2 1, #[-3, 4, 50, -60]⟩ }

/-- Three batches through a patch matrix whose 72 bytes are just granted. -/
theorem kernels_batches_independent_three :
    (Patches.convolve { width := { padding := 1 } } threeBatches ⟨.nhwc 3 1 3 1, .replicate 9 0⟩
          73).ending = .ok () ∧
      (Patches.convolve { width := { padding := 1 } } firstBatch ⟨.nhwc 1 1 3 1, .replicate 3 0⟩
            73).buffer ++
          (Patches.convolve { width := { padding := 1 } } lastBatches
            ⟨.nhwc 2 1 3 1, .replicate 6 0⟩ 73).buffer =
        #[6, 7, 11, 10, -3, 15, -43, 127, -113] := by
  have hok : (Patches.convolve { width := { padding := 1 } } threeBatches
      ⟨.nhwc 3 1 3 1, .replicate 9 0⟩ 73).ending = .ok () := by decide +kernel
  have hbuffer : (Patches.convolve { width := { padding := 1 } } threeBatches
      ⟨.nhwc 3 1 3 1, .replicate 9 0⟩ 73).buffer =
      #[6, 7, 11, 10, -3, 15, -43, 127, -113] := by decide +kernel
  obtain ⟨-, hpatches, -⟩ :=
    kernels_batches_independent (α := Int8) { width := { padding := 1 } } {} 73
  obtain ⟨-, -, hpieces⟩ := hpatches threeBatches 3 1 2 1 2 1 1 3 1 #[1, 2] #[-3, 4, 50, -60]
    (.replicate 9 0) (.replicate 3 0) (.replicate 6 0) rfl rfl rfl rfl rfl rfl hok
  exact ⟨hok, hpieces.symm.trans hbuffer⟩

end QuantizedConv
