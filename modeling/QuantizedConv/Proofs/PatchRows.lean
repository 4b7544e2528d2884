import QuantizedConv.Proofs.CarriedLoops
import QuantizedConv.Proofs.PatchConvolution

/-!
# The rows of the patch matrix

The patch matrix is built by appending, and read by row number. What is appended does not depend on
what is there already (`appendRows_append`). Read as rows and columns, the matrix holds the sample of
every window, cell of the filter and input channel (`IsPatchMatrix`), where a sample (`sample?`) is
the input element at coordinates over the unbounded integers, with the offset added, or zero outside
the input. A row of the matrix and a row of the filter have the same columns in the same order
(`RowOf`). The outputs are written with a running row number, which is at every pixel the number of
the pixel (`writeRows_eq_writePixels`).
-/

set_option autoImplicit false

namespace QuantizedConv

/-- The element of a tensor at four indices, at the place that the shape gives it. -/
def Tensor.element? {β : Type} (tensor : Tensor β) (t : Coordinate) : Option β :=
  (tensor.shape.offset t.batch t.row t.column t.channel).toOption.bind fun place =>
    tensor.data[place]?

/-- An element inside the extents is there, at its row-major position. -/
theorem Tensor.element?_eq_some {β : Type} {tensor : Tensor β} {extents : Nhwc}
    (hs : Nhwc.ofShape? tensor.shape = some extents) (hcount : extents.Countable)
    (hdata : extents.size ≤ tensor.data.size) {t : Coordinate} (ht : extents.Holds t) :
    ∃ x, tensor.element? t = some x ∧ tensor.data[extents.position t]? = some x := by
  have hoffset := Shape.offset_eq_position hs hcount ht.batch ht.row ht.column ht.channel.le
  have hplace := Array.getElem?_eq_getElem ((Nhwc.position_lt ht).trans_le hdata)
  refine ⟨_, ?_, hplace⟩
  rw [element?, hoffset]
  exact hplace

namespace Patches

variable {α : Type} [Activation α] {layer : Layer} {operands : Operands α} {outputShape : Shape}
  {e : CallExtents}

/-- One window appends the same entries to any array. -/
theorem appendRow_append (before rows : Array Int32) (window : Window) :
    appendRow layer operands e (before ++ rows) window =
      carry id (before ++ ·) (appendRow layer operands e rows window) := by
  unfold appendRow Layer.foldWindow Axis.foldTaps
  -- the input under a cell does not depend on the entries, and only the last step touches them
  refine foldIndices_carry (fun filterRow rows => bind_carry fun inputRow => ?_) _ rows
  refine foldIndices_carry (fun filterColumn rows => bind_carry fun inputColumn => ?_) _ rows
  refine bind_carry fun next => ?_
  exact congrArg Except.ok Array.append_assoc

/-- All windows append the same entries to any array. -/
theorem appendRows_append (before rows : Array Int32) :
    appendRows layer operands e (before ++ rows) =
      carry id (before ++ ·) (appendRows layer operands e rows) := by
  unfold appendRows Layer.foldWindows
  refine foldPixels_carry id (before ++ ·) (fun _ _ => rfl) ?_ rows
  intro rows batch row top column left
  exact appendRow_append before rows _

/-- The patch matrix is appended to any array. -/
theorem appendRows_of_matrix {entries : Array Int32} (hmatrix : matrix layer operands e = .ok entries)
    (before : Array Int32) : appendRows layer operands e before = .ok (before ++ entries) := by
  calc appendRows layer operands e before
    _ = appendRows layer operands e (before ++ #[]) := by rw [Array.append_empty]
    _ = carry id (before ++ ·) (matrix layer operands e) := by rw [appendRows_append, matrix]
    _ = .ok (before ++ entries) := by rw [hmatrix, carry]

/-- The sample of a window at a cell of the filter and an input channel. The coordinates of the cell are
taken over the unbounded integers: inside the input it is the element there with the input offset
added, wrapped to 32 bits, and outside it is zero. -/
def sample? (layer : Layer) (operands : Operands α) (e : CallExtents)
    (batch row column filterRow filterColumn channel : Nat) : Option Int32 :=
  let inputRow := layer.height.coordinate row filterRow
  let inputColumn := layer.width.coordinate column filterColumn
  if (0 ≤ inputRow ∧ inputRow < e.input.height) ∧
      0 ≤ inputColumn ∧ inputColumn < e.input.width then
    (operands.input.element? ⟨batch, inputRow.toNat, inputColumn.toNat, channel⟩).map fun x =>
      Activation.widen x + layer.inputOffset
  else some 0

/-- Over an input that can be addressed, the sample is the exact entry of the matrix, wrapped. -/
theorem sample?_eq_entry (h : Admitted layer operands outputShape e)
    (hinput : operands.input.data.size < Checked.signedBound) {batch channel : Nat}
    (hb : batch < e.output.batches) (hk : channel < e.input.channels)
    (row column filterRow filterColumn : Nat) :
    sample? layer operands e batch row column filterRow filterColumn channel =
      some (Int32.ofInt (entry layer operands e ⟨batch, row, column, 0⟩ filterRow filterColumn
        channel)) := by
  simp only [sample?, entry, Layer.cellAt_eq_ite (h.area_lt hinput hb (by omega))]
  split
  · rename_i hinside
    have ht : e.input.Holds ⟨batch, (layer.height.coordinate row filterRow).toNat,
        (layer.width.coordinate column filterColumn).toNat, channel⟩ :=
      ⟨h.batches ▸ hb, by simp only; omega, by simp only; omega, hk⟩
    obtain ⟨x, helement, hx⟩ :=
      Tensor.element?_eq_some h.input h.inputCount h.inputData ht
    simp only [helement, Option.map_some, Option.elim_some, Tensor.integer, hx, Int32.ofInt_add,
      Int32.ofInt_toInt]
  · rfl

/-- The entries of the patch matrix of a call, by row and column: the number of a row is that of its
window, the number of a column that of a cell of the filter and an input channel. -/
structure IsPatchMatrix (layer : Layer) (operands : Operands α) (e : CallExtents)
    (entries : Array Int32) : Prop where
  size : entries.size = rowCount e * columnCount e
  entry : ∀ b < e.output.batches, ∀ y < e.output.height, ∀ x < e.output.width,
    ∀ fy < e.filter.height, ∀ fx < e.filter.width, ∀ c < e.input.channels,
      ∃ value, sample? layer operands e b y x fy fx c = some value ∧
        entries[((b * e.output.height + y) * e.output.width + x) * columnCount e +
          ((fy * e.filter.width + fx) * e.input.channels + c)]? = some value

/-- All entries of the matrix are samples. -/
theorem Entries.isPatchMatrix (h : Admitted layer operands outputShape e)
    (hinput : operands.input.data.size < Checked.signedBound) {entries : Array Int32}
    (hentries : Entries layer operands e (patchExtents e).size entries) :
    IsPatchMatrix layer operands e entries := by
  refine ⟨by rw [hentries.size, patchExtents_size], ?_⟩
  intro b hb y hy x hx fy hfy fx hfx c hc
  refine ⟨_, sample?_eq_entry h hinput hb hc y x fy fx, ?_⟩
  have hplace : (patchExtents e).Holds
      ⟨(b * e.output.height + y) * e.output.width + x, fy, fx, c⟩ :=
    ⟨Nhwc.pixel_lt (t := ⟨b, y, x, 0⟩) hb hy hx, hfy, hfx, hc⟩
  have hentry := hentries.entry _ (Nhwc.position_lt hplace)
  rwa [entryAt_position hb hy hx hfy hfx hc, Nhwc.position_eq_row] at hentry

/-- Row `index` of a matrix that is stored row by row. -/
def rowAt {β : Type} (entries : Array β) (columns index : Nat) : Array β :=
  entries.extract (index * columns) ((index + 1) * columns)

/-- A row starts behind all rows before it and has as many entries as there are columns. -/
theorem rowAt_eq_extract {β : Type} (entries : Array β) (columns index : Nat) :
    rowAt entries columns index =
      entries.extract (index * columns) (index * columns + columns) := by
  rw [rowAt, Nat.succ_mul]

/-- A row that has one column for each cell of the filter and each input channel, in row-major
order. -/
structure RowOf {β : Type} (e : CallExtents) (value? : Nat → Nat → Nat → Option β)
    (row : Array β) : Prop where
  size : row.size = columnCount e
  column : ∀ fy < e.filter.height, ∀ fx < e.filter.width, ∀ c < e.input.channels,
    ∃ value, value? fy fx c = some value ∧
      row[(fy * e.filter.width + fx) * e.input.channels + c]? = some value

/-- The row of a matrix, from the entries at its place in the matrix. -/
theorem RowOf.of_rowAt {β : Type} {value? : Nat → Nat → Nat → Option β} {entries : Array β}
    {index : Nat} (hsize : (index + 1) * columnCount e ≤ entries.size)
    (hentry : ∀ fy < e.filter.height, ∀ fx < e.filter.width, ∀ c < e.input.channels,
      ∃ value, value? fy fx c = some value ∧ entries[index * columnCount e +
        ((fy * e.filter.width + fx) * e.input.channels + c)]? = some value) :
    RowOf e value? (rowAt entries (columnCount e) index) := by
  rw [Nat.succ_mul] at hsize
  constructor
  · rw [rowAt_eq_extract, Array.size_extract]
    omega
  · intro fy hfy fx hfx c hc
    obtain ⟨value, hvalue, hplace⟩ := hentry fy hfy fx hfx c hc
    have hcolumn : (fy * e.filter.width + fx) * e.input.channels + c < columnCount e :=
      digits_lt (digits_lt hfy hfx) hc
    refine ⟨value, hvalue, ?_⟩
    rw [rowAt_eq_extract, Array.getElem?_extract, if_pos (by omega), hplace]

/-- A row of the matrix holds the samples of its window. -/
theorem IsPatchMatrix.rowOf {entries : Array Int32} (h : IsPatchMatrix layer operands e entries)
    {b y x : Nat} (hb : b < e.output.batches) (hy : y < e.output.height) (hx : x < e.output.width) :
    RowOf e (sample? layer operands e b y x)
      (rowAt entries (columnCount e) ((b * e.output.height + y) * e.output.width + x)) := by
  refine RowOf.of_rowAt ?_ (h.entry b hb y hy x hx)
  rw [h.size]
  exact Nat.mul_le_mul_right _ (Nhwc.pixel_lt (t := ⟨b, y, x, 0⟩) hb hy hx)

omit [Activation α] in
/-- A row of the filter holds the weights of its output channel. -/
theorem rowOf_filter (h : Dense.Admitted layer operands outputShape e) {oc : Nat}
    (hoc : oc < e.output.channels) :
    RowOf e (fun fy fx c => operands.filter.element? ⟨oc, fy, fx, c⟩)
      (rowAt operands.filter.data (columnCount e) oc) := by
  refine RowOf.of_rowAt ((filterRow_end_le h hoc).trans h.filterData) ?_
  intro fy hfy fx hfx c hc
  have ht : e.filter.Holds ⟨oc, fy, fx, c⟩ := ⟨h.filters ▸ hoc, hfy, hfx, h.depth ▸ hc⟩
  obtain ⟨w, helement, hw⟩ := Tensor.element?_eq_some h.filter h.filterCount h.filterData ht
  -- a filter has as many channels as the input, so that its rows are as long as those of the matrix
  rw [Nhwc.position_eq_row, ← h.depth] at hw
  exact ⟨w, helement, hw⟩

/-- Writes every output pixel from the row of the matrix that has the number of the pixel. -/
def writePixels (layer : Layer) (operands : Operands α) (shape : Shape) (output : Nhwc)
    (entries : Array Int32) (columns : Nat) (buffer : Array α) :
    Except (Stopped (Array α)) (Array α) :=
  foldPixels output .ok .ok (fun buffer fault => ⟨fault, buffer⟩)
    (fun buffer batch row _ column _ => writePixel layer operands shape output
      (rowAt entries columns ((batch * output.height + row) * output.width + column)) columns
      batch row column buffer) buffer

/-- A pixel is written from the row with the running number, which is then one higher. -/
theorem writeRow_eq_writePixel {bytes : Nat} (hmeasured : Measured e bytes)
    {entries : Array Int32} (hsize : entries.size = rowCount e * columnCount e) {index : Nat}
    (hindex : index < rowCount e) (shape : Shape) (batch row column : Nat) (buffer : Array α) :
    writeRow layer operands shape e.output entries (columnCount e) (buffer, index) batch row column =
      carry id (fun written => (written, index + 1))
        (writePixel layer operands shape e.output (rowAt entries (columnCount e) index)
          (columnCount e) batch row column buffer) := by
  have hnext : index + 1 < Checked.sizeBound :=
    lt_of_le_of_lt (Nat.succ_le_of_lt hindex) hmeasured.rows
  simp only [writeRow, matrixRow_eq hmeasured hsize hindex, Checked.add_eq hnext, Stopped.during,
    rowAt_eq_extract]
  rw [bind_of_ok rfl]
  cases writePixel layer operands shape e.output
    (entries.extract (index * columnCount e) (index * columnCount e + columnCount e))
    (columnCount e) batch row column buffer <;> rfl

/-- **The running row number is the number of the pixel.** The rows that are cut out of a measured
matrix one after the other are those of the pixels that are written from them. -/
theorem writeRows_eq_writePixels {bytes : Nat} (hmeasured : Measured e bytes)
    {entries : Array Int32} (hsize : entries.size = rowCount e * columnCount e) (shape : Shape)
    (buffer : Array α) :
    writeRows layer operands shape e.output entries (columnCount e) buffer =
      writePixels layer operands shape e.output entries (columnCount e) buffer := by
  have hloops : foldPixels e.output .ok .ok
      (fun state fault => (⟨fault, state.1⟩ : Stopped (Array α)))
      (fun state batch row _ column _ => writeRow layer operands shape e.output entries
        (columnCount e) state batch row column) (buffer, 0) =
      carry id (fun written => (written, rowCount e))
        (writePixels layer operands shape e.output entries (columnCount e) buffer) := by
    refine foldPixels_carry_numbered id (fun index buffer => (buffer, index)) (fun _ _ _ => rfl) ?_
      buffer
    intro batch hb row hr column hc buffer _ _
    have hpixel : (batch * e.output.height + row) * e.output.width + column < rowCount e :=
      Nhwc.pixel_lt (t := ⟨batch, row, column, 0⟩) hb hr hc
    exact writeRow_eq_writePixel hmeasured hsize hpixel shape batch row column buffer
  rw [writeRows, hloops]
  cases writePixels layer operands shape e.output entries (columnCount e) buffer <;> rfl

/-- **The rows of the patch matrix are the windows of the pixels.** For every call that is accepted and
whose matrix can be measured, over an input that can be addressed, building the matrix succeeds. It
appends rows times columns entries to any array, and the entry at the row of a window and the column of
a cell and an input channel is the sample there. Every row that the outputs are written from is cut out
within the matrix, it is the row of its own pixel, and its columns are those of the row of every filter,
which is cut out within the filter. -/
theorem matrix_rows_hold_windows (layer : Layer) (operands : Operands α) (output : Tensor α)
    {e : CallExtents} {bytes : Nat} (hcheck : Dense.check layer operands output = .ok e)
    (hbytes : scratchBytes? e = some bytes)
    (hinput : operands.input.data.size < Checked.signedBound) :
    ∃ entries,
      (prepare layer operands e = .ok (entries, columnCount e) ∧
        ∀ before, appendRows layer operands e before = .ok (before ++ entries)) ∧
      IsPatchMatrix layer operands e entries ∧
      (∀ row < rowCount e, rowSlice entries (columnCount e) row =
        .ok (rowAt entries (columnCount e) row)) ∧
      (∀ shape buffer, writeRows layer operands shape e.output entries (columnCount e) buffer =
        writePixels layer operands shape e.output entries (columnCount e) buffer) ∧
      (∀ b < e.output.batches, ∀ y < e.output.height, ∀ x < e.output.width,
        RowOf e (sample? layer operands e b y x)
          (rowAt entries (columnCount e) ((b * e.output.height + y) * e.output.width + x))) ∧
      ∀ oc < e.output.channels,
        rowSlice operands.filter.data (columnCount e) oc =
          .ok (rowAt operands.filter.data (columnCount e) oc) ∧
        RowOf e (fun fy fx c => operands.filter.element? ⟨oc, fy, fx, c⟩)
          (rowAt operands.filter.data (columnCount e) oc) := by
  obtain ⟨h, -⟩ := Dense.check_eq_ok_iff.mp hcheck
  have hmeasured := scratchBytes?_eq_some_iff.mp hbytes
  obtain ⟨entries, hmatrix, hentries⟩ := matrix_eq h.toAdmitted
  have hholds := Entries.isPatchMatrix h.toAdmitted hinput hentries
  refine ⟨entries, ⟨prepare_of_matrix hmeasured hmatrix, appendRows_of_matrix hmatrix⟩, hholds,
    ?_, ?_, ?_, ?_⟩
  · intro row hrow
    rw [matrixRow_eq hmeasured hholds.size hrow, rowAt_eq_extract]
  · exact writeRows_eq_writePixels hmeasured hholds.size
  · intro b hb y hy x hx
    exact hholds.rowOf hb hy hx
  · intro oc hoc
    exact ⟨by rw [filterRow_eq h hoc, rowAt_eq_extract], rowOf_filter h hoc⟩

/-- A layer with padding and a dilation along the width, whose offset takes samples out of 32 bits. -/
def edgeLayer : Layer :=
  { width := { dilation := 2, padding := 1 }, inputOffset := 2147483647 }

/-- Two batches of two pixels with two channels, under a filter that is wider than they are. -/
def edgeOperands : Operands Int8 where
  input := ⟨.nhwc 2 1 2 2, #[1, -2, 3, -4, 5, -6, 7, -8]⟩
  filter := ⟨.nhwc 1 1 2 2, #[1, 2, 3, 4]⟩
  bias := none
  scales := ⟨#[1], #[0]⟩

/-- The output of that call. -/
def edgeOutput : Tensor Int8 := ⟨.nhwc 2 1 2 1, #[0, 0, 0, 0]⟩

/-- The extents of that call. -/
def edgeExtents : CallExtents := ⟨⟨2, 1, 2, 2⟩, ⟨1, 1, 2, 2⟩, ⟨2, 1, 2, 1⟩⟩

/-- The third row of that call: its first cell is on padding, and in its second cell one sample wraps
and the other one does not. -/
theorem matrix_rows_hold_windows_edge :
    Dense.check edgeLayer edgeOperands edgeOutput = .ok edgeExtents ∧
      scratchBytes? edgeExtents = some 64 ∧
      edgeOperands.input.data.size < Checked.signedBound ∧
      ∃ entries, appendRows edgeLayer edgeOperands edgeExtents #[9] = .ok (#[9] ++ entries) ∧
        entries.size = 16 ∧ entries[9]? = some 0 ∧ entries[10]? = some (-2147483642 : Int32) ∧
        entries[11]? = some 2147483639 := by
  have hcheck : Dense.check edgeLayer edgeOperands edgeOutput = .ok edgeExtents := by decide
  have hbytes : scratchBytes? edgeExtents = some 64 := by decide
  have hinput : edgeOperands.input.data.size < Checked.signedBound := by decide
  obtain ⟨entries, ⟨-, happend⟩, hmatrix, -⟩ :=
    matrix_rows_hold_windows edgeLayer edgeOperands edgeOutput hcheck hbytes hinput
  have hentry (fx : Nat) (hfx : fx < 2) (c : Nat) (hc : c < 2) :=
    hmatrix.entry 1 (by decide) 0 (by decide) 0 (by decide) 0 (by decide) fx hfx c hc
  obtain ⟨_, hpadding, h9⟩ := hentry 0 (by decide) 1 (by decide)
  obtain ⟨_, hwrapped, h10⟩ := hentry 1 (by decide) 0 (by decide)
  obtain ⟨_, hinside, h11⟩ := hentry 1 (by decide) 1 (by decide)
  cases hpadding
  cases hwrapped
  cases hinside
  exact ⟨hcheck, hbytes, hinput, entries, happend #[9], hmatrix.size, h9, h10, h11⟩

end Patches

end QuantizedConv
