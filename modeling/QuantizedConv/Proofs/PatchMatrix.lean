import QuantizedConv.Kernel.Patches
import QuantizedConv.Proofs.WrappedSum

/-!
# The patch matrix

The patch matrix is built by appending one run of entries for each cell of each window, and no index
is kept on the way. `Tabulated` is the invariant of the array: its entries are those of a function of
their number. The number of an entry is read as a row-major position (`patchExtents`): the window,
the row and column of the filter, and the input channel. When all windows were visited, the matrix
holds, at every position, the input under the cell with the offset added, or zero on padding
(`matrix_eq`).
-/

set_option autoImplicit false

namespace QuantizedConv

/-- An array with `n` elements, each known by its index. -/
structure Tabulated {β : Type} (n : Nat) (value : Nat → β) (xs : Array β) : Prop where
  size : xs.size = n
  entry : ∀ i < n, xs[i]? = some (value i)

/-- Appending a run of elements. -/
theorem Tabulated.append {β : Type} {n m : Nat} {value : Nat → β} {xs ys : Array β}
    (h : Tabulated n value xs) (hys : Tabulated m (fun i => value (n + i)) ys) :
    Tabulated (n + m) value (xs ++ ys) := by
  refine ⟨by rw [Array.size_append, h.size, hys.size], ?_⟩
  intro i hi
  by_cases hin : i < n
  · rw [Array.getElem?_append_left (h.size.symm ▸ hin)]
    exact h.entry i hin
  · rw [Array.getElem?_append_right (by rw [h.size]; omega), h.size, hys.entry (i - n) (by omega)]
    rw [Nat.add_sub_of_le (by omega)]

namespace Patches

variable {α : Type} [Activation α]

/-- The number of rows of the matrix. -/
def rowCount (e : CallExtents) : Nat := e.output.batches * e.output.height * e.output.width

/-- The number of columns of the matrix. -/
def columnCount (e : CallExtents) : Nat :=
  e.filter.height * e.filter.width * e.input.channels

/-- The matrix as a tensor: window, filter row, filter column and input channel. -/
def patchExtents (e : CallExtents) : Nhwc :=
  ⟨rowCount e, e.filter.height, e.filter.width, e.input.channels⟩

/-- The pixels of an output. -/
def pixels (output : Nhwc) : Nhwc := { output with channels := 1 }

/-- One entry of the row of the window at `window`, over the integers. -/
def entry (layer : Layer) (operands : Operands α) (e : CallExtents) (window : Coordinate)
    (filterRow filterColumn c : Nat) : Int :=
  (layer.cellAt e.input window.row window.column filterRow filterColumn).elim 0 fun cell =>
    operands.input.integer
      (e.input.position ⟨window.batch, cell.inputRow, cell.inputColumn, c⟩) +
        layer.inputOffset.toInt

/-- The entry of the matrix with a given number. -/
def entryAt (layer : Layer) (operands : Operands α) (e : CallExtents) (number : Nat) : Int :=
  let place := (patchExtents e).coordinate number
  entry layer operands e ((pixels e.output).coordinate place.batch) place.row place.column
    place.channel

/-- The matrix up to a number of entries, each wrapped to 32 bits. -/
abbrev Entries (layer : Layer) (operands : Operands α) (e : CallExtents) (n : Nat)
    (entries : Array Int32) : Prop :=
  Tabulated n (fun number => Int32.ofInt (entryAt layer operands e number)) entries

variable {layer : Layer} {operands : Operands α} {outputShape : Shape} {e : CallExtents}

/-- The entry of the matrix at a window, a cell and a channel. -/
theorem entryAt_position {batch row column filterRow filterColumn c : Nat}
    (hb : batch < e.output.batches) (hr : row < e.output.height) (hc : column < e.output.width)
    (hfr : filterRow < e.filter.height) (hfc : filterColumn < e.filter.width)
    (hk : c < e.input.channels) :
    entryAt layer operands e ((patchExtents e).position
        ⟨(batch * e.output.height + row) * e.output.width + column, filterRow, filterColumn, c⟩) =
      entry layer operands e ⟨batch, row, column, 0⟩ filterRow filterColumn c := by
  have hwindow : (pixels e.output).coordinate
      ((batch * e.output.height + row) * e.output.width + column) = ⟨batch, row, column, 0⟩ := by
    have hpixel := Nhwc.coordinate_position (e := pixels e.output) (t := ⟨batch, row, column, 0⟩)
      ⟨hb, hr, hc, Nat.one_pos⟩
    rwa [Nhwc.position, Nat.add_zero, pixels, Nat.mul_one] at hpixel
  have hplace := Nhwc.coordinate_position (e := patchExtents e)
    (t := ⟨(batch * e.output.height + row) * e.output.width + column, filterRow, filterColumn, c⟩)
    ⟨Nhwc.pixel_lt (t := ⟨batch, row, column, 0⟩) hb hr hc, hfr, hfc, hk⟩
  simp only [entryAt, hplace, hwindow]

/-- The run of entries of one cell, inside the input or on padding. -/
theorem cellEntries_eq (h : Admitted layer operands outputShape e)
    {batch : Nat} (hb : batch < e.output.batches) (row column filterRow filterColumn : Nat) :
    ∃ xs, cellEntries layer operands e (layer.windowAt batch row column)
        (layer.cellAt e.input row column filterRow filterColumn) = .ok xs ∧
      Tabulated e.input.channels (fun c =>
        Int32.ofInt (entry layer operands e ⟨batch, row, column, 0⟩ filterRow filterColumn c))
        xs := by
  cases hcell : layer.cellAt e.input row column filterRow filterColumn with
  | none =>
    refine ⟨_, rfl, Array.size_replicate, ?_⟩
    intro c hk
    simp only [entry, hcell, Option.elim_none, Array.getElem?_replicate, if_pos hk]
    rfl
  | some cell =>
    obtain ⟨-, ⟨-, hir⟩, -, hic⟩ := Layer.cellAt_eq_some hcell
    have hbatch : batch < e.input.batches := h.batches ▸ hb
    have hend := Nhwc.slice_end_le hbatch hir hic
    have hoffset := Shape.offset_eq_position h.input h.inputCount
      (t := ⟨batch, cell.inputRow, cell.inputColumn, 0⟩) hbatch hir hic (Nat.zero_le _)
    have hdata := hend.trans h.inputData
    refine ⟨(operands.input.data.extract
        (e.input.position ⟨batch, cell.inputRow, cell.inputColumn, 0⟩)
        (e.input.position ⟨batch, cell.inputRow, cell.inputColumn, 0⟩ + e.input.channels)).map
      fun v => Activation.widen v + layer.inputOffset, ?_, ?_, ?_⟩
    · rw [cellEntries, Layer.windowAt, bind_of_ok hoffset,
        bind_of_ok (Checked.add_eq (hend.trans_lt h.inputCount.size)),
        bind_of_ok (Checked.slice_eq (Nat.le_add_right _ _) hdata)]
    · rw [Array.size_map, Array.size_extract]
      omega
    · intro c hk
      have hposition : e.input.position ⟨batch, cell.inputRow, cell.inputColumn, 0⟩ + c =
          e.input.position ⟨batch, cell.inputRow, cell.inputColumn, c⟩ := rfl
      have hinside : e.input.position ⟨batch, cell.inputRow, cell.inputColumn, c⟩ <
          operands.input.data.size := by omega
      rw [Array.getElem?_map, Array.getElem?_extract, if_pos (by omega), hposition,
        Array.getElem?_eq_getElem hinside]
      simp only [entry, hcell, Option.elim_some, Tensor.integer,
        Array.getElem?_eq_getElem hinside, Option.map_some, Int32.ofInt_add, Int32.ofInt_toInt]

/-- One window appends one row. -/
theorem appendRow_eq (h : Admitted layer operands outputShape e) {batch row column : Nat}
    (hb : batch < e.output.batches) (hr : row < e.output.height) (hc : column < e.output.width)
    {rows : Array Int32}
    (hrows : Entries layer operands e (((batch * e.output.height + row) * e.output.width + column) *
      e.filter.height * e.filter.width * e.input.channels) rows) :
    ∃ next, appendRow layer operands e rows (layer.windowAt batch row column) = .ok next ∧
      Entries layer operands e (((batch * e.output.height + row) * e.output.width + column + 1) *
        e.filter.height * e.filter.width * e.input.channels) next := by
  unfold appendRow
  rw [Layer.foldWindow_eq h.fits hr hc, Nat.succ_mul _ e.filter.height]
  -- the number of entries before each row of the filter, then before each cell of the row
  refine foldIndices_ok (fun filterRow => Entries layer operands e
    ((((batch * e.output.height + row) * e.output.width + column) * e.filter.height +
      filterRow) * e.filter.width * e.input.channels)) hrows ?_
  intro filterRow hfr rows hrows
  rw [← Nat.add_assoc, Nat.succ_mul _ e.filter.width]
  refine foldIndices_ok (fun filterColumn => Entries layer operands e
    (((((batch * e.output.height + row) * e.output.width + column) * e.filter.height +
      filterRow) * e.filter.width + filterColumn) * e.input.channels)) hrows ?_
  intro filterColumn hfc rows hrows
  obtain ⟨xs, hxs, hentries⟩ := cellEntries_eq h hb row column filterRow filterColumn
  refine ⟨rows ++ xs, by rw [bind_of_ok hxs], ?_⟩
  rw [← Nat.add_assoc, Nat.succ_mul _ e.input.channels]
  refine hrows.append ⟨hentries.size, fun c hk => ?_⟩
  rw [hentries.entry c hk, ← entryAt_position hb hr hc hfr hfc hk]
  rfl

/-- **The patch matrix of an accepted call** is built without a fault and holds all entries. -/
theorem matrix_eq (h : Admitted layer operands outputShape e) :
    ∃ entries, matrix layer operands e = .ok entries ∧
      Entries layer operands e (patchExtents e).size entries :=
  Layer.foldWindows_ok h.fits
    (fun window => Entries layer operands e
      (window * e.filter.height * e.filter.width * e.input.channels))
    (by simpa only [Nat.zero_mul] using ⟨rfl, fun i hi => absurd hi (Nat.not_lt_zero i)⟩)
    (fun _ hb _ hr _ hc _ hrows => appendRow_eq h hb hr hc hrows)

end Patches

end QuantizedConv
