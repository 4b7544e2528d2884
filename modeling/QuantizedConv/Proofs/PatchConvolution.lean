import QuantizedConv.Proofs.DenseConvolution
import QuantizedConv.Proofs.PatchMatrix

/-!
# Convolution through the patch matrix is direct convolution

A call that goes through the patch matrix checks the contract of a dense call and measures the matrix.
Once the memory of the matrix is granted, no number on the way leaves the sizes (`Measured`), row `p`
of the matrix times filter `c` is the sum of the window of pixel `p` (`rowSum_eq`), and each pixel is
written from the next row (`writeRow_ok`). Both kernels therefore write the same results over the
same array (`convolve_of_check`), and differ only in calls whose matrix is refused.
-/

set_option autoImplicit false

namespace QuantizedConv

/-- A sum over the numbers of two digits. -/
theorem sum_range_digits (a b : Nat) (f : Nat → Int) :
    ∑ n ∈ Finset.range (a * b), f n =
      ∑ i ∈ Finset.range a, ∑ j ∈ Finset.range b, f (i * b + j) := by
  induction a with
  | zero => simp only [Nat.zero_mul, Finset.sum_range_zero]
  | succ a ih =>
    rw [Nat.succ_mul, Finset.sum_range_add, ih]
    exact (Finset.sum_range_succ _ a).symm

/-- A checked product is the exact one, where that is a size. -/
theorem Checked.mul?_eq_some_iff {a b n : Nat} :
    mul? a b = some n ↔ a * b < sizeBound ∧ a * b = n := by
  unfold mul?
  split <;> rename_i h <;> simp [h]

namespace Patches

/-- All numbers on the way to the size of the matrix are sizes. -/
structure Measured (e : CallExtents) (bytes : Nat) : Prop where
  planes : e.output.batches * e.output.height < Checked.sizeBound
  rows : rowCount e < Checked.sizeBound
  cells : e.filter.height * e.filter.width < Checked.sizeBound
  columns : columnCount e < Checked.sizeBound
  entries : rowCount e * columnCount e < Checked.sizeBound
  total : rowCount e * columnCount e * 4 < Checked.sizeBound
  bytes : rowCount e * columnCount e * 4 = bytes

/-- The matrix can be measured exactly when all numbers on the way are sizes. -/
theorem scratchBytes?_eq_some_iff {e : CallExtents} {bytes : Nat} :
    scratchBytes? e = some bytes ↔ Measured e bytes := by
  simp only [scratchBytes?, Option.bind_eq_bind, Option.bind_eq_some_iff,
    Checked.mul?_eq_some_iff]
  constructor
  · rintro ⟨_, ⟨hplanes, rfl⟩, _, ⟨hrows, rfl⟩, _, ⟨hcells, rfl⟩, _, ⟨hcolumns, rfl⟩, _,
      ⟨hentries, rfl⟩, htotal, hbytes⟩
    exact ⟨hplanes, hrows, hcells, hcolumns, hentries, htotal, hbytes⟩
  · intro h
    exact ⟨_, ⟨h.planes, rfl⟩, _, ⟨h.rows, rfl⟩, _, ⟨h.cells, rfl⟩, _, ⟨h.columns, rfl⟩, _,
      ⟨h.entries, rfl⟩, h.total, h.bytes⟩

/-- Memory is granted exactly below the limit and below what can be addressed. -/
theorem granted_iff {bytes limit : Nat} :
    granted bytes limit = true ↔ bytes < limit ∧ bytes < Checked.signedBound := by
  simp [granted]

/-- The contract of the call, with the memory for its matrix. -/
theorem check_eq_ok_iff {α : Type} {layer : Layer} {operands : Operands α} {e : CallExtents}
    {output : Tensor α} {limit : Nat} :
    check layer operands output limit = .ok e ↔ Dense.check layer operands output = .ok e ∧
      ∃ bytes, scratchBytes? e = some bytes ∧ bytes < limit ∧ bytes < Checked.signedBound := by
  have hfits : scratchFits e limit = .ok () ↔
      ∃ bytes, scratchBytes? e = some bytes ∧ bytes < limit ∧ bytes < Checked.signedBound := by
    unfold scratchFits
    cases scratchBytes? e with
    | none => simp
    | some bytes => by_cases hgranted : bytes < limit ∧ bytes < Checked.signedBound <;>
        simp [granted_iff, hgranted]
  simp only [check, bind_eq_ok_iff, exists_unit_iff, Except.ok.injEq]
  constructor
  · rintro ⟨e', hcheck, hscratch, rfl⟩
    exact ⟨hcheck, hfits.mp hscratch⟩
  · rintro ⟨hcheck, hscratch⟩
    exact ⟨e, hcheck, hfits.mpr hscratch, rfl⟩

/-- A row of a matrix that is there is cut out. -/
theorem rowSlice_eq {β : Type} (entries : Array β) {columns index : Nat}
    (hindex : index + 1 < Checked.sizeBound) (hstop : (index + 1) * columns < Checked.sizeBound)
    (hsize : (index + 1) * columns ≤ entries.size) :
    rowSlice entries columns index =
      .ok (entries.extract (index * columns) (index * columns + columns)) := by
  have hstart : index * columns ≤ (index + 1) * columns :=
    Nat.mul_le_mul_right columns (Nat.le_succ index)
  rw [rowSlice, bind_of_ok (Checked.mul_eq (hstart.trans_lt hstop)),
    bind_of_ok (Checked.add_eq hindex), bind_of_ok (Checked.mul_eq hstop),
    Checked.slice_eq hstart hsize, Nat.succ_mul]

/-- The dot product of a row of entries with a slice of the filter, wrapped once. -/
theorem dot_slices {entries : Array Int32} (filter : Tensor Int8) (value : Nat → Int)
    {entryBase filterBase count : Nat} (hsize : entryBase + count ≤ entries.size)
    (hentries : ∀ j < count, entries[entryBase + j]? = some (Int32.ofInt (value j)))
    (hfilter : filterBase + count ≤ filter.data.size) :
    dot (entries.extract entryBase (entryBase + count)).toList
        (filter.data.extract filterBase (filterBase + count)).toList =
      Int32.ofInt (∑ j ∈ Finset.range count, value j * filter.integer (filterBase + j)) := by
  have hlength := length_zip_extract hsize hfilter
  unfold dot
  refine foldl_wrapped hlength _ ?_
  rintro j ⟨p, w⟩ hpair acc
  have hj : j < count := hlength ▸ (List.getElem?_eq_some_iff.mp hpair).1
  obtain ⟨hp, hw⟩ := List.getElem?_zip_eq_some.mp hpair
  have hentry := getElem?_extract_toList hp
  rw [hentries j hj] at hentry
  cases hentry
  simp only [Tensor.integer, getElem?_extract_toList hw, Option.elim_some, Int32.ofInt_mul,
    Int32.ofInt_toInt]
  rfl

variable {α : Type} [Activation α] {layer : Layer} {operands : Operands α} {outputShape : Shape}
  {e : CallExtents}

/-- **A row of the matrix times a filter is the sum of the window.** The columns of a row enumerate
the cells and channels of a filter in row-major order, and cells on padding add nothing. -/
theorem rowSum_eq (h : Dense.Admitted layer operands outputShape e) {t : Coordinate}
    (ht : e.output.Holds t) :
    ∑ j ∈ Finset.range (columnCount e),
        entryAt layer operands e
          (((t.batch * e.output.height + t.row) * e.output.width + t.column) * columnCount e + j) *
          operands.filter.integer (t.channel * columnCount e + j) =
      Dense.sum layer operands e t := by
  rw [columnCount, sum_range_digits, sum_range_digits]
  refine Finset.sum_congr rfl fun filterRow hfr => Finset.sum_congr rfl fun filterColumn hfc => ?_
  rw [Finset.mem_range] at hfr hfc
  have hterm : ∀ c ∈ Finset.range e.input.channels,
      entryAt layer operands e
          (((t.batch * e.output.height + t.row) * e.output.width + t.column) *
              (e.filter.height * e.filter.width * e.input.channels) +
            ((filterRow * e.filter.width + filterColumn) * e.input.channels + c)) *
        operands.filter.integer (t.channel * (e.filter.height * e.filter.width * e.input.channels) +
          ((filterRow * e.filter.width + filterColumn) * e.input.channels + c)) =
      entry layer operands e ⟨t.batch, t.row, t.column, 0⟩ filterRow filterColumn c *
        operands.filter.integer (e.filter.position ⟨t.channel, filterRow, filterColumn, c⟩) := by
    intro c hc
    rw [← entryAt_position ht.batch ht.row ht.column hfr hfc (Finset.mem_range.mp hc)]
    rw [Nhwc.position_eq_row, Nhwc.position_eq_row, ← h.depth]
    rfl
  rw [Finset.sum_congr rfl hterm]
  cases hcell : layer.cellAt e.input t.row t.column filterRow filterColumn with
  | none => simp only [entry, hcell, Option.elim_none, zero_mul, Finset.sum_const_zero]
  | some cell =>
    obtain ⟨⟨rfl, rfl⟩, -, -⟩ := Layer.cellAt_eq_some hcell
    simp only [entry, hcell, Option.elim_some, Dense.cellTerm]
    exact Finset.sum_congr rfl fun c _ => mul_comm _ _

/-- The matrix has one entry for each row and column. -/
theorem patchExtents_size (e : CallExtents) :
    (patchExtents e).size = rowCount e * columnCount e := by
  simp only [Nhwc.size, patchExtents, columnCount]
  ring

/-- A measured call goes on with its matrix and the number of the columns. -/
theorem prepare_of_matrix {bytes : Nat} (hmeasured : Measured e bytes) {entries : Array Int32}
    (hmatrix : matrix layer operands e = .ok entries) :
    prepare layer operands e = .ok (entries, columnCount e) := by
  have hcolumns : columns e = .ok (columnCount e) := by
    rw [columns, bind_of_ok (Checked.mul_eq hmeasured.cells)]
    exact Checked.mul_eq hmeasured.columns
  have hrows : rows e = .ok (rowCount e) := by
    rw [rows, bind_of_ok (Checked.mul_eq hmeasured.planes)]
    exact Checked.mul_eq hmeasured.rows
  rw [prepare, bind_of_ok hcolumns, bind_of_ok hrows,
    bind_of_ok (Checked.mul_eq hmeasured.entries), bind_of_ok hmatrix]

omit [Activation α] in
/-- The row of a filter ends before the elements do. -/
theorem filterRow_end_le (h : Dense.Admitted layer operands outputShape e) {channel : Nat}
    (hk : channel < e.output.channels) : (channel + 1) * columnCount e ≤ e.filter.size := by
  have hsize : e.filter.size = e.filter.batches * columnCount e := by
    rw [Nhwc.size, columnCount, h.depth]
    ring
  rw [hsize, h.filters]
  exact Nat.mul_le_mul_right _ hk

omit [Activation α] in
/-- The row of a filter is cut out. -/
theorem filterRow_eq (h : Dense.Admitted layer operands outputShape e) {channel : Nat}
    (hk : channel < e.output.channels) :
    rowSlice operands.filter.data (columnCount e) channel =
      .ok (operands.filter.data.extract (channel * columnCount e)
        (channel * columnCount e + columnCount e)) := by
  have hend := filterRow_end_le h hk
  have hchannel : channel + 1 ≤ e.filter.batches := h.filters ▸ hk
  exact rowSlice_eq operands.filter.data (hchannel.trans_lt (Nhwc.batches_lt h.filter))
    (hend.trans_lt h.filterCount.size) (hend.trans h.filterData)

/-- An output element, from the row of its pixel, is the element of direct convolution. -/
theorem element_eq (h : Dense.Admitted layer operands outputShape e) {entries : Array Int32}
    (hentries : Entries layer operands e (patchExtents e).size entries) {t : Coordinate}
    (ht : e.output.Holds t) :
    element layer operands
        (entries.extract
          (((t.batch * e.output.height + t.row) * e.output.width + t.column) * columnCount e)
          (((t.batch * e.output.height + t.row) * e.output.width + t.column) * columnCount e +
            columnCount e))
        (columnCount e) t.channel =
      .ok (Dense.result layer operands e t) := by
  have hrow : ((t.batch * e.output.height + t.row) * e.output.width + t.column) * columnCount e +
      columnCount e ≤ (patchExtents e).size := by
    rw [← Nat.succ_mul, patchExtents_size]
    exact Nat.mul_le_mul_right _ (Nhwc.pixel_lt ht.batch ht.row ht.column)
  have hfilterEnd : t.channel * columnCount e + columnCount e ≤ operands.filter.data.size := by
    rw [← Nat.succ_mul]
    exact (filterRow_end_le h ht.channel).trans h.filterData
  have hdot := dot_slices operands.filter
    (fun j => entryAt layer operands e
      (((t.batch * e.output.height + t.row) * e.output.width + t.column) * columnCount e + j))
    (hentries.size ▸ hrow) (fun j hj => hentries.entry _ (by omega)) hfilterEnd
  rw [element, bind_of_ok (filterRow_eq h ht.channel), hdot, rowSum_eq h ht]
  exact Operands.activate_eq h.toAdmitted ht.channel _

/-- Every row of a measured matrix is cut out. -/
theorem matrixRow_eq {bytes : Nat} (hmeasured : Measured e bytes) {entries : Array Int32}
    (hsize : entries.size = rowCount e * columnCount e) {index : Nat} (hindex : index < rowCount e) :
    rowSlice entries (columnCount e) index =
      .ok (entries.extract (index * columnCount e) (index * columnCount e + columnCount e)) := by
  have hstop : (index + 1) * columnCount e ≤ rowCount e * columnCount e :=
    Nat.mul_le_mul_right _ hindex
  exact rowSlice_eq entries (lt_of_le_of_lt (Nat.succ_le_of_lt hindex) hmeasured.rows)
    (hstop.trans_lt hmeasured.entries) (hsize ▸ hstop)

/-- Each pixel is written from the next row of the matrix. -/
theorem writeRow_ok (h : Dense.Admitted layer operands outputShape e) {bytes : Nat}
    (hmeasured : Measured e bytes) {entries : Array Int32}
    (hentries : Entries layer operands e (patchExtents e).size entries) {before : Array α}
    (hsize : e.output.size ≤ before.size) {batch row column : Nat} (hb : batch < e.output.batches)
    (hr : row < e.output.height) (hc : column < e.output.width) {buffer : Array α}
    (hbuffer : Filled e.output (Dense.result layer operands e) before
      (((batch * e.output.height + row) * e.output.width + column) * e.output.channels) buffer) :
    ∃ written, writeRow layer operands outputShape e.output entries (columnCount e)
        (buffer, (batch * e.output.height + row) * e.output.width + column) batch row column =
        .ok (written, (batch * e.output.height + row) * e.output.width + column + 1) ∧
      Filled e.output (Dense.result layer operands e) before
        (((batch * e.output.height + row) * e.output.width + column + 1) * e.output.channels)
        written := by
  have hpixel : (batch * e.output.height + row) * e.output.width + column < rowCount e :=
    Nhwc.pixel_lt (t := ⟨batch, row, column, 0⟩) hb hr hc
  have hnext := lt_of_le_of_lt (Nat.succ_le_of_lt hpixel) hmeasured.rows
  have hpatch := matrixRow_eq hmeasured (hentries.size.trans (patchExtents_size e)) hpixel
  obtain ⟨written, hwritten, hfilled⟩ := Outcome.putChannels_ok h.output h.outputCount hsize hb hr hc
    (fun channel hk => element_eq h hentries (t := ⟨batch, row, column, channel⟩) ⟨hb, hr, hc, hk⟩)
    hbuffer
  refine ⟨written, ?_, hfilled⟩
  rw [writeRow, hpatch]
  simp only [Stopped.during]
  rw [bind_of_ok rfl, writePixel, bind_of_ok hwritten, Checked.add_eq hnext]
  rfl

/-- **A call whose matrix is granted ends well**, with the results of direct convolution. -/
theorem convolve_of_check {output : Tensor α} {limit : Nat}
    (hcheck : check layer operands output limit = .ok e) :
    ∃ buffer, convolve layer operands output limit = ⟨buffer, .ok ()⟩ ∧
      Filled e.output (Dense.result layer operands e) output.data e.output.size buffer := by
  obtain ⟨hdense, bytes, hbytes, -, -⟩ := check_eq_ok_iff.mp hcheck
  obtain ⟨h, hsize⟩ := Dense.check_eq_ok_iff.mp hdense
  have hmeasured := scratchBytes?_eq_some_iff.mp hbytes
  obtain ⟨entries, hmatrix, hentries⟩ := matrix_eq h.toAdmitted
  have hprepare := prepare_of_matrix hmeasured hmatrix
  -- the running row number is the number of the pixel
  have hloops : ∃ state : Array α × Nat, foldPixels e.output .ok .ok
      (fun state fault => (⟨fault, state.1⟩ : Stopped (Array α)))
      (fun state batch row _ column _ => writeRow layer operands output.shape e.output entries
        (columnCount e) state batch row column) (output.data, 0) = .ok state ∧
      Filled e.output (Dense.result layer operands e) output.data e.output.size state.1 ∧
      state.2 = rowCount e := by
    refine foldPixels_ok (fun pixel (state : Array α × Nat) =>
      Filled e.output (Dense.result layer operands e) output.data (pixel * e.output.channels)
        state.1 ∧ state.2 = pixel)
      id id (fun _ _ => rfl) (fun _ _ => rfl) ⟨?_, rfl⟩ ?_
    · rw [Nat.zero_mul]
      exact Filled.start _ _ _
    · rintro batch hb row hr column hc ⟨buffer, _⟩ ⟨hbuffer, rfl⟩
      obtain ⟨written, hwritten, hfilled⟩ :=
        writeRow_ok h hmeasured hentries hsize hb hr hc hbuffer
      exact ⟨_, hwritten, hfilled, rfl⟩
  obtain ⟨⟨buffer, _⟩, hwrites, hfilled, -⟩ := hloops
  refine ⟨buffer, ?_, hfilled⟩
  have hrows : writeRows layer operands output.shape e.output entries (columnCount e) output.data =
      .ok buffer := by
    rw [writeRows, bind_of_ok hwrites]
  simp only [convolve, hcheck, hprepare, hrows, Outcome.ofWrites]

/-- A call that a dense kernel accepts, and whose matrix is not granted, is refused. -/
theorem convolve_of_scratch {output : Tensor α} {limit : Nat} {refusal : Refusal}
    (hcheck : Dense.check layer operands output = .ok e)
    (hscratch : scratchFits e limit = .error refusal) :
    convolve layer operands output limit = .refused output.data refusal := by
  have hrefused : check layer operands output limit = .error refusal := by
    rw [check, bind_of_ok hcheck, hscratch]
    rfl
  rw [convolve, hrefused]

/-- A call that a dense kernel refuses is refused for the same reason. -/
theorem convolve_of_refusal {output : Tensor α} {limit : Nat} {refusal : Refusal}
    (hcheck : Dense.check layer operands output = .error refusal) :
    convolve layer operands output limit = .refused output.data refusal := by
  have hrefused : check layer operands output limit = .error refusal := by
    rw [check, hcheck]
    rfl
  rw [convolve, hrefused]

/-- How a call through the patch matrix can end. -/
theorem convolve_cases (layer : Layer) (operands : Operands α) (output : Tensor α) (limit : Nat) :
    (∃ refusal, check layer operands output limit = .error refusal ∧
        convolve layer operands output limit = .refused output.data refusal) ∨
      ∃ e, Dense.Admitted layer operands output.shape e ∧
        ∃ buffer, convolve layer operands output limit = ⟨buffer, .ok ()⟩ ∧
          Filled e.output (Dense.result layer operands e) output.data e.output.size buffer := by
  cases hcheck : check layer operands output limit with
  | error refusal => exact .inl ⟨refusal, rfl, by rw [convolve, hcheck]⟩
  | ok e =>
    obtain ⟨hdense, -⟩ := check_eq_ok_iff.mp hcheck
    exact .inr ⟨e, (Dense.check_eq_ok_iff.mp hdense).1, convolve_of_check hcheck⟩

/-- **Convolution through the patch matrix agrees with direct convolution on every call.** A call that
fails directly fails in the same way and changes nothing. A call that ends well directly leaves the
same array if memory for its matrix is granted, and is refused with the array unchanged otherwise,
for the bytes of the matrix or for the largest size if they are none. Memory is granted below the
limit; an allocation with offsets outside the signed range always fails. -/
theorem convolve_eq_direct (layer : Layer) (operands : Operands α) (output : Tensor α)
    (limit : Nat) :
    convolve layer operands output limit =
      match (Dense.convolve layer operands output).ending with
      | .error failure => ⟨output.data, .error failure⟩
      | .ok () =>
        match (Contract.callExtents operands output.shape).toOption.bind scratchBytes? with
        | none => .refused output.data (.scratchTooLarge 18446744073709551615)
        | some bytes =>
          if bytes < limit ∧ bytes < Checked.signedBound then Dense.convolve layer operands output
          else .refused output.data (.scratchTooLarge bytes) := by
  cases hdense : Dense.check layer operands output with
  | error refusal => rw [convolve_of_refusal hdense, Dense.convolve_of_refusal hdense]; rfl
  | ok e =>
    obtain ⟨buffer, hdirect, hfilled⟩ := Dense.convolve_of_check hdense
    obtain ⟨h, -⟩ := Dense.check_eq_ok_iff.mp hdense
    have hextents : Contract.callExtents operands output.shape = .ok e :=
      Contract.callExtents_eq_ok_iff.mpr ⟨h.input, h.filter, h.output⟩
    simp only [hdirect, hextents, Except.toOption, Option.bind_some]
    cases hbytes : scratchBytes? e with
    | none => exact convolve_of_scratch hdense (by rw [scratchFits, hbytes]; rfl)
    | some bytes =>
      by_cases hgranted : bytes < limit ∧ bytes < Checked.signedBound
      · obtain ⟨buffer', hpatches, hfilled'⟩ :=
          convolve_of_check (check_eq_ok_iff.mpr ⟨hdense, bytes, hbytes, hgranted⟩)
        simp only [if_pos hgranted]
        rw [hpatches, hfilled'.unique hfilled fun _ _ => rfl]
      · simp only [if_neg hgranted]
        refine convolve_of_scratch hdense ?_
        simp only [scratchFits, hbytes]
        exact if_neg (mt granted_iff.mp hgranted)

end Patches

end QuantizedConv
