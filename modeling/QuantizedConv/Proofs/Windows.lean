import QuantizedConv.Proofs.Admission
import Mathlib.Algebra.BigOperators.Group.Finset.Basic

/-!
# Windows over the input

Along an axis that fits (`Axis.Fits`) all coordinates are computed without a fault and are exact
integers: `Axis.coordinate`. A window is then a plain double loop over the cells of the filter, each
with the input element under it or with none (`Layer.cellAt`), whether all cells are visited
(`foldWindow_eq`) or only those inside the input (`foldInside_eq`). An accumulator that gets a term
from every cell inside the input ends with the sum of the terms, wrapped once
(`foldInside_eq_sum`).
-/

set_option autoImplicit false

namespace QuantizedConv

namespace Checked

/-- A size below the signed bound keeps its value as a coordinate. -/
theorem signed_eq {n : Nat} (h : n < signedBound) : signed n = n := if_pos h

/-- A number is a signed size exactly when it lies between the signed bounds. -/
theorem isSigned_iff {x : Int} :
    isSigned x = true ↔ -(signedBound : Int) ≤ x ∧ x < signedBound := by
  simp [isSigned]

/-- A sum of signed sizes that is one is computed without a fault. -/
theorem signedAdd_eq {a b : Int} (hlow : -(signedBound : Int) ≤ a + b)
    (hhigh : a + b < signedBound) : signedAdd a b = .ok (a + b) :=
  if_pos (isSigned_iff.mpr ⟨hlow, hhigh⟩)

/-- A difference of signed sizes that is one is computed without a fault. -/
theorem signedSub_eq {a b : Int} (hlow : -(signedBound : Int) ≤ a - b)
    (hhigh : a - b < signedBound) : signedSub a b = .ok (a - b) :=
  if_pos (isSigned_iff.mpr ⟨hlow, hhigh⟩)

/-- As a coordinate no size grows. -/
theorem signed_le (n : Nat) : signed n ≤ n := by
  unfold signed
  split
  · exact le_refl _
  · have hbound : 0 < sizeBound := by decide
    omega

end Checked

/-- A coordinate inside an axis is the position it stands for. -/
theorem inside?_eq_some {coordinate : Int} {extent position : Nat}
    (h : inside? coordinate extent = some position) :
    (position : Int) = coordinate ∧ position < extent := by
  unfold inside? at h
  split at h
  · rename_i hinside
    cases h
    have hextent := Checked.signed_le extent
    omega
  · cases h

/-- On an axis of signed extent, inside is what it says. -/
theorem inside?_of_lt {coordinate : Int} {extent : Nat} (hextent : extent < Checked.signedBound)
    (hlow : 0 ≤ coordinate) (hhigh : coordinate < extent) :
    inside? coordinate extent = some coordinate.toNat := by
  unfold inside?
  rw [Checked.signed_eq hextent]
  exact if_pos ⟨hlow, hhigh⟩

namespace Axis

/-- The coordinate of the first tap of the window at a position, over the integers. -/
def start (axis : Axis) (position : Nat) : Int :=
  (position : Int) * axis.stride.toNat - axis.padding.toNat

/-- The coordinate of a tap of the window at a position, over the integers. -/
def coordinate (axis : Axis) (position tap : Nat) : Int :=
  axis.start position + (tap : Int) * axis.dilation.toNat

variable {axis : Axis} {output filter position tap : Nat}

/-- No window and no tap goes beyond the furthest step of the axis. -/
theorem Fits.step_lt (h : axis.Fits output filter) (hp : position < output) (ht : tap ≤ filter - 1) :
    position * axis.stride.toNat + tap * axis.dilation.toNat < Checked.signedBound := by
  have hwindows : position * axis.stride.toNat ≤ (output - 1) * axis.stride.toNat :=
    Nat.mul_le_mul_right _ (by omega)
  have htaps : tap * axis.dilation.toNat ≤ (filter - 1) * axis.dilation.toNat :=
    Nat.mul_le_mul_right _ ht
  have hreach := h.reach
  omega

/-- The origin of every window is computed, and is exact. -/
theorem origin_eq (h : axis.Fits output filter) (hp : position < output) :
    axis.origin position = .ok (axis.start position) := by
  have hstep := h.step_lt hp (Nat.zero_le _)
  have hpadding := h.padding
  have hbounds : Checked.signedBound < Checked.sizeBound := by decide
  rw [Nat.zero_mul, Nat.add_zero] at hstep
  have hmul : Checked.mul position axis.stride.toNat = .ok (position * axis.stride.toNat) :=
    if_pos (by omega)
  rw [origin, bind_of_ok hmul, Checked.signed_eq hstep, Checked.signed_eq hpadding]
  rw [Checked.signedSub_eq (by omega) (by omega), start, Nat.cast_mul]

/-- The coordinate of every tap is computed, and is exact. -/
theorem under_eq (h : axis.Fits output filter) (hp : position < output) (ht : tap < filter)
    (extent : Nat) :
    axis.under (axis.start position) extent tap =
      .ok (inside? (axis.coordinate position tap) extent) := by
  have hstep := h.step_lt hp (show tap ≤ filter - 1 by omega)
  have hpadding := h.padding
  have hbounds : Checked.signedBound < Checked.sizeBound := by decide
  have hmul : Checked.mul axis.dilation.toNat tap = .ok (tap * axis.dilation.toNat) := by
    rw [Nat.mul_comm tap]
    exact if_pos (by rw [Nat.mul_comm]; omega)
  have hstart : axis.start position =
      ((position * axis.stride.toNat : Nat) : Int) - axis.padding.toNat := by
    rw [start, Nat.cast_mul]
  rw [under, bind_of_ok hmul, Checked.signed_eq (by omega),
    bind_of_ok (Checked.signedAdd_eq (by omega) (by omega)), coordinate, Nat.cast_mul]

/-- Visiting the taps of a window is a loop over all taps, each with the input position under it. -/
theorem foldTaps_eq {β : Type} (h : axis.Fits output filter) (hp : position < output) (extent : Nat)
    (visit : β → Nat → Option Nat → Except Fault β) (start : β) :
    axis.foldTaps filter extent (axis.start position) visit start =
      foldIndices filter (fun value tap =>
        visit value tap (inside? (axis.coordinate position tap) extent)) start := by
  refine foldIndices_congr start fun tap ht value => ?_
  rw [bind_of_ok (under_eq h hp ht extent)]

end Axis

namespace Layer

/-- The window of an output pixel. -/
def windowAt (layer : Layer) (batch row column : Nat) : Window where
  batch := batch
  row := row
  column := column
  top := layer.height.start row
  left := layer.width.start column

/-- The cell of a window at a row and a column of the filter, if it lies over an input element. -/
def cellAt (layer : Layer) (input : Nhwc) (row column filterRow filterColumn : Nat) :
    Option WindowCell :=
  (inside? (layer.height.coordinate row filterRow) input.height).bind fun inputRow =>
    (inside? (layer.width.coordinate column filterColumn) input.width).map fun inputColumn =>
      { filterRow, filterColumn, inputRow, inputColumn }

/-- A cell of a window lies over the input element at its coordinates. -/
theorem cellAt_eq_some {layer : Layer} {input : Nhwc} {row column filterRow filterColumn : Nat}
    {cell : WindowCell} (h : layer.cellAt input row column filterRow filterColumn = some cell) :
    (cell.filterRow = filterRow ∧ cell.filterColumn = filterColumn) ∧
      ((cell.inputRow : Int) = layer.height.coordinate row filterRow ∧
        cell.inputRow < input.height) ∧
      ((cell.inputColumn : Int) = layer.width.coordinate column filterColumn ∧
        cell.inputColumn < input.width) := by
  unfold cellAt at h
  obtain ⟨inputRow, hrow, h⟩ := Option.bind_eq_some_iff.mp h
  obtain ⟨inputColumn, hcolumn, rfl⟩ := Option.map_eq_some_iff.mp h
  exact ⟨⟨rfl, rfl⟩, inside?_eq_some hrow, inside?_eq_some hcolumn⟩

/-- Over an input whose pixels can be addressed, a cell lies over an element exactly when its
coordinates, over the integers, are inside. -/
theorem cellAt_eq_ite {layer : Layer} {input : Nhwc}
    (hinput : input.height * input.width < Checked.signedBound)
    (row column filterRow filterColumn : Nat) :
    layer.cellAt input row column filterRow filterColumn =
      if (0 ≤ layer.height.coordinate row filterRow ∧
          layer.height.coordinate row filterRow < input.height) ∧
        0 ≤ layer.width.coordinate column filterColumn ∧
          layer.width.coordinate column filterColumn < input.width then
        some ⟨filterRow, filterColumn, (layer.height.coordinate row filterRow).toNat,
          (layer.width.coordinate column filterColumn).toNat⟩
      else none := by
  split
  · rename_i hinside
    obtain ⟨⟨hrowLow, hrowHigh⟩, hcolumnLow, hcolumnHigh⟩ := hinside
    have hheight : input.height < Checked.signedBound :=
      lt_of_le_of_lt (Nat.le_mul_of_pos_right _ (by omega)) hinput
    have hwidth : input.width < Checked.signedBound :=
      lt_of_le_of_lt (Nat.le_mul_of_pos_left _ (by omega)) hinput
    rw [cellAt, inside?_of_lt hheight hrowLow hrowHigh, inside?_of_lt hwidth hcolumnLow hcolumnHigh]
    rfl
  · rename_i houtside
    cases hcell : layer.cellAt input row column filterRow filterColumn with
    | none => rfl
    | some cell =>
      obtain ⟨-, ⟨hrow, hrowHigh⟩, hcolumn, hcolumnHigh⟩ := cellAt_eq_some hcell
      exact absurd ⟨⟨by omega, by omega⟩, by omega, by omega⟩ houtside

/-- The sum of a term over the cells of a window that lie over input elements. -/
def windowSum (layer : Layer) (filter input : Nhwc) (row column : Nat) (term : WindowCell → Int) :
    Int :=
  ∑ filterRow ∈ Finset.range filter.height, ∑ filterColumn ∈ Finset.range filter.width,
    (layer.cellAt input row column filterRow filterColumn).elim 0 term

/-- The windows of an output fit along both axes. -/
structure Fits (layer : Layer) (output filter : Nhwc) : Prop where
  height : layer.height.Fits output.height filter.height
  width : layer.width.Fits output.width filter.width

end Layer

/-- The windows of an admitted call stay among the sizes. -/
theorem Admitted.fits {α : Type} {layer : Layer} {operands : Operands α} {outputShape : Shape}
    {e : CallExtents} (h : Admitted layer operands outputShape e) :
    layer.Fits e.output e.filter :=
  ⟨h.height, h.width⟩

/-- The pixels of an input that has channels can be addressed where its elements can. -/
theorem Admitted.area_lt {α : Type} {layer : Layer} {operands : Operands α} {outputShape : Shape}
    {e : CallExtents} (h : Admitted layer operands outputShape e)
    (hinput : operands.input.data.size < Checked.signedBound) {batch : Nat}
    (hb : batch < e.output.batches) (hchannels : 0 < e.input.channels) :
    e.input.height * e.input.width < Checked.signedBound := by
  have hbatches : 0 < e.input.batches := by
    rw [← h.batches] at hb
    omega
  exact ((Nhwc.area_le_size hbatches hchannels).trans h.inputData).trans_lt hinput

namespace Layer

variable {layer : Layer} {output filter input : Nhwc} {row column : Nat}

/-- **The rule for all windows.** -/
theorem foldWindows_ok {ε σ : Type} {stop : σ → Fault → ε} {visit : σ → Window → Except ε σ}
    {start : σ} (hfits : layer.Fits output filter) (Inv : Nat → σ → Prop) (hstart : Inv 0 start)
    (hvisit : ∀ batch < output.batches, ∀ row < output.height, ∀ column < output.width, ∀ s,
      Inv ((batch * output.height + row) * output.width + column) s →
      ∃ s', visit s (layer.windowAt batch row column) = .ok s' ∧
        Inv ((batch * output.height + row) * output.width + column + 1) s') :
    ∃ s, layer.foldWindows output stop visit start = .ok s ∧
      Inv (output.batches * output.height * output.width) s :=
  foldPixels_ok Inv layer.height.start layer.width.start
    (fun _ hr => Axis.origin_eq hfits.height hr) (fun _ hc => Axis.origin_eq hfits.width hc)
    hstart hvisit

/-- A window whose visit never succeeds keeps all windows from being visited. -/
theorem foldWindows_error {ε σ : Type} {stop : σ → Fault → ε} {visit : σ → Window → Except ε σ}
    (start : σ) (hfits : layer.Fits output filter) {batch : Nat} (hb : batch < output.batches)
    (hr : row < output.height) (hc : column < output.width)
    (hvisit : ∀ s, ∃ error, visit s (layer.windowAt batch row column) = .error error) :
    ∃ error, layer.foldWindows output stop visit start = .error error :=
  foldPixels_error start layer.height.start layer.width.start
    (fun _ hr => Axis.origin_eq hfits.height hr) (fun _ hc => Axis.origin_eq hfits.width hc)
    hb hr hc hvisit

/-- Visiting all cells of a window is a double loop over the filter. -/
theorem foldWindow_eq {β : Type} (hfits : layer.Fits output filter) (hr : row < output.height)
    (hc : column < output.width) (batch : Nat) (visit : β → Option WindowCell → Except Fault β)
    (start : β) :
    layer.foldWindow filter input (layer.windowAt batch row column) visit start =
      foldIndices filter.height (fun value filterRow =>
        foldIndices filter.width (fun value filterColumn =>
          visit value (layer.cellAt input row column filterRow filterColumn)) value) start := by
  unfold foldWindow windowAt
  rw [Axis.foldTaps_eq hfits.height hr]
  refine foldIndices_congr start fun filterRow _ value => ?_
  rw [Axis.foldTaps_eq hfits.width hc]
  rfl

/-- Visiting the cells of a window inside the input is a double loop over the filter that does
nothing at the other cells. -/
theorem foldInside_eq {β : Type} (hfits : layer.Fits output filter) (hr : row < output.height)
    (hc : column < output.width) (batch : Nat) (visit : β → WindowCell → Except Fault β)
    (start : β) :
    layer.foldInside filter input (layer.windowAt batch row column) visit start =
      foldIndices filter.height (fun value filterRow =>
        foldIndices filter.width (fun value filterColumn =>
          (layer.cellAt input row column filterRow filterColumn).elim (.ok value) (visit value))
          value) start := by
  unfold foldInside windowAt
  rw [Axis.foldTaps_eq hfits.height hr]
  refine foldIndices_congr start fun filterRow _ value => ?_
  unfold cellAt
  cases inside? (layer.height.coordinate row filterRow) input.height with
  | none =>
    -- a row on padding: the loop over its columns changes nothing
    exact (foldIndices_eq_ok (fun _ => value) rfl fun _ _ => rfl).symm
  | some inputRow =>
    simp only
    rw [Axis.foldTaps_eq hfits.width hc]
    refine foldIndices_congr value fun filterColumn _ value => ?_
    cases inside? (layer.width.coordinate column filterColumn) input.width <;> rfl

/-- **The accumulator of a window.** If every cell inside the input adds its term, wrapped to 32
bits, then the window adds the sum of all terms, wrapped once. -/
theorem foldInside_eq_sum (hfits : layer.Fits output filter) (hr : row < output.height)
    (hc : column < output.width) (batch : Nat) {visit : Int32 → WindowCell → Except Fault Int32}
    (term : WindowCell → Int)
    (hvisit : ∀ filterRow < filter.height, ∀ filterColumn < filter.width, ∀ cell,
      layer.cellAt input row column filterRow filterColumn = some cell →
      ∀ acc, visit acc cell = .ok (acc + Int32.ofInt (term cell))) :
    layer.foldInside filter input (layer.windowAt batch row column) visit 0 =
      .ok (Int32.ofInt (layer.windowSum filter input row column term)) := by
  rw [foldInside_eq hfits hr hc]
  -- the sum of one row of the filter, added to what was there before
  have hrows : ∀ filterRow < filter.height, ∀ acc : Int,
      foldIndices filter.width (fun value filterColumn =>
        (layer.cellAt input row column filterRow filterColumn).elim (.ok value) (visit value))
        (Int32.ofInt acc) =
      .ok (Int32.ofInt (acc + ∑ filterColumn ∈ Finset.range filter.width,
        (layer.cellAt input row column filterRow filterColumn).elim 0 term)) := by
    intro filterRow hfr acc
    refine foldIndices_eq_ok (fun i => Int32.ofInt (acc + ∑ filterColumn ∈ Finset.range i,
      (layer.cellAt input row column filterRow filterColumn).elim 0 term))
      (by rw [Finset.sum_range_zero, add_zero]) ?_
    intro filterColumn hfc
    rw [Finset.sum_range_succ, ← add_assoc]
    cases hcell : layer.cellAt input row column filterRow filterColumn with
    | none => simp only [Option.elim_none, add_zero]
    | some cell =>
      simp only [Option.elim_some]
      rw [Int32.ofInt_add _ (term cell)]
      exact hvisit filterRow hfr filterColumn hfc cell hcell _
  refine foldIndices_eq_ok (fun i => Int32.ofInt (∑ filterRow ∈ Finset.range i,
    ∑ filterColumn ∈ Finset.range filter.width,
      (layer.cellAt input row column filterRow filterColumn).elim 0 term))
    (by rw [Finset.sum_range_zero]; rfl) ?_
  intro filterRow hfr
  rw [Finset.sum_range_succ]
  exact hrows filterRow hfr _

/-- A cell inside the input whose visit never succeeds keeps the window from being visited. -/
theorem foldInside_error {β : Type} (hfits : layer.Fits output filter) (hr : row < output.height)
    (hc : column < output.width) (batch : Nat) {visit : β → WindowCell → Except Fault β} (start : β)
    {filterRow filterColumn : Nat} (hfr : filterRow < filter.height)
    (hfc : filterColumn < filter.width) {cell : WindowCell}
    (hcell : layer.cellAt input row column filterRow filterColumn = some cell)
    (hvisit : ∀ value, ∃ fault, visit value cell = .error fault) :
    ∃ fault, layer.foldInside filter input (layer.windowAt batch row column) visit start =
      .error fault := by
  rw [foldInside_eq hfits hr hc]
  refine foldIndices_error start hfr fun value => foldIndices_error value hfc fun value => ?_
  simp only [hcell, Option.elim_some]
  exact hvisit value

end Layer

end QuantizedConv
