import QuantizedConv.Proofs.Loops

/-!
# Row-major positions

The elements of a tensor of rank four are numbered in row-major order. `Nhwc.position` is the number
of an element over the naturals and `Nhwc.coordinate` its inverse. Where the running products of the
extents are sizes (`Nhwc.Countable`), which is what counting the elements checks, every offset of an
element inside the extents is computed without a fault and is its position (`offset_eq_position`),
and the positions of different elements differ (`coordinate_position`).
-/

set_option autoImplicit false

namespace QuantizedConv

namespace Nhwc

/-- The number of elements. -/
def size (e : Nhwc) : Nat := e.batches * e.height * e.width * e.channels

/-- The row-major position of an element. -/
def position (e : Nhwc) (t : Coordinate) : Nat :=
  ((t.batch * e.height + t.row) * e.width + t.column) * e.channels + t.channel

/-- The indices of the element at a row-major position. -/
def coordinate (e : Nhwc) (position : Nat) : Coordinate where
  batch := position / e.channels / e.width / e.height
  row := position / e.channels / e.width % e.height
  column := position / e.channels % e.width
  channel := position % e.channels

/-- The indices of an element are below the extents. -/
structure Holds (e : Nhwc) (t : Coordinate) : Prop where
  batch : t.batch < e.batches
  row : t.row < e.height
  column : t.column < e.width
  channel : t.channel < e.channels

/-- The running products of the extents, from the outermost on, are sizes. -/
structure Countable (e : Nhwc) : Prop where
  planes : e.batches * e.height < Checked.sizeBound
  rows : e.batches * e.height * e.width < Checked.sizeBound
  size : e.size < Checked.sizeBound

end Nhwc

/-- A number of two digits is below the product of the two bases. -/
theorem digits_lt {a b i j : Nat} (hi : i < a) (hj : j < b) : i * b + j < a * b := by
  calc i * b + j < i * b + b := by omega
    _ = (i + 1) * b := by ring
    _ ≤ a * b := Nat.mul_le_mul_right b hi

/-- The higher digit of a number of two digits. -/
theorem digits_div {b j : Nat} (i : Nat) (hj : j < b) : (i * b + j) / b = i := by
  have hquotient := Nat.add_mul_div_right j i (show 0 < b by omega)
  rw [Nat.add_comm, hquotient, Nat.div_eq_of_lt hj, Nat.zero_add]

/-- The lower digit of a number of two digits. -/
theorem digits_mod {b j : Nat} (i : Nat) (hj : j < b) : (i * b + j) % b = j :=
  Nat.mul_add_mod_of_lt hj

namespace Nhwc

variable {e : Nhwc} {t : Coordinate}

/-- The number of the pixel of an element is below the number of pixels. -/
theorem pixel_lt (hb : t.batch < e.batches) (hr : t.row < e.height) (hc : t.column < e.width) :
    (t.batch * e.height + t.row) * e.width + t.column < e.batches * e.height * e.width :=
  digits_lt (digits_lt hb hr) hc

/-- The channels of a pixel end before the elements do. -/
theorem pixel_end_le (hb : t.batch < e.batches) (hr : t.row < e.height) (hc : t.column < e.width) :
    ((t.batch * e.height + t.row) * e.width + t.column + 1) * e.channels ≤ e.size :=
  Nat.mul_le_mul_right e.channels (pixel_lt hb hr hc)

/-- The slice with the channels of a pixel ends before the elements do. -/
theorem slice_end_le {batch row column : Nat} (hb : batch < e.batches) (hr : row < e.height)
    (hc : column < e.width) : e.position ⟨batch, row, column, 0⟩ + e.channels ≤ e.size := by
  have hend := pixel_end_le (t := ⟨batch, row, column, 0⟩) hb hr hc
  rwa [Nat.succ_mul] at hend

/-- The position of an element is below the number of elements. -/
theorem position_lt (h : e.Holds t) : e.position t < e.size :=
  digits_lt (pixel_lt h.batch h.row h.column) h.channel

/-- A row-major position, with the outermost index apart from the inner three. -/
theorem position_eq_row (e : Nhwc) (t : Coordinate) :
    e.position t = t.batch * (e.height * e.width * e.channels) +
      ((t.row * e.width + t.column) * e.channels + t.channel) := by
  rw [position]
  ring

/-- Extents that hold an element have no more pixels in a batch than elements. -/
theorem area_le_size (hb : 0 < e.batches) (hk : 0 < e.channels) : e.height * e.width ≤ e.size := by
  calc e.height * e.width ≤ e.batches * (e.height * e.width) := Nat.le_mul_of_pos_left _ hb
    _ = e.batches * e.height * e.width := by ring
    _ ≤ e.size := Nat.le_mul_of_pos_right _ hk

/-- An element is found again from its position. -/
theorem coordinate_position (h : e.Holds t) : e.coordinate (e.position t) = t := by
  have hchannel := digits_div ((t.batch * e.height + t.row) * e.width + t.column) h.channel
  have hcolumn := digits_div (t.batch * e.height + t.row) h.column
  simp only [coordinate, position, hchannel, hcolumn, digits_div t.batch h.row,
    digits_mod _ h.channel, digits_mod _ h.column, digits_mod _ h.row]

/-- The coordinate of a number of an element lies inside the extents. -/
theorem holds_coordinate (e : Nhwc) {i : Nat} (hi : i < e.size) : e.Holds (e.coordinate i) := by
  have hchannels : 0 < e.channels := Nat.pos_of_ne_zero fun hzero => by simp [size, hzero] at hi
  have hwidth : 0 < e.width := Nat.pos_of_ne_zero fun hzero => by simp [size, hzero] at hi
  have hheight : 0 < e.height := Nat.pos_of_ne_zero fun hzero => by simp [size, hzero] at hi
  refine ⟨?_, Nat.mod_lt _ hheight, Nat.mod_lt _ hwidth, Nat.mod_lt _ hchannels⟩
  simp only [coordinate, Nat.div_lt_iff_lt_mul hheight, Nat.div_lt_iff_lt_mul hwidth,
    Nat.div_lt_iff_lt_mul hchannels]
  exact hi

/-- The extents of a shape, and its dimensions. -/
theorem ofShape?_eq_some_iff {s : Shape} :
    ofShape? s = some e ↔ ∃ n h w c : UInt64, s.dims = [n, h, w, c] ∧
      e = ⟨n.toNat, h.toNat, w.toNat, c.toNat⟩ := by
  unfold ofShape?
  split
  · rename_i n h w c hdims
    rw [hdims]
    constructor
    · intro he
      cases he
      exact ⟨n, h, w, c, rfl, rfl⟩
    · rintro ⟨n', h', w', c', hlist, rfl⟩
      cases hlist
      rfl
  · rename_i hdims
    constructor
    · intro he
      cases he
    · rintro ⟨n, h, w, c, hlist, -⟩
      exact absurd hlist (hdims n h w c)

/-- The outermost extent of a shape is a size. -/
theorem batches_lt {s : Shape} (hs : ofShape? s = some e) : e.batches < Checked.sizeBound := by
  obtain ⟨n, h, w, c, -, rfl⟩ := ofShape?_eq_some_iff.mp hs
  exact n.toNat_lt

end Nhwc

namespace Shape

variable {s : Shape} {e : Nhwc}

/-- The elements of a shape of rank four can be counted exactly when the running products of its
extents are sizes. -/
theorem count?_eq_some_iff (hs : Nhwc.ofShape? s = some e) {n : Nat} :
    s.count? = some n ↔ e.Countable ∧ n = e.size := by
  obtain ⟨a, b, c, d, hdims, rfl⟩ := Nhwc.ofShape?_eq_some_iff.mp hs
  have ha : a.toNat < Checked.sizeBound := a.toNat_lt
  unfold count?
  rw [hdims]
  simp only [List.foldlM_cons, List.foldlM_nil, Checked.mul?, Nat.one_mul, ha, if_true,
    Option.bind_eq_bind, Option.bind_some, Option.pure_def]
  constructor
  · intro h
    by_cases hplanes : a.toNat * b.toNat < Checked.sizeBound
    · by_cases hrows : a.toNat * b.toNat * c.toNat < Checked.sizeBound
      · by_cases hsize : a.toNat * b.toNat * c.toNat * d.toNat < Checked.sizeBound
        · simp only [hplanes, hrows, hsize, if_true, Option.bind_some, Option.some.injEq] at h
          exact ⟨⟨hplanes, hrows, hsize⟩, h.symm⟩
        · simp [hplanes, hrows, hsize] at h
      · simp [hplanes, hrows] at h
    · simp [hplanes] at h
  · rintro ⟨hcount, rfl⟩
    have hsize : a.toNat * b.toNat * c.toNat * d.toNat < Checked.sizeBound := hcount.size
    simp only [hcount.planes, hcount.rows, hsize, if_true, Option.bind_some, Nhwc.size]

/-- Each step of an offset is computed where its result is a size. -/
theorem descend_eq {outer axis inner d : Nat} (hd : s.dim axis = .ok d)
    (h : outer * d + inner < Checked.sizeBound) :
    s.descend outer axis inner = .ok (outer * d + inner) := by
  have hmul : Checked.mul outer d = .ok (outer * d) := if_pos (by omega)
  have hadd : Checked.add (outer * d) inner = .ok (outer * d + inner) := if_pos h
  rw [descend, bind_of_ok hd, bind_of_ok hmul, hadd]

/-- A step of an offset that succeeds gives a size. -/
theorem of_descend_eq {outer axis inner d n : Nat} (hd : s.dim axis = .ok d)
    (h : s.descend outer axis inner = .ok n) : n = outer * d + inner ∧ n < Checked.sizeBound := by
  rw [descend, bind_of_ok hd, bind_eq_ok_iff] at h
  obtain ⟨blocks, hblocks, hsum⟩ := h
  unfold Checked.mul at hblocks
  unfold Checked.add at hsum
  split at hblocks
  · cases hblocks
    split at hsum
    · cases hsum
      exact ⟨rfl, by assumption⟩
    · cases hsum
  · cases hblocks

/-- The inner three dimensions of a shape of rank four. -/
theorem dims_eq (hs : Nhwc.ofShape? s = some e) :
    s.dim 1 = .ok e.height ∧ s.dim 2 = .ok e.width ∧ s.dim 3 = .ok e.channels := by
  obtain ⟨a, b, c, d, hdims, rfl⟩ := Nhwc.ofShape?_eq_some_iff.mp hs
  simp [dim, hdims]

/-- An offset is computed, and is the row-major position, where every number on the way is a size. -/
theorem offset_eq (hs : Nhwc.ofShape? s = some e) {i₀ i₁ i₂ i₃ : Nat}
    (h₁ : i₀ * e.height + i₁ < Checked.sizeBound)
    (h₂ : (i₀ * e.height + i₁) * e.width + i₂ < Checked.sizeBound)
    (h₃ : e.position ⟨i₀, i₁, i₂, i₃⟩ < Checked.sizeBound) :
    s.offset i₀ i₁ i₂ i₃ = .ok (e.position ⟨i₀, i₁, i₂, i₃⟩) := by
  obtain ⟨hheight, hwidth, hchannels⟩ := dims_eq hs
  rw [offset, bind_of_ok (descend_eq hheight h₁), bind_of_ok (descend_eq hwidth h₂)]
  exact descend_eq hchannels h₃

/-- An offset that is computed is the row-major position, and a size. -/
theorem of_offset_eq (hs : Nhwc.ofShape? s = some e) {i₀ i₁ i₂ i₃ n : Nat}
    (h : s.offset i₀ i₁ i₂ i₃ = .ok n) :
    n = e.position ⟨i₀, i₁, i₂, i₃⟩ ∧ n < Checked.sizeBound := by
  obtain ⟨hheight, hwidth, hchannels⟩ := dims_eq hs
  rw [offset, bind_eq_ok_iff] at h
  obtain ⟨rows, hrows, h⟩ := h
  rw [bind_eq_ok_iff] at h
  obtain ⟨columns, hcolumns, h⟩ := h
  obtain ⟨rfl, -⟩ := of_descend_eq hheight hrows
  obtain ⟨rfl, -⟩ := of_descend_eq hwidth hcolumns
  exact of_descend_eq hchannels h

/-- Inside countable extents every offset is computed, up to the end of the channels. -/
theorem offset_eq_position (hs : Nhwc.ofShape? s = some e) (hcount : e.Countable)
    {t : Coordinate} (hb : t.batch < e.batches) (hr : t.row < e.height) (hc : t.column < e.width)
    (hk : t.channel ≤ e.channels) :
    s.offset t.batch t.row t.column t.channel = .ok (e.position t) := by
  have hplane := digits_lt hb hr
  have hpixel := Nhwc.pixel_lt hb hr hc
  have hend := Nhwc.pixel_end_le hb hr hc
  have hposition : e.position t ≤ e.size := by
    refine le_trans ?_ hend
    rw [Nhwc.position, Nat.succ_mul]
    omega
  exact offset_eq hs (hplane.trans hcount.planes) (hpixel.trans hcount.rows)
    (lt_of_le_of_lt hposition hcount.size)

/-- Where the inner extents are not zero, an offset is computed as soon as the position is a size. -/
theorem offset_eq_of_position_lt (hs : Nhwc.ofShape? s = some e) (hw : 0 < e.width)
    (hc : 0 < e.channels) {i₀ i₁ i₂ i₃ : Nat}
    (h : e.position ⟨i₀, i₁, i₂, i₃⟩ < Checked.sizeBound) :
    s.offset i₀ i₁ i₂ i₃ = .ok (e.position ⟨i₀, i₁, i₂, i₃⟩) := by
  have hcolumns : (i₀ * e.height + i₁) * e.width + i₂ ≤ e.position ⟨i₀, i₁, i₂, i₃⟩ :=
    (Nat.le_mul_of_pos_right _ hc).trans (Nat.le_add_right _ _)
  have hrows : i₀ * e.height + i₁ ≤ (i₀ * e.height + i₁) * e.width + i₂ :=
    (Nat.le_mul_of_pos_right _ hw).trans (Nat.le_add_right _ _)
  exact offset_eq hs (by omega) (by omega) h

end Shape

end QuantizedConv
