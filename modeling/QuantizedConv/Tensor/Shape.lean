import QuantizedConv.Arithmetic.Checked

/-!
# Shapes and tensors

A shape is a list of dimensions, the last one innermost. Its elements are counted by a running
product that must stay a size at every step, so a zero dimension saves only what follows it. For
shapes of rank four, `Shape.offset` is the row-major position of an element.
-/

set_option autoImplicit false

namespace QuantizedConv

/-- The dimensions of a tensor, outermost first. -/
structure Shape where
  /-- One size for each dimension. -/
  dims : List UInt64
deriving DecidableEq, Repr

namespace Shape

/-- The number of dimensions. -/
def rank (s : Shape) : Nat := s.dims.length

/-- One dimension. -/
def dim (s : Shape) (axis : Nat) : Except Fault Nat :=
  match s.dims[axis]? with
  | some d => .ok d.toNat
  | none => .error (.index s.rank axis)

/-- The number of elements, by a running product from the outermost dimension. -/
def count (s : Shape) : Except Fault Nat :=
  s.dims.foldlM (fun product d => Checked.mul product d.toNat) 1

/-- The number of elements, unless the running product leaves the sizes. -/
def count? (s : Shape) : Option Nat :=
  s.dims.foldlM (fun product d => Checked.mul? product d.toNat) 1

/-- One step down the dimensions: `outer` blocks of one dimension, and `inner` more elements. -/
def descend (s : Shape) (outer axis inner : Nat) : Except Fault Nat := do
  let d ← s.dim axis
  let blocks ← Checked.mul outer d
  Checked.add blocks inner

/-- The row-major position of the element at four indices. The outermost dimension and those behind
the fourth are not looked at. -/
def offset (s : Shape) (i₀ i₁ i₂ i₃ : Nat) : Except Fault Nat := do
  let rows ← s.descend i₀ 1 i₁
  let columns ← s.descend rows 2 i₂
  s.descend columns 3 i₃

/-- The shape of four extents. -/
def nhwc (n h w c : UInt64) : Shape := ⟨[n, h, w, c]⟩

end Shape

/-- A shape with the elements it describes, and possibly more behind them. -/
structure Tensor (α : Type) where
  /-- The dimensions. -/
  shape : Shape
  /-- The elements in row-major order. -/
  data : Array α
deriving DecidableEq, Repr

/-- The four extents of a tensor of rank four. -/
structure Nhwc where
  /-- The outermost extent: batches, or filters. -/
  batches : Nat
  /-- The number of rows. -/
  height : Nat
  /-- The number of columns. -/
  width : Nat
  /-- The innermost extent. -/
  channels : Nat
deriving DecidableEq, Repr

/-- The indices of one element of a tensor of rank four. -/
structure Coordinate where
  /-- The index along the outermost extent. -/
  batch : Nat
  /-- The row. -/
  row : Nat
  /-- The column. -/
  column : Nat
  /-- The index along the innermost extent. -/
  channel : Nat
deriving DecidableEq, Repr

namespace Nhwc

/-- The extents of a shape of rank four. -/
def ofShape? (s : Shape) : Option Nhwc :=
  match s.dims with
  | [n, h, w, c] => some ⟨n.toNat, h.toNat, w.toNat, c.toNat⟩
  | _ => none

end Nhwc

end QuantizedConv
