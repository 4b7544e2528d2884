import QuantizedConv.Arithmetic.Checked

/-!
# Output extents and padding

Along one axis a filter of `filter` taps, `dilation` apart, moves over the input in steps of
`stride`. A padding scheme fixes how many windows there are, and the leading padding is half of
what the windows reach over the input.
-/

set_option autoImplicit false

namespace QuantizedConv

/-- How the number of windows along an axis is chosen. -/
inductive PaddingScheme where
  /-- A window for every step that starts inside the input. -/
  | same
  /-- Only windows that lie inside the input. -/
  | valid
deriving DecidableEq, Repr

/-- The extent that a dilated filter covers. -/
def coveredExtent (filter dilation : Nat) : Except Fault Nat :=
  if filter = 0 then .ok 0
  else do
    let steps ← Checked.mul (filter - 1) dilation
    Checked.add steps 1

/-- The number of windows along an axis; none where the stride is zero. -/
def PaddingScheme.outputExtent (scheme : PaddingScheme) (input filter stride dilation : Nat) :
    Except Fault Nat :=
  if stride = 0 then .ok 0
  else
    match scheme with
    | .same => do
      let reach ← Checked.add input stride
      .ok ((reach - 1) / stride)
    | .valid => do
      let covered ← coveredExtent filter dilation
      let reach ← Checked.add input stride
      .ok (if covered ≤ reach then (reach - covered) / stride else 0)

/-- The padding before the first element: half, rounded down, of what `output` windows need beyond
the input. -/
def leadingPadding (stride dilation input filter output : Nat) : Except Fault Nat :=
  if output = 0 then .ok 0
  else do
    let covered ← coveredExtent filter dilation
    let steps ← Checked.mul (output - 1) stride
    let needed ← Checked.add steps covered
    .ok ((needed - input) / 2)

end QuantizedConv
