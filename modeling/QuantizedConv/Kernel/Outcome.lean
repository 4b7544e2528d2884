import QuantizedConv.Kernel.Contract
import QuantizedConv.Tensor.Activation

/-!
# Writing an output tensor

Kernels write into an array of the caller, element by element. A call ends well, is refused before
the first write, or stops at a fault and leaves what it had written so far. All kernels share the
last step of an element (bias, scale, zero point, clamp, narrowing), the way it is written and the
allocation of a fresh output.
-/

set_option autoImplicit false

namespace QuantizedConv

/-- Why a kernel call did not end well. -/
inductive Failure where
  /-- The call was refused; nothing was written. -/
  | refused (refusal : Refusal)
  /-- The call stopped at a fault. -/
  | faulted (fault : Fault)
deriving DecidableEq, Repr

/-- What a kernel call leaves behind. -/
structure Outcome (α : Type) where
  /-- The output array after the call. -/
  buffer : Array α
  /-- How the call ended. -/
  ending : Except Failure Unit

namespace Outcome

variable {α : Type}

/-- A call that was refused. -/
def refused (buffer : Array α) (refusal : Refusal) : Outcome α :=
  ⟨buffer, .error (.refused refusal)⟩

/-- A call that stopped at a fault. -/
def faulted (buffer : Array α) (fault : Fault) : Outcome α :=
  ⟨buffer, .error (.faulted fault)⟩

/-- Writes one element at the place that the shape gives it. -/
def put (shape : Shape) (target : Coordinate) (element : Except Fault α) (buffer : Array α) :
    Except (Stopped (Array α)) (Array α) := do
  let value ← Stopped.during buffer element
  let place ← Stopped.during buffer
    (shape.offset target.batch target.row target.column target.channel)
  if place < buffer.size then .ok (buffer.setIfInBounds place value)
  else .error ⟨.index buffer.size place, buffer⟩

/-- What a call whose contract holds leaves behind. -/
def ofWrites : Except (Stopped (Array α)) (Array α) → Outcome α
  | .ok buffer => ⟨buffer, .ok ()⟩
  | .error stopped => faulted stopped.state stopped.fault

/-- The array of a call that ended well. -/
def result (outcome : Outcome α) : Except Failure (Array α) :=
  match outcome.ending with
  | .ok () => .ok outcome.buffer
  | .error failure => .error failure

end Outcome

/-- The limit, in bytes, at which memory is refused unless the caller sets another. -/
def scratchLimit : Nat := 0x7fffffff

/-- The number of elements of a fresh output, where memory for it is granted. -/
def freshSize (shape : Shape) : Except Refusal Nat := do
  let n ← Contract.count .output shape
  if scratchLimit ≤ n then .error (.scratchTooLarge n) else .ok n

/-- A fresh output of zeros. -/
def zeros (α : Type) [Activation α] (shape : Shape) (size : Nat) : Tensor α :=
  ⟨shape, Array.replicate size (Activation.narrow 0)⟩

/-- The contract of a call that writes into a fresh array, and the size of that array. -/
def Fresh.check (contract : Except Refusal CallExtents) (outputShape : Shape) :
    Except Refusal (CallExtents × Nat) := do
  let e ← contract
  let size ← freshSize outputShape
  .ok (e, size)

/-- A call into a fresh array: its contract is checked, the array is allocated, and the kernel is
called on it. -/
def Fresh.call {α : Type} [Activation α] (contract : Except Refusal CallExtents)
    (kernel : Tensor α → Outcome α) (outputShape : Shape) : Except Failure (Array α) :=
  match Fresh.check contract outputShape with
  | .error refusal => .error (.refused refusal)
  | .ok (_, size) => (kernel (zeros α outputShape size)).result

/-- The activation of one output channel from its accumulator. -/
def Operands.activate {α : Type} [Activation α] (layer : Layer) (operands : Operands α)
    (channel : Nat) (acc : Int32) : Except Fault α := do
  let biased ←
    match operands.bias with
    | none => .ok acc
    | some tensor => do
      let bias ← Checked.get tensor.data channel
      .ok (acc + bias)
  let multiplier ← Checked.get operands.scales.multiplier channel
  let shift ← Checked.get operands.scales.shift channel
  .ok (Activation.narrow (requantize ⟨multiplier, shift⟩ layer.outputOffset layer.activation biased))

end QuantizedConv
