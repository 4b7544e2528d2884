import QuantizedConv.Case.Basic
import QuantizedConv.Kernel.Depthwise
import QuantizedConv.Kernel.Patches

/-!
# Running cases

A run narrows the data of a case to its element types, calls the kernel of its kind on a fresh
output, and widens the result. `Case.check` compares an output with the expected one.
-/

set_option autoImplicit false

namespace QuantizedConv

/-- How dense cases are run. -/
inductive Lowering where
  /-- Window by window. -/
  | direct
  /-- Through a patch matrix. -/
  | patches
deriving DecidableEq, Repr

/-- The value at an index as an activation, or its refusal. -/
def narrowAt {α : Type} [Activation α] (operand : Operand) (entry : Int32 × Nat) :
    Except Refusal α :=
  match Activation.narrow? entry.1 with
  | none => .error (.elementRange operand entry.2 entry.1)
  | some x => .ok x

/-- The activations of 32-bit integers; the first one out of range is refused. -/
def narrowAll {α : Type} [Activation α] (operand : Operand) (values : List Int32) :
    Except Refusal (List α) :=
  values.zipIdx.mapM (narrowAt operand)

namespace Case

/-- The shape of the bias: a plain list unless the case says otherwise. -/
def effectiveBiasShape (c : Case) (bias : List Int32) : Shape :=
  c.biasShape.getD ⟨[UInt64.ofNat bias.length]⟩

/-- The layer of a depthwise case. -/
def depthwiseLayer (c : Case) : DepthwiseLayer :=
  { c.layer with depthMultiplier := c.depthMultiplier }

/-- What the kernel of a case reads. -/
def operands (α : Type) [Activation α] (c : Case) : Except Refusal (Operands α) := do
  let input : List α ← narrowAll .input c.input
  let filter : List Int8 ← narrowAll .filter c.filter
  .ok {
    input := ⟨c.inputShape, input.toArray⟩
    filter := ⟨c.filterShape, filter.toArray⟩
    bias := c.bias.map fun bias => ⟨c.effectiveBiasShape bias, bias.toArray⟩
    scales := ⟨c.outputMultiplier.toArray, c.outputShift.toArray⟩ }

/-- The contract of the kernel of a case, apart from its output array. -/
def contract {α : Type} (c : Case) (operands : Operands α) : Except Refusal CallExtents :=
  match c.kind with
  | .conv => Contract.dense c.layer operands c.outputShape
  | .depthwise => Contract.depthwise c.depthwiseLayer operands c.outputShape

/-- The kernel call of a case into the array of `output`. Depthwise cases always run window by
window. -/
def call {α : Type} [Activation α] (c : Case) (lowering : Lowering) (operands : Operands α)
    (output : Tensor α) : Outcome α :=
  match c.kind, lowering with
  | .conv, .direct => Dense.convolve c.layer operands output
  | .conv, .patches => Patches.convolve c.layer operands output scratchLimit
  | .depthwise, _ => Depthwise.convolve c.depthwiseLayer operands output

/-- The output of the kernel of a case, called on a fresh array. -/
def kernelOutput {α : Type} [Activation α] (c : Case) (lowering : Lowering)
    (operands : Operands α) : Except Failure (Array α) :=
  Fresh.call (c.contract operands) (c.call lowering operands) c.outputShape

/-- A run with activations of type `α`. -/
def runAs (α : Type) [Activation α] (c : Case) (lowering : Lowering) :
    Except Failure (List Int32) :=
  match c.operands α with
  | .error refusal => .error (.refused refusal)
  | .ok operands => (c.kernelOutput lowering operands).map fun output =>
      output.toList.map Activation.widen

/-- A run of a case. -/
def run (c : Case) (lowering : Lowering) : Except Failure (List Int32) :=
  match c.element with
  | .i8 => c.runAs Int8 lowering
  | .u8 => c.runAs UInt8 lowering

/-- What a depthwise run reports: first, that it does not go through a patch matrix, where it was
asked to. -/
def depthwiseEvents {α : Type} (c : Case) (lowering : Lowering) (operands : Operands α) :
    List Event :=
  match Depthwise.freshEvents c.depthwiseLayer operands c.outputShape, lowering with
  | [], _ => []
  | events, .direct => events
  | events, .patches => .loweringIgnored :: events

/-- What a run with activations of type `α` reports. -/
def runEventsAs (α : Type) [Activation α] (c : Case) (lowering : Lowering) : List Event :=
  match c.operands α with
  | .error _ => []
  | .ok operands =>
    match c.kind, lowering with
    | .conv, .direct => Dense.freshEvents c.layer operands c.outputShape
    | .conv, .patches => Patches.freshEvents c.layer operands c.outputShape scratchLimit
    | .depthwise, _ => c.depthwiseEvents lowering operands

/-- What a run of a case reports. -/
def runEvents (c : Case) (lowering : Lowering) : List Event :=
  match c.element with
  | .i8 => c.runEventsAs Int8 lowering
  | .u8 => c.runEventsAs UInt8 lowering

end Case

/-- How an output is not the expected one. -/
inductive Mismatch where
  /-- The lengths differ. -/
  | length (expected got : Nat)
  /-- The first of `count` differing elements. -/
  | element (index : Nat) (expected got : Int32) (count : Nat)
deriving DecidableEq, Repr

/-- The wording of a mismatch. -/
def Mismatch.message : Mismatch → String
  | .length expected got => s!"expected {expected} output elements, got {got}"
  | .element index expected got count =>
      s!"output mismatch at index {index}: expected {expected.toInt}, got {got.toInt} "
        ++ s!"({count} total)"

namespace Case

/-- The positions at which two lists differ, with their elements. -/
def differences (expected got : List Int32) : List ((Int32 × Int32) × Nat) :=
  (expected.zip got).zipIdx.filter fun ((e, g), _) => e ≠ g

/-- Compares an output with the expected one, where there is one. -/
def check (c : Case) (got : List Int32) : Except Mismatch Unit :=
  match c.expected with
  | none => .ok ()
  | some expected =>
    if expected.length ≠ got.length then .error (.length expected.length got.length)
    else
      let differing := differences expected got
      match differing with
      | [] => .ok ()
      | ((e, g), index) :: _ => .error (.element index e g differing.length)

/-- What a comparison reports. -/
def checkEvents (c : Case) (got : List Int32) : List Event :=
  match c.check got with
  | .error (.element _ _ _ count) => [.outputsDiffer count got.length]
  | _ => []

end Case

end QuantizedConv
