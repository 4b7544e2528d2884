/-!
# Refusals

A kernel call is refused, before anything is written, when its operands do not fit together or when
it asks for too much memory. Each cause carries what the caller needs to mend the call, and
`Refusal.message` is its wording.
-/

set_option autoImplicit false

namespace QuantizedConv

/-- The tensors of a kernel call. -/
inductive Operand where
  /-- The activations that are read. -/
  | input
  /-- The weights. -/
  | filter
  /-- The initial accumulators, one for each output channel. -/
  | bias
  /-- The activations that are written. -/
  | output
deriving DecidableEq, Repr

/-- The name of a tensor in messages. -/
def Operand.name : Operand → String
  | .input => "input"
  | .filter => "filter"
  | .bias => "bias"
  | .output => "output"

/-- Pairs of extents that must be equal. -/
inductive Relation where
  /-- The batches of input and output. -/
  | batches
  /-- The channels of the input and the depth of a filter. -/
  | filterDepth
  /-- The number of filters and the channels of the output. -/
  | filterCount
  /-- The number of biases and the channels of the output. -/
  | biasCount
  /-- The channels of the output and the groups of a depthwise layer. -/
  | channelGroups
  /-- The depth of a depthwise filter and the channels of the output. -/
  | depthwiseFilterDepth
deriving DecidableEq, Repr

/-- The name of a pair of extents in messages. -/
def Relation.name : Relation → String
  | .batches => "input batch vs output batch"
  | .filterDepth => "input channels vs filter depth"
  | .filterCount => "filter count vs output channels"
  | .biasCount => "bias size vs output channels"
  | .channelGroups => "output channels vs input channels * depth multiplier"
  | .depthwiseFilterDepth => "filter depth vs output channels"

/-- The arrays with one entry for each output channel. -/
inductive ChannelArray where
  /-- The multipliers of the scales. -/
  | multiplier
  /-- The shifts of the scales. -/
  | shift
deriving DecidableEq, Repr

/-- The name of a per-channel array in messages. -/
def ChannelArray.name : ChannelArray → String
  | .multiplier => "output multiplier"
  | .shift => "output shift"

/-- Why a kernel call is refused. -/
inductive Refusal where
  /-- A tensor has the wrong number of dimensions. -/
  | rank (operand : Operand) (expected actual : Nat)
  /-- Two extents differ. -/
  | extents (relation : Relation) (left right : Nat)
  /-- An array holds fewer elements than its shape needs. -/
  | shortBuffer (operand : Operand) (needed actual : Nat)
  /-- A per-channel array has the wrong length. -/
  | channelCount (array : ChannelArray) (expected actual : Nat)
  /-- The elements of a shape cannot be counted. -/
  | shapeOverflow (operand : Operand)
  /-- Window coordinates leave the signed range. -/
  | windowOverflow
  /-- A value is outside the element type. -/
  | elementRange (operand : Operand) (index : Nat) (value : Int32)
  /-- The memory asked for reaches the limit. -/
  | scratchTooLarge (bytes : Nat)
deriving DecidableEq, Repr

namespace Refusal

/-- Whether a call is refused for want of memory. -/
def isResourceExhaustion : Refusal → Bool
  | .scratchTooLarge _ => true
  | _ => false

/-- Whether a call is refused for what it was given. -/
def isValidation (r : Refusal) : Bool := !r.isResourceExhaustion

/-- The wording of a refusal. -/
def message : Refusal → String
  | .rank operand expected actual =>
      operand.name ++ s!" must have {expected} dimensions, got {actual}"
  | .extents relation left right =>
      "dimension mismatch: " ++ relation.name ++ s!" ({left} != {right})"
  | .shortBuffer operand needed actual =>
      operand.name ++ s!" buffer holds {actual} elements, shape needs {needed}"
  | .channelCount array expected actual =>
      array.name ++ s!" has {actual} entries, expected one per output channel ({expected})"
  | .shapeOverflow operand => operand.name ++ " extent overflows usize"
  | .windowOverflow => "convolution window extent overflows usize"
  | .elementRange operand index value =>
      operand.name ++ s!" value {value.toInt} at index {index} does not fit the element type"
  | .scratchTooLarge bytes =>
      s!"conv size is too large, not enough memory ({bytes} bytes requested)"

end Refusal

end QuantizedConv
