import QuantizedConv.CommandLine.Command

/-!
# The benchmark

A benchmark calls one kernel many times on data of its own. What it prints before the timings
follows from its options: the kernel, the shapes, which come from the `same` padding scheme, and
the number of calls.
-/

set_option autoImplicit false

namespace QuantizedConv

/-- What is measured. -/
structure Benchmark where
  /-- Rows and columns of the input. -/
  size : Nat
  /-- Channels of the input. -/
  channels : Nat
  /-- Channels of the output, or the depth multiplier of a depthwise benchmark. -/
  outChannels : Nat
  /-- Rows and columns of the filter. -/
  filter : Nat
  /-- The distance between two windows. -/
  stride : Nat
  /-- How often the kernel is called. -/
  iterations : Nat
  /-- How many calls are made at once. -/
  threads : Nat
  /-- Whether the depthwise kernel is measured. -/
  depthwise : Bool
  /-- Whether the dense kernel goes through a patch matrix. -/
  patches : Bool
deriving DecidableEq, Repr

/-- What a benchmark leaves behind, timings apart. -/
structure BenchmarkEnding where
  /-- The exit status. -/
  status : Nat
  /-- The report up to the number of calls. -/
  report : Option String
  /-- The error, if there was one. -/
  error : Option String
deriving DecidableEq, Repr

namespace Benchmark

/-- The options of the benchmark. -/
def specs : List Arguments.Spec :=
  (["size", "channels", "out-channels", "filter", "stride", "iters", "threads", "seed"].map
    fun name => ⟨name, some Arguments.isSize⟩)
  ++ ["depthwise", "im2col"].map fun name => ⟨name, none⟩

/-- The benchmark of options and flags, with defaults for the rest. -/
def ofGiven (given : List (String × String)) : Benchmark :=
  let number (name : String) (standard : Nat) : Nat :=
    ((Arguments.value? given name).bind Arguments.size?).getD standard
  { size := number "size" 56
    channels := number "channels" 32
    outChannels := number "out-channels" 32
    filter := number "filter" 3
    stride := number "stride" 1
    iterations := number "iters" 20
    threads := number "threads" 1
    depthwise := (Arguments.value? given "depthwise").isSome
    patches := (Arguments.value? given "im2col").isSome }

/-- The name of the kernel. -/
def kernelName (b : Benchmark) : String :=
  if b.depthwise then "depthwise" else if b.patches then "conv-im2col" else "conv"

/-- The layer before its padding is chosen. -/
def layer (b : Benchmark) : Layer :=
  let axis : Axis := { stride := UInt64.ofNat b.stride }
  { height := axis, width := axis, inputOffset := 3, outputOffset := -5, activation := ⟨-128, 127⟩ }

/-- The layer and the extents of the tensors. -/
structure Setup where
  /-- The layer with its padding. -/
  layer : Layer
  /-- The extents of the three tensors. -/
  extents : CallExtents

/-- The shape of extents. -/
def shapeOf (e : Nhwc) : Shape :=
  .nhwc (.ofNat e.batches) (.ofNat e.height) (.ofNat e.width) (.ofNat e.channels)

/-- The bytes of an output array's header, one for each thread. -/
def headerWidth : Nat := 24

/-- The bytes of a bias or of half a scale. -/
def channelWidth : Nat := 4

/-- Counts the elements of a tensor of bytes and finds room for them. -/
def tensorRoom (e : Nhwc) : Except Fault Unit := do
  let count ← (shapeOf e).count
  Checked.room count 1

/-- Chooses the padding and the shapes, and finds room for all arrays: the input, the filter, the
bias and scales of each channel, and an output for each thread. -/
def setup (b : Benchmark) : Except Fault Setup := do
  let (layer, height, width) ← b.layer.resolve .same b.size b.size b.filter b.filter
  let (filter, channels) ←
    if b.depthwise then do
      let channels ← Checked.mul b.channels b.outChannels
      .ok ((⟨1, b.filter, b.filter, channels⟩ : Nhwc), channels)
    else .ok (⟨b.outChannels, b.filter, b.filter, b.channels⟩, b.outChannels)
  let input : Nhwc := ⟨1, b.size, b.size, b.channels⟩
  let output : Nhwc := ⟨1, height, width, channels⟩
  tensorRoom input
  tensorRoom filter
  Checked.room channels channelWidth
  tensorRoom output
  Checked.room (max b.threads 1) headerWidth
  .ok ⟨layer, { input, filter, output }⟩

/-- Why the kernel refuses the setup, if it does. The arrays are as long as their shapes need, so
that only the windows and the patch matrix are left to check. -/
def check (b : Benchmark) (s : Setup) : Except Refusal Unit := do
  let e := s.extents
  Contract.windowFits s.layer.height e.output.height e.filter.height
  Contract.windowFits s.layer.width e.output.width e.filter.width
  if b.patches && !b.depthwise then Patches.scratchFits e scratchLimit

/-- The number of calls. -/
def calls (b : Benchmark) : Except Fault Nat := do
  let calls ← Checked.mul b.iterations (max b.threads 1)
  let _ ← Checked.mul b.filter b.filter
  .ok calls

/-- The report of a setup and a number of calls. -/
def reportText (b : Benchmark) (s : Setup) (calls : Nat) : String :=
  b.kernelName ++ " input " ++ (shapeOf s.extents.input).bracketed ++ " output "
    ++ (shapeOf s.extents.output).bracketed ++ s!": {calls} calls"

/-- Runs the benchmark, timings apart. -/
def run (b : Benchmark) : BenchmarkEnding :=
  match b.setup with
  | .error _ => ⟨Ending.fault, none, none⟩
  | .ok s =>
    match (if b.iterations = 0 then .ok () else b.check s) with
    | .error refusal => ⟨Ending.failure, none, some (plainReport refusal.message)⟩
    | .ok () =>
      match b.calls with
      | .error _ => ⟨Ending.fault, none, none⟩
      | .ok calls => ⟨Ending.success, some (b.reportText s calls), none⟩

end Benchmark

/-- Runs the command line of the benchmark. -/
def benchmarkLine (arguments : List String) : BenchmarkEnding :=
  match Arguments.parse Benchmark.specs [] arguments with
  | .misuse => ⟨Ending.misuse, none, none⟩
  | .information => ⟨Ending.success, none, none⟩
  | .proceed given => (Benchmark.ofGiven given).run

end QuantizedConv
