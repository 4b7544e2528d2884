import QuantizedConv.Bench.Benchmark
import QuantizedConv.FixedPoint.Real
import QuantizedConv.Main
import QuantizedConv.Proofs.Faults
import QuantizedConv.Proofs.BlockDiagonal
import QuantizedConv.Proofs.ChannelGroups
import QuantizedConv.Proofs.FreshOutputs
import QuantizedConv.Proofs.CaseRuns
import QuantizedConv.Proofs.Numerals
import QuantizedConv.Proofs.Items
import QuantizedConv.Proofs.Members
import QuantizedConv.Proofs.Scanning
import QuantizedConv.Proofs.LayerDocuments
import QuantizedConv.Proofs.CaseDocuments
import QuantizedConv.Proofs.Requirements
import QuantizedConv.Proofs.Recoding
import QuantizedConv.Proofs.ZeroPoint
import QuantizedConv.Proofs.Batches
import QuantizedConv.Proofs.ResolvedPadding
import QuantizedConv.Proofs.NearestScale
import QuantizedConv.Proofs.CommandRuns
import QuantizedConv.Proofs.NormalizedScale
import QuantizedConv.Proofs.SchemeWindows
import QuantizedConv.Proofs.PassedValues
import QuantizedConv.Proofs.RecordSpellings
import QuantizedConv.Proofs.ElementCounts
import QuantizedConv.Proofs.MonotoneScaling
import QuantizedConv.Proofs.OffsetOrder
import QuantizedConv.Proofs.OutputRanges
import QuantizedConv.Proofs.PatchRows
