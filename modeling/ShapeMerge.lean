import ShapeMerge.Binary.Codec
import ShapeMerge.Builder.Operation
import ShapeMerge.Graph.OneLine
import ShapeMerge.Json.Codec
import ShapeMerge.Merging.Pass
import ShapeMerge.NameMap.Lemmas
import ShapeMerge.Proofs.Builder.Attempt
import ShapeMerge.Proofs.Collapse.Faithful
import ShapeMerge.Proofs.Collapse.Lowering
import ShapeMerge.Proofs.Collapse.Places
import ShapeMerge.Proofs.Merging.Bare
import ShapeMerge.Proofs.Merging.Duplicates
import ShapeMerge.Proofs.Merging.Repetition
import ShapeMerge.Proofs.Merging.ClosedForm
import ShapeMerge.Proofs.Values.Duplicates
import ShapeMerge.Proofs.Partition.Maximal
import ShapeMerge.Proofs.Partition.FirstFit
import ShapeMerge.Proofs.Binary.Decoders
import ShapeMerge.Proofs.Binary.RoundTrip
import ShapeMerge.Proofs.Json.Numeral
import ShapeMerge.Proofs.Json.Tokens
import ShapeMerge.Proofs.Json.RoundTrip
import ShapeMerge.Proofs.Json.Views
import ShapeMerge.Proofs.Json.Graphs
import ShapeMerge.Proofs.Partition.Calls
import ShapeMerge.Proofs.Collapse.Projection
import ShapeMerge.Proofs.Builder.Nullable
import ShapeMerge.Proofs.Graph.Alternatives
import ShapeMerge.Proofs.Tally
import ShapeMerge.Proofs.Merging.Warnings
import ShapeMerge.Proofs.Merging.Literals
import ShapeMerge.Proofs.Merging.Losses
import ShapeMerge.Proofs.Collapse.Narrowings
import ShapeMerge.Proofs.Hints
import ShapeMerge.Proofs.Merging.Reworked
