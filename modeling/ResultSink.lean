import ResultSink.Sink.Run
import ResultSink.Storage.Faults
import ResultSink.Proofs.Floating.Whole
import ResultSink.Proofs.Record.Fields
import ResultSink.Proofs.Record.RoundTrip
import ResultSink.Proofs.Sink.Distinct
import ResultSink.Proofs.Sink.Failures
import ResultSink.Proofs.Sink.Isolation
import ResultSink.Proofs.Sink.Outcomes
import ResultSink.Proofs.Sink.Projection
import ResultSink.Proofs.Sink.Protocol
import ResultSink.Proofs.Sink.Schema
import ResultSink.Proofs.Storage.Promotion
import ResultSink.Proofs.Storage.Writes
import ResultSink.Proofs.Value.Rounding
import ResultSink.Proofs.Value.WholeText
import ResultSink.Proofs.Record.Extents
import ResultSink.Proofs.Value.DecimalText
import ResultSink.Proofs.Value.Integers
import ResultSink.Proofs.Floating.Reach
import ResultSink.Proofs.Value.Saturation
import ResultSink.Proofs.Value.TextRoundTrip
import ResultSink.Proofs.Sink.Width
import ResultSink.Proofs.Sink.KeyLimit
import ResultSink.Proofs.Sink.FirstRow
import ResultSink.Proofs.Storage.Accounts
import ResultSink.Proofs.Storage.Reachable
import ResultSink.Proofs.Sink.Watching
import ResultSink.Proofs.Sink.BitRuns
import ResultSink.Proofs.Floating.Monotone
import ResultSink.Proofs.Floating.Widening
import ResultSink.Proofs.Floating.Powers
import ResultSink.Proofs.Floating.Difference
import ResultSink.Proofs.Value.Numbers
import ResultSink.Proofs.Value.Sorting
import ResultSink.Proofs.Value.HashData
import ResultSink.Proofs.Value.Hashing
import ResultSink.Proofs.Sink.Lookups
