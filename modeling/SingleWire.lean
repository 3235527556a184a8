import SingleWire.Packet
import SingleWire.Continuation.Field
import SingleWire.Continuation.Groups
import SingleWire.Header
import SingleWire.Fault
import SingleWire.ByteQueue
import SingleWire.ByteSource
import SingleWire.Reader
import SingleWire.Script
import SingleWire.Framer
import SingleWire.DecodeError
import SingleWire.LogEntry
import SingleWire.Decoder
import SingleWire.Watchpoint
import SingleWire.Grammar
import SingleWire.Wire
import SingleWire.Form.Tree
import SingleWire.Form.Term
import SingleWire.Form.Packet
import SingleWire.Form.Fault
import SingleWire.Form.Watchpoint
import SingleWire.Form.Continuation
import SingleWire.Form.LogEntry
import SingleWire.CommandLine.Arguments
import SingleWire.CommandLine.Report
import SingleWire.CommandLine.Printable
import SingleWire.CommandLine.Quoted
import SingleWire.CommandLine.Listing
import SingleWire.Main
import SingleWire.Proofs.FieldGroups
import SingleWire.Proofs.FieldValue
import SingleWire.Proofs.FieldReading
import SingleWire.Proofs.RestoredField
import SingleWire.Proofs.HeaderGrammar
import SingleWire.Proofs.FrameExtent
import SingleWire.Proofs.FrameSequence
import SingleWire.Proofs.UnfinishedFrame
import SingleWire.Proofs.FramerGrammar
import SingleWire.Proofs.DecoderGrammar
import SingleWire.Proofs.Calls
import SingleWire.Proofs.QueueLedger
import SingleWire.Proofs.History
import SingleWire.Proofs.Tiling
import SingleWire.Proofs.Resumption
import SingleWire.Proofs.WireRoundTrip
import SingleWire.Proofs.Realignment
import SingleWire.Proofs.Boundaries
import SingleWire.Proofs.WidthComparison
import SingleWire.Proofs.SourceWalk
import SingleWire.Proofs.WellFormed
import SingleWire.Proofs.Course
import SingleWire.Proofs.CheckedAccess
import SingleWire.Proofs.SourceDiscipline
import SingleWire.Proofs.Residue
import SingleWire.Proofs.PaddedScript
import SingleWire.Proofs.Waiting
import SingleWire.Proofs.WholeInput
import SingleWire.Proofs.Invocation
import SingleWire.Proofs.ListedItems
import SingleWire.Proofs.ListedInput
import SingleWire.Proofs.ServedBlocks
import SingleWire.Proofs.PortStreams
import SingleWire.Proofs.WatchpointFormat
import SingleWire.Proofs.PayloadValue
import SingleWire.Proofs.LogRecord
import SingleWire.Proofs.PullLoop
import SingleWire.Proofs.ScriptedSource
