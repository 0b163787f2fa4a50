import DebugTree.Config.Basic
import DebugTree.Config.File
import DebugTree.Config.Record
import DebugTree.Debouncer
import DebugTree.Debouncer.Timeline
import DebugTree.Deferred
import DebugTree.Deferred.Scene
import DebugTree.Fault
import DebugTree.Fields
import DebugTree.FileUrl
import DebugTree.FileUrl.Host
import DebugTree.FileUrl.Host.Table
import DebugTree.FileUrl.Path
import DebugTree.Glob.Basic
import DebugTree.Glob.Compiled
import DebugTree.Glob.Copies
import DebugTree.Glob.List
import DebugTree.Identity
import DebugTree.Index
import DebugTree.Json.Basic
import DebugTree.Json.Member
import DebugTree.Json.Number
import DebugTree.Json.Printer
import DebugTree.Json.Reader
import DebugTree.Logging
import DebugTree.Logging.FileTree
import DebugTree.PathCase
import DebugTree.Pattern.Basic
import DebugTree.Pattern.Matching
import DebugTree.Pattern.Meaning
import DebugTree.Policy.Basic
import DebugTree.Policy.Blackbox
import DebugTree.Policy.Edit
import DebugTree.Proofs.Debouncer
import DebugTree.Proofs.Deferred
import DebugTree.Proofs.FileUrl.Shape
import DebugTree.Proofs.Glob.Compile
import DebugTree.Proofs.Glob.Exact
import DebugTree.Proofs.Glob.Literal
import DebugTree.Proofs.Glob.Memory
import DebugTree.Proofs.Index
import DebugTree.Proofs.Pattern.Source
import DebugTree.Proofs.Policy.Backslashes
import DebugTree.Proofs.Policy.Builtins
import DebugTree.Proofs.Policy.Bystanders
import DebugTree.Proofs.Policy.Editing
import DebugTree.Proofs.Policy.Explicit
import DebugTree.Proofs.Policy.Routing
import DebugTree.Proofs.Ranges.Coverage
import DebugTree.Proofs.Ranges.Forcing
import DebugTree.Proofs.Ranges.Gaps
import DebugTree.Proofs.Ranges.Inheriting
import DebugTree.Proofs.Ranges.Levels
import DebugTree.Proofs.Ranges.Merging
import DebugTree.Proofs.Regex.Basic
import DebugTree.Proofs.Regex.Reader
import DebugTree.Proofs.Run
import DebugTree.Proofs.Session.Acquisition
import DebugTree.Proofs.Session.Calls
import DebugTree.Proofs.Session.Collecting
import DebugTree.Proofs.Session.Connections
import DebugTree.Proofs.Session.Faithful
import DebugTree.Proofs.Session.Handshakes
import DebugTree.Proofs.Session.Lasting
import DebugTree.Proofs.Session.Ledger
import DebugTree.Proofs.Session.Records
import DebugTree.Proofs.Session.Replays
import DebugTree.Proofs.Session.Requests
import DebugTree.Proofs.Session.Revisions
import DebugTree.Proofs.Session.Stages
import DebugTree.Proofs.Session.Stretches
import DebugTree.Proofs.Session.Waiting
import DebugTree.Proofs.Skipper.Agreement
import DebugTree.Proofs.Skipper.Batches
import DebugTree.Proofs.Skipper.Crossing
import DebugTree.Proofs.Skipper.Deeds
import DebugTree.Proofs.Skipper.Departure
import DebugTree.Proofs.Skipper.Evolution
import DebugTree.Proofs.Skipper.Flips
import DebugTree.Proofs.Skipper.Freshness
import DebugTree.Proofs.Skipper.Heading
import DebugTree.Proofs.Skipper.Issues
import DebugTree.Proofs.Skipper.Lines
import DebugTree.Proofs.Skipper.Patterns
import DebugTree.Proofs.Skipper.Ranges
import DebugTree.Proofs.Skipper.Refusals
import DebugTree.Proofs.Skipper.Seats
import DebugTree.Proofs.Skipper.Toggle
import DebugTree.Proofs.Skipper.Tour
import DebugTree.Proofs.Source.Descent
import DebugTree.Proofs.Source.Walks
import DebugTree.Proofs.Target.Growth
import DebugTree.Proofs.Target.Kinship
import DebugTree.Proofs.Text.Folding
import DebugTree.Proofs.Text.Lowering
import DebugTree.Protocol.Breakpoints
import DebugTree.Protocol.Launch
import DebugTree.Protocol.Message
import DebugTree.Protocol.Names
import DebugTree.Protocol.Places
import DebugTree.Protocol.Request
import DebugTree.Protocol.Toggle
import DebugTree.Ranges.Below
import DebugTree.Ranges.Inverted
import DebugTree.Ranges.Span
import DebugTree.Run
import DebugTree.Session.Bench
import DebugTree.Session.Handshake
import DebugTree.Session.Registry
import DebugTree.Session.Teardown
import DebugTree.Session.World
import DebugTree.SkipBus
import DebugTree.SkipBus.World
import DebugTree.Skipper.Basic
import DebugTree.Skipper.Batch
import DebugTree.Skipper.Bench
import DebugTree.Skipper.Change
import DebugTree.Skipper.Estate
import DebugTree.Skipper.World
import DebugTree.Source.Basic
import DebugTree.Source.Graph
import DebugTree.Target.Change
import DebugTree.Target.Tree
import DebugTree.Text.Blank
import DebugTree.Text.CaseMapping
import DebugTree.Text.CaseMapping.Table
import DebugTree.Text.CodeRange
import DebugTree.Text.Hexadecimal
import DebugTree.Text.Quoted
import DebugTree.Text.Quoted.Table
import DebugTree.Text.SimpleFolding
import DebugTree.Text.SimpleFolding.Table
import DebugTree.Text.Splitting
import DebugTree.Text.Utf8
import DebugTree.Text.Uuid
import DebugTree.Toml.Basic
import DebugTree.Toml.Quotation
import DebugTree.Toml.Reader
import DebugTree.Toml.Scalar
import DebugTree.Toml.Table
import DebugTree.Proofs.Session.Failures
import DebugTree.Proofs.Ranges.Listings
import DebugTree.Proofs.Skipper.Choices
import DebugTree.Proofs.Policy.Paths
import DebugTree.Proofs.Skipper.Paths
import DebugTree.Proofs.Glob.Parts
import DebugTree.Proofs.Policy.Kept
import DebugTree.Proofs.Debouncer.Timeline
import DebugTree.Proofs.Debouncer.Settling
import DebugTree.Proofs.SkipBus
import DebugTree.Proofs.Json.Stored
import DebugTree.Proofs.Protocol.Records
import DebugTree.Proofs.Protocol.RoundTrip
import DebugTree.Proofs.Target.Dismantling
import DebugTree.Proofs.Session.Teardown
import DebugTree.Proofs.Json.Paths
import DebugTree.Proofs.Protocol.Carrying
import DebugTree.Proofs.Glob.Folding
import DebugTree.Proofs.Policy.Alike
import DebugTree.Proofs.Skipper.Silence
import DebugTree.Proofs.Ranges.Canonical
import DebugTree.Proofs.Glob.Copies
