import Microbench.Text.Quoted
import Microbench.Text.Blank
import Microbench.Number.Whole
import Microbench.Number.Decimal
import Microbench.Number.Shortest
import Microbench.Stats.Pooling
import Microbench.Stats.Describe
import Microbench.Spec.Line
import Microbench.Wire.Codec
import Microbench.Wire.Frame
import Microbench.Task.Bindings
import Microbench.Task.Fixture
import Microbench.Trial.Settings
import Microbench.Engine.Pace
import Microbench.Engine.Thinning
import Microbench.Engine.Sink
import Microbench.Engine.Round
import Microbench.Engine.Lifecycle
import Microbench.Engine.Prepare
import Microbench.Rehearsal.Script
import Microbench.Rehearsal.ScriptedProbe
import Microbench.Config.File
import Microbench.Plan
import Microbench.Plan.PatternReader
import Microbench.Rehearsal.Files
import Microbench.Text.Lines
import Microbench.Profiler.Hotspots
import Microbench.Profiler.Selection
import Microbench.Summary
import Microbench.Session.Worker
import Microbench.Trial.Campaign
import Microbench.Session.InMemory
import Microbench.Rehearsal.Peer
import Microbench.Rehearsal.Launching
import Microbench.Rehearsal.ScriptedMonitor
import Microbench.CommandLine.Run
import Microbench.Rehearsal.Stage
import Microbench.Main
import Microbench.Proofs.Config.Layers
import Microbench.Proofs.Dict
import Microbench.Proofs.Duration.Exact
import Microbench.Proofs.Engine.Accounting
import Microbench.Proofs.Engine.Barrier
import Microbench.Proofs.Engine.Batches
import Microbench.Proofs.Engine.Brackets
import Microbench.Proofs.Engine.Coverage
import Microbench.Proofs.Engine.Departures
import Microbench.Proofs.Engine.Finiteness
import Microbench.Proofs.Engine.FirstFailure
import Microbench.Proofs.Engine.Harvest
import Microbench.Proofs.Engine.Idling
import Microbench.Proofs.Engine.Interleavings
import Microbench.Proofs.Engine.Lanes
import Microbench.Proofs.Engine.Layout
import Microbench.Proofs.Engine.Log
import Microbench.Proofs.Engine.Moves
import Microbench.Proofs.Engine.Nesting
import Microbench.Proofs.Engine.Orders
import Microbench.Proofs.Engine.Pacing
import Microbench.Proofs.Engine.Pairing
import Microbench.Proofs.Engine.Replies
import Microbench.Proofs.Engine.Reporting
import Microbench.Proofs.Engine.Requests
import Microbench.Proofs.Engine.Results
import Microbench.Proofs.Engine.Schedule
import Microbench.Proofs.Engine.Scripts
import Microbench.Proofs.Engine.Sink
import Microbench.Proofs.Engine.Steps
import Microbench.Proofs.Engine.Thinning
import Microbench.Proofs.Engine.Trials
import Microbench.Proofs.Engine.Unmeasured
import Microbench.Proofs.Engine.Watching
import Microbench.Proofs.Number.Decimal
import Microbench.Proofs.Number.Digits
import Microbench.Proofs.Number.Hexadecimal
import Microbench.Proofs.Number.Ordered
import Microbench.Proofs.Number.Quotients
import Microbench.Proofs.Plan.Choices
import Microbench.Proofs.Plan.Delivery
import Microbench.Proofs.Plan.Lengths
import Microbench.Proofs.Plan.Product
import Microbench.Proofs.Profiler.Attribution
import Microbench.Proofs.Profiler.Filtering
import Microbench.Proofs.Profiler.Isolation
import Microbench.Proofs.Profiler.Names
import Microbench.Proofs.Profiler.Ranking
import Microbench.Proofs.Profiler.Spelling
import Microbench.Proofs.Session.Channel
import Microbench.Proofs.Session.Collecting
import Microbench.Proofs.Session.Conformance
import Microbench.Proofs.Session.Likeness
import Microbench.Proofs.Session.Oversize
import Microbench.Proofs.Session.Piped
import Microbench.Proofs.Session.Recital
import Microbench.Proofs.Session.Serving
import Microbench.Proofs.Spec.Canonical
import Microbench.Proofs.Spec.Fields
import Microbench.Proofs.Spec.Order
import Microbench.Proofs.Spec.RoundTrip
import Microbench.Proofs.Spec.Tokens
import Microbench.Proofs.Stats.Attachments
import Microbench.Proofs.Stats.Exact
import Microbench.Proofs.Stats.Percentile
import Microbench.Proofs.Stats.Pooling
import Microbench.Proofs.Stats.Rates
import Microbench.Proofs.Stats.StudentT
import Microbench.Proofs.Text.Blank
import Microbench.Proofs.Text.Lines
import Microbench.Proofs.Text.Slices
import Microbench.Proofs.Trial.Acceptance
import Microbench.Proofs.Trial.Account
import Microbench.Proofs.Trial.Breakdown
import Microbench.Proofs.Trial.Counting
import Microbench.Proofs.Trial.Hooks
import Microbench.Proofs.Trial.Jobs
import Microbench.Proofs.Trial.Monitors
import Microbench.Proofs.Trial.Pooled
import Microbench.Proofs.Trial.Race
import Microbench.Proofs.Trial.Refinement
import Microbench.Proofs.Trial.Resolution
import Microbench.Proofs.Wire.Framing
import Microbench.Proofs.Wire.NextLine
import Microbench.Proofs.Wire.Size
import Microbench.Proofs.Wire.Stream
import Microbench.Proofs.Wire.Transcript
import Microbench.Proofs.Worlds
