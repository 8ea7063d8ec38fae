import Sentinel.Python.Exn
import Sentinel.Python.Dict
import Sentinel.Python.Json
import Sentinel.Python.JsonProofs
import Sentinel.Transition.Run
import Sentinel.Transition.Threads
import Sentinel.Actions.Models
import Sentinel.Actions.Binding
import Sentinel.Actions.Journal
import Sentinel.Actions.Lifecycle
import Sentinel.Actions.Terminal
import Sentinel.Actions.Executor
import Sentinel.Actions.Gate
import Sentinel.Actions.GateProofs
import Sentinel.Actions.Settlement
import Sentinel.Actions.Report
import Sentinel.Actions.Dispatch
import Sentinel.Actions.History
import Sentinel.Actions.Session
import Sentinel.Actions.Concurrent
import Sentinel.Python.Values
import Sentinel.Agent.Registry
import Sentinel.Agent.Hooks
import Sentinel.Agent.Loop
import Sentinel.Agent.LoopProofs
import Sentinel.Agent.Agents
import Sentinel.Sandbox.Rpc
import Sentinel.Sandbox.Kernel
import Sentinel.Sandbox.Correspondence
import Sentinel.Agent.ReadOnly
import Sentinel.Actions.Guard
import Sentinel.Python.Floats
import Sentinel.Python.Ordering
import Sentinel.Tools.Models
import Sentinel.Tools.Stats
import Sentinel.Oss.Topology
import Sentinel.Oss.RankHead
import Sentinel.Oss.Worker
import Sentinel.Oss.Rca
import Sentinel.Oss.Refutation
import Sentinel.Oss.RootCause
import Sentinel.Oss.WorkerProofs
import Sentinel.Oss.HarnessFail
import Sentinel.Agent.ReportGates
import Sentinel.Agent.Conformance
import Sentinel.Agent.GateTotality
import Sentinel.Python.Replace
import Sentinel.Python.JsonReader
import Sentinel.Python.JsonReaderProofs
import Sentinel.Python.EscapedReplace
import Sentinel.Agent.Redaction
import Sentinel.Actions.Catalog
import Sentinel.LiveLab.Preflight
import Sentinel.LiveLab.Machine
import Sentinel.LiveLab.MachineProofs
import Sentinel.LiveLab.Desk
import Sentinel.LiveLab.Acknowledged
import Sentinel.LiveLab.Outcome
import Sentinel.LiveLab.Course
import Sentinel.LiveLab.Lifecycle
import Sentinel.LiveLab.Bus
import Sentinel.LiveLab.Delivery
import Sentinel.Python.JsonLines
import Sentinel.LiveLab.EventLog
import Sentinel.LiveLab.Stream
import Sentinel.LiveLab.StreamProofs
import Sentinel.Newrelic.Client
import Sentinel.LiveLab.Freshness
import Sentinel.Python.JsonRoundtrip
import Sentinel.LiveLab.Replay
import Sentinel.LiveLab.ReplayProofs
import Sentinel.Transition.TokenBucket
import Sentinel.Agent.RateLimit
import Sentinel.Transition.Framing
import Sentinel.Python.Struct
import Sentinel.Sandbox.Protocol
import Sentinel.Python.Grouping
import Sentinel.Fixtures.Schemas
import Sentinel.Newrelic.Mapping
import Sentinel.Tools.Store
import Sentinel.Newrelic.Store
import Sentinel.Newrelic.Hydration
import Sentinel.Newrelic.Duplicates
import Sentinel.LiveLab.Registry
import Sentinel.LiveLab.SingleFlight
import Sentinel.Agent.Budget
import Sentinel.Sandbox.Budget
import Sentinel.Lgtm.Store
import Sentinel.Lgtm.LogSearch
import Sentinel.Lgtm.LogDifference
import Sentinel.Python.Base64
import Sentinel.Python.Rounding
import Sentinel.Lgtm.Tempo
import Sentinel.Lgtm.Feed
import Sentinel.Lgtm.RoundTrip
import Sentinel.Oss.Presentation
import Sentinel.Oss.RankTies
import Sentinel.Python.Counter
import Sentinel.Tools.Spans
import Sentinel.Tools.Traces
import Sentinel.Tools.Correlate
import Sentinel.Tools.Attribution
import Sentinel.Tools.SelfCheck
import Sentinel.Rcaeval.Re2
import Sentinel.Fixtures.Scenarios
import Sentinel.Transition.Calls
import Sentinel.Transition.ReadModifyWrite
import Sentinel.Labs.Otel.Flagd
import Sentinel.Labs.Otel.LiveIncident
import Sentinel.Labs.Otel.FlagUpdates
import Sentinel.Labs.Otel.Workflow
import Sentinel.Python.JsonLayout
import Sentinel.Python.TextLines
import Sentinel.Fixtures.Dumps
import Sentinel.Labs.Otel.Redactor
import Sentinel.Labs.Otel.Writer
import Sentinel.Labs.Otel.Seal
import Sentinel.Python.IntText
import Sentinel.Actions.Verify
import Sentinel.Actions.Preview
import Sentinel.Actions.Brief
import Sentinel.Actions.Propose
import Sentinel.Python.JsonPrefix
import Sentinel.Python.Substring
import Sentinel.Graphs.Search
import Sentinel.Tools.OriginSoundness
import Sentinel.Tools.Agreement
import Sentinel.Tools.Changes
import Sentinel.Tools.Metrics
import Sentinel.Tools.Hypothesis
import Sentinel.Tools.OriginPath
import Sentinel.Tools.EdgeLatency
import Sentinel.Oss.VerdictText
import Sentinel.Oss.Structured
import Sentinel.Actions.Suggestions
import Sentinel.Actions.Confidence
import Sentinel.Agent.ModifiedInputs
import Sentinel.Text.Quoting
import Sentinel.Rcaeval.Downsample
import Sentinel.Rcaeval.Sampling
import Sentinel.Tools.EmissionGaps
import Sentinel.Newrelic.Nrql
import Sentinel.Tools.Spikes
import Sentinel.Graphs.Reachable
import Sentinel.Graphs.Shortest
import Sentinel.Tools.GraphQueries
import Sentinel.Graphs.Preorder
import Sentinel.Tools.SpanTree
import Sentinel.Python.FloatText
import Sentinel.Sequences.Runs
import Sentinel.Labs.Otel.Alerting
import Sentinel.Labs.Otel.DerivedAlerts
import Sentinel.Sequences.Selection
import Sentinel.Labs.Otel.Normalizer
import Sentinel.Sequences.Windows
import Sentinel.Labs.Otel.Recorder
import Sentinel.Labs.Otel.LogBuckets
import Sentinel.Labs.Otel.FloatBuckets
import Sentinel.Python.LayoutRoundtrip
import Sentinel.Fixtures.Validation
import Sentinel.Fixtures.Replay
import Sentinel.Labs.Otel.FixtureRoundtrip
import Sentinel.Python.RecordLog
import Sentinel.Actions.JournalFile
import Sentinel.Actions.JournalRoundtrip
import Sentinel.Actions.SocketMode
import Sentinel.Actions.SocketSafety
import Sentinel.Python.DeepMerge
import Sentinel.Labs.Otel.NewrelicExport
import Sentinel.Sequences.Latest
import Sentinel.LiveLab.Telemetry
import Sentinel.Transition.Mutex
import Sentinel.Oss.Trace
import Sentinel.Python.Iteration
import Sentinel.Labs.Otel.Coverage
import Sentinel.Labs.Otel.AlertGates
import Sentinel.Labs.Otel.Webhook
import Sentinel.Python.RoundingOrder
import Sentinel.Sequences.OrderStatistics
import Sentinel.Oss.Evidence
import Sentinel.Agent.Accounting
import Sentinel.Agent.Manager
import Sentinel.ToolEval.Grader
import Sentinel.ToolEval.Harness
import Sentinel.ToolEval.Aggregate
import Sentinel.ToolEval.Evaluation
import Sentinel.ToolEval.Scorecard
import Sentinel.ToolEval.Sweep
