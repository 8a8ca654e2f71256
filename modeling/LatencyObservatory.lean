import LatencyObservatory.Attribution.Accounted
import LatencyObservatory.Attribution.Attribute
import LatencyObservatory.Attribution.Exchanges
import LatencyObservatory.Attribution.Gate
import LatencyObservatory.Attribution.Readings
import LatencyObservatory.Attribution.Residual
import LatencyObservatory.Attribution.Shares
import LatencyObservatory.Baselines.Anomaly
import LatencyObservatory.Baselines.Baseline
import LatencyObservatory.Baselines.RoundTrip
import LatencyObservatory.Core.Bracketing
import LatencyObservatory.Core.Calendar
import LatencyObservatory.Core.Checked
import LatencyObservatory.Core.CheckedExact
import LatencyObservatory.Core.Crc
import LatencyObservatory.Core.Digest
import LatencyObservatory.Core.Error
import LatencyObservatory.Core.Evidence
import LatencyObservatory.Core.Ids
import LatencyObservatory.Core.Json
import LatencyObservatory.Core.JsonFields
import LatencyObservatory.Core.JsonGrammar
import LatencyObservatory.Core.JsonLanguage
import LatencyObservatory.Core.JsonPadding
import LatencyObservatory.Core.JsonRead
import LatencyObservatory.Core.JsonRoundTrip
import LatencyObservatory.Core.JsonSize
import LatencyObservatory.Core.JsonSpelling
import LatencyObservatory.Core.JsonText
import LatencyObservatory.Core.JsonTokens
import LatencyObservatory.Core.Merge
import LatencyObservatory.Core.Policy
import LatencyObservatory.Core.PolicyText
import LatencyObservatory.Core.Sha256
import LatencyObservatory.Core.Sha256Digest
import LatencyObservatory.Core.Text
import LatencyObservatory.Core.Time
import LatencyObservatory.Core.UtcRoundTrip
import LatencyObservatory.Core.UtcText
import LatencyObservatory.Core.Wide
import LatencyObservatory.Core.WideNumerals
import LatencyObservatory.Ingest.Acceptance
import LatencyObservatory.Ingest.Codec
import LatencyObservatory.Ingest.Counters
import LatencyObservatory.Ingest.Fence
import LatencyObservatory.Ingest.FenceCodec
import LatencyObservatory.Ingest.Gate
import LatencyObservatory.Ingest.Hops
import LatencyObservatory.Ingest.Independence
import LatencyObservatory.Ingest.Invariant
import LatencyObservatory.Ingest.Progress
import LatencyObservatory.Ingest.Range
import LatencyObservatory.Ingest.Reasons
import LatencyObservatory.Ingest.RecordCodec
import LatencyObservatory.Ingest.Rejection
import LatencyObservatory.Ingest.Replay
import LatencyObservatory.Ingest.Representation
import LatencyObservatory.Ingest.Run
import LatencyObservatory.Ingest.Sessions
import LatencyObservatory.Lib.Acyclic
import LatencyObservatory.Lib.BlockStream
import LatencyObservatory.Lib.Bracketing
import LatencyObservatory.Lib.Capped
import LatencyObservatory.Lib.Checksum
import LatencyObservatory.Lib.Gregorian
import LatencyObservatory.Lib.Listing
import LatencyObservatory.Lib.LittleEndian
import LatencyObservatory.Lib.LongDivision
import LatencyObservatory.Lib.ReflectedCrc
import LatencyObservatory.Lib.SelfDelimiting
import LatencyObservatory.Lib.Separated
import LatencyObservatory.Lib.Shares
import LatencyObservatory.Lib.Sorting
import LatencyObservatory.Lib.Steps
import LatencyObservatory.Lib.StopAtFirst
import LatencyObservatory.Lib.Tables
import LatencyObservatory.Model.Clock
import LatencyObservatory.Model.ClockRange
import LatencyObservatory.Model.Codec
import LatencyObservatory.Model.CodecTrees
import LatencyObservatory.Model.Comparability
import LatencyObservatory.Model.DefinitionCodec
import LatencyObservatory.Model.Entities
import LatencyObservatory.Model.Integrity
import LatencyObservatory.Model.Lineage
import LatencyObservatory.Model.Lookup
import LatencyObservatory.Model.Measurement
import LatencyObservatory.Model.Registry
import LatencyObservatory.Model.SyncCodec
import LatencyObservatory.Runtime.ArrivalOrder
import LatencyObservatory.Runtime.Atomicity
import LatencyObservatory.Runtime.BaselineRestart
import LatencyObservatory.Runtime.Buckets
import LatencyObservatory.Runtime.Currency
import LatencyObservatory.Runtime.Determinism
import LatencyObservatory.Runtime.Documents
import LatencyObservatory.Runtime.Engine
import LatencyObservatory.Runtime.Explain
import LatencyObservatory.Runtime.Export
import LatencyObservatory.Runtime.History
import LatencyObservatory.Runtime.Journal
import LatencyObservatory.Runtime.Lives
import LatencyObservatory.Runtime.Placement
import LatencyObservatory.Runtime.Queries
import LatencyObservatory.Runtime.Range
import LatencyObservatory.Runtime.Reachable
import LatencyObservatory.Runtime.Redating
import LatencyObservatory.Runtime.Replay
import LatencyObservatory.Runtime.Resolve
import LatencyObservatory.Runtime.Restart
import LatencyObservatory.Runtime.Shutdown
import LatencyObservatory.Runtime.Storeless
import LatencyObservatory.Runtime.Transport
import LatencyObservatory.Runtime.WorkerPool
import LatencyObservatory.Runtime.WorkerPoolSafety
import LatencyObservatory.Stats.Accounting
import LatencyObservatory.Stats.CanonicalText
import LatencyObservatory.Stats.Codec
import LatencyObservatory.Stats.CodecTrees
import LatencyObservatory.Stats.Distribution
import LatencyObservatory.Stats.Exact
import LatencyObservatory.Stats.Loop
import LatencyObservatory.Stats.Order
import LatencyObservatory.Stats.Readings
import LatencyObservatory.Stats.Reasons
import LatencyObservatory.Stats.RoundTrip
import LatencyObservatory.Stats.Summary
import LatencyObservatory.Store.Acceptance
import LatencyObservatory.Store.Budget
import LatencyObservatory.Store.Corruption
import LatencyObservatory.Store.Crash
import LatencyObservatory.Store.Directory
import LatencyObservatory.Store.Format
import LatencyObservatory.Store.History
import LatencyObservatory.Store.Limits
import LatencyObservatory.Store.Log
import LatencyObservatory.Store.Manifest
import LatencyObservatory.Store.Numbering
import LatencyObservatory.Store.Place
import LatencyObservatory.Store.Reader
import LatencyObservatory.Store.RoundTrip
import LatencyObservatory.Store.Scan
import LatencyObservatory.Store.Segment
import LatencyObservatory.Store.Session
import LatencyObservatory.Store.Truncation
import LatencyObservatory.Store.WithinLimits
import LatencyObservatory.Store.Writer
