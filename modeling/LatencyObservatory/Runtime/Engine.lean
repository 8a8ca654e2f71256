import LatencyObservatory.Attribution.Attribute
import LatencyObservatory.Ingest.Codec
import LatencyObservatory.Ingest.Gate
import LatencyObservatory.Runtime.History
import LatencyObservatory.Store.Reader
import LatencyObservatory.Store.Writer

/-!
# The engine

The engine holds the registries, the ingest gate's fences, the baselines and the stored measurements, and
appends every change to the store. Each operation takes the engine together with the store directory and
returns both. A call reads the clock once; `now` is that reading.
-/

namespace LatencyObservatory.Runtime

open LatencyObservatory.Core LatencyObservatory.Model LatencyObservatory.Ingest LatencyObservatory.Stats
open LatencyObservatory.Baselines LatencyObservatory.Attribution LatencyObservatory.Store

structure RuntimeConfig where
  policy : RuntimePolicy := defaultPolicy
  storeDirectory : Option Bytes := none
  durableWrites : Bool := true
  readonly : Bool := false

/-- The counters that the writers keep. -/
structure EngineStats where
  measurementsStored : Nat := 0
  measurementsCurrent : Nat := 0
  measurementsHistorical : Nat := 0
  measurementsRejected : Nat := 0
  ingestBatches : Nat := 0
  recordsPersisted : Nat := 0
  baselines : Nat := 0
deriving DecidableEq

structure Engine where
  config : RuntimeConfig
  catalog : Catalog
  clocks : ClockRegistry
  fences : Fences := ∅
  baselines : BaselineStore
  records : List MeasurementRecord := []
  recovery : RecoveryReport := {}
  stats : EngineStats := {}
  sessionStart : Timestamp
  recordCapacity : Nat := 0
  writer : Option StoreWriter := none
  shutDown : Bool := false

namespace Engine

def policy (e : Engine) : RuntimePolicy := e.config.policy

def gate (e : Engine) : IngestGate :=
  { policy := e.policy, catalog := e.catalog, clocks := e.clocks, fences := e.fences }

/-- The constructor. -/
def new (config : RuntimeConfig) (sessionStart : Timestamp) : Engine where
  config := config
  catalog := { limits := config.policy.limits }
  clocks := { policy := config.policy }
  baselines := { limits := config.policy.limits, policy := config.policy }
  sessionStart := sessionStart
  recordCapacity := config.policy.limits.maxTotalSamples

/-! ### Queries -/

def summarize (e : Engine) (request : SummaryRequest) : Except Error PathSummary :=
  Stats.summarize e.records e.catalog request e.policy

def history (e : Engine) (request : HistoryRequest) : Except Error HistoryResult :=
  Runtime.history e.records e.catalog e.policy request

def attributeExchanges (e : Engine) (request : AttributionRequest) : Except Error AttributionResult :=
  Attribution.attributeExchanges e.records e.catalog e.clocks e.baselines request e.policy

/-! ### Restart -/

/-- The freshness of a loaded record is its age at the start of this session. -/
def reclassifyLoaded (e : Engine) (record : MeasurementRecord) : MeasurementRecord :=
  let freshness := match (e.clocks.estimateAge record.stamp.observedAt e.sessionStart).ageNs with
    | some age => e.policy.freshness.classify age
    | none => .unknown
  let evidence := (record.evidence.setFreshness freshness).addReason .restartLoadedEvidence
  { record with
    evidence := if !evidence.usable && evidence.state == .observed then evidence.addReason .evidenceStale
      else evidence }

/-- A registry entry of the store is defined again. -/
def reload {α ι : Type} (value : Except Error α) (register : α → Except Error ι × Engine) :
    Except Error Engine := do
  let (result, e) := register (← value)
  let _ ← result
  return e

/-- One record of the store. -/
def loadRecord (e : Engine) (record : StoredRecord) : Except Error Engine := do
  let document ← parseJson record.payload e.policy.limits.maxJsonDepth
  match record.type with
  | .source => reload (decodeSource document) fun value =>
      ((e.catalog.defineSource value).1, { e with catalog := (e.catalog.defineSource value).2 })
  | .endpoint => reload (decodeEndpoint document) fun value =>
      ((e.catalog.defineEndpoint value).1, { e with catalog := (e.catalog.defineEndpoint value).2 })
  | .link => reload (decodeLink document) fun value =>
      ((e.catalog.defineLink value).1, { e with catalog := (e.catalog.defineLink value).2 })
  | .queue => reload (decodeQueue document) fun value =>
      ((e.catalog.defineQueue value).1, { e with catalog := (e.catalog.defineQueue value).2 })
  | .hop => reload (decodeHop document) fun value =>
      ((e.catalog.defineHop value).1, { e with catalog := (e.catalog.defineHop value).2 })
  | .generation => reload (decodeGeneration document) fun value =>
      ((e.catalog.defineGeneration value).1, { e with catalog := (e.catalog.defineGeneration value).2 })
  | .path => reload (decodePath document) fun value =>
      ((e.catalog.definePath value).1, { e with catalog := (e.catalog.definePath value).2 })
  | .clockDomain => reload (decodeClockDomain document) fun value =>
      ((e.clocks.defineDomain value).1, { e with clocks := (e.clocks.defineDomain value).2 })
  | .clockSync => reload (decodeClockSync document) fun value =>
      ((e.clocks.recordSync value).1, { e with clocks := (e.clocks.recordSync value).2 })
  | .measurementCurrent | .measurementHistorical =>
    let value ← decodeMeasurement document
    return { e with records := e.records ++ [e.reclassifyLoaded value] }
  | .baseline =>
    let value ← decodeBaseline document
    let (_, baselines) ← e.baselines.add value
    return { e with baselines }
  | .fenceState =>
    let (source, state) ← decodeFenceState document
    return { e with fences := e.fences.insert source state }

def loadRecords (e : Engine) : List StoredRecord → Except Error Engine
  | [] => .ok e
  | record :: rest => do
    let e ← e.loadRecord record
    e.loadRecords rest

def storeConfig (e : Engine) (directory : Bytes) (createIfMissing : Bool) : StoreConfig :=
  { directory, limits := e.policy.limits, policyDigest := e.policy.digest, createIfMissing }

def loadStore (e : Engine) (directory : Bytes) (d : Directory) : Except Error Engine := do
  let _ ← StoreReader.open (e.storeConfig directory false) d
  let (stored, recovery) := readAll d
  if stored.length > e.recordCapacity then
    .error ⟨.capacityExceeded, "the store holds more records than this runtime is configured to load",
      decimal stored.length⟩
  else loadRecords ({ e with recovery := recovery }) stored

end Engine

/-! ### The engine and its store -/

structure System where
  engine : Engine
  directory : Directory

/-- `Engine::create`. -/
def create (config : RuntimeConfig) (now : Nanos) (d : Directory) : Except Error System := do
  config.policy.validate
  let e := Engine.new config ⟨now, referenceClockDomain⟩
  match config.storeDirectory with
  | none => return ⟨e, d⟩
  | some directory =>
    let e ← if d.manifest.isSome then e.loadStore directory d else .ok e
    let (writer, d) ← StoreWriter.open (e.storeConfig directory true) now d
    return ⟨{ e with writer := some writer }, d⟩

namespace System

def withEngine (s : System) (e : Engine) : System := { s with engine := e }

/-- `LATOBS_TRY_STATUS`: the first error ends the call. -/
def andThen (first : Status × System) (next : System → Status × System) : Status × System :=
  match first.1 with
  | .error e => (.error e, first.2)
  | .ok () => next first.2

def shuttingDown : Error := ⟨.shuttingDown, "the runtime is shut down", []⟩

/-- The file behind the writer is made durable. -/
def sync (s : System) (writer : StoreWriter) : Status × System :=
  let (result, writer, d) := writer.sync s.directory
  (result, ⟨{ s.engine with writer := some writer }, d⟩)

/-- `persist` appends one record, and syncs it unless a batch does that at its end. -/
def persist (s : System) (now : Nanos) (type : RecordType) (payload : Bytes) (syncNow : Bool := true) :
    Status × System :=
  if s.engine.config.readonly then (.error ⟨.refused, "the runtime is configured as read only", []⟩, s)
  else match s.engine.writer with
    | none => (.ok (), s)
    | some writer =>
      let (result, writer, d) := writer.append now (type, payload) s.directory
      let s : System := ⟨{ s.engine with writer := some writer }, d⟩
      match result with
      | .error e => (.error e, s)
      | .ok () => if s.engine.config.durableWrites && syncNow then s.sync writer else (.ok (), s)

/-- The shape of every definition: the registry is changed first, then the definition is appended as it
was given. -/
def define {α ι : Type} (s : System) (now : Nanos) (type : RecordType) (write : JsonWriter → α → JsonWriter)
    (value : α) (register : Engine → α → Except Error ι × Engine) : Except Error ι × System :=
  if s.engine.shutDown then (.error shuttingDown, s)
  else
    let (result, e) := register s.engine value
    match result with
    | .error error => (.error error, s.withEngine e)
    | .ok id =>
      let (persisted, s) := (s.withEngine e).persist now type (encodeWith fun w => write w value)
      (persisted.map fun _ => id, s)

def defineSource (s : System) (now : Nanos) (descriptor : SourceDescriptor) : Except Error SourceId × System :=
  s.define now .source writeSource descriptor fun e value =>
    ((e.catalog.defineSource value).1, { e with catalog := (e.catalog.defineSource value).2 })

def defineEndpoint (s : System) (now : Nanos) (definition : EndpointDef) : Except Error EndpointId × System :=
  s.define now .endpoint writeEndpoint definition fun e value =>
    ((e.catalog.defineEndpoint value).1, { e with catalog := (e.catalog.defineEndpoint value).2 })

def defineLink (s : System) (now : Nanos) (definition : LinkDef) : Except Error LinkId × System :=
  s.define now .link writeLink definition fun e value =>
    ((e.catalog.defineLink value).1, { e with catalog := (e.catalog.defineLink value).2 })

def defineQueue (s : System) (now : Nanos) (definition : QueueDef) : Except Error QueueId × System :=
  s.define now .queue writeQueue definition fun e value =>
    ((e.catalog.defineQueue value).1, { e with catalog := (e.catalog.defineQueue value).2 })

def defineHop (s : System) (now : Nanos) (definition : HopDef) : Except Error HopId × System :=
  s.define now .hop writeHop definition fun e value =>
    ((e.catalog.defineHop value).1, { e with catalog := (e.catalog.defineHop value).2 })

def defineGeneration (s : System) (now : Nanos) (definition : GenerationDef) : Except Error GenerationId × System :=
  s.define now .generation writeGeneration definition fun e value =>
    ((e.catalog.defineGeneration value).1, { e with catalog := (e.catalog.defineGeneration value).2 })

def definePath (s : System) (now : Nanos) (definition : PathDef) : Except Error PathId × System :=
  s.define now .path writePath definition fun e value =>
    ((e.catalog.definePath value).1, { e with catalog := (e.catalog.definePath value).2 })

def defineClockDomain (s : System) (now : Nanos) (definition : ClockDomainDef) :
    Except Error ClockDomainId × System :=
  s.define now .clockDomain writeClockDomain definition fun e value =>
    ((e.clocks.defineDomain value).1, { e with clocks := (e.clocks.defineDomain value).2 })

def recordClockSync (s : System) (now : Nanos) (sync : ClockSync) : Status × System :=
  s.define now .clockSync writeClockSync sync fun e value =>
    ((e.clocks.recordSync value).1, { e with clocks := (e.clocks.recordSync value).2 })

/-! ### Ingest -/

/-- One accepted record is appended and then stored. -/
def store (s : System) (now : Nanos) (type : RecordType) (record : MeasurementRecord) : Status × System :=
  andThen (s.persist now type (encodeWith fun w => writeMeasurement w record) false) fun s =>
    (.ok (), s.withEngine { s.engine with
      records := s.engine.records ++ [record]
      stats := { s.engine.stats with recordsPersisted := s.engine.stats.recordsPersisted + 1 } })

/-- The fence state of one source is appended. -/
def storeFence (s : System) (now : Nanos) (entry : SourceId × SourceFenceState) : Status × System :=
  andThen (s.persist now .fenceState (encodeWith fun w => writeFenceState w entry.1 entry.2) false) fun s =>
    (.ok (), s.withEngine { s.engine with
      stats := { s.engine.stats with recordsPersisted := s.engine.stats.recordsPersisted + 1 } })

/-- A loop that stops at the first error. -/
def each {α : Type} (body : System → α → Status × System) : System → List α → Status × System
  | s, [] => (.ok (), s)
  | s, x :: rest => andThen (body s x) fun s => each body s rest

/-- A batch is made durable once, at its end. -/
def syncBatch (s : System) : Status × System :=
  match s.engine.config.durableWrites, s.engine.writer with
  | true, some writer => s.sync writer
  | _, _ => (.ok (), s)

/-- Everything a batch appends: the current records, the historical ones, then the state of every fence. -/
def storeBatch (s : System) (now : Nanos) (admission : Admission) : Status × System :=
  andThen (each (store · now .measurementCurrent ·) s admission.acceptedCurrent) fun s =>
    andThen (each (store · now .measurementHistorical ·) s admission.acceptedHistory) fun s =>
      andThen (each (storeFence · now ·) s s.engine.fences.toList) syncBatch

/-- The fences that the gate leaves. -/
def admitted (e : Engine) (admission : Admission) : Engine :=
  { e with
    fences := admission.fences
    stats := { e.stats with ingestBatches := e.stats.ingestBatches + 1 } }

/-- The counters of a batch that was stored. -/
def reported (e : Engine) (report : IngestReport) : Engine :=
  { e with
    stats := { e.stats with
      measurementsStored := e.records.length
      measurementsCurrent := e.stats.measurementsCurrent + report.acceptedCurrent
      measurementsHistorical := e.stats.measurementsHistorical + report.acceptedHistorical
      measurementsRejected := e.stats.measurementsRejected + report.rejected } }

def ingest (s : System) (now : Nanos) (request : IngestRequest) : Except Error IngestReport × System :=
  if s.engine.shutDown then (.error shuttingDown, s)
  else if s.engine.config.readonly then (.error ⟨.refused, "the runtime is read only", []⟩, s)
  else if s.engine.records.length + request.records.length > s.engine.recordCapacity then
    (.error ⟨.capacityExceeded, "the runtime has reached its configured evidence capacity",
      decimal s.engine.records.length⟩, s)
  else match s.engine.gate.admitBatch request with
    | .error e => (.error e, s)
    | .ok admission =>
      let (result, s) := (s.withEngine (admitted s.engine admission)).storeBatch now admission
      match result with
      | .error e => (.error e, s)
      | .ok () => (.ok admission.report, s.withEngine (reported s.engine admission.report))

/-! ### Baselines -/

structure BaselineRequest where
  name : Name
  path : PathId
  generation : GenerationId
  mode : AggregationMode := .current
  window : TimeWindow
  histogram : HistogramSpec := .latencyDefault
  probes : List QuantileProbe := defaultQuantileProbes
  source : SourceId := .none

def BaselineRequest.summary (request : BaselineRequest) : SummaryRequest :=
  { path := request.path
    generation := request.generation
    mode := request.mode
    window := request.window
    histogram := request.histogram
    probes := request.probes
    restrictToSource := request.source }

/-- The baseline that a summary is kept as. -/
def BaselineRequest.baseline (request : BaselineRequest) (now : Nanos) (policy : RuntimePolicy)
    (summary : PathSummary) : Baseline :=
  { name := request.name
    path := request.path
    generation := request.generation
    domain := request.window.start.domain
    revision := .first
    histogram := request.histogram
    probes := request.probes
    source := request.source
    synthetic := request.source.valid
    createdAt := ⟨now, referenceClockDomain⟩
    window := request.window
    exchangeCount := summary.exchangesIncluded
    endToEnd := summary.endToEnd
    hops := summary.hops
    evidence := summary.evidence
    policyDigest := policy.digest }

/-- A baseline that was added is appended as it is stored. -/
def storeBaseline (s : System) (now : Nanos) (id : BaselineId) : Except Error BaselineId × System :=
  match s.engine.baselines.get id with
  | .error e => (.error e, s)
  | .ok stored =>
    let (result, s) := s.persist now .baseline (encodeWith fun w => writeBaseline w stored)
    match result with
    | .error e => (.error e, s)
    | .ok () =>
      (.ok id, s.withEngine { s.engine with
        stats := { s.engine.stats with
          recordsPersisted := s.engine.stats.recordsPersisted + 1
          baselines := s.engine.baselines.baselines.size } })

def createBaseline (s : System) (now : Nanos) (request : BaselineRequest) : Except Error BaselineId × System :=
  if s.engine.shutDown then (.error shuttingDown, s)
  else match s.engine.summarize request.summary with
    | .error e => (.error e, s)
    | .ok summary =>
      if summary.exchangesIncluded = 0 then
        (.error ⟨.refused, "a baseline cannot be created from a window with no usable evidence", []⟩, s)
      else match s.engine.baselines.add (request.baseline now s.engine.policy summary) with
        | .error e => (.error e, s)
        | .ok (id, baselines) => (s.withEngine { s.engine with baselines }).storeBaseline now id

/-! ### Lifecycle -/

def flush (s : System) : Status × System :=
  match s.engine.writer with
  | none => (.ok (), s)
  | some writer => s.sync writer

/-- The writer is closed and released; a second call does nothing. -/
def shutdown (s : System) : Status × System :=
  if s.engine.shutDown then (.ok (), s)
  else
    let e := { s.engine with shutDown := true }
    match e.writer with
    | none => (.ok (), s.withEngine e)
    | some writer =>
      match writer.close s.directory with
      | (.error error, writer, d) => (.error error, ⟨{ e with writer := some writer }, d⟩)
      | (.ok (), _, d) => (.ok (), ⟨{ e with writer := none }, d⟩)

end System

/-! ### Calls -/

/-- One call of the engine's writer interface, with the clock reading of its time. -/
inductive Call where
  | defineSource (descriptor : SourceDescriptor)
  | defineEndpoint (definition : EndpointDef)
  | defineLink (definition : LinkDef)
  | defineQueue (definition : QueueDef)
  | defineHop (definition : HopDef)
  | defineGeneration (definition : GenerationDef)
  | definePath (definition : PathDef)
  | defineClockDomain (definition : ClockDomainDef)
  | recordClockSync (sync : ClockSync)
  | ingest (request : IngestRequest)
  | createBaseline (request : System.BaselineRequest)
  | flush
  | shutdown

/-- The outcome of a call, without what it returns. -/
def outcome {α : Type} (result : Except Error α × System) : Status × System :=
  (result.1.map fun _ => (), result.2)

def System.call (s : System) (now : Nanos) : Call → Status × System
  | .defineSource descriptor => outcome (s.defineSource now descriptor)
  | .defineEndpoint definition => outcome (s.defineEndpoint now definition)
  | .defineLink definition => outcome (s.defineLink now definition)
  | .defineQueue definition => outcome (s.defineQueue now definition)
  | .defineHop definition => outcome (s.defineHop now definition)
  | .defineGeneration definition => outcome (s.defineGeneration now definition)
  | .definePath definition => outcome (s.definePath now definition)
  | .defineClockDomain definition => outcome (s.defineClockDomain now definition)
  | .recordClockSync sync => s.recordClockSync now sync
  | .ingest request => outcome (s.ingest now request)
  | .createBaseline request => outcome (s.createBaseline now request)
  | .flush => s.flush
  | .shutdown => s.shutdown

/-- The system after one call of a run. -/
def System.step (s : System) (c : Nanos × Call) : System :=
  (s.call c.1 c.2).2

end LatencyObservatory.Runtime
