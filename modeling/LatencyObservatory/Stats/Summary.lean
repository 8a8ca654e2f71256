import LatencyObservatory.Model.Entities
import LatencyObservatory.Model.Measurement
import LatencyObservatory.Stats.Distribution

/-!
# Path summaries

`classify_record` is the one filter of the queries; `summarize` walks the stored records once, counts
what it leaves out and aggregates what it includes, for the exchange and for each declared hop.
-/

namespace LatencyObservatory.Stats

open LatencyObservatory.Core LatencyObservatory.Model

inductive AggregationMode where
  | current
  | historical
deriving DecidableEq, Repr

/-- A half open interval in one clock domain. -/
structure TimeWindow where
  start : Timestamp := default
  stop : Timestamp := default
deriving DecidableEq, Repr

namespace TimeWindow

def contains (w : TimeWindow) (point : Timestamp) : Bool :=
  point.domain == w.start.domain && point.ns ≥ w.start.ns && point.ns < w.stop.ns

def valid (w : TimeWindow) : Bool :=
  w.start.valid && w.stop.valid && w.start.domain == w.stop.domain && w.start.ns < w.stop.ns

def make (start stop : Timestamp) : Except Error TimeWindow :=
  if !start.valid || !stop.valid then
    .error ⟨.invalidArgument, "time window bounds must carry a clock domain", []⟩
  else if start.domain ≠ stop.domain then
    .error ⟨.invalidArgument, "time window bounds must be expressed in the same clock domain", []⟩
  else if start.ns ≥ stop.ns then
    .error ⟨.invalidArgument, "time window must be a non-empty half open interval", []⟩
  else .ok ⟨start, stop⟩

end TimeWindow

inductive RecordClass where
  | included
  | otherPath
  | otherGeneration
  | otherSource
  | clockDomainMismatch
  | outOfWindow
  | stale
  | conflicting
  | unsupported
deriving DecidableEq, Repr

def classifyRecord (record : MeasurementRecord) (path : PathId) (generation : GenerationId)
    (mode : AggregationMode) (window : TimeWindow) (restrictToSource : SourceId) : RecordClass :=
  if record.path ≠ path then .otherPath
  else if record.generation ≠ generation then .otherGeneration
  else if restrictToSource.valid ∧ record.source ≠ restrictToSource then .otherSource
  else if record.stamp.receivedAt.domain ≠ window.start.domain then .clockDomainMismatch
  else if !window.contains record.stamp.receivedAt then .outOfWindow
  else
    let state := record.evidence.state
    if state = .conflicting then .conflicting
    else if state = .unsupported ∨ state = .refused ∨ state = .unknown ∨ state = .missing then .unsupported
    else if mode = .current ∧ !record.evidence.usable then .stale
    else .included

structure HopSummary where
  index : HopIndex
  hop : HopId
  exchangesIncluded : Nat := 0
  dwellsObserved : Nat := 0
  dwellsMissing : Nat := 0
  dwellsUnsupported : Nat := 0
  queueDwellsObserved : Nat := 0
  queueDwellsUnsupported : Nat := 0
  coveragePpm : Nat := 0
  dwell : Distribution := {}
  queueDwell : Distribution := {}
  evidence : Evidence := default
deriving DecidableEq

structure PathSummary where
  path : PathId
  generation : GenerationId
  domain : ClockDomainId
  mode : AggregationMode
  window : TimeWindow
  asOf : Timestamp
  exchangesConsidered : Nat := 0
  exchangesIncluded : Nat := 0
  excludedOtherPath : Nat := 0
  excludedOtherGeneration : Nat := 0
  excludedOutOfWindow : Nat := 0
  excludedStale : Nat := 0
  excludedConflicting : Nat := 0
  excludedUnsupported : Nat := 0
  excludedClockDomain : Nat := 0
  endToEnd : Distribution := {}
  hops : List HopSummary := []
  contributingSources : List SourceId := []
  evidence : Evidence := default
  policyDigest : Bytes := []
deriving DecidableEq

structure SummaryRequest where
  path : PathId
  generation : GenerationId
  mode : AggregationMode := .current
  window : TimeWindow
  histogram : HistogramSpec := .latencyDefault
  probes : List QuantileProbe := defaultQuantileProbes
  restrictToSource : SourceId := .none

def SummaryRequest.classify (request : SummaryRequest) (record : MeasurementRecord) : RecordClass :=
  classifyRecord record request.path request.generation request.mode request.window request.restrictToSource

/-! ### The record loop -/

/-- A hop summary under construction, with the values it collects. -/
structure HopAccumulator where
  summary : HopSummary
  dwells : List Nanos := []
  queueDwells : List Nanos := []

namespace HopAccumulator

/-- The evidence starts at its coverage neutral point. -/
def start (index : HopIndex) (hop : HopId) (histogram : HistogramSpec) : HopAccumulator :=
  { summary :=
      { index, hop
        dwell := { histogram := .empty histogram }
        queueDwell := { histogram := .empty histogram }
        evidence := .observed .fresh .high } }

def missing (a : HopAccumulator) : HopAccumulator :=
  { a with
    summary := { a.summary with
      dwellsMissing := a.summary.dwellsMissing + 1
      evidence := .merge a.summary.evidence (.missing .hopMissing a.summary.hop.toHex) } }

def dwell (a : HopAccumulator) (observation : HopObservation) : HopAccumulator :=
  match observation.dwellNs with
  | some value =>
    { a with
      summary := { a.summary with dwellsObserved := a.summary.dwellsObserved + 1 }
      dwells := a.dwells ++ [value] }
  | none =>
    { a with
      summary := { a.summary with
        dwellsUnsupported := a.summary.dwellsUnsupported + 1
        evidence := .merge a.summary.evidence observation.evidence } }

def queueDwell (a : HopAccumulator) (observation : HopObservation) : HopAccumulator :=
  match observation.queueDwellNs with
  | some value =>
    { a with
      summary := { a.summary with queueDwellsObserved := a.summary.queueDwellsObserved + 1 }
      queueDwells := a.queueDwells ++ [value] }
  | none =>
    if observation.queue.valid then
      { a with summary := { a.summary with queueDwellsUnsupported := a.summary.queueDwellsUnsupported + 1 } }
    else a

/-- The body of the hop loop for one included exchange. -/
def observe (record : MeasurementRecord) (a : HopAccumulator) : HopAccumulator :=
  let a := { a with summary := { a.summary with exchangesIncluded := a.summary.exchangesIncluded + 1 } }
  match record.hopAt a.summary.index with
  | none => a.missing
  | some observation =>
    let a := (a.dwell observation).queueDwell observation
    { a with summary := { a.summary with evidence := .merge a.summary.evidence observation.evidence } }

end HopAccumulator

/-- The hop summaries of the declared path; the position is a `HopIndex`. -/
def startHops (histogram : HistogramSpec) : Nat → List HopId → Except Error (List HopAccumulator)
  | _, [] => .ok []
  | position, hop :: hops =>
    match HopIndex.fromValue (UInt32.ofNat position) with
    | .error _ => .error ⟨.outOfRange, "path hop index exceeds the supported range", []⟩
    | .ok index => do
      let rest ← startHops histogram (position + 1) hops
      return .start index hop histogram :: rest

structure SummaryLoop where
  summary : PathSummary
  hops : List HopAccumulator
  values : List Nanos := []
  evidence : Evidence := .observed .fresh .high
  sawAny : Bool := false

/-- A source that contributed for the first time is put in identity order. -/
def addSource (sources : List SourceId) (source : SourceId) : List SourceId :=
  if source ∈ sources then sources
  else (sources ++ [source]).insertionSort fun a b => a.value ≤ b.value

/-- A hop the path does not declare is named in the evidence. -/
def noteUndeclared (hops : List HopAccumulator) (evidence : Evidence) (observation : HopObservation) : Evidence :=
  if hops.any fun a => a.summary.index == observation.index then evidence
  else evidence.addReason .hopConflicting observation.hop.toHex

namespace SummaryLoop

/-- An included exchange. -/
def contribute (s : SummaryLoop) (record : MeasurementRecord) : SummaryLoop :=
  let merged := Evidence.merge s.evidence record.evidence
  { summary := { s.summary with
      exchangesIncluded := s.summary.exchangesIncluded + 1
      contributingSources := addSource s.summary.contributingSources record.source }
    hops := s.hops.map (HopAccumulator.observe record)
    values := if record.evidence.hasValue then s.values ++ [record.rttNs] else s.values
    evidence := record.hops.foldl (noteUndeclared s.hops) merged
    sawAny := true }

def exclude (summary : PathSummary) : RecordClass → PathSummary
  | .otherPath | .otherSource => { summary with excludedOtherPath := summary.excludedOtherPath + 1 }
  | .otherGeneration => { summary with excludedOtherGeneration := summary.excludedOtherGeneration + 1 }
  | .clockDomainMismatch => { summary with excludedClockDomain := summary.excludedClockDomain + 1 }
  | .outOfWindow => { summary with excludedOutOfWindow := summary.excludedOutOfWindow + 1 }
  | .conflicting => { summary with excludedConflicting := summary.excludedConflicting + 1 }
  | .unsupported => { summary with excludedUnsupported := summary.excludedUnsupported + 1 }
  | .stale => { summary with excludedStale := summary.excludedStale + 1 }
  | .included => summary

/-- The body of the record loop. -/
def step (request : SummaryRequest) (s : SummaryLoop) (record : MeasurementRecord) : SummaryLoop :=
  let s := { s with
    summary := { s.summary with exchangesConsidered := s.summary.exchangesConsidered + 1 } }
  match request.classify record with
  | .included => s.contribute record
  | other => { s with summary := exclude s.summary other }

end SummaryLoop

/-! ### The final aggregation -/

/-- No dwell at all, or only some: what the hop's evidence says about it. -/
def concludeHopEvidence (hop : HopSummary) : Evidence :=
  if hop.dwellsObserved = 0 then
    .merge hop.evidence
      (if hop.exchangesIncluded = 0 then .unknown .noSamples hop.hop.toHex else .incomplete .noSamples hop.hop.toHex)
  else if hop.dwellsMissing ≠ 0 ∨ hop.dwellsUnsupported ≠ 0 then
    (hop.evidence.setState .incomplete).addReason .partialCoverage hop.hop.toHex
  else hop.evidence

def concludeHop (request : SummaryRequest) (limits : Limits) (a : HopAccumulator) : Except Error HopSummary := do
  let dwell ← aggregate a.dwells request.histogram request.probes limits
  let queueDwell ← aggregate a.queueDwells request.histogram request.probes limits
  let hop := a.summary
  return { hop with
    dwell, queueDwell
    coveragePpm := (ratioPpm (UInt64.ofNat hop.dwellsObserved) (UInt64.ofNat hop.exchangesIncluded)).toNat
    evidence := concludeHopEvidence hop }

def concludeHops (request : SummaryRequest) (limits : Limits) :
    List HopAccumulator → Except Error (List HopSummary)
  | [] => .ok []
  | a :: rest => do
    let hop ← concludeHop request limits a
    let hops ← concludeHops request limits rest
    return hop :: hops

def SummaryLoop.concludeEvidence (s : SummaryLoop) : Evidence :=
  let evidence := if s.sawAny then s.evidence
    else .merge s.evidence (.unknown .noSamples (text "no included exchanges"))
  let evidence := if s.summary.excludedStale ≠ 0 then
    evidence.addReason .evidenceStale (decimal s.summary.excludedStale) else evidence
  evidence.addReason .aggregateDeterministic

/-- The summary before the first record. -/
def summaryStart (request : SummaryRequest) (policy : RuntimePolicy) (hops : List HopAccumulator) : SummaryLoop where
  summary :=
    { path := request.path
      generation := request.generation
      domain := request.window.start.domain
      mode := request.mode
      window := request.window
      asOf := request.window.stop
      policyDigest := policy.digest
      endToEnd := { histogram := .empty request.histogram } }
  hops := hops

/-- The distributions and the evidence, once all records are seen. -/
def concludeSummary (request : SummaryRequest) (policy : RuntimePolicy) (s : SummaryLoop) :
    Except Error PathSummary := do
  let endToEnd ← aggregate s.values request.histogram request.probes policy.limits
  let hops ← concludeHops request policy.limits s.hops
  return { s.summary with endToEnd, hops, evidence := s.concludeEvidence }

/-- `stats::summarize`. -/
def summarize (records : List MeasurementRecord) (catalog : Catalog) (request : SummaryRequest)
    (policy : RuntimePolicy) : Except Error PathSummary :=
  if !request.window.valid then .error ⟨.invalidArgument, "summary requires a valid time window", []⟩
  else do
    let path ← catalog.path request.path
    if !request.generation.valid then
      .error ⟨.invalidArgument, "summary requires an explicit generation", []⟩
    else
      let hops ← startHops request.histogram 0 path.hops
      concludeSummary request policy (records.foldl (SummaryLoop.step request) (summaryStart request policy hops))

end LatencyObservatory.Stats
