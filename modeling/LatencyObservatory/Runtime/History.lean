import LatencyObservatory.Stats.Summary

/-!
# Historical distributions

`Engine::history` over the stored records: the window is cut into buckets of one width, and a record
that the filter lets as far as its evidence is counted in the bucket of its receive time.
-/

namespace LatencyObservatory.Runtime

open LatencyObservatory.Core LatencyObservatory.Model LatencyObservatory.Stats

structure HistoryBucket where
  start : Timestamp
  stop : Timestamp
  exchangesConsidered : Nat := 0
  exchangesIncluded : Nat := 0
  excludedStale : Nat := 0
  excludedConflicting : Nat := 0
  excludedUnsupported : Nat := 0
  endToEnd : Distribution := {}
  evidence : Evidence := default
deriving DecidableEq

structure HistoryRequest where
  path : PathId
  generation : GenerationId
  mode : AggregationMode := .historical
  window : TimeWindow
  bucketNs : Nanos := 60000000000
  histogram : HistogramSpec := .latencyDefault
  probes : List QuantileProbe := defaultQuantileProbes
  restrictToSource : SourceId := .none

structure HistoryResult where
  path : PathId
  generation : GenerationId
  domain : ClockDomainId
  mode : AggregationMode
  bucketNs : Nanos
  bucketsWithEvidence : Nat := 0
  bucketsEmpty : Nat := 0
  buckets : List HistoryBucket := []
  evidence : Evidence := default
  policyDigest : Bytes
deriving DecidableEq

def HistoryRequest.classify (request : HistoryRequest) (record : MeasurementRecord) : RecordClass :=
  classifyRecord record request.path request.generation request.mode request.window request.restrictToSource

/-- A bucket and the values it collects. -/
structure BucketAccumulator where
  bucket : HistoryBucket
  values : List Nanos := []

structure HistoryLoop where
  buckets : List BucketAccumulator
  evidence : Evidence := .observed .fresh .high
  sawAny : Bool := false

/-- The checks before the loop: the number of buckets. -/
def bucketCount (request : HistoryRequest) (limits : Limits) : Except Error Nat :=
  match checkedSubI64 request.window.stop.ns request.window.start.ns with
  | none => .error ⟨.overflow, "history window span overflows", []⟩
  | some span =>
    match checkedAddI64 span (request.bucketNs - 1) with
    | none => .error ⟨.overflow, "history bucket rounding overflows", []⟩
    | some rounded =>
      let count := (rounded / request.bucketNs).toUInt64.toNat
      if count = 0 ∨ count > limits.maxHistoryBuckets then
        .error ⟨.outOfRange, "history bucket count exceeds the configured limit", decimal count⟩
      else .ok count

def startBucket (request : HistoryRequest) (index : Nat) : BucketAccumulator :=
  let start := request.window.start.ns + Int64.ofNat index * request.bucketNs
  { bucket :=
      { start := ⟨start, request.window.start.domain⟩
        stop := ⟨start + request.bucketNs, request.window.start.domain⟩
        endToEnd := { histogram := .empty request.histogram } } }

/-- The bucket a record is counted in. -/
def bucketIndex (request : HistoryRequest) (record : MeasurementRecord) : Nat :=
  ((record.stamp.receivedAt.ns - request.window.start.ns).toUInt64 / request.bucketNs.toUInt64).toNat

/-- Counts a record of this class in its bucket. -/
def BucketAccumulator.count (a : BucketAccumulator) (record : MeasurementRecord) (found : RecordClass) :
    BucketAccumulator :=
  let bucket := { a.bucket with exchangesConsidered := a.bucket.exchangesConsidered + 1 }
  match found with
  | .conflicting => { a with bucket := { bucket with excludedConflicting := bucket.excludedConflicting + 1 } }
  | .unsupported => { a with bucket := { bucket with excludedUnsupported := bucket.excludedUnsupported + 1 } }
  | .stale => { a with bucket := { bucket with excludedStale := bucket.excludedStale + 1 } }
  | _ =>
    { bucket := { bucket with exchangesIncluded := bucket.exchangesIncluded + 1 }
      values := a.values ++ [record.rttNs] }

/-- The body of the record loop. -/
def HistoryLoop.step (request : HistoryRequest) (s : HistoryLoop) (record : MeasurementRecord) : HistoryLoop :=
  let found := request.classify record
  if found ≠ .included ∧ found ≠ .conflicting ∧ found ≠ .unsupported ∧ found ≠ .stale then s
  else
    let index := bucketIndex request record
    if index ≥ s.buckets.length then s
    else
      let s := { s with buckets := s.buckets.modify index fun a => a.count record found }
      if found = .included then
        { s with evidence := .merge s.evidence record.evidence, sawAny := true }
      else s

def concludeBucket (request : HistoryRequest) (limits : Limits) (a : BucketAccumulator) :
    Except Error HistoryBucket := do
  let endToEnd ← aggregate a.values request.histogram request.probes limits
  let bucket := a.bucket
  let base := ((bucket.evidence.setState .observed).setFreshness .fresh).setConfidence .high
  let noted :=
    if bucket.exchangesIncluded = 0 then
      -- An empty bucket is unknown, never a zero distribution.
      .merge base (.unknown .noSamples (decimalInt bucket.start.ns.toInt))
    else
      let stale := if bucket.excludedStale ≠ 0 then
        base.addReason .evidenceStale (decimal bucket.excludedStale) else base
      if bucket.excludedConflicting ≠ 0 then
        stale.addReason .hopConflicting (decimal bucket.excludedConflicting) else stale
  return { bucket with endToEnd, evidence := noted.addReason .aggregateDeterministic }

def concludeBuckets (request : HistoryRequest) (limits : Limits) :
    List BucketAccumulator → Except Error (List HistoryBucket)
  | [] => .ok []
  | a :: rest => do
    let bucket ← concludeBucket request limits a
    let buckets ← concludeBuckets request limits rest
    return bucket :: buckets

/-- The result, once all records are seen. -/
def concludeHistory (policy : RuntimePolicy) (request : HistoryRequest) (s : HistoryLoop) :
    Except Error HistoryResult := do
  let buckets ← concludeBuckets request policy.limits s.buckets
  let evidence := if s.sawAny then s.evidence
    else .merge s.evidence (.unknown .noSamples (text "no evidence in window"))
  return {
    path := request.path
    generation := request.generation
    domain := request.window.start.domain
    mode := request.mode
    bucketNs := request.bucketNs
    bucketsWithEvidence := buckets.countP fun bucket => bucket.exchangesIncluded ≠ 0
    bucketsEmpty := buckets.countP fun bucket => bucket.exchangesIncluded = 0
    buckets
    evidence := evidence.addReason .aggregateDeterministic
    policyDigest := policy.digest }

/-- `Engine::history` on the engine's records, catalog and policy. -/
def history (records : List MeasurementRecord) (catalog : Catalog) (policy : RuntimePolicy)
    (request : HistoryRequest) : Except Error HistoryResult :=
  if !request.window.valid then .error ⟨.invalidArgument, "history requires a valid time window", []⟩
  else if request.bucketNs ≤ 0 then .error ⟨.invalidArgument, "history bucket width must be positive", []⟩
  else if !request.generation.valid then
    .error ⟨.invalidArgument, "history requires an explicit generation", []⟩
  else do
    let _ ← catalog.path request.path
    let count ← bucketCount request policy.limits
    concludeHistory policy request (records.foldl (HistoryLoop.step request)
      { buckets := (List.range count).map (startBucket request) })

end LatencyObservatory.Runtime
