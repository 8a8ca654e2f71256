import LatencyObservatory.Model.Codec
import LatencyObservatory.Stats.Summary

/-!
# Codecs of distributions and summaries

The parts of a persisted baseline. A decoder of a histogram specification checks it against the
default limits, whatever the policy of the runtime is.
-/

namespace LatencyObservatory.Stats

open LatencyObservatory.Core LatencyObservatory.Model

/-! ### Writers -/

def writeHistogramSpec (w : JsonWriter) (spec : HistogramSpec) : JsonWriter :=
  let w := w.beginObject
  let w := w.fieldString "digest" spec.digest
  let w := (spec.bounds.foldl (fun w bound => w.valueInt bound.toInt) (w.fieldArray "bounds")).endArray
  w.endObject

/-- The lower edge of a bucket: zero for the first one. -/
def lowerBound (spec : HistogramSpec) (index : Nat) : Int :=
  if index < spec.bounds.length then
    if index = 0 then 0 else (spec.bounds.getD (index - 1) 0).toInt
  else (spec.bounds.getLast?.getD 0).toInt

def writeBucket (spec : HistogramSpec) (w : JsonWriter) (bucket : Nat × Nat) : JsonWriter :=
  let w := w.beginObject
  let w := w.fieldUint "index" bucket.2
  let w := w.fieldInt "lower_ns" (lowerBound spec bucket.2)
  let w := w.fieldOptionalInt "upper_ns" (spec.bounds[bucket.2]?.map Int64.toInt)
  let w := w.fieldUint "count" bucket.1
  w.endObject

def writeHistogram (w : JsonWriter) (histogram : Histogram) : JsonWriter :=
  let w := w.beginObject
  let w := writeHistogramSpec (w.key "spec") histogram.spec
  let w := w.fieldUint "underflow" histogram.underflow
  let w := (histogram.buckets.zipIdx.foldl (writeBucket histogram.spec) (w.fieldArray "buckets")).endArray
  w.endObject

def writeQuantile (probes : List QuantileProbe) (w : JsonWriter) (quantile : Option Nanos × Nat) : JsonWriter :=
  let w := w.beginObject
  let w := w.fieldString "probe" ((probes[quantile.2]?.map QuantileProbe.render).getD (text "unknown"))
  let w := w.fieldOptionalInt "value_ns" (quantile.1.map Int64.toInt)
  w.endObject

def writeDistribution (w : JsonWriter) (d : Distribution) : JsonWriter :=
  let w := w.beginObject
  let w := w.fieldUint "count" d.count
  let w := w.fieldOptionalInt "min_ns" (d.minNs.map Int64.toInt)
  let w := w.fieldOptionalInt "max_ns" (d.maxNs.map Int64.toInt)
  let w := w.fieldOptionalInt "sum_ns" (d.sumNs.map Int64.toInt)
  let w := w.fieldOptionalInt "mean_ns" (d.meanNs.map Int64.toInt)
  let w := w.fieldUint "mean_remainder_ns" d.meanRemainderNs
  let w := w.fieldBool "sum_overflowed" d.sumOverflowed
  let w := writeHistogram (w.key "histogram") d.histogram
  let w := (d.quantiles.zipIdx.foldl (writeQuantile d.probes) (w.fieldArray "quantiles")).endArray
  w.endObject

def writeHopSummary (w : JsonWriter) (summary : HopSummary) : JsonWriter :=
  let w := w.beginObject
  let w := w.fieldUint "index" summary.index.value.toNat
  let w := w.fieldString "hop" summary.hop.toHex
  let w := w.fieldUint "exchanges_included" summary.exchangesIncluded
  let w := w.fieldUint "dwells_observed" summary.dwellsObserved
  let w := w.fieldUint "dwells_missing" summary.dwellsMissing
  let w := w.fieldUint "dwells_unsupported" summary.dwellsUnsupported
  let w := w.fieldUint "queue_dwells_observed" summary.queueDwellsObserved
  let w := w.fieldUint "queue_dwells_unsupported" summary.queueDwellsUnsupported
  let w := w.fieldUint "coverage_ppm" summary.coveragePpm
  let w := writeDistribution (w.key "dwell") summary.dwell
  let w := writeDistribution (w.key "queue_dwell") summary.queueDwell
  let w := w.fieldString "evidence_state" (nameOf states (text "unknown") summary.evidence.state)
  let w := w.fieldString "freshness" (nameOf freshnesses (text "unknown") summary.evidence.freshness)
  let w := w.fieldString "confidence" (nameOf confidences (text "none") summary.evidence.confidence)
  let w := (summary.evidence.reasons.foldl writeReason (w.fieldArray "reasons")).endArray
  w.endObject

def writeTimeWindow (w : JsonWriter) (window : TimeWindow) : JsonWriter :=
  let w := w.beginObject
  let w := w.fieldInt "from_ns" window.start.ns.toInt
  let w := w.fieldInt "to_ns" window.stop.ns.toInt
  let w := w.fieldString "clock_domain" (optionalHex window.start.domain)
  w.endObject

/-! ### Decoders -/

/-- What stands before and after the first slash. -/
def splitSlash : Bytes → Option (Bytes × Bytes)
  | [] => none
  | c :: rest =>
    if c = 47 then some ([], rest) else (splitSlash rest).map fun parts => (c :: parts.1, parts.2)

def parseQuantileProbe (input : Bytes) : Except Error QuantileProbe :=
  match splitSlash input with
  | none => .error ⟨.parseError, "quantile probe is not of the form n/d", input⟩
  | some (left, right) =>
    match parseU64 left, parseU64 right with
    | some numerator, some denominator =>
      if numerator > 0xFFFFFFFF ∨ denominator > 0xFFFFFFFF then
        .error ⟨.parseError, "quantile probe is not a valid rational", input⟩
      else QuantileProbe.make (UInt32.ofNat numerator) (UInt32.ofNat denominator)
    | _, _ => .error ⟨.parseError, "quantile probe is not a valid rational", input⟩

def decodeTimeWindow (value : JsonValue) : Except Error TimeWindow := do
  guardObject value "time window must be an object"
  let start ← value.requireInt "from_ns"
  let stop ← value.requireInt "to_ns"
  let domainText ← value.requireString "clock_domain"
  if domainText.isEmpty then throw ⟨.parseError, "time window has no clock domain", []⟩
  let domain ← StrongId.parseHex domainText
  TimeWindow.make ⟨Int64.ofInt start, domain⟩ ⟨Int64.ofInt stop, domain⟩

def decodeHistogramSpec (value : JsonValue) : Except Error HistogramSpec := do
  guardObject value "histogram spec must be an object"
  let items ← value.requireArray "bounds"
  let bounds ← decodeAll (fun entry => do return Int64.ofInt (← entry.asInt64)) items
  HistogramSpec.make bounds {}

/-- The bucket loop: entry `index` has to describe bucket `index`. -/
def decodeBuckets (bucketCount : Nat) : Nat → List JsonValue → Except Error (List Nat)
  | index, [] =>
    if index ≠ bucketCount then
      .error ⟨.parseError, "histogram bucket count does not match its specification", []⟩
    else .ok []
  | index, entry :: entries => do
    let entryIndex ← entry.requireUint "index"
    let count ← entry.requireUint "count"
    if entryIndex ≠ index ∨ index ≥ bucketCount then
      throw ⟨.parseError, "histogram buckets are not dense and ordered", []⟩
    let counts ← decodeBuckets bucketCount (index + 1) entries
    return count :: counts

def decodeHistogram (value : JsonValue) : Except Error Histogram := do
  guardObject value "histogram must be an object"
  let spec ← decodeHistogramSpec (← value.requireObject "spec")
  let underflow ← value.requireUint "underflow"
  let items ← value.requireArray "buckets"
  let buckets ← decodeBuckets spec.bucketCount 0 items
  return { spec, underflow, buckets }

def decodeQuantile (entry : JsonValue) : Except Error (QuantileProbe × Option Nanos) := do
  let probe ← parseQuantileProbe (← entry.requireString "probe")
  let value ← jsonOptionalNanos entry "value_ns"
  return (probe, value)

def decodeDistribution (value : JsonValue) : Except Error Distribution := do
  guardObject value "distribution must be an object"
  let count ← value.requireUint "count"
  let minNs ← jsonOptionalNanos value "min_ns"
  let maxNs ← jsonOptionalNanos value "max_ns"
  let sumNs ← jsonOptionalNanos value "sum_ns"
  let meanNs ← jsonOptionalNanos value "mean_ns"
  let meanRemainderNs ← value.requireUint "mean_remainder_ns"
  let sumOverflowed ← value.requireBool "sum_overflowed"
  let histogram ← decodeHistogram (← value.requireObject "histogram")
  let items ← value.requireArray "quantiles"
  let quantiles ← decodeAll decodeQuantile items
  if count = 0 ∧ (minNs.isSome ∨ maxNs.isSome ∨ meanNs.isSome) then
    throw ⟨.parseError, "an empty distribution must not carry values", []⟩
  return {
    count, minNs, maxNs, sumNs, meanNs, meanRemainderNs, sumOverflowed, histogram
    probes := quantiles.map (·.1)
    quantiles := quantiles.map (·.2) }

/-- A name that is taken over when it is known and ignored otherwise. -/
def jsonKnownName {α : Type} (table : List (α × Bytes)) (value : JsonValue) (field : String) (fallback : α) : α :=
  match value.find field with
  | some (.string input) => (parseNamed table input).getD fallback
  | _ => fallback

def decodeHopSummary (value : JsonValue) : Except Error HopSummary := do
  guardObject value "hop summary must be an object"
  let indexValue ← value.requireUint "index"
  if indexValue > 0xFFFFFFFF then throw ⟨.outOfRange, "hop index is outside the supported range", []⟩
  let index ← HopIndex.fromValue (UInt32.ofNat indexValue)
  let hop ← jsonId value "hop"
  let exchangesIncluded ← value.requireUint "exchanges_included"
  let dwellsObserved ← value.requireUint "dwells_observed"
  let dwellsMissing ← value.requireUint "dwells_missing"
  let dwellsUnsupported ← value.requireUint "dwells_unsupported"
  let queueDwellsObserved ← value.requireUint "queue_dwells_observed"
  let queueDwellsUnsupported ← value.requireUint "queue_dwells_unsupported"
  let coveragePpm ← value.requireUint "coverage_ppm"
  let dwell ← decodeDistribution (← value.requireObject "dwell")
  let queueDwell ← decodeDistribution (← value.requireObject "queue_dwell")
  let state ← jsonNamed states "unknown evidence state" value "evidence_state"
  let evidence : Evidence := ((default : Evidence).setState state
    |>.setFreshness (jsonKnownName freshnesses value "freshness" .unknown)).setConfidence
      (jsonKnownName confidences value "confidence" .none)
  let evidence ← match value.find "reasons" with
    | some (.array reasons) => decodeReasons reasons evidence
    | _ => pure evidence
  return {
    index, hop, exchangesIncluded, dwellsObserved, dwellsMissing, dwellsUnsupported,
    queueDwellsObserved, queueDwellsUnsupported, coveragePpm, dwell, queueDwell, evidence }

end LatencyObservatory.Stats
