import LatencyObservatory.Core.Evidence
import LatencyObservatory.Core.Sha256
import LatencyObservatory.Core.Time

/-!
# Policy

The deterministic policy of one runtime: hard limits, freshness horizons and the comparability,
attribution and anomaly switches. `validate` is what `Engine::create` requires of it.
-/

namespace LatencyObservatory.Core

structure Limits where
  maxHopsPerPath : Nat := 64
  maxEndpoints : Nat := 4096
  maxLinks : Nat := 4096
  maxQueues : Nat := 4096
  maxPaths : Nat := 4096
  maxSources : Nat := 1024
  maxGenerations : Nat := 256
  maxClockDomains : Nat := 256
  maxBatchSamples : Nat := 4096
  maxSamplesPerPath : Nat := 200000
  maxTotalSamples : Nat := 1000000
  maxBaselines : Nat := 1024
  maxExportRecords : Nat := 100000
  maxHistoryBuckets : Nat := 512
  maxHistogramBuckets : Nat := 512
  maxQuantileProbes : Nat := 16
  maxJsonDepth : Nat := 24
  maxJsonBytes : Nat := 4194304
  maxTransportLineBytes : Nat := 1048576
  maxConnections : Nat := 16
  maxWorkers : Nat := 8
  maxQueueDepth : Nat := 1024
  maxPendingOperations : Nat := 4096
  maxSegmentRecords : Nat := 4096
  maxSegmentBytes : Nat := 8388608
  maxStoreBytes : Nat := 268435456
  sequenceReplayWindow : Nat := 4096
  maxSessionsPerSource : Nat := 64
deriving DecidableEq, Repr

def Limits.validate (l : Limits) : Status := do
  require (l.maxHopsPerPath ≥ 1 && l.maxHopsPerPath ≤ 4096)
    "limits: max_hops_per_path must be within [1, 4096]"
  require (l.maxEndpoints ≥ 1 && l.maxEndpoints ≤ 1000000)
    "limits: max_endpoints must be within [1, 1000000]"
  require (l.maxLinks ≥ 1 && l.maxLinks ≤ 1000000)
    "limits: max_links must be within [1, 1000000]"
  require (l.maxQueues ≥ 1 && l.maxQueues ≤ 1000000)
    "limits: max_queues must be within [1, 1000000]"
  require (l.maxPaths ≥ 1 && l.maxPaths ≤ 1000000)
    "limits: max_paths must be within [1, 1000000]"
  require (l.maxSources ≥ 1 && l.maxSources ≤ 1000000)
    "limits: max_sources must be within [1, 1000000]"
  require (l.maxGenerations ≥ 1 && l.maxGenerations ≤ 1000000)
    "limits: max_generations must be within [1, 1000000]"
  require (l.maxClockDomains ≥ 2 && l.maxClockDomains ≤ 1000000)
    "limits: max_clock_domains must be within [2, 1000000]"
  require (l.maxBatchSamples ≥ 1 && l.maxBatchSamples ≤ 1000000)
    "limits: max_batch_samples must be within [1, 1000000]"
  require (l.maxSamplesPerPath ≥ l.maxBatchSamples)
    "limits: max_samples_per_path must be at least max_batch_samples"
  require (l.maxTotalSamples ≥ l.maxSamplesPerPath)
    "limits: max_total_samples must be at least max_samples_per_path"
  require (l.maxBaselines ≥ 1)
    "limits: max_baselines must be at least 1"
  require (l.maxExportRecords ≥ 1)
    "limits: max_export_records must be at least 1"
  require (l.maxHistoryBuckets ≥ 1 && l.maxHistoryBuckets ≤ 100000)
    "limits: max_history_buckets must be within [1, 100000]"
  require (l.maxHistogramBuckets ≥ 1 && l.maxHistogramBuckets ≤ 4096)
    "limits: max_histogram_buckets must be within [1, 4096]"
  require (l.maxQuantileProbes ≥ 1 && l.maxQuantileProbes ≤ 64)
    "limits: max_quantile_probes must be within [1, 64]"
  require (l.maxJsonDepth ≥ 1 && l.maxJsonDepth ≤ 128)
    "limits: max_json_depth must be within [1, 128]"
  require (l.maxJsonBytes ≥ 1024)
    "limits: max_json_bytes must be at least 1024"
  require (l.maxTransportLineBytes ≥ 1024)
    "limits: max_transport_line_bytes must be at least 1024"
  require (l.maxTransportLineBytes ≤ l.maxJsonBytes)
    "limits: a transport line must not exceed max_json_bytes"
  require (l.maxConnections ≥ 1 && l.maxConnections ≤ 1024)
    "limits: max_connections must be within [1, 1024]"
  require (l.maxWorkers ≥ 1 && l.maxWorkers ≤ 256)
    "limits: max_workers must be within [1, 256]"
  require (l.maxQueueDepth ≥ 1 && l.maxQueueDepth ≤ 1000000)
    "limits: max_queue_depth must be within [1, 1000000]"
  require (l.maxPendingOperations ≥ l.maxQueueDepth)
    "limits: max_pending_operations must be at least max_queue_depth"
  require (l.maxSegmentRecords ≥ 1)
    "limits: max_segment_records must be at least 1"
  require (l.maxSegmentBytes ≥ 4096)
    "limits: max_segment_bytes must be at least 4096"
  require (l.maxStoreBytes ≥ l.maxSegmentBytes)
    "limits: max_store_bytes must be at least max_segment_bytes"
  require (l.sequenceReplayWindow ≥ 1)
    "limits: sequence_replay_window must be at least 1"
  require (l.maxSessionsPerSource ≥ 1 && l.maxSessionsPerSource ≤ 4096)
    "limits: max_sessions_per_source must be within [1, 4096]"

structure FreshnessPolicy where
  freshHorizonNs : Nanos := 2000000000
  agingHorizonNs : Nanos := 10000000000
  staleHorizonNs : Nanos := 60000000000
deriving DecidableEq, Repr

namespace FreshnessPolicy

def validate (p : FreshnessPolicy) : Status := do
  require (p.freshHorizonNs > 0) "freshness: fresh_horizon_ns must be positive"
  require (p.agingHorizonNs > p.freshHorizonNs)
    "freshness: aging_horizon_ns must exceed fresh_horizon_ns"
  require (p.staleHorizonNs > p.agingHorizonNs)
    "freshness: stale_horizon_ns must exceed aging_horizon_ns"

/-- Age classification: a reading from the future is not fresh, it is unknown. -/
def classify (p : FreshnessPolicy) (age : Nanos) : Freshness :=
  if age < 0 then .unknown
  else if age ≤ p.freshHorizonNs then .fresh
  else if age ≤ p.agingHorizonNs then .aging
  else if age ≤ p.staleHorizonNs then .stale
  else .expired

end FreshnessPolicy

structure ComparabilityPolicy where
  maxUncertaintyNs : Nanos := 1000000
  allowHoldover : Bool := true
  requireGenerationMatch : Bool := true
  requireEpochMatch : Bool := true
  requireIncarnationMatch : Bool := true
  allowTransitive : Bool := false
deriving DecidableEq, Repr

def ComparabilityPolicy.validate (p : ComparabilityPolicy) : Status := do
  require (p.maxUncertaintyNs ≥ 0) "comparability: max_uncertainty_ns must not be negative"
  require (!p.allowTransitive) "comparability: transitive clock chains are not supported by design"

structure AttributionPolicy where
  residualToleranceNs : Nanos := 1000
  allowPartialDecomposition : Bool := false
  allowDegradedConfidence : Bool := false
  minSamplesForTrend : Nat := 16
deriving DecidableEq, Repr

def AttributionPolicy.validate (p : AttributionPolicy) : Status := do
  require (p.residualToleranceNs ≥ 0) "attribution: residual_tolerance_ns must not be negative"
  require (p.minSamplesForTrend ≥ 1) "attribution: min_samples_for_trend must be at least 1"

structure AnomalyPolicy where
  watchDeltaNs : Nanos := 1000000
  elevatedDeltaNs : Nanos := 10000000
  minSamples : Nat := 8
deriving DecidableEq, Repr

def AnomalyPolicy.validate (p : AnomalyPolicy) : Status := do
  require (p.watchDeltaNs ≥ 0) "anomaly: watch_delta_ns must not be negative"
  require (p.elevatedDeltaNs ≥ p.watchDeltaNs)
    "anomaly: elevated_delta_ns must be at least watch_delta_ns"
  require (p.minSamples ≥ 1) "anomaly: min_samples must be at least 1"

structure RuntimePolicy where
  limits : Limits := {}
  freshness : FreshnessPolicy := {}
  comparability : ComparabilityPolicy := {}
  attribution : AttributionPolicy := {}
  anomaly : AnomalyPolicy := {}
deriving DecidableEq, Repr

namespace RuntimePolicy

def validate (p : RuntimePolicy) : Status := do
  p.limits.validate
  p.freshness.validate
  p.comparability.validate
  p.attribution.validate
  p.anomaly.validate
  require (p.limits.maxQuantileProbes ≤ 64)
    "policy: quantile probe count exceeds the supported maximum"

end RuntimePolicy

theorem RuntimePolicy.validate_sessions {p : RuntimePolicy} (h : p.validate = .ok ()) :
    1 ≤ p.limits.sequenceReplayWindow ∧ 1 ≤ p.limits.maxSessionsPerSource := by
  simp only [RuntimePolicy.validate, Limits.validate, Status.bind_eq_ok_iff, require_eq_ok_iff, ge_iff_le,
    Bool.and_eq_true, decide_eq_true_eq] at h
  obtain ⟨hlimits, -⟩ := h
  omega

/-- `default_policy`: the source asserts that the defaults pass their own checks. -/
def defaultPolicy : RuntimePolicy := {}

theorem defaultPolicy_validate : defaultPolicy.validate = .ok () := by
  decide

/-! ### Canonical text

The digest that a store and every answer carry is taken over this text. -/

/-- `append_line`. -/
def line (key : String) (value : Nat) : Bytes :=
  text key ++ text "=" ++ decimal value ++ text "\n"

/-- `append_line_signed`. -/
def lineSigned (key : String) (value : Nanos) : Bytes :=
  text key ++ text "=" ++ decimalInt value.toInt ++ text "\n"

/-- `append_flag`. -/
def lineFlag (key : String) (value : Bool) : Bytes :=
  text key ++ text "=" ++ text (if value then "true" else "false") ++ text "\n"

def Limits.canonicalText (l : Limits) : Bytes :=
  line "limits.max_hops_per_path" l.maxHopsPerPath ++
    line "limits.max_endpoints" l.maxEndpoints ++
    line "limits.max_links" l.maxLinks ++
    line "limits.max_queues" l.maxQueues ++
    line "limits.max_paths" l.maxPaths ++
    line "limits.max_sources" l.maxSources ++
    line "limits.max_generations" l.maxGenerations ++
    line "limits.max_clock_domains" l.maxClockDomains ++
    line "limits.max_batch_samples" l.maxBatchSamples ++
    line "limits.max_samples_per_path" l.maxSamplesPerPath ++
    line "limits.max_total_samples" l.maxTotalSamples ++
    line "limits.max_baselines" l.maxBaselines ++
    line "limits.max_export_records" l.maxExportRecords ++
    line "limits.max_history_buckets" l.maxHistoryBuckets ++
    line "limits.max_histogram_buckets" l.maxHistogramBuckets ++
    line "limits.max_quantile_probes" l.maxQuantileProbes ++
    line "limits.max_json_depth" l.maxJsonDepth ++
    line "limits.max_json_bytes" l.maxJsonBytes ++
    line "limits.max_transport_line_bytes" l.maxTransportLineBytes ++
    line "limits.max_connections" l.maxConnections ++
    line "limits.max_workers" l.maxWorkers ++
    line "limits.max_queue_depth" l.maxQueueDepth ++
    line "limits.max_pending_operations" l.maxPendingOperations ++
    line "limits.max_segment_records" l.maxSegmentRecords ++
    line "limits.max_segment_bytes" l.maxSegmentBytes ++
    line "limits.max_store_bytes" l.maxStoreBytes ++
    line "limits.sequence_replay_window" l.sequenceReplayWindow ++
    line "limits.max_sessions_per_source" l.maxSessionsPerSource

def FreshnessPolicy.canonicalText (p : FreshnessPolicy) : Bytes :=
  lineSigned "freshness.fresh_horizon_ns" p.freshHorizonNs ++
    lineSigned "freshness.aging_horizon_ns" p.agingHorizonNs ++
    lineSigned "freshness.stale_horizon_ns" p.staleHorizonNs

def ComparabilityPolicy.canonicalText (p : ComparabilityPolicy) : Bytes :=
  lineSigned "comparability.max_uncertainty_ns" p.maxUncertaintyNs ++
    lineFlag "comparability.allow_holdover" p.allowHoldover ++
    lineFlag "comparability.require_generation_match" p.requireGenerationMatch ++
    lineFlag "comparability.require_epoch_match" p.requireEpochMatch ++
    lineFlag "comparability.require_incarnation_match" p.requireIncarnationMatch ++
    lineFlag "comparability.allow_transitive" p.allowTransitive

def AttributionPolicy.canonicalText (p : AttributionPolicy) : Bytes :=
  lineSigned "attribution.residual_tolerance_ns" p.residualToleranceNs ++
    lineFlag "attribution.allow_partial_decomposition" p.allowPartialDecomposition ++
    lineFlag "attribution.allow_degraded_confidence" p.allowDegradedConfidence ++
    line "attribution.min_samples_for_trend" p.minSamplesForTrend

def AnomalyPolicy.canonicalText (p : AnomalyPolicy) : Bytes :=
  lineSigned "anomaly.watch_delta_ns" p.watchDeltaNs ++
    lineSigned "anomaly.elevated_delta_ns" p.elevatedDeltaNs ++
    line "anomaly.min_samples" p.minSamples

namespace RuntimePolicy

def canonicalText (p : RuntimePolicy) : Bytes :=
  text "policy.version=1\n" ++ p.limits.canonicalText ++ p.freshness.canonicalText ++
    p.comparability.canonicalText ++ p.attribution.canonicalText ++ p.anomaly.canonicalText

def digest (p : RuntimePolicy) : Bytes :=
  sha256Hex p.canonicalText

end RuntimePolicy

end LatencyObservatory.Core
