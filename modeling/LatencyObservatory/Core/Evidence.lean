import LatencyObservatory.Core.Error
import Mathlib.Data.List.Sort

/-!
# Evidence

Every observation carries what is known about it: a state, a freshness, an ordinal confidence and the
reasons that led there. `Evidence` keeps at most `maxReasons` distinct reasons; every operation of
the class preserves that, so the bound and the distinctness are fields of the structure. The
admission verdicts and the query filters only look at `usable`, that is at the state and freshness.
-/

namespace LatencyObservatory.Core

inductive EvidenceState where
  | observed
  | incomplete
  | missing
  | stale
  | conflicting
  | unknown
  | unsupported
  | refused
deriving DecidableEq, Repr

inductive Freshness where
  | fresh
  | aging
  | stale
  | expired
  | unknown
deriving DecidableEq, Repr

inductive Confidence where
  | high
  | moderate
  | low
  | degraded
  | none
deriving DecidableEq, Repr

inductive ReasonCode where
  | malformedPayload
  | lengthLimitExceeded
  | depthLimitExceeded
  | missingField
  | unexpectedField
  | invalidFieldValue
  | duplicateField
  | unsupportedSchema
  | unknownSource
  | unknownPath
  | unknownHop
  | unknownLink
  | unknownQueue
  | unknownGeneration
  | unknownClockDomain
  | unknownBaseline
  | idCollision
  | nameConflict
  | epochAdvanced
  | epochReplayed
  | incarnationChanged
  | incarnationReplayed
  | sequenceReplay
  | sequenceGap
  | sequenceAdvanced
  | sequenceReordered
  | sessionEvicted
  | generationSuperseded
  | revisionChanged
  | authorityConflict
  | authorityDowngrade
  | clockDomainMissing
  | clockSelfComparable
  | clockUnsynced
  | clockSyncStale
  | clockSyncExpired
  | clockSyncGenerationMismatch
  | clockSyncEpochMismatch
  | clockSyncIncarnationMismatch
  | clockReferenceMismatch
  | clockUncertaintyExceeded
  | clockHoldover
  | clockOffsetUnavailable
  | clockComparable
  | evidenceFresh
  | evidenceAging
  | evidenceStale
  | evidenceExpired
  | freshnessUnknown
  | restartLoadedEvidence
  | hopMissing
  | hopUnsupported
  | hopConflicting
  | hopNotContiguous
  | hopOutOfOrder
  | hopOverlap
  | hopGap
  | partialCoverage
  | noSamples
  | emptyWindow
  | arithmeticOverflow
  | aggregateDeterministic
  | insufficientSamples
  | histogramUnderflow
  | histogramOverflowValue
  | baselineMissing
  | baselineGenerationMismatch
  | baselinePathMismatch
  | baselineClockDomainMismatch
  | baselineHistogramMismatch
  | baselineRevisionMismatch
  | baselineStale
  | baselineExpired
  | baselineMatched
  | incomparableClocks
  | nonTilingCoverage
  | semanticsUnsupported
  | queueSemanticsUndeclared
  | refusedByPolicy
  | noCausalInference
  | unaccountedResidual
  | residualWithinTolerance
  | attributionComplete
  | attributionPartial
  | deviationNone
  | deviationWatch
  | deviationElevated
  | deviationSuppressed
  | baselineAbsent
  | storeOpenFailed
  | storeFormatUnsupported
  | recordIntegrityFailure
  | segmentTruncated
  | segmentRejected
  | persistenceCapacityExceeded
  | recoveryConservative
  | recoveredEvidence
  | operationCancelled
  | runtimeShuttingDown
  | workerPoolSaturated
  | queueFull
  | batchLimitExceeded
  | exportTruncated
deriving DecidableEq, Repr

/-! ### Name tables

`to_string` and the `parse_*` functions walk the same table in both directions. -/

/-- `to_string`: the first row with this value. -/
def nameOf {α : Type} [DecidableEq α] (table : List (α × Bytes)) (fallback : Bytes) (value : α) : Bytes :=
  match table.find? fun row => row.1 = value with
  | some row => row.2
  | none => fallback

/-- `parse_named`: the first row with this name. -/
def parseNamed {α : Type} (table : List (α × Bytes)) (input : Bytes) : Option α :=
  (table.find? fun row => row.2 = input).map (·.1)

def states : List (EvidenceState × Bytes) :=
  [(.observed, text "observed"), (.incomplete, text "incomplete"), (.missing, text "missing"),
    (.stale, text "stale"), (.conflicting, text "conflicting"), (.unknown, text "unknown"),
    (.unsupported, text "unsupported"), (.refused, text "refused")]

def freshnesses : List (Freshness × Bytes) :=
  [(.fresh, text "fresh"), (.aging, text "aging"), (.stale, text "stale"), (.expired, text "expired"),
    (.unknown, text "unknown")]

def confidences : List (Confidence × Bytes) :=
  [(.high, text "high"), (.moderate, text "moderate"), (.low, text "low"),
    (.degraded, text "degraded"), (.none, text "none")]

def reasonCodes : List (ReasonCode × Bytes) :=
  [(.malformedPayload, text "malformed_payload"), (.lengthLimitExceeded, text "length_limit_exceeded"),
    (.depthLimitExceeded, text "depth_limit_exceeded"), (.missingField, text "missing_field"),
    (.unexpectedField, text "unexpected_field"), (.invalidFieldValue, text "invalid_field_value"),
    (.duplicateField, text "duplicate_field"), (.unsupportedSchema, text "unsupported_schema"),
    (.unknownSource, text "unknown_source"), (.unknownPath, text "unknown_path"),
    (.unknownHop, text "unknown_hop"), (.unknownLink, text "unknown_link"),
    (.unknownQueue, text "unknown_queue"), (.unknownGeneration, text "unknown_generation"),
    (.unknownClockDomain, text "unknown_clock_domain"), (.unknownBaseline, text "unknown_baseline"),
    (.idCollision, text "id_collision"), (.nameConflict, text "name_conflict"),
    (.epochAdvanced, text "epoch_advanced"), (.epochReplayed, text "epoch_replayed"),
    (.incarnationChanged, text "incarnation_changed"),
    (.incarnationReplayed, text "incarnation_replayed"), (.sequenceReplay, text "sequence_replay"),
    (.sequenceGap, text "sequence_gap"), (.sequenceAdvanced, text "sequence_advanced"),
    (.sequenceReordered, text "sequence_reordered"), (.sessionEvicted, text "session_evicted"),
    (.generationSuperseded, text "generation_superseded"), (.revisionChanged, text "revision_changed"),
    (.authorityConflict, text "authority_conflict"), (.authorityDowngrade, text "authority_downgrade"),
    (.clockDomainMissing, text "clock_domain_missing"),
    (.clockSelfComparable, text "clock_self_comparable"), (.clockUnsynced, text "clock_unsynced"),
    (.clockSyncStale, text "clock_sync_stale"), (.clockSyncExpired, text "clock_sync_expired"),
    (.clockSyncGenerationMismatch, text "clock_sync_generation_mismatch"),
    (.clockSyncEpochMismatch, text "clock_sync_epoch_mismatch"),
    (.clockSyncIncarnationMismatch, text "clock_sync_incarnation_mismatch"),
    (.clockReferenceMismatch, text "clock_reference_mismatch"),
    (.clockUncertaintyExceeded, text "clock_uncertainty_exceeded"),
    (.clockHoldover, text "clock_holdover"), (.clockOffsetUnavailable, text "clock_offset_unavailable"),
    (.clockComparable, text "clock_comparable"), (.evidenceFresh, text "evidence_fresh"),
    (.evidenceAging, text "evidence_aging"), (.evidenceStale, text "evidence_stale"),
    (.evidenceExpired, text "evidence_expired"), (.freshnessUnknown, text "freshness_unknown"),
    (.restartLoadedEvidence, text "restart_loaded_evidence"), (.hopMissing, text "hop_missing"),
    (.hopUnsupported, text "hop_unsupported"), (.hopConflicting, text "hop_conflicting"),
    (.hopNotContiguous, text "hop_not_contiguous"), (.hopOutOfOrder, text "hop_out_of_order"),
    (.hopOverlap, text "hop_overlap"), (.hopGap, text "hop_gap"),
    (.partialCoverage, text "partial_coverage"), (.noSamples, text "no_samples"),
    (.emptyWindow, text "empty_window"), (.arithmeticOverflow, text "arithmetic_overflow"),
    (.aggregateDeterministic, text "aggregate_deterministic"),
    (.insufficientSamples, text "insufficient_samples"),
    (.histogramUnderflow, text "histogram_underflow"),
    (.histogramOverflowValue, text "histogram_overflow_value"),
    (.baselineMissing, text "baseline_missing"),
    (.baselineGenerationMismatch, text "baseline_generation_mismatch"),
    (.baselinePathMismatch, text "baseline_path_mismatch"),
    (.baselineClockDomainMismatch, text "baseline_clock_domain_mismatch"),
    (.baselineHistogramMismatch, text "baseline_histogram_mismatch"),
    (.baselineRevisionMismatch, text "baseline_revision_mismatch"),
    (.baselineStale, text "baseline_stale"), (.baselineExpired, text "baseline_expired"),
    (.baselineMatched, text "baseline_matched"), (.incomparableClocks, text "incomparable_clocks"),
    (.nonTilingCoverage, text "non_tiling_coverage"),
    (.semanticsUnsupported, text "semantics_unsupported"),
    (.queueSemanticsUndeclared, text "queue_semantics_undeclared"),
    (.refusedByPolicy, text "refused_by_policy"), (.noCausalInference, text "no_causal_inference"),
    (.unaccountedResidual, text "unaccounted_residual"),
    (.residualWithinTolerance, text "residual_within_tolerance"),
    (.attributionComplete, text "attribution_complete"),
    (.attributionPartial, text "attribution_partial"), (.deviationNone, text "deviation_none"),
    (.deviationWatch, text "deviation_watch"), (.deviationElevated, text "deviation_elevated"),
    (.deviationSuppressed, text "deviation_suppressed"), (.baselineAbsent, text "baseline_absent"),
    (.storeOpenFailed, text "store_open_failed"),
    (.storeFormatUnsupported, text "store_format_unsupported"),
    (.recordIntegrityFailure, text "record_integrity_failure"),
    (.segmentTruncated, text "segment_truncated"), (.segmentRejected, text "segment_rejected"),
    (.persistenceCapacityExceeded, text "persistence_capacity_exceeded"),
    (.recoveryConservative, text "recovery_conservative"),
    (.recoveredEvidence, text "recovered_evidence"), (.operationCancelled, text "operation_cancelled"),
    (.runtimeShuttingDown, text "runtime_shutting_down"),
    (.workerPoolSaturated, text "worker_pool_saturated"), (.queueFull, text "queue_full"),
    (.batchLimitExceeded, text "batch_limit_exceeded"), (.exportTruncated, text "export_truncated")]

/-! ### Reasons -/

structure Reason where
  code : ReasonCode
  detail : Bytes
deriving DecidableEq, Repr

namespace Reason

/-- `operator<` of `Reason`, as a total order: the code first, then the detail bytewise. -/
def cmp (a b : Reason) : Ordering :=
  (compare a.code.ctorIdx b.code.ctorIdx).then (compare a.detail b.detail)

def le (a b : Reason) : Prop :=
  (cmp a b).isLE = true

instance : DecidableRel le := fun a b => inferInstanceAs (Decidable ((cmp a b).isLE = true))

end Reason

/-! ### Evidence -/

def maxReasons : Nat := 24

structure Evidence where
  state : EvidenceState
  freshness : Freshness
  confidence : Confidence
  reasons : List Reason
  reasonsTruncated : Bool
  reasons_bounded : reasons.length ≤ maxReasons
  reasons_nodup : reasons.Nodup
deriving DecidableEq

namespace Evidence

/-- Evidence without reasons: every constructor of the source starts here. -/
def ofState (state : EvidenceState) (freshness : Freshness) (confidence : Confidence) : Evidence where
  state := state
  freshness := freshness
  confidence := confidence
  reasons := []
  reasonsTruncated := false
  reasons_bounded := by simp
  reasons_nodup := List.nodup_nil

instance : Inhabited Evidence := ⟨ofState .unknown .unknown .none⟩

/-- `usable`: may this value serve as current evidence? -/
def usable (e : Evidence) : Bool :=
  e.state == .observed && (e.freshness == .fresh || e.freshness == .aging)

/-- `has_value`: a numeric value exists at all. -/
def hasValue (e : Evidence) : Bool :=
  e.state == .observed || e.state == .incomplete || e.state == .stale

def addReason (e : Evidence) (code : ReasonCode) (detail : Bytes := []) : Evidence :=
  if hmem : (⟨code, detail⟩ : Reason) ∈ e.reasons then e
  else if hfull : e.reasons.length ≥ maxReasons then { e with reasonsTruncated := true }
  else
    { e with
      reasons := e.reasons ++ [⟨code, detail⟩]
      reasons_bounded := by rw [List.length_append, List.length_singleton]; omega
      reasons_nodup := e.reasons_nodup.append (List.nodup_singleton _) (by simpa using hmem) }

def setState (e : Evidence) (state : EvidenceState) : Evidence := { e with state := state }
def setFreshness (e : Evidence) (freshness : Freshness) : Evidence := { e with freshness := freshness }
def setConfidence (e : Evidence) (confidence : Confidence) : Evidence := { e with confidence := confidence }

def observed (freshness : Freshness) (confidence : Confidence) : Evidence :=
  ofState .observed freshness confidence

def observedFresh : Evidence :=
  (observed .fresh .high).addReason .evidenceFresh

def missing (code : ReasonCode) (detail : Bytes := []) : Evidence :=
  (ofState .missing .unknown .none).addReason code detail

def incomplete (code : ReasonCode) (detail : Bytes := []) : Evidence :=
  (ofState .incomplete .unknown .low).addReason code detail

def stale (code : ReasonCode) (detail : Bytes := []) : Evidence :=
  (ofState .stale .stale .none).addReason code detail

def conflicting (code : ReasonCode) (detail : Bytes := []) : Evidence :=
  (ofState .conflicting .unknown .none).addReason code detail

def unknown (code : ReasonCode) (detail : Bytes := []) : Evidence :=
  (ofState .unknown .unknown .none).addReason code detail

def unsupported (code : ReasonCode) (detail : Bytes := []) : Evidence :=
  (ofState .unsupported .unknown .none).addReason code detail

def refused (code : ReasonCode) (detail : Bytes := []) : Evidence :=
  (ofState .refused .unknown .none).addReason code detail

/-! ### Merging

The rank of each enumerator is its position in the declaration. -/

def isCoverage (state : EvidenceState) : Bool :=
  state == .observed || state == .incomplete || state == .missing

def mergeState (left right : EvidenceState) : EvidenceState :=
  if isCoverage left && isCoverage right then
    if (left == .missing || right == .missing) || (left == .incomplete || right == .incomplete) then
      .incomplete
    else .observed
  else if left.ctorIdx ≥ right.ctorIdx then left else right

def mergeFreshness (left right : Freshness) : Freshness :=
  if left.ctorIdx ≥ right.ctorIdx then left else right

def mergeConfidence (left right : Confidence) : Confidence :=
  if left.ctorIdx ≥ right.ctorIdx then left else right

/-- Adds a list of reasons one by one. -/
def addReasons (e : Evidence) (reasons : List Reason) : Evidence :=
  reasons.foldl (fun e reason => e.addReason reason.code reason.detail) e

/-- `normalize`: sorted reasons. They are distinct already, so `std::unique` drops nothing. -/
def normalize (e : Evidence) : Evidence :=
  { e with
    reasons := e.reasons.insertionSort Reason.le
    reasons_bounded := by rw [List.length_insertionSort]; exact e.reasons_bounded
    reasons_nodup := (List.perm_insertionSort Reason.le e.reasons).nodup_iff.mpr e.reasons_nodup }

def merge (left right : Evidence) : Evidence :=
  let joined :=
    ((ofState (mergeState left.state right.state) (mergeFreshness left.freshness right.freshness)
      (mergeConfidence left.confidence right.confidence)).addReasons left.reasons).addReasons right.reasons
  normalize { joined with
    reasonsTruncated := left.reasonsTruncated || right.reasonsTruncated || joined.reasonsTruncated }

/-! ### State and freshness of the operations -/

variable (e : Evidence)

@[simp] theorem addReason_state (code : ReasonCode) (detail : Bytes) :
    (e.addReason code detail).state = e.state := by
  unfold addReason
  split_ifs <;> rfl

@[simp] theorem addReason_freshness (code : ReasonCode) (detail : Bytes) :
    (e.addReason code detail).freshness = e.freshness := by
  unfold addReason
  split_ifs <;> rfl

@[simp] theorem setState_state (state : EvidenceState) : (e.setState state).state = state := rfl

@[simp] theorem setState_freshness (state : EvidenceState) : (e.setState state).freshness = e.freshness := rfl

@[simp] theorem setFreshness_state (freshness : Freshness) : (e.setFreshness freshness).state = e.state := rfl

@[simp] theorem setFreshness_freshness (freshness : Freshness) :
    (e.setFreshness freshness).freshness = freshness := rfl

@[simp] theorem setConfidence_state (confidence : Confidence) :
    (e.setConfidence confidence).state = e.state := rfl

@[simp] theorem setConfidence_freshness (confidence : Confidence) :
    (e.setConfidence confidence).freshness = e.freshness := rfl

@[simp] theorem addReasons_state (reasons : List Reason) : (e.addReasons reasons).state = e.state := by
  induction reasons generalizing e with
  | nil => rfl
  | cons reason rest ih =>
    rw [addReasons, List.foldl_cons]
    exact (ih _).trans (addReason_state e _ _)

@[simp] theorem addReasons_freshness (reasons : List Reason) :
    (e.addReasons reasons).freshness = e.freshness := by
  induction reasons generalizing e with
  | nil => rfl
  | cons reason rest ih =>
    rw [addReasons, List.foldl_cons]
    exact (ih _).trans (addReason_freshness e _ _)

@[simp] theorem merge_state (left right : Evidence) :
    (merge left right).state = mergeState left.state right.state := by
  simp [merge, normalize, ofState]

@[simp] theorem merge_freshness (left right : Evidence) :
    (merge left right).freshness = mergeFreshness left.freshness right.freshness := by
  simp [merge, normalize, ofState]

theorem usable_iff : e.usable = true ↔ e.state = .observed ∧ (e.freshness = .fresh ∨ e.freshness = .aging) := by
  simp [usable]

end Evidence

end LatencyObservatory.Core
