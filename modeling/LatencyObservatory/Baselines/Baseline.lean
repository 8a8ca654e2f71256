import LatencyObservatory.Stats.Codec

/-!
# Baselines

Generation bound reference distributions: the registry that keeps them, their codec, and the
comparison of a summary with one of them.
-/

namespace LatencyObservatory.Baselines

open LatencyObservatory.Core LatencyObservatory.Model LatencyObservatory.Stats

structure Baseline where
  id : BaselineId := .none
  name : Name
  path : PathId
  generation : GenerationId
  domain : ClockDomainId
  revision : Revision
  histogram : HistogramSpec
  probes : List QuantileProbe
  source : SourceId := .none
  synthetic : Bool := false
  createdAt : Timestamp
  window : TimeWindow
  exchangeCount : Nat
  endToEnd : Distribution
  hops : List HopSummary
  evidence : Evidence := default
  policyDigest : Bytes
deriving DecidableEq

/-! ### Registry -/

structure BaselineStore where
  limits : Limits
  policy : RuntimePolicy
  baselines : IdMap .baseline Baseline := ∅
  byPath : IdMap .path (List BaselineId) := ∅
deriving DecidableEq

/-- The text a baseline without an identity is addressed by. -/
def Baseline.canonical (b : Baseline) : Bytes :=
  text "baseline|" ++ b.path.toHex ++ text "|" ++ b.generation.toHex ++ text "|" ++ b.domain.toHex ++ text "|" ++
    decimal b.revision.value.toNat ++ text "|" ++ b.name.str

namespace BaselineStore

def add (s : BaselineStore) (baseline : Baseline) : Except Error (BaselineId × BaselineStore) :=
  if !baseline.path.valid || !baseline.generation.valid || !baseline.domain.valid then
    .error ⟨.invalidArgument, "a baseline requires a path, a generation and a clock domain", []⟩
  else if !baseline.revision.valid then
    .error ⟨.invalidArgument, "a baseline requires a revision of at least 1", []⟩
  else if baseline.name.str.isEmpty then
    .error ⟨.invalidArgument, "a baseline requires a name", []⟩
  else
    let id := if baseline.id.valid then baseline.id else .deriveFrom baseline.canonical
    if s.baselines.contains id then
      .error ⟨.alreadyExists, "a baseline with this identity already exists", baseline.name.str⟩
    else if s.baselines.size ≥ s.limits.maxBaselines then
      .error ⟨.capacityExceeded, "baseline registry is at capacity", baseline.name.str⟩
    else
      let stored := { baseline with id, evidence := baseline.evidence.addReason .aggregateDeterministic }
      .ok (id, { s with
        baselines := s.baselines.insert id stored
        byPath := s.byPath.insert baseline.path ((s.byPath[baseline.path]?.getD []) ++ [id]) })

def get (s : BaselineStore) (id : BaselineId) : Except Error Baseline :=
  Catalog.lookup s.baselines "unknown baseline" id

end BaselineStore

/-! ### Comparison -/

inductive MismatchKind where
  | none
  | missing
  | path
  | generation
  | clockDomain
  | histogram
  | revision
  | probes
  | stale
  | expired
  | notUsable
deriving DecidableEq, Repr

inductive AnomalyClass where
  | none
  | watch
  | elevated
  | suppressed
  | suppressedElevated
  | unknown
deriving DecidableEq, Repr

def mismatchReason : MismatchKind → ReasonCode
  | .missing => .baselineMissing
  | .path => .baselinePathMismatch
  | .generation => .baselineGenerationMismatch
  | .clockDomain => .baselineClockDomainMismatch
  | .histogram => .baselineHistogramMismatch
  | .revision => .baselineRevisionMismatch
  | .probes => .baselineHistogramMismatch
  | .stale => .baselineStale
  | .expired => .baselineExpired
  | .notUsable => .insufficientSamples
  | .none => .baselineMissing

structure AnomalyEvidence where
  index : HopIndex := default
  hop : HopId := .none
  classification : AnomalyClass := .unknown
  meanDeltaNs : Option Nanos := none
  p99DeltaNs : Option Nanos := none
  ratioPpm : Nat := 0
  currentCount : Nat := 0
  baselineCount : Nat := 0
  evidence : Evidence := default
deriving DecidableEq

structure BaselineComparison where
  baseline : BaselineId
  applicable : Bool := false
  mismatches : List (MismatchKind × Bytes) := []
  meanDeltaNs : Option Nanos := none
  minDeltaNs : Option Nanos := none
  maxDeltaNs : Option Nanos := none
  meanRatioPpm : Nat := 0
  anomalies : List AnomalyEvidence := []
  evidence : Evidence := default
deriving DecidableEq

def delta (current reference : Option Nanos) : Option Nanos :=
  current.bind fun current => reference.bind fun reference => checkedSubI64 current reference

/-- `ratio_ppm` of two means: zero when it cannot be formed or does not fit. -/
def meanRatioPpm (current reference : Option Nanos) : Nat :=
  match current, reference with
  | some current, some reference =>
    if reference ≤ 0 then 0
    else
      let numerator : UInt64 := if current < 0 then 0 else current.toUInt64
      let (quotient, _) := (UInt128.mulU64 numerator 1000000).divmod reference.toUInt64
      if !quotient.fitsU64 then 0 else quotient.lo.toNat
  | _, _ => 0

/-- `quantile_at`: without the probe, the last quantile of the distribution. -/
def quantileAt (d : Distribution) (numerator denominator : UInt32) : Option Nanos :=
  match d.probes.findIdx? fun probe => probe.numerator == numerator && probe.denominator == denominator with
  | some index => (d.quantiles[index]?).getD none
  | none => (d.quantiles.getLast?).getD none

def classifyDeviation (policy : AnomalyPolicy) (value : Nanos) : AnomalyClass × ReasonCode :=
  if value ≥ policy.elevatedDeltaNs then (.elevated, .deviationElevated)
  else if value ≥ policy.watchDeltaNs then (.watch, .deviationWatch)
  else if value ≤ -policy.elevatedDeltaNs then (.suppressedElevated, .deviationSuppressed)
  else if value ≤ -policy.watchDeltaNs then (.suppressed, .deviationSuppressed)
  else (.none, .deviationNone)

def classifyAnomaly (current reference : Distribution) (index : HopIndex) (hop : HopId) (policy : RuntimePolicy) :
    AnomalyEvidence :=
  let base : AnomalyEvidence :=
    { index, hop
      currentCount := current.count
      baselineCount := reference.count
      meanDeltaNs := delta current.meanNs reference.meanNs
      p99DeltaNs := delta (quantileAt current 99 100) (quantileAt reference 99 100)
      ratioPpm := meanRatioPpm current.meanNs reference.meanNs
      evidence := (default : Evidence).addReason .noCausalInference }
  if current.count < policy.anomaly.minSamples ∨ reference.count < policy.anomaly.minSamples then
    { base with
      evidence := ((base.evidence.setState .incomplete).setConfidence .low).addReason .insufficientSamples }
  else match base.meanDeltaNs with
    | none => { base with evidence := (base.evidence.setState .unknown).addReason .baselineAbsent }
    | some value =>
      let (classification, reason) := classifyDeviation policy.anomaly value
      let noted := (base.evidence.addReason reason (decimalInt value.toInt)).setState .observed
      let dated := noted.setFreshness (if current.histogram.spec = reference.histogram.spec then .fresh else .unknown)
      { base with
        classification
        evidence := dated.setConfidence (if current.count ≥ 4 * policy.anomaly.minSamples then .high else .moderate) }

namespace BaselineComparison

def addMismatch (c : BaselineComparison) (kind : MismatchKind) (detail : Bytes) : BaselineComparison :=
  { c with
    mismatches := c.mismatches ++ [(kind, detail)]
    evidence := ((c.evidence.setState .unsupported).setConfidence .none).addReason (mismatchReason kind) detail }

def mismatchIf (c : BaselineComparison) (condition : Bool) (kind : MismatchKind) (detail : String) :
    BaselineComparison :=
  if condition then c.addMismatch kind (text detail) else c

/-- How old the baseline is at the end of the observed window. -/
def checkAge (c : BaselineComparison) (policy : FreshnessPolicy) (age : Nanos) : BaselineComparison :=
  if age < 0 then c.addMismatch .notUsable (text "baseline was created after the observed window")
  else match policy.classify age with
    | .stale => c.addMismatch .stale (decimalInt age.toInt)
    | .expired => c.addMismatch .expired (decimalInt age.toInt)
    | _ => c

end BaselineComparison

/-- The mismatches of a baseline and a summary. -/
def checkMismatches (reference : Baseline) (current : PathSummary) (policy : RuntimePolicy) : BaselineComparison :=
  let c : BaselineComparison := { baseline := reference.id }
  let c := c.mismatchIf (reference.path != current.path) .path "baseline belongs to a different path"
  let c := c.mismatchIf (reference.generation != current.generation) .generation
    "baseline generation differs from the observed generation"
  let c := c.mismatchIf (reference.domain != current.domain) .clockDomain
    "baseline clock domain differs from the observed clock domain"
  let c := c.mismatchIf (reference.histogram != current.endToEnd.histogram.spec) .histogram
    "baseline histogram bucketing differs"
  let c := c.mismatchIf (reference.probes != current.endToEnd.probes) .probes "baseline quantile probes differ"
  let c := c.mismatchIf (reference.evidence.state == .conflicting) .notUsable "baseline evidence is conflicting"
  let c := c.mismatchIf (!current.evidence.usable && current.mode == .current) .notUsable
    "current evidence is not usable"
  let c := c.checkAge policy.freshness (current.asOf.ns - reference.createdAt.ns)
  c.mismatchIf (current.endToEnd.count < policy.anomaly.minSamples) .notUsable "current window has too few samples"

/-- `baseline::compare`: any mismatch leaves no delta at all. -/
def compare (reference : Baseline) (current : PathSummary) (policy : RuntimePolicy) : BaselineComparison :=
  if !reference.id.valid then
    let c := ({ baseline := reference.id } : BaselineComparison).addMismatch .missing (text "no baseline was supplied")
    { c with evidence := c.evidence.addReason .baselineMissing }
  else
    let c := checkMismatches reference current policy
    if !c.mismatches.isEmpty then c
    else
      let hopAnomalies := current.hops.filterMap fun hop =>
        (reference.hops.find? fun candidate => candidate.index == hop.index).map fun candidate =>
          classifyAnomaly hop.dwell candidate.dwell hop.index hop.hop policy
      { c with
        applicable := true
        evidence := (((c.evidence.setState .observed).setFreshness .fresh).setConfidence .high
          |>.addReason .baselineMatched).addReason .noCausalInference
        meanDeltaNs := delta current.endToEnd.meanNs reference.endToEnd.meanNs
        minDeltaNs := delta current.endToEnd.minNs reference.endToEnd.minNs
        maxDeltaNs := delta current.endToEnd.maxNs reference.endToEnd.maxNs
        meanRatioPpm := meanRatioPpm current.endToEnd.meanNs reference.endToEnd.meanNs
        anomalies := classifyAnomaly current.endToEnd reference.endToEnd default .none policy :: hopAnomalies }

/-! ### Codec -/

def writeBaseline (w : JsonWriter) (b : Baseline) : JsonWriter :=
  let w := w.beginObject
  let w := w.fieldString "baseline" b.id.toHex
  let w := w.fieldString "name" b.name.str
  let w := w.fieldString "path" b.path.toHex
  let w := w.fieldString "generation" b.generation.toHex
  let w := w.fieldString "clock_domain" b.domain.toHex
  let w := w.fieldUint "revision" b.revision.value.toNat
  let w := w.fieldString "source" b.source.toHex
  let w := w.fieldBool "synthetic" b.synthetic
  let w := w.fieldInt "created_at_ns" b.createdAt.ns.toInt
  let w := w.fieldUint "exchange_count" b.exchangeCount
  let w := w.fieldString "policy_digest" b.policyDigest
  let w := writeHistogramSpec (w.key "histogram") b.histogram
  let w := (b.probes.foldl (fun w probe => w.valueString probe.render) (w.fieldArray "probes")).endArray
  let w := writeTimeWindow (w.key "window") b.window
  let w := writeDistribution (w.key "end_to_end") b.endToEnd
  let w := (b.hops.foldl writeHopSummary (w.fieldArray "hops")).endArray
  let w := w.fieldString "evidence_state" (nameOf states (text "unknown") b.evidence.state)
  w.endObject

/-- `decode_baseline`: of the evidence only the state comes back. -/
def decodeBaseline (value : JsonValue) : Except Error Baseline := do
  guardObject value "baseline must be an object"
  let id ← jsonId value "baseline"
  let name ← jsonName value "name"
  let path ← jsonId value "path"
  let generation ← jsonId value "generation"
  let domain ← jsonId value "clock_domain"
  let revision ← jsonRevision value "revision"
  let source ← jsonOptionalId value "source"
  let synthetic ← value.requireBool "synthetic"
  let createdAt ← value.requireInt "created_at_ns"
  let exchangeCount ← value.requireUint "exchange_count"
  let policyDigest ← value.requireString "policy_digest"
  let histogram ← decodeHistogramSpec (← value.requireObject "histogram")
  let probeItems ← value.requireArray "probes"
  let probes ← decodeAll (fun entry => do parseQuantileProbe (← entry.asString)) probeItems
  let window ← decodeTimeWindow (← value.requireObject "window")
  let endToEnd ← decodeDistribution (← value.requireObject "end_to_end")
  let hopItems ← value.requireArray "hops"
  let hops ← decodeAll decodeHopSummary hopItems
  let state ← jsonNamed states "unknown evidence state" value "evidence_state"
  return {
    id, name, path, generation, domain, revision, source, synthetic, exchangeCount, policyDigest, histogram,
    probes, window, endToEnd, hops
    createdAt := ⟨Int64.ofInt createdAt, domain⟩
    evidence := (default : Evidence).setState state }

end LatencyObservatory.Baselines
