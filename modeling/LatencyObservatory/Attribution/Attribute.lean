import LatencyObservatory.Baselines.Baseline
import LatencyObservatory.Model.Clock

/-!
# Attribution

`attribute::attribute` decomposes the end to end latency of the included exchanges into hop dwells. A
record contributes to the decomposition only when every declared hop was observed and every clock it
used is comparable; otherwise the result says which of these failed.
-/

namespace LatencyObservatory.Attribution

open LatencyObservatory.Core LatencyObservatory.Model LatencyObservatory.Stats LatencyObservatory.Baselines

inductive AttributionKind where
  | observedDecomposition
  | partialDecomposition
  | refused
  | unsupported
deriving DecidableEq, Repr

structure HopContribution where
  index : HopIndex
  hop : HopId
  meanDwellNs : Option Nanos := none
  sumDwellNs : Option Nanos := none
  meanQueueDwellNs : Option Nanos := none
  uncertaintyNs : Option Nanos := none
  sharePpm : Nat := 0
  coveragePpm : Nat := 0
  evidence : Evidence := default
deriving DecidableEq

structure AttributionRequest where
  path : PathId
  generation : GenerationId
  mode : AggregationMode := .current
  window : TimeWindow
  histogram : HistogramSpec := .latencyDefault
  probes : List QuantileProbe := defaultQuantileProbes
  baseline : BaselineId := .none

structure AttributionResult where
  path : PathId
  generation : GenerationId
  domain : ClockDomainId
  kind : AttributionKind := .refused
  window : TimeWindow
  asOf : Timestamp
  exchangesConsidered : Nat := 0
  exchangesIncluded : Nat := 0
  exchangesComplete : Nat := 0
  exchangesIncomplete : Nat := 0
  negativeResiduals : Nat := 0
  endToEndMeanNs : Option Nanos := none
  accountedMeanNs : Option Nanos := none
  unaccountedMeanNs : Option Nanos := none
  residualMinNs : Option Nanos := none
  residualMaxNs : Option Nanos := none
  residualMeanNs : Option Nanos := none
  contributions : List HopContribution := []
  evidence : Evidence := default
  comparison : Option BaselineComparison := none
  policyDigest : Bytes := []
deriving DecidableEq

/-! ### The record loop -/

/-- What is collected for one declared hop. -/
structure HopTally where
  hop : HopId
  values : List Nanos := []
  queueValues : List Nanos := []
  observed : Nat := 0
  missing : Nat := 0
  uncertainty : Option Nanos := none
deriving DecidableEq

structure AttributionLoop where
  considered : Nat := 0
  included : Nat := 0
  complete : Nat := 0
  incomplete : Nat := 0
  negativeResiduals : Nat := 0
  hops : List HopTally
  endToEnd : List Nanos := []
  residuals : List Nanos := []
  sources : List SourceId := []
  clocksRefused : Bool := false
  refusalEvidence : Evidence := default
  evidence : Evidence := (default : Evidence).addReason .noCausalInference
deriving DecidableEq

/-- The record filter of `attribute`, after the path has been counted as considered. -/
def AttributionRequest.includes (request : AttributionRequest) (record : MeasurementRecord) : Bool :=
  let state := record.evidence.state
  record.generation == request.generation &&
    record.stamp.receivedAt.domain == request.window.start.domain &&
    request.window.contains record.stamp.receivedAt &&
    !(state == .conflicting || state == .unsupported || state == .refused || state == .unknown ||
      state == .missing) &&
    !(request.mode == .current && !record.evidence.usable)

/-- `clock_refusal_reason`. -/
def clockRefusalReason (evidence : Evidence) : Bool :=
  evidence.reasons.any fun reason =>
    [ReasonCode.incomparableClocks, .clockOffsetUnavailable, .clockUnsynced, .clockSyncExpired,
      .clockUncertaintyExceeded, .clockReferenceMismatch, .clockDomainMissing].contains reason.code

/-- The hop loop of one exchange: the hops seen so far with what they contribute to its timeline. -/
structure ExchangeScan where
  hops : List HopTally := []
  timeline : List (Option Nanos) := []
  queueTimeline : List (Option Nanos) := []
  complete : Bool
  clocksRefused : Bool
  refusalEvidence : Evidence
deriving DecidableEq

namespace ExchangeScan

def push (s : ExchangeScan) (tally : HopTally) (dwell queueDwell : Option Nanos) : ExchangeScan :=
  { s with
    hops := s.hops ++ [tally]
    timeline := s.timeline ++ [dwell]
    queueTimeline := s.queueTimeline ++ [queueDwell] }

/-- The evidence of a comparison that did not succeed, or none when it did. -/
def refusal (comparability : Except Error ClockComparability) (detail : Bytes) : Option Evidence :=
  match comparability with
  | .ok c => if c.comparable then none else some c.evidence
  | .error _ => some (.refused .incomparableClocks detail)

def refuse (s : ExchangeScan) (evidence : Evidence) : ExchangeScan :=
  { s with
    complete := false
    clocksRefused := true
    refusalEvidence := .merge s.refusalEvidence evidence }

/-- A hop without a usable dwell; what its evidence says may refuse the clocks. -/
def absent (s : ExchangeScan) (tally : HopTally) (observation : Option HopObservation) : ExchangeScan :=
  let s := s.push { tally with missing := tally.missing + 1 } none none
  let s := { s with complete := false }
  match observation with
  | none => s
  | some observation =>
    { s with
      refusalEvidence := .merge s.refusalEvidence observation.evidence
      clocksRefused := s.clocksRefused || observation.evidence.state == .refused ||
        observation.evidence.state == .conflicting || clockRefusalReason observation.evidence }

def mergeUncertainty (known reported : Option Nanos) : Option Nanos :=
  match known, reported with
  | some known, some reported => some (if known < reported then reported else known)
  | none, some reported => some reported
  | known, none => known

def scanHop (clocks : ClockRegistry) (record : MeasurementRecord) (s : ExchangeScan) (tally : HopTally)
    (index : HopIndex) : ExchangeScan :=
  match record.hopAt index with
  | none => s.absent tally none
  | some observation =>
    match observation.dwellNs with
    | none => s.absent tally (some observation)
    | some dwell =>
      let refused := if observation.entry.domain = record.domain then none
        else refusal (clocks.compare observation.entry.domain record.domain record.stamp.receivedAt
          record.generation record.epoch record.incarnation) observation.hop.toHex
      match refused with
      | some evidence => (s.push tally none none).refuse evidence
      | none =>
        s.push { tally with
          uncertainty := mergeUncertainty tally.uncertainty observation.dwellUncertaintyNs }
          (some dwell) observation.queueDwellNs

/-- The hop loop; a position past the supported indices ends it. -/
def scanHops (clocks : ClockRegistry) (record : MeasurementRecord) :
    Nat → List HopTally → ExchangeScan → ExchangeScan
  | _, [], s => s
  | position, tally :: rest, s =>
    match HopIndex.fromValue (UInt32.ofNat position) with
    | .error _ => (rest.foldl (fun s tally => s.push tally none none) (s.push tally none none)) |> fun s =>
        { s with complete := false }
    | .ok index => scanHops clocks record (position + 1) rest (s.scanHop clocks record tally index)

end ExchangeScan

/-- The checked sum of a timeline; a hole or an overflow leaves none. -/
def accountedSum : Nanos → List (Option Nanos) → Option Nanos
  | accounted, [] => some accounted
  | _, none :: _ => none
  | accounted, some value :: rest => (checkedAddI64 accounted value).bind fun sum => accountedSum sum rest

/-- What a complete exchange adds to one hop. -/
def HopTally.record (tally : HopTally) (dwell queueDwell : Option Nanos) : HopTally :=
  { tally with
    values := tally.values ++ dwell.toList
    observed := tally.observed + 1
    queueValues := tally.queueValues ++ queueDwell.toList }

namespace AttributionLoop

/-- The offset that places the exchange on the reference timeline, and the refusal if there is none. -/
def exchangeOffset (clocks : ClockRegistry) (record : MeasurementRecord) : Nanos × Option Evidence :=
  if record.domain = referenceClockDomain then (0, none)
  else
    let comparability := clocks.compare record.domain referenceClockDomain record.stamp.receivedAt
      record.generation record.epoch record.incarnation
    match ExchangeScan.refusal comparability record.domain.toHex, comparability with
    | none, .ok c => (c.offsetFirstNs, none)
    | refused, _ => (0, refused)

/-- An exchange with every hop in place: its residual is recorded unless the sum overflows. -/
def settle (s : AttributionLoop) (scan : ExchangeScan) (endToEnd : Nanos) : AttributionLoop :=
  match accountedSum 0 scan.timeline with
  | none => { s with
      incomplete := s.incomplete + 1
      evidence := s.evidence.addReason .arithmeticOverflow }
  | some accounted => { s with
      complete := s.complete + 1
      endToEnd := s.endToEnd ++ [endToEnd]
      residuals := s.residuals ++ [endToEnd - accounted]
      negativeResiduals := if endToEnd - accounted < 0 then s.negativeResiduals + 1 else s.negativeResiduals
      hops := (scan.hops.zip (scan.timeline.zip scan.queueTimeline)).map fun entry =>
        entry.1.record entry.2.1 entry.2.2 }

/-- An included exchange. -/
def contribute (clocks : ClockRegistry) (s : AttributionLoop) (record : MeasurementRecord) : AttributionLoop :=
  let (offset, refused) := exchangeOffset clocks record
  let started : ExchangeScan :=
    { complete := true, clocksRefused := s.clocksRefused, refusalEvidence := s.refusalEvidence }
  let started := match refused with
    | none => started
    | some evidence => started.refuse evidence
  let scan := started.scanHops clocks record 0 s.hops
  let s := { s with
    included := s.included + 1
    sources := addSource s.sources record.source
    hops := scan.hops
    clocksRefused := scan.clocksRefused
    refusalEvidence := scan.refusalEvidence }
  let endToEnd := (record.response.ns - offset) - (record.request.ns - offset)
  if !scan.complete || endToEnd < 0 then { s with incomplete := s.incomplete + 1 }
  else s.settle scan endToEnd

/-- The body of the record loop. -/
def step (clocks : ClockRegistry) (request : AttributionRequest) (s : AttributionLoop)
    (record : MeasurementRecord) : AttributionLoop :=
  if record.path ≠ request.path then s
  else
    let s := { s with considered := s.considered + 1 }
    if request.includes record then s.contribute clocks record else s

end AttributionLoop

/-! ### The verdict -/

/-- A contributing source declares hop dwell semantics. -/
def hopSemanticsDeclared (catalog : Catalog) (sources : List SourceId) : Bool :=
  sources.any fun id =>
    match catalog.source id with
    | .ok source => source.semantics.has .hopDwell
    | .error _ => false

def hopContributionEvidence (tally : HopTally) : Evidence :=
  let evidence := (Evidence.observed .fresh .high).addReason .noCausalInference
  if tally.observed = 0 then .merge evidence (.unknown .noSamples tally.hop.toHex)
  else if tally.missing ≠ 0 then .merge evidence (.incomplete .partialCoverage tally.hop.toHex)
  else evidence

def contributions (request : AttributionRequest) (limits : Limits) :
    Nat → List HopTally → Except Error (List HopContribution)
  | _, [] => .ok []
  | position, tally :: rest => do
    let distribution ← aggregate tally.values request.histogram request.probes limits
    let queueDistribution ← aggregate tally.queueValues request.histogram request.probes limits
    match HopIndex.fromValue (UInt32.ofNat position) with
    | .error _ => .error ⟨.outOfRange, "hop index exceeds the supported range", []⟩
    | .ok index =>
      let others ← contributions request limits (position + 1) rest
      return {
        index
        hop := tally.hop
        meanDwellNs := distribution.meanNs
        sumDwellNs := distribution.sumNs
        meanQueueDwellNs := queueDistribution.meanNs
        uncertaintyNs := tally.uncertainty
        coveragePpm := (ratioPpm (UInt64.ofNat tally.observed) (UInt64.ofNat (tally.observed + tally.missing))).toNat
        evidence := hopContributionEvidence tally } :: others

/-- The accounted sum over the hops and whether an addition overflowed. -/
def accountHop (acc : UInt64 × Bool) (contribution : HopContribution) : UInt64 × Bool :=
  match contribution.sumDwellNs with
  | some sum =>
    if sum ≥ 0 then
      if acc.1.toNat + sum.toUInt64.toNat < 2 ^ 64 then (acc.1 + sum.toUInt64, acc.2) else (acc.1, true)
    else acc
  | none => acc

def share (accounted : UInt64) (contribution : HopContribution) : HopContribution :=
  match contribution.sumDwellNs with
  | some sum =>
    if sum < 0 ∨ accounted = 0 then contribution
    else { contribution with sharePpm := (ratioPpm sum.toUInt64 accounted).toNat }
  | none => contribution

/-- The verdict and its evidence, in the order of the gates. -/
def verdict (policy : RuntimePolicy) (declared : Bool) (s : AttributionLoop) (evidence : Evidence) :
    AttributionKind × Evidence :=
  if s.included = 0 then
    (.refused, .merge evidence (.unknown .noSamples (text "no included exchanges")))
  else if !declared then
    (.unsupported, .merge evidence (.unsupported .semanticsUnsupported
      (text "no contributing source declares hop dwell semantics")))
  else if s.clocksRefused then
    (.refused, (Evidence.merge evidence s.refusalEvidence).setState .refused)
  else if s.complete = 0 then
    (.refused, .merge (.merge evidence s.refusalEvidence) (.refused .nonTilingCoverage
      (text "no exchange was observed with every hop present")))
  else if s.incomplete ≠ 0 then
    let evidence := (((evidence.addReason .partialCoverage (decimal s.incomplete)).addReason .nonTilingCoverage).setState
      .incomplete).setConfidence .low
    if !policy.attribution.allowPartialDecomposition then
      (.refused, .merge evidence (.refused .refusedByPolicy (text "incomplete hop coverage is refused by policy")))
    else (.partialDecomposition, evidence)
  else (.observedDecomposition, evidence)

/-- `absolute_at_most`. -/
def absoluteAtMost (value bound : Nanos) : Bool :=
  if value ≥ 0 then value ≤ bound else if value = Int64.minValue then false else -value ≤ bound

/-- The means of a produced decomposition. -/
def publishMeans (policy : RuntimePolicy) (accounted : UInt64) (complete : Nat) (endToEndMean : Option Nanos)
    (evidence : Evidence) : Option Nanos × Option Nanos × Evidence :=
  let (accountedMean, evidence) :=
    if accounted ≠ 0 ∧ complete ≠ 0 then
      let mean := accounted / UInt64.ofNat complete
      if mean ≤ 0x7FFFFFFFFFFFFFFF then (some mean.toInt64, evidence)
      else (none, evidence.addReason .arithmeticOverflow
        (text "the accounted mean exceeds the representable range"))
    else (none, evidence)
  match endToEndMean, accountedMean with
  | some endToEnd, some mean =>
    match checkedSubI64 endToEnd mean with
    | some unaccounted =>
      let code := if absoluteAtMost unaccounted policy.attribution.residualToleranceNs then
        ReasonCode.residualWithinTolerance else .unaccountedResidual
      (some mean, some unaccounted, evidence.addReason code (decimalInt unaccounted.toInt))
    | none => (some mean, none, evidence)
  | _, mean => (mean, none, evidence)

/-- The result of the loop, without the baseline comparison. -/
def decompose (catalog : Catalog) (request : AttributionRequest) (policy : RuntimePolicy) (s : AttributionLoop) :
    Except Error AttributionResult := do
  let endToEnd ← aggregate s.endToEnd request.histogram request.probes policy.limits
  let residual ← aggregate s.residuals request.histogram request.probes policy.limits
  let hops ← contributions request policy.limits 0 s.hops
  let (accounted, overflowed) := hops.foldl accountHop (0, false)
  let noted := if overflowed then s.evidence.addReason .arithmeticOverflow else s.evidence
  let started := ((noted.setState .observed).setFreshness .fresh).setConfidence .high
  let (kind, evidence) := verdict policy (hopSemanticsDeclared catalog s.sources) s started
  let produced := kind = .observedDecomposition ∨ kind = .partialDecomposition
  let (accountedMean, unaccountedMean, evidence) :=
    if produced then
      let (mean, unaccounted, evidence) := publishMeans policy accounted s.complete endToEnd.meanNs evidence
      (mean, unaccounted, evidence.addReason
        (if kind = .observedDecomposition then .attributionComplete else .attributionPartial))
    else (none, none, evidence)
  let evidence := if s.negativeResiduals ≠ 0 then
    evidence.addReason .hopOverlap (decimal s.negativeResiduals) else evidence
  let evidence := if endToEnd.sumOverflowed then
    evidence.addReason .arithmeticOverflow (text "the end to end sum exceeds the representable range") else evidence
  return {
    path := request.path
    generation := request.generation
    domain := request.window.start.domain
    kind
    window := request.window
    asOf := request.window.stop
    exchangesConsidered := s.considered
    exchangesIncluded := s.included
    exchangesComplete := s.complete
    exchangesIncomplete := s.incomplete
    negativeResiduals := s.negativeResiduals
    endToEndMeanNs := endToEnd.meanNs
    accountedMeanNs := accountedMean
    unaccountedMeanNs := unaccountedMean
    residualMinNs := residual.minNs
    residualMaxNs := residual.maxNs
    residualMeanNs := residual.meanNs
    contributions := if produced then hops.map (share accounted) else hops
    evidence := evidence.addReason .noCausalInference
    policyDigest := policy.digest }

/-- The comparison with a requested baseline. -/
def compareBaseline (records : List MeasurementRecord) (catalog : Catalog) (baselines : BaselineStore)
    (request : AttributionRequest) (policy : RuntimePolicy) (result : AttributionResult) :
    Except Error AttributionResult :=
  if !request.baseline.valid then .ok result
  else match baselines.get request.baseline with
    | .error _ => .ok { result with
        evidence := result.evidence.addReason .baselineMissing request.baseline.toHex }
    | .ok reference => do
      let summary ← summarize records catalog
        { path := request.path
          generation := request.generation
          mode := request.mode
          window := request.window
          histogram := request.histogram
          probes := request.probes } policy
      return { result with comparison := some (compare reference summary policy) }

/-- `attribute::attribute`. -/
def attributeExchanges (records : List MeasurementRecord) (catalog : Catalog) (clocks : ClockRegistry)
    (baselines : BaselineStore) (request : AttributionRequest) (policy : RuntimePolicy) :
    Except Error AttributionResult :=
  if !request.window.valid then
    .error ⟨.invalidArgument, "attribution requires a valid time window", []⟩
  else if !request.generation.valid then
    .error ⟨.invalidArgument, "attribution requires an explicit generation", []⟩
  else do
    let path ← catalog.path request.path
    let s := records.foldl (AttributionLoop.step clocks request) { hops := path.hops.map fun hop => { hop } }
    let result ← decompose catalog request policy s
    compareBaseline records catalog baselines request policy result

end LatencyObservatory.Attribution
