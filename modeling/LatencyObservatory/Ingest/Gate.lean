import LatencyObservatory.Ingest.Fence
import LatencyObservatory.Model.Clock

/-!
# The admission gate

`IngestGate::classify` and `IngestGate::admit`. A record is checked against the registry and for the
consistency of its exchange, dated through the clock registry, enriched with the dwells its clocks
permit, and then fenced: generation, session, source revision, and last whether its evidence is usable
at all. Each later fence writes the verdict without looking at what an earlier one wrote.
-/

namespace LatencyObservatory.Ingest

open LatencyObservatory.Core LatencyObservatory.Model

/-- The gate of one runtime: its policy, the registries it refers to and the fences it owns. -/
structure IngestGate where
  policy : RuntimePolicy
  catalog : Catalog
  clocks : ClockRegistry
  fences : Fences := ∅

structure IngestRequest where
  records : List MeasurementRecord
  receivedAt : Timestamp
  receivedMono : MonoTime := default

structure SampleVerdict where
  id : MeasurementId
  verdict : AdmitVerdict
  evidence : Evidence
deriving DecidableEq

instance : Ord ReasonCode := ⟨fun a b => compare a.ctorIdx b.ctorIdx⟩

structure IngestReport where
  received : Nat := 0
  acceptedCurrent : Nat := 0
  acceptedHistorical : Nat := 0
  rejected : Nat := 0
  tally : Tally := {}
  verdictsTruncated : Bool := false
  verdicts : List SampleVerdict := []
  reasonCounts : List (ReasonCode × Nat) := []
  evidence : Evidence := default

/-! ### Structural checks -/

/-- The evidence under construction and whether some check was fatal. -/
structure Draft where
  evidence : Evidence
  fatal : Bool
deriving DecidableEq

namespace Draft

/-- The `reject` of `classify`. -/
def reject (d : Draft) (code : ReasonCode) (detail : Bytes) : Draft :=
  { evidence := (d.evidence.setState .conflicting).addReason code detail, fatal := true }

def rejectIf (d : Draft) (condition : Bool) (code : ReasonCode) (detail : Bytes) : Draft :=
  if condition then d.reject code detail else d

end Draft

def strictlyIncreasingHopIndices : List HopObservation → Bool
  | first :: second :: rest =>
    first.index.value < second.index.value && strictlyIncreasingHopIndices (second :: rest)
  | _ => true

/-- The declared end to end latency against the two readings. -/
def checkLatency (record : MeasurementRecord) (d : Draft) : Draft :=
  if record.response.ns < record.request.ns then
    d.reject .invalidFieldValue (text "response precedes the request")
  else d.rejectIf (record.rttNs != record.response.ns - record.request.ns) .invalidFieldValue
    (text "declared end to end latency is inconsistent")

/-- The checks of the exchange itself. -/
def checkExchange (record : MeasurementRecord) (d : Draft) : Draft :=
  let d := d.rejectIf (!record.epoch.valid || !record.incarnation.valid) .invalidFieldValue
    (text "epoch and incarnation are required")
  let d := d.rejectIf (!record.sourceRevision.valid) .revisionChanged (text "source revision is required")
  let d := d.rejectIf (!record.domain.valid) .clockDomainMissing (text "the exchange has no clock domain")
  let d := d.rejectIf (record.request.domain != record.domain || record.response.domain != record.domain)
    .clockReferenceMismatch (text "request and response must belong to the declared exchange clock domain")
  let d := checkLatency record d
  d.rejectIf (!record.hops.isEmpty && !strictlyIncreasingHopIndices record.hops) .hopNotContiguous
    (text "hop indices must be strictly increasing")

/-- A hop that is defined and dated on both ends must sit where the path has it. -/
def hopConflicts (catalog : Catalog) (path : PathDef) (hop : HopObservation) : Bool :=
  match catalog.hop hop.hop with
  | .error _ => false
  | .ok _ => hop.entry.domain.valid && hop.exit.domain.valid && path.hops[hop.index.value.toNat]? != some hop.hop

/-- What the registry says about one hop, before its dwell is derived. -/
def hopEvidence (catalog : Catalog) (hop : HopObservation) : Evidence :=
  let initial := Evidence.observed .fresh .high
  match catalog.hop hop.hop with
  | .error _ => .merge initial (.unsupported .unknownHop hop.hop.toHex)
  | .ok _ =>
    if !hop.entry.domain.valid || !hop.exit.domain.valid then
      .merge initial (.unsupported .clockDomainMissing hop.hop.toHex)
    else initial

/-- The hop loop's verdict on the record. -/
def checkHops (catalog : Catalog) (path : PathDef) (hops : List HopObservation) (d : Draft) : Draft :=
  hops.foldl (fun d hop => d.rejectIf (hopConflicts catalog path hop) .hopConflicting
    (text "hop does not match the generation bound path")) d

/-! ### Freshness -/

def freshnessReason : Freshness → ReasonCode
  | .fresh => .evidenceFresh
  | .aging => .evidenceAging
  | .stale => .evidenceStale
  | .expired => .evidenceExpired
  | .unknown => .freshnessUnknown

/-- Dates the evidence by the record's age. -/
def dateEvidence (policy : FreshnessPolicy) (age : AgeEstimate) (evidence : Evidence) : Evidence :=
  let merged := Evidence.merge evidence age.evidence
  match age.ageNs with
  | some ageNs =>
    (merged.setFreshness (policy.classify ageNs)).addReason (freshnessReason (policy.classify ageNs))
  | none =>
    (merged.setFreshness .unknown).addReason .freshnessUnknown (text "observation age is unknown")

/-- Hops inherit the freshness of the exchange they belong to. -/
def inheritFreshness (evidence : Evidence) (hop : HopObservation) : HopObservation :=
  if hop.evidence.state = .observed then
    { hop with
      evidence := (hop.evidence.setFreshness evidence.freshness).setConfidence evidence.confidence }
  else hop

/-! ### Dwells -/

/-- The time between two readings, with its uncertainty, where the clocks permit one. Both the hop
dwell and the queue residency are derived this way; `detail` names what is being measured. -/
def deriveDwell (clocks : ClockRegistry) (record : MeasurementRecord) (entry exit : Timestamp)
    (detail : Bytes) (evidence : Evidence) : Option (Nanos × Nanos) × Evidence :=
  if entry.domain = exit.domain then
    if exit.ns < entry.ns then (none, .merge evidence (.conflicting .hopOutOfOrder detail))
    else (some (exit.ns - entry.ns, 0), evidence)
  else match clocks.compare entry.domain exit.domain record.stamp.receivedAt record.generation record.epoch
      record.incarnation with
    | .error _ => (none, .merge evidence (.refused .incomparableClocks detail))
    | .ok comparability =>
      if !comparability.comparable then (none, .merge evidence comparability.evidence)
      else
        let entryReference := entry.ns - comparability.offsetFirstNs
        let exitReference := exit.ns - comparability.offsetSecondNs
        if exitReference < entryReference then (none, .merge evidence (.conflicting .hopOutOfOrder detail))
        else (some (exitReference - entryReference, comparability.uncertaintyNs),
          .merge evidence comparability.evidence)

def deriveHopDwell (clocks : ClockRegistry) (record : MeasurementRecord) (hop : HopObservation) :
    HopObservation × Tally :=
  match deriveDwell clocks record hop.entry hop.exit hop.hop.toHex hop.evidence with
  | (some (dwell, uncertainty), evidence) =>
    ({ hop with dwellNs := some dwell, dwellUncertaintyNs := some uncertainty, evidence := evidence },
      { hopDwellsComputed := 1 })
  | (none, evidence) => ({ hop with dwellNs := none, evidence := evidence }, { hopDwellsUnknown := 1 })

/-- A queue residency that is not attributed, and why. -/
def dropQueueDwell (hop : HopObservation) (evidence : Evidence) : HopObservation × Tally :=
  ({ hop with queueDwellNs := none, evidence := .merge hop.evidence evidence }, { queueDwellsUnknown := 1 })

/-- Queue residency is only attributed when the queue declares the semantics. -/
def deriveQueueDwell (catalog : Catalog) (clocks : ClockRegistry) (record : MeasurementRecord)
    (definition : HopDef) (hop : HopObservation) : HopObservation × Tally :=
  if definition.hasQueue then
    if !hop.queue.valid || hop.queue != definition.queue then
      dropQueueDwell hop (.unsupported .queueSemanticsUndeclared hop.hop.toHex)
    else match catalog.queue hop.queue with
      | .error _ => dropQueueDwell hop (.unsupported .unknownQueue hop.queue.toHex)
      | .ok queue =>
        if !queue.semantics.has .queueDwell then
          dropQueueDwell hop (.unsupported .queueSemanticsUndeclared queue.name.str)
        else if !hop.queueEntry.valid || !hop.queueExit.valid then
          dropQueueDwell hop (.unsupported .hopUnsupported (text "queue residency timestamps are absent"))
        else match deriveDwell clocks record hop.queueEntry hop.queueExit queue.name.str hop.evidence with
          | (some (dwell, uncertainty), evidence) =>
            ({ hop with
              queueDwellNs := some dwell, queueDwellUncertaintyNs := some uncertainty, evidence := evidence },
              { queueDwellsComputed := 1 })
          | (none, evidence) =>
            ({ hop with queueDwellNs := none, evidence := evidence }, { queueDwellsUnknown := 1 })
  else if hop.queue.valid then dropQueueDwell hop (.unsupported .queueSemanticsUndeclared hop.queue.toHex)
  -- Neither side knows a queue: a residency the submitter filled in stays.
  else (hop, { queueDwellsUnknown := if hop.queueDwellNs.isSome then 0 else 1 })

def Tally.add (a b : Tally) : Tally where
  hopDwellsComputed := a.hopDwellsComputed + b.hopDwellsComputed
  hopDwellsUnknown := a.hopDwellsUnknown + b.hopDwellsUnknown
  queueDwellsComputed := a.queueDwellsComputed + b.queueDwellsComputed
  queueDwellsUnknown := a.queueDwellsUnknown + b.queueDwellsUnknown
  sequenceGaps := a.sequenceGaps + b.sequenceGaps
  reordered := a.reordered + b.reordered
  replays := a.replays + b.replays

/-- One hop of `derive_dwells`; an undefined hop is left as it is. -/
def deriveHop (catalog : Catalog) (clocks : ClockRegistry) (record : MeasurementRecord)
    (hop : HopObservation) : HopObservation × Tally :=
  match catalog.hop hop.hop with
  | .error _ => (hop, {})
  | .ok definition =>
    let (dwelt, tally) := deriveHopDwell clocks record hop
    let (queued, tally') := deriveQueueDwell catalog clocks record definition dwelt
    (queued, tally.add tally')

/-- `derive_dwells`. -/
def deriveDwells (catalog : Catalog) (clocks : ClockRegistry) (record : MeasurementRecord) :
    List HopObservation → List HopObservation × Tally
  | [] => ([], {})
  | hop :: rest =>
    let (derived, tally) := deriveHop catalog clocks record hop
    let (others, tally') := deriveDwells catalog clocks record rest
    (derived :: others, tally.add tally')

/-! ### Classification -/

/-- What `classify` leaves behind for one record. -/
structure Classified where
  record : MeasurementRecord
  ruling : Ruling
  fences : Fences
  tally : Tally := {}

namespace IngestGate

/-- A registry lookup failed: nothing else is looked at. -/
def refuse (gate : IngestGate) (record : MeasurementRecord) (code : ReasonCode) (detail : Bytes) : Classified where
  record := { record with
    hops := record.hops.map fun hop => { hop with evidence := Evidence.observed .fresh .high } }
  ruling := ⟨.rejected, ((Evidence.observed .unknown .high).setState .conflicting).addReason code detail⟩
  fences := gate.fences

/-- The structural checks of an exchange on a known path. -/
def draft (gate : IngestGate) (path : PathDef) (record : MeasurementRecord) : Draft :=
  checkHops gate.catalog path record.hops (checkExchange record ⟨Evidence.observed .unknown .high, false⟩)

/-- The record's evidence once it is dated. -/
def dated (gate : IngestGate) (path : PathDef) (record : MeasurementRecord) (now : Timestamp) : Evidence :=
  dateEvidence gate.policy.freshness (gate.clocks.estimateAge record.stamp.observedAt now)
    (gate.draft path record).evidence

/-- The record with its hops dated and their dwells derived. -/
def enrich (gate : IngestGate) (record : MeasurementRecord) (evidence : Evidence) : MeasurementRecord × Tally :=
  let hops := record.hops.map fun hop =>
    inheritFreshness evidence { hop with evidence := hopEvidence gate.catalog hop }
  let (derived, tally) := deriveDwells gate.catalog gate.clocks record hops
  ({ record with hops := derived }, tally)

/-- The generation fence. -/
def fenceGeneration (gate : IngestGate) (path : PathDef) (record : MeasurementRecord) (ruling : Ruling) : Ruling :=
  let ruling :=
    if record.generation ≠ path.generation then
      ruling.historical .generationSuperseded (text "record generation differs from the path generation")
    else ruling
  if gate.catalog.isSuperseded record.generation then
    ruling.historical .generationSuperseded record.generation.toHex
  else ruling

/-- The fence on the registered source revision. -/
def fenceRevision (source : SourceDescriptor) (record : MeasurementRecord) (ruling : Ruling) : Ruling :=
  if record.sourceRevision.value > source.revision.value then
    { verdict := .rejected
      evidence := (ruling.evidence.setState .conflicting).addReason .revisionChanged
        (text "record revision is ahead of the registered source revision") }
  else if record.sourceRevision.value < source.revision.value then
    ruling.historical .revisionChanged (text "record was produced by an older source revision")
  else ruling

/-- Evidence that is not usable is never current. -/
def fenceUsable (ruling : Ruling) : Ruling :=
  if ruling.verdict = .acceptedCurrent ∧ !ruling.evidence.usable then
    { ruling with verdict := .acceptedHistorical }
  else ruling

def fenceOf (gate : IngestGate) (source : SourceId) : SourceFenceState :=
  (gate.fences[source]?).getD {}

/-- The fences a structurally sound record passes, in the order of the source. -/
def applyFences (gate : IngestGate) (path : PathDef) (source : SourceDescriptor) (record : MeasurementRecord)
    (evidence : Evidence) : SourceFenceState × Ruling × Tally :=
  let generation := gate.fenceGeneration path record ⟨.acceptedCurrent, evidence⟩
  let (fence, session, tally) :=
    applySessionFence gate.policy.limits (gate.fenceOf record.source) record generation
  (fence, fenceUsable (fenceRevision source record session), tally)

/-- `IngestGate::classify`. -/
def classify (gate : IngestGate) (record : MeasurementRecord) (now : Timestamp) : Classified :=
  match gate.catalog.path record.path, gate.catalog.source record.source,
      gate.catalog.generation record.generation with
  | .error _, _, _ => gate.refuse record .unknownPath record.path.toHex
  | .ok _, .error _, _ => gate.refuse record .unknownSource record.source.toHex
  | .ok _, .ok _, .error _ => gate.refuse record .unknownGeneration record.generation.toHex
  | .ok path, .ok source, .ok _ =>
    let evidence := gate.dated path record now
    let (enriched, tally) := gate.enrich record evidence
    if (gate.draft path record).fatal then
      { record := enriched, ruling := ⟨.rejected, evidence⟩, fences := gate.fences, tally := tally }
    else
      let (fence, ruling, tally') := gate.applyFences path source record evidence
      { record := enriched
        ruling := ruling
        fences := gate.fences.insert record.source fence
        tally := tally.add tally' }

end IngestGate

/-! ### Admission -/

namespace IngestReport

def maxDetailedVerdicts : Nat := 64

/-- `++reason_counts[code]` on a table kept in code order. -/
def countReason (code : ReasonCode) : List (ReasonCode × Nat) → List (ReasonCode × Nat)
  | [] => [(code, 1)]
  | entry :: rest =>
    match compare code entry.1 with
    | .lt => (code, 1) :: entry :: rest
    | .eq => (entry.1, entry.2 + 1) :: rest
    | .gt => entry :: countReason code rest

/-- `IngestReport::note`. -/
def note (report : IngestReport) (evidence : Evidence) : IngestReport :=
  { report with
    reasonCounts := evidence.reasons.foldl (fun counts reason => countReason reason.code counts) report.reasonCounts }

/-- Detailed verdicts are kept for the first records only. -/
def detail (report : IngestReport) (verdict : SampleVerdict) : IngestReport :=
  if report.verdicts.length < maxDetailedVerdicts then
    { report with verdicts := report.verdicts ++ [verdict] }
  else { report with verdictsTruncated := true }

def count (report : IngestReport) (verdict : AdmitVerdict) : IngestReport :=
  match verdict with
  | .rejected => { report with rejected := report.rejected + 1 }
  | .acceptedHistorical => { report with acceptedHistorical := report.acceptedHistorical + 1 }
  | .acceptedCurrent => { report with acceptedCurrent := report.acceptedCurrent + 1 }

/-- The batch evidence, set once all records are classified. -/
def conclude (report : IngestReport) : IngestReport :=
  let base := Evidence.observed .fresh .high
  let base := if report.rejected ≠ 0 then (base.setState .incomplete).setConfidence .low else base
  let base := if report.tally.replays ≠ 0 then base.addReason .sequenceReplay else base
  let base :=
    if report.tally.sequenceGaps ≠ 0 then
      base.addReason .sequenceGap (decimal report.tally.sequenceGaps.toNat)
    else base
  { report with evidence := base }

end IngestReport

/-- The loop state of `admit`: the fences and the three outputs. -/
structure Admission where
  fences : Fences
  acceptedCurrent : List MeasurementRecord := []
  acceptedHistory : List MeasurementRecord := []
  report : IngestReport := {}

namespace IngestGate

/-- A submitted record, stamped with its receive time and identity. -/
def stamp (request : IngestRequest) (record : MeasurementRecord) : MeasurementRecord :=
  { record with
    stamp := { record.stamp with receivedAt := request.receivedAt, receivedMono := request.receivedMono }
    id := deriveMeasurementId record.source record.epoch record.incarnation record.sequence }

/-- The body of the `admit` loop. -/
def admitRecord (gate : IngestGate) (request : IngestRequest) (s : Admission) (record : MeasurementRecord) :
    Admission :=
  let classified := { gate with fences := s.fences }.classify (stamp request record) request.receivedAt
  let ruling := classified.ruling
  let stored := { classified.record with evidence := ruling.evidence }
  let tallied := { s.report with tally := s.report.tally.add classified.tally }
  let detailed := tallied.detail ⟨stored.id, ruling.verdict, ruling.evidence⟩
  { fences := classified.fences
    acceptedCurrent :=
      if ruling.verdict = .acceptedCurrent then s.acceptedCurrent ++ [stored] else s.acceptedCurrent
    acceptedHistory :=
      if ruling.verdict = .acceptedHistorical then s.acceptedHistory ++ [stored] else s.acceptedHistory
    report := (detailed.note ruling.evidence).count ruling.verdict }

/-- `IngestGate::admit`: a refused batch leaves the fences as they were. -/
def admitBatch (gate : IngestGate) (request : IngestRequest) : Except Error Admission :=
  if !request.receivedAt.valid then
    .error ⟨.invalidArgument, "ingest requires a valid receive time", []⟩
  else if request.records.length > gate.policy.limits.maxBatchSamples then
    .error ⟨.capacityExceeded, "ingest batch exceeds the configured limit", decimal request.records.length⟩
  else
    let s := request.records.foldl (gate.admitRecord request)
      { fences := gate.fences, report := { received := request.records.length } }
    .ok { s with report := s.report.conclude }

end IngestGate

end LatencyObservatory.Ingest
