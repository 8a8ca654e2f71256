import LatencyObservatory.Model.Entities

/-!
# Clock registry

Clock domains, their synchronization reports and the two questions asked of them: how old is a
reading (`estimateAge`), and may readings of two domains be subtracted (`compare`).
-/

namespace LatencyObservatory.Model

open LatencyObservatory.Core

inductive ClockSyncState where
  | unknown
  | unsynced
  | synchronized
  | holdover
deriving DecidableEq, Repr

structure ClockDomainDef where
  id : ClockDomainId := .none
  name : Name
  isReference : Bool := false
  description : Bytes := []
deriving DecidableEq, Repr

structure ClockSync where
  domain : ClockDomainId
  reference : ClockDomainId := .none
  state : ClockSyncState := .unknown
  offsetNs : Nanos := 0
  skewPpb : Nanos := 0
  uncertaintyNs : Nanos := 0
  validForNs : Nanos := 0
  observedAt : Timestamp := default
  reportedBy : SourceId := .none
  generation : GenerationId := .none
  epoch : EpochId := .none
  incarnation : IncarnationId := .none
  revision : Revision := default
deriving DecidableEq, Repr

def ClockSync.ageNs (report : ClockSync) (now : Timestamp) : Nanos :=
  now.ns - report.observedAt.ns

structure ClockComparability where
  comparable : Bool := false
  uncertaintyNs : Nanos := 0
  offsetFirstNs : Nanos := 0
  offsetSecondNs : Nanos := 0
  confidence : Confidence := .none
  evidence : Evidence := default
deriving DecidableEq

/-- `incomparable`: no derived value, and the condition that blocked it. -/
def incomparable (state : EvidenceState) (code : ReasonCode) (detail : Bytes) : ClockComparability :=
  { evidence := (((default : Evidence).setState state).addReason code detail).addReason .incomparableClocks }

structure ClockRegistry where
  policy : RuntimePolicy
  domains : IdMap .clockDomain ClockDomainDef := ∅
  syncs : IdMap .clockDomain ClockSync := ∅
deriving DecidableEq

/-- The age of a reading, absent when its domain cannot be related to the reference. -/
structure AgeEstimate where
  ageNs : Option Nanos := none
  evidence : Evidence := default
deriving DecidableEq

namespace ClockRegistry

def defineDomain (r : ClockRegistry) (definition : ClockDomainDef) :
    Except Error ClockDomainId × ClockRegistry :=
  let name := definition.name
  let id : ClockDomainId := .deriveFrom name.str
  if definition.id.valid && definition.id != id then
    (.error ⟨.conflict, "clock domain id does not match its canonical name", name.str⟩, r)
  else match r.domains[id]? with
    | none =>
      if r.domains.size ≥ r.policy.limits.maxClockDomains then
        (.error ⟨.capacityExceeded, "clock domain registry is at capacity", name.str⟩, r)
      else (.ok id, { r with domains := r.domains.insert id { definition with id := id } })
    | some found =>
      if found ≠ { definition with id := id } then
        (.error ⟨.conflict, "clock domain is already defined with different content", name.str⟩, r)
      else (.ok id, r)

/-- `record_sync`: a report replaces the recorded one only with a newer revision. -/
def recordSync (r : ClockRegistry) (sync : ClockSync) : Status × ClockRegistry :=
  if !sync.domain.valid then
    (.error ⟨.invalidArgument, "clock sync requires a domain", []⟩, r)
  else if !r.domains.contains sync.domain then
    (.error ⟨.notFound, "clock sync references an unknown domain", sync.domain.toHex⟩, r)
  else if sync.reference.valid && !r.domains.contains sync.reference then
    (.error ⟨.notFound, "clock sync references an unknown reference domain", sync.reference.toHex⟩, r)
  else if sync.reference = sync.domain then
    (.error ⟨.invalidArgument, "a clock domain cannot be its own reference", sync.domain.toHex⟩, r)
  else if sync.uncertaintyNs < 0 then
    (.error ⟨.invalidArgument, "clock sync uncertainty must not be negative", sync.domain.toHex⟩, r)
  else if sync.validForNs ≤ 0 then
    (.error ⟨.invalidArgument, "clock sync validity window must be positive", sync.domain.toHex⟩, r)
  else match r.syncs[sync.domain]? with
    | none => (.ok (), { r with syncs := r.syncs.insert sync.domain sync })
    | some found =>
      if sync.revision.value < found.revision.value then
        (.error ⟨.conflict, "clock sync revision is older than the recorded revision", sync.domain.toHex⟩, r)
      else if sync.revision = found.revision then
        if sync = found then (.ok (), r)
        else if sync.observedAt.ns ≤ found.observedAt.ns then
          (.error ⟨.conflict, "clock sync observation time moved backwards at the same revision",
            sync.domain.toHex⟩, r)
        else (.error ⟨.conflict, "clock sync content changed without a revision bump", sync.domain.toHex⟩, r)
      else (.ok (), { r with syncs := r.syncs.insert sync.domain sync })

/-- `estimate_age`: the age of `observed` at the local reference reading `now`. -/
def estimateAge (r : ClockRegistry) (observed now : Timestamp) : AgeEstimate :=
  if !observed.valid || !now.valid then
    { evidence := .unknown .clockDomainMissing (text "missing clock domain identity") }
  else if observed.domain = now.domain then
    { ageNs := some (now.ns - observed.ns)
      evidence := (((default : Evidence).setState .observed).setConfidence .high).addReason .clockSelfComparable }
  else match r.syncs[observed.domain]? with
    | none => { evidence := .unknown .clockOffsetUnavailable observed.domain.toHex }
    | some report =>
      if !report.reference.valid then
        { evidence := .unknown .clockOffsetUnavailable observed.domain.toHex }
      else if report.reference ≠ now.domain then
        { evidence := .conflicting .clockReferenceMismatch observed.domain.toHex }
      else if report.state = .unknown ∨ report.state = .unsynced then
        { evidence := .refused .clockUnsynced observed.domain.toHex }
      else
        let reportAge := report.ageNs now
        if reportAge < 0 ∨ reportAge > report.validForNs then
          { evidence := .stale .clockSyncExpired observed.domain.toHex }
        else
          let base := ((default : Evidence).setState .observed).setConfidence
            (if report.state = .holdover then .degraded else .moderate)
          let dated := (base.setFreshness (if reportAge > report.validForNs / 2 then .aging else .fresh)).addReason
            .clockComparable observed.domain.toHex
          { ageNs := some (now.ns - (observed.ns - report.offsetNs))
            evidence := if report.state = .holdover then dated.addReason .clockHoldover observed.domain.toHex
              else dated }

/-- `compare_single`: is `id` usable at `now` for evidence of this generation, epoch and incarnation? -/
def compareSingle (r : ClockRegistry) (id : ClockDomainId) (now : Timestamp) (generation : GenerationId)
    (epoch : EpochId) (incarnation : IncarnationId) : Except Error ClockComparability :=
  match r.domains[id]? with
  | none => .ok (incomparable .unknown .clockDomainMissing id.toHex)
  | some definition =>
    let name := definition.name.str
    match r.syncs[id]? with
    | none => .ok (incomparable .unknown .clockOffsetUnavailable name)
    | some report =>
      let policy := r.policy.comparability
      if report.state = .unknown ∨ report.state = .unsynced then
        .ok (incomparable .refused .clockUnsynced name)
      else if report.state = .holdover ∧ !policy.allowHoldover then
        .ok (incomparable .refused .clockHoldover name)
      else if policy.requireGenerationMatch && report.generation.valid && generation.valid &&
          report.generation != generation then
        .ok (incomparable .conflicting .clockSyncGenerationMismatch name)
      else if policy.requireEpochMatch && report.epoch.valid && epoch.valid && report.epoch != epoch then
        .ok (incomparable .conflicting .clockSyncEpochMismatch name)
      else if policy.requireIncarnationMatch && report.incarnation.valid && incarnation.valid &&
          report.incarnation != incarnation then
        .ok (incomparable .conflicting .clockSyncIncarnationMismatch name)
      else if !report.observedAt.valid then
        .ok (incomparable .unknown .clockOffsetUnavailable name)
      else if report.observedAt.domain ≠ now.domain then
        .ok (incomparable .conflicting .clockReferenceMismatch name)
      else
        let age := report.ageNs now
        if age < 0 then .ok (incomparable .conflicting .clockOffsetUnavailable name)
        else if age > report.validForNs then .ok (incomparable .stale .clockSyncExpired name)
        else
          let aging : Bool := age > report.validForNs / 2
          let confidence : Confidence :=
            if report.state = .holdover then .degraded else if aging then .moderate else .high
          let noted : Evidence :=
            if report.state = .holdover then (default : Evidence).addReason .clockHoldover name
            else if aging then (default : Evidence).addReason .clockSyncStale name
            else default
          .ok {
            comparable := true
            uncertaintyNs := report.uncertaintyNs
            confidence := confidence
            evidence := ((noted.setState .observed).setFreshness (if aging then .aging else .fresh)).setConfidence
              confidence }

/-- `compare` against the local reference domain: one report, pointing at that reference. -/
def compareReference (r : ClockRegistry) (a b : ClockDomainId) (now : Timestamp) (generation : GenerationId)
    (epoch : EpochId) (incarnation : IncarnationId) : Except Error ClockComparability :=
  let remote := if a = referenceClockDomain then b else a
  let mismatch := incomparable .conflicting .clockReferenceMismatch
    (text "synchronization does not point at the local reference domain")
  match r.compareSingle remote now generation epoch incarnation with
  | .error e => .error e
  | .ok single =>
    if !single.comparable then .ok single
    else match r.syncs[remote]? with
      | none => .ok mismatch
      | some remoteSync =>
        if remoteSync.reference ≠ referenceClockDomain then .ok mismatch
        else if single.uncertaintyNs > r.policy.comparability.maxUncertaintyNs then
          .ok { incomparable .refused .clockUncertaintyExceeded (decimalInt single.uncertaintyNs.toInt) with
            uncertaintyNs := single.uncertaintyNs }
        else .ok {
          comparable := true
          uncertaintyNs := single.uncertaintyNs
          offsetFirstNs := if a = referenceClockDomain then 0 else remoteSync.offsetNs
          offsetSecondNs := if b = referenceClockDomain then 0 else remoteSync.offsetNs
          confidence := single.confidence
          evidence := single.evidence.addReason .clockComparable }

/-- `compare` of two remote domains: both reports must be usable and share a declared reference. -/
def compareRemote (r : ClockRegistry) (a b : ClockDomainId) (now : Timestamp) (generation : GenerationId)
    (epoch : EpochId) (incarnation : IncarnationId) : Except Error ClockComparability :=
  match r.compareSingle a now generation epoch incarnation, r.compareSingle b now generation epoch incarnation with
  | .error e, _ => .error e
  | .ok left, rightResult =>
    if !left.comparable then .ok left
    else match rightResult with
      | .error e => .error e
      | .ok right =>
        if !right.comparable then .ok right
        else match r.syncs[a]?, r.syncs[b]? with
          | some leftSync, some rightSync =>
            let combined := left.uncertaintyNs + right.uncertaintyNs
            if leftSync.reference ≠ rightSync.reference then
              .ok (incomparable .conflicting .clockReferenceMismatch
                (text "sync records do not share a reference domain"))
            else if !leftSync.reference.valid then
              .ok (incomparable .refused .clockReferenceMismatch
                (text "sync records do not declare a reference domain"))
            else if combined < 0 then
              .ok (incomparable .refused .arithmeticOverflow (text "combined clock uncertainty overflowed"))
            else if combined > r.policy.comparability.maxUncertaintyNs then
              .ok { incomparable .refused .clockUncertaintyExceeded (decimalInt combined.toInt) with
                uncertaintyNs := combined }
            else .ok {
              comparable := true
              uncertaintyNs := combined
              offsetFirstNs := leftSync.offsetNs
              offsetSecondNs := rightSync.offsetNs
              confidence := Evidence.mergeConfidence left.confidence right.confidence
              evidence := (Evidence.merge left.evidence right.evidence).addReason .clockComparable }
          -- A comparable side has its report: `compareSingle` answers for a missing one.
          | _, _ => .ok left

/-- `ClockRegistry::compare`. -/
def compare (r : ClockRegistry) (a b : ClockDomainId) (now : Timestamp) (generation : GenerationId)
    (epoch : EpochId) (incarnation : IncarnationId) : Except Error ClockComparability :=
  if !a.valid || !b.valid then
    .ok (incomparable .unknown .clockDomainMissing (text "missing clock domain identity"))
  else if a = b then
    .ok {
      comparable := true
      confidence := .high
      evidence := (Evidence.observed .fresh .high).addReason .clockSelfComparable }
  else if a = referenceClockDomain ∨ b = referenceClockDomain then
    r.compareReference a b now generation epoch incarnation
  else r.compareRemote a b now generation epoch incarnation

end ClockRegistry

end LatencyObservatory.Model
