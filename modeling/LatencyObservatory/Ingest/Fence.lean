import LatencyObservatory.Core.Policy
import LatencyObservatory.Model.Entities
import LatencyObservatory.Model.Measurement

/-!
# The session fence

Fence state of one source: its sessions, keyed by epoch and incarnation and ordered by first
observation, and for each session the last sequence and a bounded window of recent ones.
`applySessionFence` runs in three parts, each of which may lower the verdict: the session order (with
the eviction of old sessions), the session's source revision, and the sequence.
-/

namespace LatencyObservatory.Ingest

open LatencyObservatory.Core LatencyObservatory.Model

inductive AdmitVerdict where
  | acceptedCurrent
  | acceptedHistorical
  | rejected
deriving DecidableEq, Repr

/-- `std::pair<EpochId, IncarnationId>`, ordered lexicographically. -/
abbrev SessionKey := EpochId × IncarnationId

instance : Ord SessionKey := lexOrd
instance : Std.TransOrd SessionKey := inferInstance
instance : Std.LawfulEqOrd SessionKey := inferInstance

structure SessionState where
  ordinal : Nat := 0
  sourceRevision : Revision := default
  hasLastSequence : Bool := false
  lastSequence : Sequence := 0
  recentSequences : Std.ExtTreeSet UInt64 compare := ∅
  recentOrder : List UInt64 := []
  acceptedCurrent : Nat := 0
  acceptedHistorical : Nat := 0
  rejected : Nat := 0

structure SourceFenceState where
  nextOrdinal : Nat := 1
  sessions : Std.ExtTreeMap SessionKey SessionState compare := ∅
  currentEpoch : EpochId := .none
  currentIncarnation : IncarnationId := .none
  currentOrdinal : Nat := 0
  evictedSessions : Nat := 0

/-- `IngestGate::fences_`. -/
abbrev Fences := IdMap .source SourceFenceState

/-- The report counters one record adds to. -/
structure Tally where
  hopDwellsComputed : Nat := 0
  hopDwellsUnknown : Nat := 0
  queueDwellsComputed : Nat := 0
  queueDwellsUnknown : Nat := 0
  sequenceGaps : UInt64 := 0
  reordered : Nat := 0
  replays : Nat := 0
deriving DecidableEq, Repr

/-- The verdict and evidence of a record on its way through the fences. -/
structure Ruling where
  verdict : AdmitVerdict
  evidence : Evidence
deriving DecidableEq

namespace Ruling

def note (r : Ruling) (code : ReasonCode) (detail : Bytes := []) : Ruling :=
  { r with evidence := r.evidence.addReason code detail }

/-- A fence that only lets the record through as history. -/
def historical (r : Ruling) (code : ReasonCode) (detail : Bytes := []) : Ruling :=
  { verdict := .acceptedHistorical, evidence := r.evidence.addReason code detail }

end Ruling

def sessionKey (record : MeasurementRecord) : SessionKey :=
  (record.epoch, record.incarnation)

/-! ### Session order and eviction -/

/-- The eviction candidate: the first session of least ordinal among those not current. -/
def oldestOther (current : Nat) : List (SessionKey × SessionState) → Option (SessionKey × SessionState)
  | [] => none
  | entry :: rest =>
    match oldestOther current rest with
    | none => if entry.2.ordinal = current then none else some entry
    | some best => if entry.2.ordinal = current ∨ best.2.ordinal < entry.2.ordinal then some best else some entry

/-- The eviction loop: while too many sessions are kept, the oldest non current one is dropped. -/
def evictSessions (limit : Nat) : Nat → SourceFenceState → Ruling → SourceFenceState × Ruling
  | 0, fence, ruling => (fence, ruling)
  | fuel + 1, fence, ruling =>
    if fence.sessions.size > limit then
      match oldestOther fence.currentOrdinal fence.sessions.toList with
      | none => (fence, ruling)
      | some oldest =>
        evictSessions limit fuel
          { fence with
            sessions := fence.sessions.erase oldest.1
            evictedSessions := fence.evictedSessions + 1 }
          (ruling.note .sessionEvicted oldest.1.1.toHex)
    else (fence, ruling)

/-- Opens the session of a record whose key is not stored: it becomes the current one. -/
def openSession (limits : Limits) (fence : SourceFenceState) (record : MeasurementRecord) (ruling : Ruling) :
    SourceFenceState × SessionState × Ruling :=
  let state : SessionState := { ordinal := fence.nextOrdinal, sourceRevision := record.sourceRevision }
  let opened : SourceFenceState :=
    { fence with
      nextOrdinal := fence.nextOrdinal + 1
      sessions := fence.sessions.insert (sessionKey record) state
      currentEpoch := record.epoch
      currentIncarnation := record.incarnation
      currentOrdinal := state.ordinal }
  let noted :=
    if fence.currentOrdinal ≠ 0 then
      ruling.note (if record.epoch ≠ fence.currentEpoch then .epochAdvanced else .incarnationChanged)
        record.epoch.toHex
    else ruling
  let (kept, ruling') := evictSessions limits.maxSessionsPerSource opened.sessions.size opened noted
  (kept, state, ruling')

/-- The session of a record: a new one, or a stored one that may be older than the current. -/
def enterSession (limits : Limits) (fence : SourceFenceState) (record : MeasurementRecord) (ruling : Ruling) :
    SourceFenceState × SessionState × Ruling :=
  match fence.sessions[sessionKey record]? with
  | none => openSession limits fence record ruling
  | some state =>
    if state.ordinal < fence.currentOrdinal then
      (fence, state,
        ruling.historical (if record.epoch ≠ fence.currentEpoch then .epochReplayed else .incarnationReplayed)
          record.epoch.toHex)
    else (fence, state, ruling)

/-! ### Session revision and sequence -/

/-- The session keeps the newest source revision it saw; an older one is history. -/
def reviseSession (state : SessionState) (record : MeasurementRecord) (ruling : Ruling) :
    SessionState × Ruling :=
  let advanced : Bool := record.sourceRevision.value > state.sourceRevision.value
  let ruling' :=
    if state.sourceRevision.valid && state.sourceRevision != record.sourceRevision then
      if advanced then ruling.note .revisionChanged (text "session revision advanced")
      else ruling.historical .revisionChanged (text "session revision moved backwards")
    else ruling
  if !state.sourceRevision.valid || advanced then
    ({ state with sourceRevision := record.sourceRevision }, ruling')
  else (state, ruling')

/-- Is the sequence refused as a replay: the last one, or one still in the window? -/
def SessionState.replays (state : SessionState) (sequence : Sequence) : Bool :=
  state.hasLastSequence && !(sequence > state.lastSequence) &&
    (sequence == state.lastSequence || state.recentSequences.contains sequence)

/-- The window loop: while more than `window` sequences are remembered, the first one is forgotten. -/
def trimWindow (window : Nat) (recent : Std.ExtTreeSet UInt64 compare) :
    List UInt64 → Std.ExtTreeSet UInt64 compare × List UInt64
  | [] => (recent, [])
  | front :: rest =>
    if (front :: rest).length > window then trimWindow window (recent.erase front) rest
    else (recent, front :: rest)

/-- Remembers an admitted sequence. -/
def SessionState.remember (state : SessionState) (window : Nat) (sequence : Sequence) : SessionState :=
  let order := state.recentOrder ++ [sequence]
  let (recent, kept) := trimWindow window (state.recentSequences.insert sequence) order
  { state with recentSequences := recent, recentOrder := kept }

/-- The counter of the verdict a record leaves the fence with. -/
def SessionState.count (state : SessionState) (verdict : AdmitVerdict) : SessionState :=
  match verdict with
  | .acceptedCurrent => { state with acceptedCurrent := state.acceptedCurrent + 1 }
  | .acceptedHistorical => { state with acceptedHistorical := state.acceptedHistorical + 1 }
  | .rejected => { state with rejected := state.rejected + 1 }

/-- Advances the last sequence of a session, or finds the record reordered. -/
def placeSequence (state : SessionState) (sequence : Sequence) (ruling : Ruling) :
    SessionState × Ruling × Tally :=
  if !state.hasLastSequence then
    ({ state with hasLastSequence := true, lastSequence := sequence }, ruling, {})
  else if sequence > state.lastSequence then
    let gap := sequence - state.lastSequence - 1
    let ruling' := if gap ≠ 0 then ruling.note .sequenceGap (decimal gap.toNat) else ruling
    ({ state with lastSequence := sequence }, ruling', { sequenceGaps := gap })
  else (state, ruling.historical .sequenceReordered (decimal sequence.toNat), { reordered := 1 })

/-- The sequence fence: a replay is refused outright, anything else is remembered and counted. -/
def fenceSequence (limits : Limits) (state : SessionState) (sequence : Sequence) (ruling : Ruling) :
    SessionState × Ruling × Tally :=
  if state.replays sequence then
    ({ state with rejected := state.rejected + 1 },
      { verdict := .rejected
        evidence := ((ruling.evidence.setState .conflicting).setFreshness .unknown).addReason .sequenceReplay
          (decimal sequence.toNat) },
      { replays := 1 })
  else
    let (placed, ruling', tally) := placeSequence state sequence ruling
    ((placed.remember limits.sequenceReplayWindow sequence).count ruling'.verdict, ruling', tally)

/-- `IngestGate::apply_session_fence` on the fence state of the record's source. -/
def applySessionFence (limits : Limits) (fence : SourceFenceState) (record : MeasurementRecord)
    (ruling : Ruling) : SourceFenceState × Ruling × Tally :=
  let (entered, state, ruling₁) := enterSession limits fence record ruling
  let (revised, ruling₂) := reviseSession state record ruling₁
  let (fenced, ruling₃, tally) := fenceSequence limits revised record.sequence ruling₂
  ({ entered with sessions := entered.sessions.insert (sessionKey record) fenced }, ruling₃, tally)

end LatencyObservatory.Ingest
