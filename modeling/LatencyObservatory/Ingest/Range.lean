import LatencyObservatory.Ingest.Hops
import LatencyObservatory.Model.ClockRange

/-!
# The arithmetic of ingest

The plain operations that `classify` and `derive_dwells` evaluate for a record, and the bounds on its readings under
which none of them overflows. The order of two readings is checked before they are subtracted, so a duration can
only be too long.
-/

namespace LatencyObservatory.Ingest

open LatencyObservatory.Core LatencyObservatory.Model

/-! ### The operations -/

/-- The expected latency. -/
def latencyOps (record : MeasurementRecord) : List PlainOp :=
  if record.response.ns < record.request.ns then [] else [.sub record.response.ns record.request.ns]

/-- The comparison of two domains for a record. -/
def compareForOps (clocks : ClockRegistry) (record : MeasurementRecord) (a b : ClockDomainId) : List PlainOp :=
  clocks.compareOps record.stamp.receivedAt record.generation record.epoch record.incarnation a b

/-- Two readings are put on the common timeline and subtracted. -/
def convertedOps (c : ClockComparability) (entry exit : Timestamp) : List PlainOp :=
  .sub entry.ns c.offsetFirstNs :: .sub exit.ns c.offsetSecondNs ::
    if exit.ns - c.offsetSecondNs < entry.ns - c.offsetFirstNs then []
    else [.sub (exit.ns - c.offsetSecondNs) (entry.ns - c.offsetFirstNs)]

def deriveDwellOps (clocks : ClockRegistry) (record : MeasurementRecord) (entry exit : Timestamp) : List PlainOp :=
  if entry.domain = exit.domain then
    if exit.ns < entry.ns then [] else [.sub exit.ns entry.ns]
  else compareForOps clocks record entry.domain exit.domain ++
    match compareFor clocks record entry exit with
    | .ok c => if c.comparable then convertedOps c entry exit else []
    | .error _ => []

/-- The checks before a queue residency is derived. -/
def queueMeasured (catalog : Catalog) (definition : HopDef) (hop : HopObservation) : Bool :=
  definition.hasQueue && hop.queue == definition.queue &&
    (match catalog.queue hop.queue with
      | .ok queue => queue.semantics.has .queueDwell
      | .error _ => false) &&
    hop.queueEntry.valid && hop.queueExit.valid

def deriveHopOps (catalog : Catalog) (clocks : ClockRegistry) (record : MeasurementRecord) (hop : HopObservation) :
    List PlainOp :=
  match catalog.hop hop.hop with
  | .error _ => []
  | .ok definition =>
    deriveDwellOps clocks record hop.entry hop.exit ++
      if queueMeasured catalog definition hop then deriveDwellOps clocks record hop.queueEntry hop.queueExit else []

def IngestGate.classifyOps (gate : IngestGate) (record : MeasurementRecord) (now : Timestamp) : List PlainOp :=
  match gate.catalog.path record.path, gate.catalog.source record.source,
      gate.catalog.generation record.generation with
  | .ok _, .ok _, .ok _ =>
    latencyOps record ++ gate.clocks.estimateAgeOps record.stamp.observedAt now ++
      record.hops.flatMap (deriveHopOps gate.catalog gate.clocks record)
  | _, _, _ => []

def IngestGate.admitOps (gate : IngestGate) (request : IngestRequest) : List PlainOp :=
  match gate.admitBatch request with
  | .error _ => []
  | .ok _ =>
    request.records.flatMap fun record => gate.classifyOps (IngestGate.stamp request record) request.receivedAt

/-! ### The bounds -/

section Bounds

variable {catalog : Catalog} {clocks : ClockRegistry} {record : MeasurementRecord} {entry exit : Timestamp}
  {hop : HopObservation}

/-- Two readings in order are not too far apart. -/
def InOrderWithin (earlier later : Int) : Prop :=
  earlier ≤ later → later - earlier < 2 ^ 63

theorem inOrder_fit_iff {earlier later : Nanos} :
    AllFit (if later < earlier then [] else [.sub later earlier]) ↔ InOrderWithin earlier.toInt later.toInt := by
  rw [allFit_ite_not, allFit_singleton, Int64.not_lt, Int64.le_iff_toInt_le]
  constructor
  · intro h horder
    exact (h horder).2
  · intro h horder
    refine ⟨?_, h horder⟩
    rw [PlainOp.exact]
    omega

/-- The readings stay in range on the common timeline. -/
structure ConvertedWithin (c : ClockComparability) (entry exit : Timestamp) : Prop where
  entryFits : Representable (entry.ns.toInt - c.offsetFirstNs.toInt)
  exitFits : Representable (exit.ns.toInt - c.offsetSecondNs.toInt)
  duration : InOrderWithin (entry.ns.toInt - c.offsetFirstNs.toInt) (exit.ns.toInt - c.offsetSecondNs.toInt)

theorem convertedOps_fit_iff (c : ClockComparability) :
    AllFit (convertedOps c entry exit) ↔ ConvertedWithin c entry exit := by
  unfold convertedOps
  rw [allFit_cons, allFit_cons, inOrder_fit_iff]
  constructor
  · rintro ⟨hentry, hexit, hduration⟩
    rw [toInt_sub_of_representable hentry, toInt_sub_of_representable hexit] at hduration
    exact ⟨hentry, hexit, hduration⟩
  · rintro ⟨hentry, hexit, hduration⟩
    rw [toInt_sub_of_representable hentry, toInt_sub_of_representable hexit]
    exact ⟨hentry, hexit, hduration⟩

/-- What keeps the duration between two readings in range. -/
def DwellWithin (clocks : ClockRegistry) (record : MeasurementRecord) (entry exit : Timestamp) : Prop :=
  if entry.domain = exit.domain then InOrderWithin entry.ns.toInt exit.ns.toInt
  else clocks.CompareWithin record.stamp.receivedAt record.generation record.epoch record.incarnation
      entry.domain exit.domain ∧
    ∀ c, compareFor clocks record entry exit = .ok c → c.comparable = true → ConvertedWithin c entry exit

theorem deriveDwellOps_fit_iff (hsound : clocks.Sound) :
    AllFit (deriveDwellOps clocks record entry exit) ↔ DwellWithin clocks record entry exit := by
  unfold deriveDwellOps DwellWithin
  by_cases hsame : entry.domain = exit.domain
  · rw [if_pos hsame, if_pos hsame]
    exact inOrder_fit_iff
  · rw [if_neg hsame, if_neg hsame, allFit_append]
    refine and_congr (ClockRegistry.compareOps_fit_iff hsound) ?_
    cases compareFor clocks record entry exit with
    | error e => exact iff_of_true allFit_nil fun c h => by cases h
    | ok c =>
      dsimp only
      rw [allFit_ite, convertedOps_fit_iff]
      constructor
      · intro h c' hc'
        cases hc'
        exact h
      · intro h
        exact h c rfl

theorem queueMeasured_iff {definition : HopDef} :
    queueMeasured catalog definition hop = true ↔ ∃ queue, QueueMeasured catalog definition hop queue := by
  unfold queueMeasured
  simp only [Bool.and_eq_true, beq_iff_eq]
  constructor
  · rintro ⟨⟨⟨⟨hdeclared, hnamed⟩, hsemantics⟩, hentry⟩, hexit⟩
    cases hknown : catalog.queue hop.queue with
    | error e =>
      rw [hknown] at hsemantics
      cases hsemantics
    | ok queue =>
      rw [hknown] at hsemantics
      exact ⟨queue, hdeclared, hnamed, hknown, hsemantics, hentry, hexit⟩
  · rintro ⟨queue, hdeclared, hnamed, hknown, hsemantics, hentry, hexit⟩
    rw [hknown]
    exact ⟨⟨⟨⟨hdeclared, hnamed⟩, hsemantics⟩, hentry⟩, hexit⟩

/-- What keeps the dwell and the queue residency of a hop in range. -/
def HopWithin (catalog : Catalog) (clocks : ClockRegistry) (record : MeasurementRecord) (hop : HopObservation) : Prop :=
  ∀ definition, catalog.hop hop.hop = .ok definition →
    DwellWithin clocks record hop.entry hop.exit ∧
      ∀ queue, QueueMeasured catalog definition hop queue →
        DwellWithin clocks record hop.queueEntry hop.queueExit

theorem deriveHopOps_fit_iff (hsound : clocks.Sound) :
    AllFit (deriveHopOps catalog clocks record hop) ↔ HopWithin catalog clocks record hop := by
  unfold deriveHopOps HopWithin
  cases catalog.hop hop.hop with
  | error e => exact iff_of_true allFit_nil fun definition h => by cases h
  | ok definition =>
    dsimp only
    rw [allFit_append, allFit_ite, deriveDwellOps_fit_iff hsound, deriveDwellOps_fit_iff hsound, queueMeasured_iff]
    constructor
    · rintro ⟨hdwell, hqueue⟩ definition' hdefinition
      cases hdefinition
      exact ⟨hdwell, fun queue hmeasured => hqueue ⟨queue, hmeasured⟩⟩
    · intro h
      obtain ⟨hdwell, hqueue⟩ := h definition rfl
      refine ⟨hdwell, ?_⟩
      rintro ⟨queue, hmeasured⟩
      exact hqueue queue hmeasured

end Bounds

/-- What keeps the classification of a record in range: its latency, its age and the durations at its hops. -/
structure RecordWithin (gate : IngestGate) (record : MeasurementRecord) (now : Timestamp) : Prop where
  latency : InOrderWithin record.request.ns.toInt record.response.ns.toInt
  age : gate.clocks.AgeWithin record.stamp.observedAt now
  hops : ∀ hop ∈ record.hops, HopWithin gate.catalog gate.clocks record hop

theorem IngestGate.classifyOps_fit_iff {gate : IngestGate} (hsound : gate.clocks.Sound) {record : MeasurementRecord}
    {now : Timestamp} : AllFit (gate.classifyOps record now) ↔
      ((gate.catalog.path record.path).isOk → (gate.catalog.source record.source).isOk →
        (gate.catalog.generation record.generation).isOk → RecordWithin gate record now) := by
  unfold IngestGate.classifyOps
  cases hpath : gate.catalog.path record.path with
  | error e => exact iff_of_true allFit_nil fun h => by cases h
  | ok path =>
    cases hsource : gate.catalog.source record.source with
    | error e => exact iff_of_true allFit_nil fun _ h => by cases h
    | ok source =>
      cases hgeneration : gate.catalog.generation record.generation with
      | error e => exact iff_of_true allFit_nil fun _ _ h => by cases h
      | ok generation =>
        dsimp only
        rw [allFit_append, allFit_append, allFit_flatMap]
        constructor
        · rintro ⟨⟨hlatency, hage⟩, hhops⟩ - - -
          exact ⟨inOrder_fit_iff.mp hlatency, ClockRegistry.estimateAgeOps_fit_iff.mp hage,
            fun hop hhop => (deriveHopOps_fit_iff hsound).mp (hhops hop hhop)⟩
        · intro h
          obtain ⟨hlatency, hage, hhops⟩ := h rfl rfl rfl
          exact ⟨⟨inOrder_fit_iff.mpr hlatency, ClockRegistry.estimateAgeOps_fit_iff.mpr hage⟩,
            fun hop hhop => (deriveHopOps_fit_iff hsound).mpr (hhops hop hhop)⟩

end LatencyObservatory.Ingest
