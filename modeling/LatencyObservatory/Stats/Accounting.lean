import Mathlib.Data.List.ReduceOption
import LatencyObservatory.Core.Wide
import LatencyObservatory.Ingest.Replay
import LatencyObservatory.Stats.Readings

/-!
# A summary accounts for every record and every hop

Every record is counted once, as included or under the reason that left it out, and at every declared hop every
included exchange has a dwell, no observation, or an observation without one. The distributions are aggregates
of exactly the values counted.
-/

namespace LatencyObservatory.Stats

open LatencyObservatory.Core LatencyObservatory.Model

/-! ### Null pointers -/

/-- The record loop over pointers: a null one is skipped before it is counted. -/
def SummaryLoop.stepPointer (request : SummaryRequest) (s : SummaryLoop) : Option MeasurementRecord → SummaryLoop
  | none => s
  | some record => s.step request record

/-- `stats::summarize` with the pointers that it is given. -/
def summarizePointers (records : List (Option MeasurementRecord)) (catalog : Catalog) (request : SummaryRequest)
    (policy : RuntimePolicy) : Except Error PathSummary :=
  if !request.window.valid then .error ⟨.invalidArgument, "summary requires a valid time window", []⟩
  else do
    let path ← catalog.path request.path
    if !request.generation.valid then
      .error ⟨.invalidArgument, "summary requires an explicit generation", []⟩
    else
      let hops ← startHops request.histogram 0 path.hops
      concludeSummary request policy (records.foldl (SummaryLoop.stepPointer request) (summaryStart request policy hops))

theorem foldl_stepPointer (request : SummaryRequest) (records : List (Option MeasurementRecord)) (s : SummaryLoop) :
    records.foldl (SummaryLoop.stepPointer request) s = records.reduceOption.foldl (SummaryLoop.step request) s := by
  induction records generalizing s with
  | nil => rfl
  | cons pointer rest ih =>
    rw [List.foldl_cons, ih]
    cases pointer with
    | none => rfl
    | some record => rfl

theorem summarizePointers_eq (records : List (Option MeasurementRecord)) (catalog : Catalog) (request : SummaryRequest)
    (policy : RuntimePolicy) :
    summarizePointers records catalog request policy = summarize records.reduceOption catalog request policy := by
  unfold summarizePointers summarize
  simp only [foldl_stepPointer]

/-! ### Records -/

section Records

variable {request : SummaryRequest} {records : List MeasurementRecord} {catalog : Catalog} {policy : RuntimePolicy}
  {summary : PathSummary}

theorem classCount_sum (records : List MeasurementRecord) :
    records.length = request.classCount .included records + request.classCount .otherPath records +
      request.classCount .otherSource records + request.classCount .otherGeneration records +
      request.classCount .outOfWindow records + request.classCount .stale records +
      request.classCount .conflicting records + request.classCount .unsupported records +
      request.classCount .clockDomainMismatch records := by
  induction records with
  | nil => rfl
  | cons record rest ih =>
    have hone : request.classCount .included [record] + request.classCount .otherPath [record] +
        request.classCount .otherSource [record] + request.classCount .otherGeneration [record] +
        request.classCount .outOfWindow [record] + request.classCount .stale [record] +
        request.classCount .conflicting [record] + request.classCount .unsupported [record] +
        request.classCount .clockDomainMismatch [record] = 1 := by
      unfold SummaryRequest.classCount
      cases hclass : request.classify record <;> simp [hclass]
    simp only [request.classCount_cons _ record rest, List.length_cons]
    omega

theorem length_included (records : List MeasurementRecord) :
    (request.included records).length = request.classCount .included records := by
  unfold SummaryRequest.included SummaryRequest.classCount
  rw [List.countP_eq_length_filter]

theorem included_hasValue (records : List MeasurementRecord) :
    (request.included records).filter (fun record => record.evidence.hasValue) = request.included records := by
  rw [List.filter_eq_self]
  intro record hrecord
  have hclass := (List.mem_filter.mp hrecord).2
  rw [decide_eq_true_eq] at hclass
  exact (classifyRecord_included_iff.mp hclass).2.2.2.2.2.1

/-- The counters of a summary add up, and its distribution is taken over the latencies of what it includes. -/
theorem summarize_records (h : summarize records catalog request policy = .ok summary) :
    summary.exchangesConsidered = records.length ∧
      summary.exchangesIncluded = (request.included records).length ∧
      summary.exchangesConsidered = summary.exchangesIncluded + (summary.excludedOtherPath +
        summary.excludedOtherGeneration + summary.excludedOutOfWindow + summary.excludedStale +
        summary.excludedConflicting + summary.excludedUnsupported + summary.excludedClockDomain) ∧
      aggregate ((request.included records).map MeasurementRecord.rttNs) request.histogram request.probes
        policy.limits = .ok summary.endToEnd := by
  obtain ⟨path, hops, -, -, hconclude⟩ := summarize_ok h
  obtain ⟨endToEnd, hopSummaries, hendToEnd, -, rfl⟩ := concludeSummary_ok hconclude
  have hloop := SummaryLoop.foldl_summary request (summaryStart request policy hops) records
  have hvalues := SummaryLoop.foldl_values request (summaryStart request policy hops) records
  rw [included_hasValue] at hvalues
  have hsum := @classCount_sum request records
  unfold summaryLoop at hendToEnd ⊢
  rw [hloop]
  simp only [SummaryRequest.tallied, summaryStart, Nat.zero_add, length_included]
  refine ⟨trivial, trivial, by omega, ?_⟩
  rw [hvalues] at hendToEnd
  exact hendToEnd

end Records

/-! ### Hops -/

/-- What a hop summary says of the included exchanges: at its index each has a dwell, no observation, or an
observation without a dwell. -/
structure HopSummary.Accounts (request : SummaryRequest) (limits : Limits) (included : List MeasurementRecord)
    (hop : HopSummary) : Prop where
  observed : hop.dwellsObserved = (included.filterMap (HopAccumulator.dwellOf hop.index)).length
  parts : hop.dwellsObserved + hop.dwellsMissing + hop.dwellsUnsupported = included.length
  dwells : aggregate (included.filterMap (HopAccumulator.dwellOf hop.index)) request.histogram request.probes limits =
    .ok hop.dwell
  coverage : hop.coveragePpm = 1000000 * hop.dwellsObserved / included.length

theorem outcomes_sum (index : HopIndex) (records : List MeasurementRecord) :
    (records.countP fun record => (HopAccumulator.dwellOf index record).isSome) +
      (records.countP fun record => (record.hopAt index).isNone) +
      (records.countP fun record => (record.hopAt index).any fun observation => observation.dwellNs.isNone) =
        records.length := by
  induction records with
  | nil => rfl
  | cons record rest ih =>
    rw [List.countP_cons, List.countP_cons, List.countP_cons, List.length_cons, ← ih]
    unfold HopAccumulator.dwellOf
    cases record.hopAt index with
    | none =>
      simp
      omega
    | some observation =>
      cases hdwell : observation.dwellNs <;> simp [hdwell] <;> omega

theorem concludeHop_accounts {request : SummaryRequest} {limits : Limits} {index : HopIndex} {id : HopId}
    {included : List MeasurementRecord} (hlength : included.length < 2 ^ 64) {hop : HopSummary}
    (h : concludeHop request limits
      (included.foldl (fun a record => a.observe record) (.start index id request.histogram)) = .ok hop) :
    hop.index = index ∧ hop.hop = id ∧ hop.Accounts request limits included := by
  obtain ⟨evidence, hobserved⟩ := HopAccumulator.foldl_observe included (.start index id request.histogram)
  rw [hobserved] at h
  unfold concludeHop at h
  obtain ⟨dwell, hdwell, h⟩ := bind_eq_ok_iff.mp h
  obtain ⟨queueDwell, hqueueDwell, h⟩ := bind_eq_ok_iff.mp h
  cases h
  have hparts := outcomes_sum index included
  have hcount : included.countP (fun record => (HopAccumulator.dwellOf index record).isSome) =
      (included.filterMap (HopAccumulator.dwellOf index)).length := by
    rw [List.length_filterMap_eq_countP]
  refine ⟨rfl, rfl, ?_, ?_, ?_, ?_⟩
  · simp only [HopAccumulator.measured, HopAccumulator.start, Nat.zero_add]
    exact hcount
  · simp only [HopAccumulator.measured, HopAccumulator.start, Nat.zero_add]
    exact hparts
  · simpa [HopAccumulator.measured, HopAccumulator.start] using hdwell
  · simp only [HopAccumulator.measured, HopAccumulator.start, Nat.zero_add]
    rw [ratioPpm_toNat, UInt64.toNat_ofNat', UInt64.toNat_ofNat', Nat.mod_eq_of_lt hlength, Nat.mod_eq_of_lt (by omega),
      Nat.mul_comm 1000000]
    generalize included.countP (fun record => (HopAccumulator.dwellOf index record).isSome) = seen at *
    apply Nat.min_eq_right
    apply Nat.div_le_of_le_mul
    nlinarith

theorem concludeHops_getElem? {request : SummaryRequest} {limits : Limits} {accumulators : List HopAccumulator}
    {hops : List HopSummary} (h : concludeHops request limits accumulators = .ok hops) :
    hops.length = accumulators.length ∧ ∀ (i : Nat) (a : HopAccumulator), accumulators[i]? = some a →
      ∃ hop, hops[i]? = some hop ∧ concludeHop request limits a = .ok hop := by
  induction accumulators generalizing hops with
  | nil =>
    cases h
    exact ⟨rfl, by simp⟩
  | cons first rest ih =>
    unfold concludeHops at h
    obtain ⟨hop, hfirst, h⟩ := bind_eq_ok_iff.mp h
    obtain ⟨others, hothers, h⟩ := bind_eq_ok_iff.mp h
    cases h
    obtain ⟨hlength, hrest⟩ := ih hothers
    refine ⟨by rw [List.length_cons, List.length_cons, hlength], ?_⟩
    intro i a ha
    cases i with
    | zero =>
      rw [List.getElem?_cons_zero, Option.some.injEq] at ha
      exact ⟨hop, rfl, ha ▸ hfirst⟩
    | succ i => exact hrest i a ha

theorem startHops_place {histogram : HistogramSpec} {hops : List HopId} {accumulators : List HopAccumulator}
    (h : startHops histogram 0 hops = .ok accumulators) :
    accumulators.length = hops.length ∧ ∀ (i : Nat) (id : HopId), hops[i]? = some id →
      ∃ index : HopIndex, index.value.toNat = i ∧ accumulators[i]? = some (.start index id histogram) := by
  have hbound : hops.length ≤ HopIndex.maxExclusive := by
    have := (startHops_ok_iff (Nat.zero_le _)).mp ⟨accumulators, h⟩
    omega
  have hplace : ∀ (i : Nat) (id : HopId), hops[i]? = some id →
      ∃ index : HopIndex, index.value.toNat = i ∧ accumulators[i]? = some (.start index id histogram) := by
    intro i id hid
    have hlt := (List.getElem?_eq_some_iff.mp hid).1
    obtain ⟨index, hvalid, hvalue⟩ := @fromValue_ofNat i (by omega)
    refine ⟨index, hvalue, ?_⟩
    rw [startHops_getElem? h i, hid, Nat.zero_add, hvalid]
    rfl
  refine ⟨?_, hplace⟩
  apply Nat.le_antisymm
  · apply List.getElem?_eq_none_iff.mp
    rw [startHops_getElem? h, List.getElem?_eq_none (Nat.le_refl _)]
    rfl
  · by_contra hshort
    have hlt : accumulators.length < hops.length := by omega
    obtain ⟨index, -, hsome⟩ := hplace accumulators.length _ (List.getElem?_eq_getElem hlt)
    rw [List.getElem?_eq_none (Nat.le_refl _)] at hsome
    cases hsome

/-- The declared hops stand in a summary in the order of the path, and each accounts for the included exchanges. -/
theorem summarize_hops {records : List MeasurementRecord} {catalog : Catalog} {request : SummaryRequest}
    {policy : RuntimePolicy} {summary : PathSummary} (h : summarize records catalog request policy = .ok summary)
    (hlength : records.length < 2 ^ 64) :
    ∃ path, catalog.path request.path = .ok path ∧ summary.hops.length = path.hops.length ∧
      ∀ (i : Nat) (id : HopId), path.hops[i]? = some id → ∃ hop, summary.hops[i]? = some hop ∧
        hop.index.value.toNat = i ∧ hop.hop = id ∧ hop.Accounts request policy.limits (request.included records) := by
  obtain ⟨path, accumulators, hpath, hstart, hconclude⟩ := summarize_ok h
  obtain ⟨endToEnd, hopSummaries, -, hhops, rfl⟩ := concludeSummary_ok hconclude
  unfold summaryLoop at hhops
  rw [SummaryLoop.foldl_hops] at hhops
  obtain ⟨hcount, hconcluded⟩ := concludeHops_getElem? hhops
  obtain ⟨hstarted, hplace⟩ := startHops_place hstart
  rw [List.length_map] at hcount
  have hincluded : (request.included records).length < 2 ^ 64 :=
    Nat.lt_of_le_of_lt (List.length_filter_le _ _) hlength
  refine ⟨path, hpath, hcount.trans hstarted, ?_⟩
  intro i id hid
  obtain ⟨index, hindex, hfirst⟩ := hplace i id hid
  obtain ⟨hop, hhop, hconclude⟩ := hconcluded i _ (by rw [List.getElem?_map]; exact congrArg _ hfirst)
  obtain ⟨hsame, hname, haccounts⟩ := concludeHop_accounts hincluded hconclude
  exact ⟨hop, hhop, hsame ▸ hindex, hname, haccounts⟩

/-- **A summary accounts for every record and every hop.** -/
theorem summarize_accounts {records : List (Option MeasurementRecord)} {catalog : Catalog} {request : SummaryRequest}
    {policy : RuntimePolicy} {summary : PathSummary} (h : summarizePointers records catalog request policy = .ok summary)
    (hlength : records.length < 2 ^ 64) :
    summary.exchangesConsidered = records.countP Option.isSome ∧
      summary.exchangesIncluded = (request.included records.reduceOption).length ∧
      summary.exchangesConsidered = summary.exchangesIncluded + (summary.excludedOtherPath +
        summary.excludedOtherGeneration + summary.excludedOutOfWindow + summary.excludedStale +
        summary.excludedConflicting + summary.excludedUnsupported + summary.excludedClockDomain) ∧
      aggregate ((request.included records.reduceOption).map MeasurementRecord.rttNs) request.histogram request.probes
        policy.limits = .ok summary.endToEnd ∧
      ∃ path, catalog.path request.path = .ok path ∧ summary.hops.length = path.hops.length ∧
        ∀ (i : Nat) (id : HopId), path.hops[i]? = some id → ∃ hop, summary.hops[i]? = some hop ∧
          hop.index.value.toNat = i ∧ hop.hop = id ∧
          hop.Accounts request policy.limits (request.included records.reduceOption) := by
  rw [summarizePointers_eq] at h
  have hpresent : records.reduceOption.length = records.countP Option.isSome := by
    rw [List.reduceOption_length_eq, List.countP_eq_length_filter]
  have hshort : records.reduceOption.length < 2 ^ 64 :=
    Nat.lt_of_le_of_lt (List.reduceOption_length_le records) hlength
  obtain ⟨hconsidered, hincluded, hsum, hendToEnd⟩ := summarize_records h
  exact ⟨hconsidered.trans hpresent, hincluded, hsum, hendToEnd, summarize_hops h hshort⟩

/-- The sample exchange as it is stored, with some observations of its hops. -/
def measuredExchange (hops : List HopObservation) : MeasurementRecord :=
  { Ingest.sampleRecord 1 7 with
    stamp := { observedAt := ⟨1000000, referenceClockDomain⟩, receivedAt := ⟨2000000, referenceClockDomain⟩ }
    evidence := .observedFresh
    hops := hops }

def measuredSummary : SummaryRequest :=
  { path := (Ingest.sampleRecord 1 7).path
    generation := (Ingest.sampleRecord 1 7).generation
    window := ⟨⟨0, referenceClockDomain⟩, ⟨3000000, referenceClockDomain⟩⟩ }

/-- A null pointer, an exchange with its hop observed, one without, and one of another path. -/
def mixedPointers : List (Option MeasurementRecord) :=
  [none, some (measuredExchange [{ dwellNs := some 4 }]), some (measuredExchange []),
    some { measuredExchange [] with path := .none }]

theorem mixed_summarize_accounts :
    ∃ summary, summarizePointers mixedPointers (Ingest.sampleCatalog 1) measuredSummary defaultPolicy = .ok summary ∧
      summary.exchangesConsidered = summary.exchangesIncluded + (summary.excludedOtherPath +
        summary.excludedOtherGeneration + summary.excludedOutOfWindow + summary.excludedStale +
        summary.excludedConflicting + summary.excludedUnsupported + summary.excludedClockDomain) ∧
      summary.hops.map (fun hop => (hop.dwellsObserved, hop.dwellsMissing, hop.coveragePpm)) = [(1, 1, 500000)] := by
  have hanswered : (summarizePointers mixedPointers (Ingest.sampleCatalog 1) measuredSummary defaultPolicy).map
      (fun summary => summary.hops.map fun hop => (hop.dwellsObserved, hop.dwellsMissing, hop.coveragePpm)) =
        .ok [(1, 1, 500000)] := by decide +kernel
  cases hresult : summarizePointers mixedPointers (Ingest.sampleCatalog 1) measuredSummary defaultPolicy with
  | error e =>
    rw [hresult] at hanswered
    cases hanswered
  | ok summary =>
    rw [hresult] at hanswered
    have haccounts := summarize_accounts hresult (by decide)
    exact ⟨summary, rfl, haccounts.2.2.1, Except.ok.inj hanswered⟩

end LatencyObservatory.Stats
