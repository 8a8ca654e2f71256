import LatencyObservatory.Lib.Steps
import LatencyObservatory.Stats.Summary

/-!
# What the record loop of `summarize` computes

The loop is taken apart by what it fills: each counter is the number of records of one class, and the
values, the hops, the sources and the evidence see the included records only.
-/

namespace LatencyObservatory.Stats

open LatencyObservatory.Core LatencyObservatory.Model

theorem classifyRecord_included_iff {record : MeasurementRecord} {path : PathId} {generation : GenerationId}
    {mode : AggregationMode} {window : TimeWindow} {source : SourceId} :
    classifyRecord record path generation mode window source = .included ↔
      record.path = path ∧ record.generation = generation ∧ (source.valid = true → record.source = source) ∧
        record.stamp.receivedAt.domain = window.start.domain ∧ window.contains record.stamp.receivedAt = true ∧
        record.evidence.hasValue = true ∧ (mode = .current → record.evidence.usable = true) := by
  have hguard : ∀ {c : Prop} [Decidable c] {a b : RecordClass}, a ≠ .included →
      ((if c then a else b) = .included ↔ ¬ c ∧ b = .included) := by
    intro c _ a b ha
    by_cases hc : c <;> simp [hc, ha]
  have hvalue : record.evidence.hasValue = true ↔ ¬ record.evidence.state = .conflicting ∧
      ¬ (record.evidence.state = .unsupported ∨ record.evidence.state = .refused ∨ record.evidence.state = .unknown ∨
        record.evidence.state = .missing) := by
    unfold Evidence.hasValue
    cases record.evidence.state <;> simp
  unfold classifyRecord
  rw [hguard (by decide), hguard (by decide), hguard (by decide), hguard (by decide), hguard (by decide), hvalue]
  simp only [hguard (show RecordClass.conflicting ≠ .included by decide),
    hguard (show RecordClass.unsupported ≠ .included by decide),
    hguard (show RecordClass.stale ≠ .included by decide)]
  simp only [ne_eq, not_not, not_and, Bool.not_eq_true', Bool.not_eq_false, and_true, and_assoc]

variable (request : SummaryRequest)

/-- The records that contribute to the summary. -/
def SummaryRequest.included (records : List MeasurementRecord) : List MeasurementRecord :=
  records.filter fun record => request.classify record = .included

/-- The number of records of one class. -/
def SummaryRequest.classCount (found : RecordClass) (records : List MeasurementRecord) : Nat :=
  records.countP fun record => request.classify record = found

/-- The sources of some records, collected one by one. -/
def collectSources (records : List MeasurementRecord) (sources : List SourceId) : List SourceId :=
  records.foldl (fun sources record => addSource sources record.source) sources

/-- A summary that has counted some more records. -/
def SummaryRequest.tallied (records : List MeasurementRecord) (summary : PathSummary) : PathSummary :=
  { summary with
    exchangesConsidered := summary.exchangesConsidered + records.length
    exchangesIncluded := summary.exchangesIncluded + request.classCount .included records
    excludedOtherPath := summary.excludedOtherPath + request.classCount .otherPath records +
      request.classCount .otherSource records
    excludedOtherGeneration := summary.excludedOtherGeneration + request.classCount .otherGeneration records
    excludedOutOfWindow := summary.excludedOutOfWindow + request.classCount .outOfWindow records
    excludedStale := summary.excludedStale + request.classCount .stale records
    excludedConflicting := summary.excludedConflicting + request.classCount .conflicting records
    excludedUnsupported := summary.excludedUnsupported + request.classCount .unsupported records
    excludedClockDomain := summary.excludedClockDomain + request.classCount .clockDomainMismatch records
    contributingSources := collectSources (request.included records) summary.contributingSources }

theorem SummaryRequest.classCount_cons (found : RecordClass) (record : MeasurementRecord)
    (records : List MeasurementRecord) :
    request.classCount found (record :: records) =
      request.classCount found [record] + request.classCount found records := by
  unfold SummaryRequest.classCount
  rw [List.countP_cons, List.countP_cons, List.countP_nil]
  omega

theorem SummaryRequest.included_cons (record : MeasurementRecord) (records : List MeasurementRecord) :
    request.included (record :: records) = request.included [record] ++ request.included records := by
  unfold SummaryRequest.included
  rw [List.filter_cons, List.filter_cons]
  split_ifs <;> rfl

theorem SummaryRequest.tallied_cons (record : MeasurementRecord) (records : List MeasurementRecord)
    (summary : PathSummary) :
    request.tallied (record :: records) summary = request.tallied records (request.tallied [record] summary) := by
  unfold SummaryRequest.tallied
  simp only [request.classCount_cons _ record records, request.included_cons record records, collectSources,
    List.foldl_append, List.length_cons, List.length_nil]
  congr 1 <;> omega

namespace SummaryLoop

variable (s : SummaryLoop) (record : MeasurementRecord) (records : List MeasurementRecord)

theorem step_summary : (step request s record).summary = request.tallied [record] s.summary := by
  unfold step SummaryRequest.tallied SummaryRequest.classCount SummaryRequest.included
  cases hclass : request.classify record <;> simp [hclass, exclude, contribute, collectSources]

theorem foldl_summary : (records.foldl (step request) s).summary = request.tallied records s.summary := by
  induction records generalizing s with
  | nil => simp [SummaryRequest.tallied, SummaryRequest.classCount, SummaryRequest.included, collectSources]
  | cons record rest ih => rw [List.foldl_cons, ih, step_summary, ← request.tallied_cons]

theorem foldl_values :
    (records.foldl (step request) s).values =
      s.values ++ ((request.included records).filter fun record => record.evidence.hasValue).map
        MeasurementRecord.rttNs := by
  have hselected := @Lib.foldl_selected _ _ (step request) _ SummaryLoop.values
    (fun record => request.classify record = .included)
    (fun values record => if record.evidence.hasValue then values ++ [record.rttNs] else values) ?_ s records
  · rw [hselected, SummaryRequest.included]
    generalize records.filter _ = chosen
    generalize s.values = values
    induction chosen generalizing values with
    | nil => simp
    | cons record rest ih =>
      rw [List.foldl_cons, ih, List.filter_cons]
      split_ifs <;> simp
  · intro s record
    unfold step
    cases request.classify record <;> simp [contribute]

theorem foldl_hops :
    (records.foldl (step request) s).hops =
      s.hops.map fun a => (request.included records).foldl (fun a record => a.observe record) a := by
  have hselected := @Lib.foldl_selected _ _ (step request) _ SummaryLoop.hops
    (fun record => request.classify record = .included)
    (fun hops record => hops.map (HopAccumulator.observe record)) ?_ s records
  · rw [hselected, SummaryRequest.included]
    generalize records.filter _ = chosen
    generalize s.hops = hops
    induction chosen generalizing hops with
    | nil => simp
    | cons record rest ih =>
      rw [List.foldl_cons, ih, List.map_map]
      rfl
  · intro s record
    unfold step
    cases request.classify record <;> simp [contribute]

theorem foldl_sawAny :
    (records.foldl (step request) s).sawAny = (s.sawAny || !(request.included records).isEmpty) := by
  have hselected := @Lib.foldl_selected _ _ (step request) _ SummaryLoop.sawAny
    (fun record => request.classify record = .included) (fun _ _ => true) ?_ s records
  · rw [hselected, SummaryRequest.included]
    generalize records.filter _ = chosen
    generalize s.sawAny = saw
    cases chosen with
    | nil => simp
    | cons record rest =>
      have hrest := @Lib.foldl_inv _ _ (fun (_ : Bool) (_ : MeasurementRecord) => true) (· = true)
        (fun _ _ _ => rfl) true rfl rest
      rw [List.foldl_cons, hrest]
      simp
  · intro s record
    unfold step
    cases request.classify record <;> simp [contribute]

end SummaryLoop

/-! ### The hops -/

namespace HopAccumulator

/-- What the hop's observation contributes: nothing if there is none, or if it has no dwell. -/
def dwellOf (index : HopIndex) (record : MeasurementRecord) : Option Nanos :=
  (record.hopAt index).bind HopObservation.dwellNs

def queueDwellOf (index : HopIndex) (record : MeasurementRecord) : Option Nanos :=
  (record.hopAt index).bind HopObservation.queueDwellNs

/-- The observation names a queue whose residency is not known. -/
def queueUnsupported (observation : HopObservation) : Bool :=
  observation.queueDwellNs.isNone && observation.queue.valid

/-- A hop that has observed some more exchanges, up to its evidence. -/
def measured (records : List MeasurementRecord) (a : HopAccumulator) (evidence : Evidence) : HopAccumulator where
  summary := { a.summary with
    exchangesIncluded := a.summary.exchangesIncluded + records.length
    dwellsObserved := a.summary.dwellsObserved + records.countP fun record =>
      (dwellOf a.summary.index record).isSome
    dwellsMissing := a.summary.dwellsMissing + records.countP fun record =>
      (record.hopAt a.summary.index).isNone
    dwellsUnsupported := a.summary.dwellsUnsupported + records.countP fun record =>
      (record.hopAt a.summary.index).any fun observation => observation.dwellNs.isNone
    queueDwellsObserved := a.summary.queueDwellsObserved + records.countP fun record =>
      (queueDwellOf a.summary.index record).isSome
    queueDwellsUnsupported := a.summary.queueDwellsUnsupported + records.countP fun record =>
      (record.hopAt a.summary.index).any queueUnsupported
    evidence := evidence }
  dwells := a.dwells ++ records.filterMap (dwellOf a.summary.index)
  queueDwells := a.queueDwells ++ records.filterMap (queueDwellOf a.summary.index)

theorem observe_eq (record : MeasurementRecord) (a : HopAccumulator) :
    a.observe record = a.measured [record] (a.observe record).summary.evidence := by
  unfold observe measured dwellOf queueDwellOf
  cases hhop : record.hopAt a.summary.index with
  | none => simp [missing, hhop]
  | some observation =>
    cases hdwell : observation.dwellNs <;> cases hqueue : observation.queueDwellNs <;>
      by_cases hvalid : observation.queue.valid = true <;>
      simp [dwell, queueDwell, hhop, hdwell, hqueue, hvalid, queueUnsupported]

theorem foldl_observe (records : List MeasurementRecord) (a : HopAccumulator) :
    ∃ evidence, records.foldl (fun a record => a.observe record) a = a.measured records evidence := by
  induction records generalizing a with
  | nil => exact ⟨a.summary.evidence, by simp [measured]⟩
  | cons record rest ih =>
    obtain ⟨evidence, hrest⟩ := ih (a.observe record)
    refine ⟨evidence, ?_⟩
    rw [List.foldl_cons, hrest, observe_eq]
    show _ = a.measured ([record] ++ rest) evidence
    simp only [measured, List.length_append, List.countP_append, List.filterMap_append, Nat.add_assoc,
      List.append_assoc]

end HopAccumulator

/-! ### The result -/

/-- The loop over all records. -/
def summaryLoop (policy : RuntimePolicy) (hops : List HopAccumulator) (records : List MeasurementRecord) :
    SummaryLoop :=
  records.foldl (SummaryLoop.step request) (summaryStart request policy hops)

section Result

variable {request} {records : List MeasurementRecord} {catalog : Catalog} {policy : RuntimePolicy}
  {summary : PathSummary}

theorem summarize_ok (h : summarize records catalog request policy = .ok summary) :
    ∃ path hops, catalog.path request.path = .ok path ∧ startHops request.histogram 0 path.hops = .ok hops ∧
      concludeSummary request policy (summaryLoop request policy hops records) = .ok summary := by
  unfold summarize at h
  obtain ⟨-, h⟩ := guard_eq_ok_iff.mp h
  obtain ⟨path, hpath, h⟩ := bind_eq_ok_iff.mp h
  obtain ⟨-, h⟩ := guard_eq_ok_iff.mp h
  obtain ⟨hops, hhops, h⟩ := bind_eq_ok_iff.mp h
  exact ⟨path, hops, hpath, hhops, h⟩

theorem concludeSummary_ok {s : SummaryLoop} (h : concludeSummary request policy s = .ok summary) :
    ∃ endToEnd hops, aggregate s.values request.histogram request.probes policy.limits = .ok endToEnd ∧
      concludeHops request policy.limits s.hops = .ok hops ∧
      summary = { s.summary with endToEnd, hops, evidence := s.concludeEvidence } := by
  unfold concludeSummary at h
  obtain ⟨endToEnd, hendToEnd, h⟩ := bind_eq_ok_iff.mp h
  obtain ⟨hops, hhops, h⟩ := bind_eq_ok_iff.mp h
  simp only [pure, Except.pure, Except.ok.injEq] at h
  exact ⟨endToEnd, hops, hendToEnd, hhops, h.symm⟩

theorem summarize_counters (h : summarize records catalog request policy = .ok summary) :
    summary.exchangesIncluded = request.classCount .included records ∧
      summary.excludedStale = request.classCount .stale records ∧
      summary.excludedConflicting = request.classCount .conflicting records ∧
      summary.excludedUnsupported = request.classCount .unsupported records := by
  obtain ⟨path, hops, -, -, hconclude⟩ := summarize_ok h
  obtain ⟨endToEnd, hopSummaries, -, -, rfl⟩ := concludeSummary_ok hconclude
  have hloop := SummaryLoop.foldl_summary request (summaryStart request policy hops) records
  unfold summaryLoop
  rw [hloop]
  simp [SummaryRequest.tallied, summaryStart]

theorem summarize_path (h : summarize records catalog request policy = .ok summary) : summary.path = request.path := by
  obtain ⟨path, hops, -, -, hconclude⟩ := summarize_ok h
  obtain ⟨endToEnd, hopSummaries, -, -, rfl⟩ := concludeSummary_ok hconclude
  have hloop := SummaryLoop.foldl_summary request (summaryStart request policy hops) records
  show (summaryLoop request policy hops records).summary.path = request.path
  unfold summaryLoop
  rw [hloop]
  rfl

end Result

end LatencyObservatory.Stats
