import LatencyObservatory.Lib.Sorting
import LatencyObservatory.Stats.Loop

/-!
# Aggregation does not depend on the order of the records

What a summary says in numbers is a function of the included records as a multiset, and of their evidence
only through its state and freshness: counters count, distributions sort their values first, and the
contributing sources are kept in identity order.
-/

namespace LatencyObservatory.Stats

open LatencyObservatory.Core LatencyObservatory.Model

/-! ### Orders -/

instance : Std.Total (fun a b : Nanos => a ≤ b) := ⟨Int64.le_total⟩
instance : IsTrans Nanos (fun a b => a ≤ b) := ⟨fun _ _ _ => Int64.le_trans⟩
instance : Std.Antisymm (fun a b : Nanos => a ≤ b) := ⟨fun _ _ => Int64.le_antisymm⟩

instance : Std.Total (fun a b : SourceId => a.value ≤ b.value) := ⟨fun a b => UInt64.le_total a.value b.value⟩
instance : IsTrans SourceId (fun a b => a.value ≤ b.value) := ⟨fun _ _ _ => UInt64.le_trans⟩
instance : Std.Antisymm (fun a b : SourceId => a.value ≤ b.value) := by
  refine ⟨fun a b hab hba => ?_⟩
  obtain ⟨x⟩ := a
  obtain ⟨y⟩ := b
  exact congrArg StrongId.mk (UInt64.le_antisymm hab hba)

theorem aggregate_eq_of_perm {values values' : List Nanos} (h : values.Perm values') (spec : HistogramSpec)
    (probes : List QuantileProbe) (limits : Limits) :
    aggregate values spec probes limits = aggregate values' spec probes limits := by
  have hsorted : values.insertionSort (· ≤ ·) = values'.insertionSort (· ≤ ·) := Lib.insertionSort_eq_of_perm h
  have hempty : values.isEmpty = values'.isEmpty := by
    rw [Bool.eq_iff_iff, List.isEmpty_iff_length_eq_zero, List.isEmpty_iff_length_eq_zero, h.length_eq]
  unfold aggregate
  rw [h.length_eq, hsorted, hempty]

theorem addSource_comm (sources : List SourceId) (a b : SourceId) :
    addSource (addSource sources a) b = addSource (addSource sources b) a :=
  @Lib.insertSorted_comm SourceId (fun a b => a.value ≤ b.value) _ _ _ _ _ sources a b

theorem collectSources_eq_of_perm {first second : List MeasurementRecord}
    (h : (first.map MeasurementRecord.source).Perm (second.map MeasurementRecord.source)) (sources : List SourceId) :
    collectSources first sources = collectSources second sources := by
  have hmap : ∀ records, collectSources records sources =
      (records.map MeasurementRecord.source).foldl addSource sources := by
    intro records
    rw [collectSources, List.foldl_map]
  rw [hmap, hmap]
  exact h.foldl_eq' (fun a _ b _ sources => addSource_comm sources a b) sources

/-! ### What the aggregation reads of a record -/

/-- The record up to what no aggregated quantity depends on: the reasons and the confidence of its
evidence, and its monotonic receive time. -/
def essence (record : MeasurementRecord) : MeasurementRecord :=
  { record with
    evidence := .ofState record.evidence.state record.evidence.freshness .none
    stamp := { record.stamp with receivedMono := default } }

/-- A hop summary without its evidence. -/
def HopSummary.quantities (hop : HopSummary) : HopSummary := { hop with evidence := default }

/-- What a summary says in numbers: everything but the evidence of the path and of its hops. -/
def PathSummary.quantities (summary : PathSummary) : PathSummary :=
  { summary with
    evidence := default
    hops := summary.hops.map HopSummary.quantities }

section Essence

variable (request : SummaryRequest) {first second : List MeasurementRecord}

theorem included_essence (records : List MeasurementRecord) :
    (request.included records).map essence = request.included (records.map essence) := by
  unfold SummaryRequest.included
  rw [List.filter_map]
  rfl

theorem included_perm (h : (first.map essence).Perm (second.map essence)) :
    ((request.included first).map essence).Perm ((request.included second).map essence) := by
  rw [included_essence, included_essence]
  exact h.filter _

theorem countP_eq_of_essence (h : (first.map essence).Perm (second.map essence)) {p : MeasurementRecord → Bool}
    (hp : ∀ record, p (essence record) = p record) : first.countP p = second.countP p := by
  have hmap : ∀ records : List MeasurementRecord, records.countP p = (records.map essence).countP p := by
    intro records
    rw [List.countP_map]
    exact List.countP_congr fun record _ => by rw [Function.comp_apply, hp]
  rw [hmap first, hmap second]
  exact h.countP_eq p

theorem filterMap_perm_of_essence {β : Type} (h : (first.map essence).Perm (second.map essence))
    {f : MeasurementRecord → Option β} (hf : ∀ record, f (essence record) = f record) :
    (first.filterMap f).Perm (second.filterMap f) := by
  have hmap : ∀ records : List MeasurementRecord, records.filterMap f = (records.map essence).filterMap f := by
    intro records
    rw [List.filterMap_map]
    exact List.filterMap_congr fun record _ => (hf record).symm
  rw [hmap first, hmap second]
  exact h.filterMap f

theorem length_eq_of_essence (h : (first.map essence).Perm (second.map essence)) : first.length = second.length := by
  have := h.length_eq
  rwa [List.length_map, List.length_map] at this

theorem tallied_eq_of_essence (h : (first.map essence).Perm (second.map essence)) (summary : PathSummary) :
    request.tallied first summary = request.tallied second summary := by
  have hcount : ∀ found, request.classCount found first = request.classCount found second := by
    intro found
    exact countP_eq_of_essence h fun record => rfl
  have hsources : collectSources (request.included first) summary.contributingSources =
      collectSources (request.included second) summary.contributingSources := by
    apply collectSources_eq_of_perm
    have hperm := (included_perm request h).map MeasurementRecord.source
    rwa [List.map_map, List.map_map] at hperm
  unfold SummaryRequest.tallied
  simp only [hcount, hsources, length_eq_of_essence h]

theorem latencies_perm (h : (first.map essence).Perm (second.map essence)) :
    (((request.included first).filter fun record => record.evidence.hasValue).map MeasurementRecord.rttNs).Perm
      (((request.included second).filter fun record => record.evidence.hasValue).map MeasurementRecord.rttNs) := by
  have hmap : ∀ records : List MeasurementRecord,
      (records.filter fun record => record.evidence.hasValue).map MeasurementRecord.rttNs =
        ((records.map essence).filter fun record => record.evidence.hasValue).map MeasurementRecord.rttNs := by
    intro records
    rw [List.filter_map, List.map_map]
    rfl
  rw [hmap (request.included first), hmap (request.included second)]
  exact ((included_perm request h).filter _).map _

/-! ### Summaries -/

/-- Two hop accumulators that differ in their evidence and in the order of their values at most. -/
structure HopAccumulator.Alike (a b : HopAccumulator) : Prop where
  summary : a.summary.quantities = b.summary.quantities
  dwells : a.dwells.Perm b.dwells
  queueDwells : a.queueDwells.Perm b.queueDwells

theorem foldl_observe_alike (h : (first.map essence).Perm (second.map essence)) (a : HopAccumulator) :
    (first.foldl (fun a record => a.observe record) a).Alike (second.foldl (fun a record => a.observe record) a) := by
  obtain ⟨evidence, hfirst⟩ := a.foldl_observe first
  obtain ⟨evidence', hsecond⟩ := a.foldl_observe second
  rw [hfirst, hsecond]
  have hcount : ∀ p : MeasurementRecord → Bool, (∀ record, p (essence record) = p record) →
      first.countP p = second.countP p := fun p hp => countP_eq_of_essence h hp
  refine ⟨?_, ?_, ?_⟩
  · simp only [HopAccumulator.measured, HopSummary.quantities, length_eq_of_essence h]
    rw [hcount _ fun record => rfl, hcount _ fun record => rfl, hcount _ fun record => rfl, hcount _ fun record => rfl,
      hcount _ fun record => rfl]
  · exact (filterMap_perm_of_essence h fun record => rfl).append_left _
  · exact (filterMap_perm_of_essence h fun record => rfl).append_left _

theorem concludeHop_alike {limits : Limits} {a b : HopAccumulator} (h : a.Alike b) :
    (concludeHop request limits a).map HopSummary.quantities =
      (concludeHop request limits b).map HopSummary.quantities := by
  unfold concludeHop
  rw [aggregate_eq_of_perm h.dwells, aggregate_eq_of_perm h.queueDwells]
  cases aggregate b.dwells request.histogram request.probes limits with
  | error e => rfl
  | ok dwell =>
    cases aggregate b.queueDwells request.histogram request.probes limits with
    | error e => rfl
    | ok queueDwell =>
      -- Everything but the evidence is read off the numbers of the accumulator.
      exact congrArg (fun hop : HopSummary => Except.ok { hop with
        dwell, queueDwell
        coveragePpm := (ratioPpm (UInt64.ofNat hop.dwellsObserved) (UInt64.ofNat hop.exchangesIncluded)).toNat
        evidence := default }) h.summary

theorem concludeHops_alike (h : (first.map essence).Perm (second.map essence)) (limits : Limits)
    (hops : List HopAccumulator) :
    (concludeHops request limits (hops.map fun a => first.foldl (fun a record => a.observe record) a)).map
        (List.map HopSummary.quantities) =
      (concludeHops request limits (hops.map fun a => second.foldl (fun a record => a.observe record) a)).map
        (List.map HopSummary.quantities) := by
  induction hops with
  | nil => rfl
  | cons a rest ih =>
    have hhead := @concludeHop_alike request limits _ _ (foldl_observe_alike h a)
    simp only [List.map_cons, concludeHops] at ih ⊢
    revert hhead ih
    generalize concludeHop request limits (first.foldl (fun a record => a.observe record) a) = x
    generalize concludeHop request limits (second.foldl (fun a record => a.observe record) a) = y
    generalize concludeHops request limits (rest.map fun a => first.foldl (fun a record => a.observe record) a) = xs
    generalize concludeHops request limits (rest.map fun a => second.foldl (fun a record => a.observe record) a) = ys
    intro hrest hhead
    cases x <;> cases y <;> cases xs <;> cases ys <;>
      simp_all [Except.map, bind, Except.bind, pure, Except.pure]

theorem concludeSummary_alike (h : (first.map essence).Perm (second.map essence)) (policy : RuntimePolicy)
    (hops : List HopAccumulator) :
    (concludeSummary request policy (summaryLoop request policy hops first)).map PathSummary.quantities =
      (concludeSummary request policy (summaryLoop request policy hops second)).map PathSummary.quantities := by
  have hsummary : (summaryLoop request policy hops first).summary =
      (summaryLoop request policy hops second).summary := by
    unfold summaryLoop
    rw [SummaryLoop.foldl_summary, SummaryLoop.foldl_summary, tallied_eq_of_essence request h]
  have hvalues : (summaryLoop request policy hops first).values.Perm
      (summaryLoop request policy hops second).values := by
    unfold summaryLoop
    rw [SummaryLoop.foldl_values, SummaryLoop.foldl_values]
    exact (latencies_perm request h).append_left _
  have hhops := concludeHops_alike request (included_perm request h) policy.limits (summaryStart request policy hops).hops
  rw [← SummaryLoop.foldl_hops, ← SummaryLoop.foldl_hops] at hhops
  unfold concludeSummary
  rw [aggregate_eq_of_perm hvalues, hsummary]
  cases aggregate (summaryLoop request policy hops second).values request.histogram request.probes policy.limits with
  | error e => rfl
  | ok endToEnd =>
    unfold summaryLoop
    revert hhops
    generalize concludeHops request policy.limits
      (first.foldl (SummaryLoop.step request) (summaryStart request policy hops)).hops = x
    generalize concludeHops request policy.limits
      (second.foldl (SummaryLoop.step request) (summaryStart request policy hops)).hops = y
    intro hhops
    cases x <;> cases y <;>
      simp_all [Except.map, bind, Except.bind, pure, Except.pure, PathSummary.quantities]

/-- **Aggregation is order independent.** Two lists of records with the same essence, in any order, are
summarized to the same numbers, or refused alike. -/
theorem summarize_quantities_eq (h : (first.map essence).Perm (second.map essence)) (catalog : Catalog)
    (policy : RuntimePolicy) :
    (summarize first catalog request policy).map PathSummary.quantities =
      (summarize second catalog request policy).map PathSummary.quantities := by
  unfold summarize
  split_ifs
  · rfl
  · rfl
  · cases catalog.path request.path with
    | error e => rfl
    | ok path =>
      cases hstart : startHops request.histogram 0 path.hops with
      | error e => simp [hstart, bind, Except.bind]
      | ok hops =>
        simp only [bind, Except.bind, hstart]
        exact concludeSummary_alike request h policy hops

end Essence

end LatencyObservatory.Stats
