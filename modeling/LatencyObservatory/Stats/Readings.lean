import LatencyObservatory.Stats.Reasons

/-!
# What a hop summary is aggregated from

A hop summary looks at the observations that stand at its index in the included exchanges, whatever hop
they name themselves.
-/

namespace LatencyObservatory.Stats

open LatencyObservatory.Core LatencyObservatory.Model

/-- The observations that stand at one index of the included exchanges. -/
def SummaryRequest.readings (request : SummaryRequest) (index : HopIndex) (records : List MeasurementRecord) :
    List HopObservation :=
  (request.included records).filterMap fun record => record.hopAt index

theorem startHops_mem {histogram : HistogramSpec} {hops : List HopId} {accumulators : List HopAccumulator}
    (h : startHops histogram 0 hops = .ok accumulators) {a : HopAccumulator} (ha : a ∈ accumulators) :
    hops[a.summary.index.value.toNat]? = some a.summary.hop ∧
      a = .start a.summary.index a.summary.hop histogram := by
  have hlength : hops.length ≤ HopIndex.maxExclusive := by
    have := (startHops_ok_iff (Nat.zero_le _)).mp ⟨accumulators, h⟩
    omega
  obtain ⟨k, hk⟩ := List.getElem?_of_mem ha
  rw [startHops_getElem? h k, Nat.zero_add] at hk
  obtain ⟨hop, hhop, hk⟩ := Option.bind_eq_some_iff.mp hk
  have hlt := (List.getElem?_eq_some_iff.mp hhop).1
  obtain ⟨index, hvalid, hvalue⟩ := @fromValue_ofNat k (by omega)
  rw [hvalid] at hk
  simp only [Except.toOption, Option.map_some, Option.some.injEq] at hk
  subst hk
  refine ⟨?_, rfl⟩
  show hops[index.value.toNat]? = some hop
  rw [hvalue]
  exact hhop

theorem concludeHop_ok {request : SummaryRequest} {limits : Limits} {a : HopAccumulator} {hop : HopSummary}
    (h : concludeHop request limits a = .ok hop) :
    hop.index = a.summary.index ∧ hop.hop = a.summary.hop ∧
      aggregate a.dwells request.histogram request.probes limits = .ok hop.dwell ∧
      aggregate a.queueDwells request.histogram request.probes limits = .ok hop.queueDwell := by
  unfold concludeHop at h
  obtain ⟨dwell, hdwell, h⟩ := bind_eq_ok_iff.mp h
  obtain ⟨queueDwell, hqueueDwell, h⟩ := bind_eq_ok_iff.mp h
  cases h
  exact ⟨rfl, rfl, hdwell, hqueueDwell⟩

theorem concludeHops_mem {request : SummaryRequest} {limits : Limits} {accumulators : List HopAccumulator}
    {hops : List HopSummary} (h : concludeHops request limits accumulators = .ok hops) {hop : HopSummary}
    (hhop : hop ∈ hops) : ∃ a ∈ accumulators, concludeHop request limits a = .ok hop := by
  induction accumulators generalizing hops with
  | nil =>
    cases h
    cases hhop
  | cons a rest ih =>
    unfold concludeHops at h
    obtain ⟨first, hfirst, h⟩ := bind_eq_ok_iff.mp h
    obtain ⟨others, hothers, h⟩ := bind_eq_ok_iff.mp h
    cases h
    rcases List.mem_cons.mp hhop with rfl | hrest
    · exact ⟨a, List.mem_cons_self, hfirst⟩
    · obtain ⟨b, hb, hconclude⟩ := ih hothers hrest
      exact ⟨b, List.mem_cons_of_mem _ hb, hconclude⟩

/-- Every hop of a summary stands where the path has it, and is aggregated from the observations at its
index. -/
theorem summarize_hop {records : List MeasurementRecord} {catalog : Catalog} {request : SummaryRequest}
    {policy : RuntimePolicy} {summary : PathSummary} (h : summarize records catalog request policy = .ok summary)
    {hop : HopSummary} (hhop : hop ∈ summary.hops) :
    (∃ path, catalog.path request.path = .ok path ∧ path.hops[hop.index.value.toNat]? = some hop.hop) ∧
      aggregate ((request.readings hop.index records).filterMap HopObservation.dwellNs) request.histogram
        request.probes policy.limits = .ok hop.dwell ∧
      aggregate ((request.readings hop.index records).filterMap HopObservation.queueDwellNs) request.histogram
        request.probes policy.limits = .ok hop.queueDwell := by
  obtain ⟨path, hops, hpath, hstart, hconclude⟩ := summarize_ok h
  obtain ⟨endToEnd, hopSummaries, -, hhops, rfl⟩ := concludeSummary_ok hconclude
  obtain ⟨a, ha, hconclude⟩ := concludeHops_mem hhops hhop
  unfold summaryLoop at ha
  rw [SummaryLoop.foldl_hops, List.mem_map] at ha
  obtain ⟨started, hstarted, rfl⟩ := ha
  obtain ⟨hplace, hfresh⟩ := startHops_mem hstart hstarted
  obtain ⟨evidence, hobserved⟩ := HopAccumulator.foldl_observe (request.included records) started
  rw [hobserved] at hconclude
  obtain ⟨hindex, hid, hdwell, hqueueDwell⟩ := concludeHop_ok hconclude
  rw [hindex, hid]
  refine ⟨⟨path, hpath, hplace⟩, ?_, ?_⟩
  · rw [← hdwell, hfresh, SummaryRequest.readings, List.filterMap_filterMap]
    rfl
  · rw [← hqueueDwell, hfresh, SummaryRequest.readings, List.filterMap_filterMap]
    rfl

end LatencyObservatory.Stats
