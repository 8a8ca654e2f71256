import LatencyObservatory.Runtime.Queries
import LatencyObservatory.Stats.Reasons

/-!
# When a summary does not depend on the order of the records

The numbers never do. The evidence does not either as long as its reasons fit the cap and the reasons for
undeclared hops, which are added after each merge, end up where sorting would put them.
-/

namespace LatencyObservatory.Stats

open LatencyObservatory.Core LatencyObservatory.Model

/-! ### Requests that are answered -/

/-- The request is answered: its window, path and generation are good, the path is not too long, and the
aggregation limits are kept. -/
structure Answerable (records : List MeasurementRecord) (catalog : Catalog) (request : SummaryRequest)
    (policy : RuntimePolicy) (path : PathDef) : Prop where
  window : request.window.valid = true
  found : catalog.path request.path = .ok path
  generation : request.generation.valid = true
  hops : path.hops.length ≤ HopIndex.maxExclusive
  samples : (request.included records).length ≤ policy.limits.maxSamplesPerPath
  probes : request.probes.length ≤ policy.limits.maxQuantileProbes

theorem aggregate_ok_iff {values : List Nanos} {spec : HistogramSpec} {probes : List QuantileProbe} {limits : Limits} :
    (∃ distribution, aggregate values spec probes limits = .ok distribution) ↔
      values.length ≤ limits.maxSamplesPerPath ∧ probes.length ≤ limits.maxQuantileProbes := by
  unfold aggregate
  constructor
  · rintro ⟨distribution, h⟩
    obtain ⟨hvalues, h⟩ := guard_eq_ok_iff.mp h
    obtain ⟨hprobes, -⟩ := guard_eq_ok_iff.mp h
    omega
  · rintro ⟨hvalues, hprobes⟩
    rw [if_neg (by omega), if_neg (by omega)]
    split_ifs
    · exact ⟨_, rfl⟩
    · exact ⟨_, rfl⟩

theorem concludeHops_ok {request : SummaryRequest} {limits : Limits} {accumulators : List HopAccumulator}
    (h : ∀ a ∈ accumulators, a.dwells.length ≤ limits.maxSamplesPerPath ∧
      a.queueDwells.length ≤ limits.maxSamplesPerPath) (hprobes : request.probes.length ≤ limits.maxQuantileProbes) :
    ∃ hops, concludeHops request limits accumulators = .ok hops := by
  induction accumulators with
  | nil => exact ⟨[], rfl⟩
  | cons a rest ih =>
    obtain ⟨hdwells, hqueueDwells⟩ := h a List.mem_cons_self
    obtain ⟨hops, hrest⟩ := ih fun b hb => h b (List.mem_cons_of_mem _ hb)
    obtain ⟨dwell, hdwell⟩ := (@aggregate_ok_iff _ request.histogram _ _).mpr ⟨hdwells, hprobes⟩
    obtain ⟨queueDwell, hqueueDwell⟩ := (@aggregate_ok_iff _ request.histogram _ _).mpr ⟨hqueueDwells, hprobes⟩
    refine ⟨_, bind_eq_ok_iff.mpr ⟨_, bind_eq_ok_iff.mpr ⟨dwell, hdwell, bind_eq_ok_iff.mpr ⟨queueDwell, hqueueDwell,
      rfl⟩⟩, bind_eq_ok_iff.mpr ⟨hops, hrest, rfl⟩⟩⟩

section Answers

variable {records : List MeasurementRecord} {catalog : Catalog} {request : SummaryRequest} {policy : RuntimePolicy}
  {path : PathDef}

theorem summaryLoop_values (hops : List HopAccumulator) :
    (summaryLoop request policy hops records).values = (request.included records).map MeasurementRecord.rttNs := by
  unfold summaryLoop
  rw [SummaryLoop.foldl_values]
  have hall : (request.included records).filter (fun record => record.evidence.hasValue) =
      request.included records := by
    rw [List.filter_eq_self]
    intro record hrecord
    -- An included exchange always has a latency.
    have hclass : request.classify record = .included := by simpa using (List.mem_filter.mp hrecord).2
    exact (classifyRecord_included_iff.mp hclass).2.2.2.2.2.1
  rw [hall]
  rfl

theorem summaryLoop_hops (hops : List HopAccumulator) :
    (summaryLoop request policy hops records).hops =
      hops.map fun a => (request.included records).foldl (fun a record => a.observe record) a :=
  SummaryLoop.foldl_hops request _ records

theorem answered_of_ok {summary : PathSummary} (h : summarize records catalog request policy = .ok summary) :
    ∃ path, Answerable records catalog request policy path := by
  have hrefused := h
  unfold summarize at hrefused
  obtain ⟨hwindow, hrefused⟩ := guard_eq_ok_iff.mp hrefused
  obtain ⟨path, hpath, hrefused⟩ := bind_eq_ok_iff.mp hrefused
  obtain ⟨hgeneration, hrefused⟩ := guard_eq_ok_iff.mp hrefused
  obtain ⟨hops, hhops, hrefused⟩ := bind_eq_ok_iff.mp hrefused
  obtain ⟨endToEnd, summaries, haggregate, -, -⟩ := concludeSummary_ok hrefused
  obtain ⟨hsamples, hprobes⟩ := aggregate_ok_iff.mp ⟨endToEnd, haggregate⟩
  have hvalues := @summaryLoop_values records request policy hops
  unfold summaryLoop at hvalues
  rw [hvalues, List.length_map] at hsamples
  have hlength := (startHops_ok_iff (Nat.zero_le _)).mp ⟨hops, hhops⟩
  exact ⟨path, by simpa using hwindow, hpath, by simpa using hgeneration, by omega, hsamples, hprobes⟩

theorem summarize_of_answerable (h : Answerable records catalog request policy path) :
    ∃ hops summary, startHops request.histogram 0 path.hops = .ok hops ∧
      summarize records catalog request policy = .ok summary ∧
      concludeSummary request policy (summaryLoop request policy hops records) = .ok summary := by
  obtain ⟨hops, hhops⟩ := (@startHops_ok_iff request.histogram 0 path.hops (Nat.zero_le _)).mpr
    (by have := h.hops; omega)
  obtain ⟨endToEnd, haggregate⟩ := (@aggregate_ok_iff (summaryLoop request policy hops records).values
    request.histogram _ _).mpr ⟨by rw [summaryLoop_values, List.length_map]; exact h.samples, h.probes⟩
  have hsmall : ∀ a ∈ (summaryLoop request policy hops records).hops,
      a.dwells.length ≤ policy.limits.maxSamplesPerPath ∧ a.queueDwells.length ≤ policy.limits.maxSamplesPerPath := by
    intro a ha
    rw [summaryLoop_hops] at ha
    obtain ⟨start, hstart, rfl⟩ := List.mem_map.mp ha
    obtain ⟨k, hk⟩ := List.getElem?_of_mem hstart
    rw [startHops_getElem? hhops k] at hk
    obtain ⟨hop, -, hk⟩ := Option.bind_eq_some_iff.mp hk
    obtain ⟨index, -, rfl⟩ := Option.map_eq_some_iff.mp hk
    obtain ⟨evidence, hmeasured⟩ := (HopAccumulator.start index hop request.histogram).foldl_observe
      (request.included records)
    rw [hmeasured]
    have hbound : ∀ f : MeasurementRecord → Option Nanos,
        (([] : List Nanos) ++ (request.included records).filterMap f).length ≤ policy.limits.maxSamplesPerPath := by
      intro f
      rw [List.nil_append]
      exact (List.length_filterMap_le f _).trans h.samples
    exact ⟨hbound _, hbound _⟩
  obtain ⟨summaries, hsummaries⟩ := concludeHops_ok hsmall h.probes
  have hconclude : concludeSummary request policy (summaryLoop request policy hops records) = .ok _ :=
    bind_eq_ok_iff.mpr ⟨endToEnd, haggregate, bind_eq_ok_iff.mpr ⟨summaries, hsummaries, rfl⟩⟩
  refine ⟨hops, _, hhops, ?_, hconclude⟩
  unfold summarize
  exact guard_eq_ok_iff.mpr ⟨by simp [h.window], bind_eq_ok_iff.mpr ⟨path, h.found,
    guard_eq_ok_iff.mpr ⟨by simp [h.generation], bind_eq_ok_iff.mpr ⟨hops, hhops, hconclude⟩⟩⟩⟩

end Answers

/-! ### Other orders -/

/-- The evidence over these exchanges does not depend on their order. On each hop their reasons fit the
cap. For the path, unless there is at most one exchange, all reasons together fit, and whichever exchange
comes last, the undeclared hops that only it has are in order, after all other reasons. -/
structure Settled (path : PathDef) (exchanges : List MeasurementRecord) : Prop where
  hops : ∀ position hop index, path.hops[position]? = some hop →
    HopIndex.fromValue (UInt32.ofNat position) = .ok index →
    (Evidence.reasonSet (exchanges.map fun record => (hopEvidence index hop record, []))).card ≤ maxReasons
  together : exchanges.length ≤ 1 ∨
    ((Evidence.reasonSet (exchanges.map (pathContribution path))).card ≤ maxReasons ∧
      Evidence.InOrder (exchanges.map (pathContribution path)))

theorem reasonSet_hopContributions (index : HopIndex) (hop : HopId) (records : List MeasurementRecord) :
    Evidence.reasonSet (records.flatMap (hopContributions index hop)) =
      Evidence.reasonSet (records.map fun record => (hopEvidence index hop record, [])) := by
  have hmem : ∀ record c, c ∈ hopContributions index hop record ↔ c = (hopEvidence index hop record, []) := by
    intro record c
    unfold hopContributions
    split_ifs <;> simp
  ext reason
  simp only [Evidence.mem_reasonSet, List.mem_flatMap, List.mem_map, hmem]
  constructor
  · rintro ⟨c, ⟨record, hrecord, rfl⟩, hreason⟩
    exact ⟨_, ⟨record, hrecord, rfl⟩, hreason⟩
  · rintro ⟨c, ⟨record, hrecord, rfl⟩, hreason⟩
    exact ⟨_, ⟨record, hrecord, rfl⟩, hreason⟩

theorem hopContributions_bare (index : HopIndex) (hop : HopId) (records : List MeasurementRecord) :
    ∀ c ∈ records.flatMap (hopContributions index hop), c.2 = [] := by
  intro c hc
  obtain ⟨record, -, hc⟩ := List.mem_flatMap.mp hc
  unfold hopContributions at hc
  split_ifs at hc <;> simp_all

section Permuted

variable {records other : List MeasurementRecord} {catalog : Catalog} {request : SummaryRequest}
  {policy : RuntimePolicy} {path : PathDef}

theorem exists_included {chosen : List MeasurementRecord} (h : chosen.Perm (request.included records)) :
    ∃ other, other.Perm records ∧ request.included other = chosen := by
  refine ⟨chosen ++ records.filter fun record => !decide (request.classify record = .included), ?_, ?_⟩
  · exact (h.append_right _).trans (List.filter_append_perm _ records)
  · have hchosen : ∀ record ∈ chosen, request.classify record = .included := by
      intro record hrecord
      have := List.mem_filter.mp (h.mem_iff.mp hrecord)
      simpa using this.2
    unfold SummaryRequest.included
    rw [List.filter_append, List.filter_eq_self.mpr fun record hrecord => by simpa using hchosen record hrecord,
      List.filter_filter]
    have hnone : records.filter (fun record => decide (request.classify record = .included) &&
        !decide (request.classify record = .included)) = [] := by
      rw [List.filter_eq_nil_iff]
      intro record _
      simp
    rw [hnone, List.append_nil]

theorem concludeHop_eq {limits : Limits} {a b : HopAccumulator} (h : a.Alike b)
    (hevidence : a.summary.evidence = b.summary.evidence) :
    concludeHop request limits a = concludeHop request limits b := by
  have hsummary : a.summary = b.summary := by
    have hfull := congrArg (fun hop : HopSummary => { hop with evidence := a.summary.evidence }) h.summary
    rw [hevidence] at hfull
    exact (congrArg (fun e => { a.summary with evidence := e }) hevidence).trans hfull
  unfold concludeHop
  rw [aggregate_eq_of_perm h.dwells, aggregate_eq_of_perm h.queueDwells, hsummary]

theorem concludeHops_eq {limits : Limits} {as bs : List HopAccumulator}
    (h : List.Forall₂ (fun a b => concludeHop request limits a = concludeHop request limits b) as bs) :
    concludeHops request limits as = concludeHops request limits bs := by
  induction h with
  | nil => rfl
  | cons hhead _ ih =>
    unfold concludeHops
    rw [hhead, ih]

theorem concludeSummary_eq {s s' : SummaryLoop} (hsummary : s.summary = s'.summary)
    (hvalues : s.values.Perm s'.values)
    (hhops : concludeHops request policy.limits s.hops = concludeHops request policy.limits s'.hops)
    (hevidence : s.evidence = s'.evidence) (hsaw : s.sawAny = s'.sawAny) :
    concludeSummary request policy s = concludeSummary request policy s' := by
  unfold concludeSummary SummaryLoop.concludeEvidence
  rw [aggregate_eq_of_perm hvalues, hsummary, hhops, hevidence, hsaw]

theorem eq_of_perm_of_few {α : Type} {l l' : List α} (h : l'.Perm l) (hfew : l.length ≤ 1) : l' = l := by
  cases l with
  | nil => exact h.eq_nil
  | cons a rest =>
    have hrest : rest = [] := by
      rw [List.length_cons] at hfew
      exact List.length_eq_zero_iff.mp (by omega)
    subst hrest
    exact List.perm_singleton.mp h

theorem pathEvidence_eq {exchanges exchanges' : List MeasurementRecord} (hperm : exchanges'.Perm exchanges)
    (h : Settled path exchanges) :
    (exchanges'.map (pathContribution path)).foldl Evidence.absorb (.observed .fresh .high) =
      (exchanges.map (pathContribution path)).foldl Evidence.absorb (.observed .fresh .high) := by
  rcases h.together with hfew | ⟨hfits, horder⟩
  · -- One exchange has one order.
    rw [eq_of_perm_of_few hperm hfew]
  · exact Evidence.foldl_absorb_eq_of_perm rfl (hperm.map _) hfits horder

theorem summarize_eq_of_settled (hperm : other.Perm records) (hanswer : Answerable records catalog request policy path)
    (h : Settled path (request.included records)) :
    summarize other catalog request policy = summarize records catalog request policy := by
  have hincluded : (request.included other).Perm (request.included records) := hperm.filter _
  have hanswer' : Answerable other catalog request policy path :=
    { hanswer with samples := hincluded.length_eq ▸ hanswer.samples }
  obtain ⟨hops, summary, hhops, hsummary, hconclude⟩ := summarize_of_answerable hanswer
  obtain ⟨hops', summary', hhops', hsummary', hconclude'⟩ := summarize_of_answerable hanswer'
  have hsame : hops' = hops := by
    rw [hhops] at hhops'
    exact (Except.ok.inj hhops').symm
  subst hsame
  rw [hsummary, hsummary', ← hconclude, ← hconclude']
  have hessence : (other.map essence).Perm (records.map essence) := hperm.map _
  apply concludeSummary_eq
  · unfold summaryLoop
    rw [SummaryLoop.foldl_summary, SummaryLoop.foldl_summary, tallied_eq_of_essence request hessence]
  · rw [summaryLoop_values, summaryLoop_values]
    exact hincluded.map _
  · rw [summaryLoop_hops, summaryLoop_hops]
    apply concludeHops_eq
    rw [List.forall₂_map_left_iff, List.forall₂_map_right_iff, List.forall₂_same]
    intro a ha
    apply concludeHop_eq
    · exact foldl_observe_alike (hincluded.map essence) a
    · obtain ⟨k, hk⟩ := List.getElem?_of_mem ha
      rw [startHops_getElem? hhops k, Nat.zero_add] at hk
      obtain ⟨hop, hhop, hk⟩ := Option.bind_eq_some_iff.mp hk
      obtain ⟨index, hindex, rfl⟩ := Option.map_eq_some_iff.mp hk
      have hvalid : HopIndex.fromValue (UInt32.ofNat k) = .ok index := by
        revert hindex
        cases HopIndex.fromValue (UInt32.ofNat k) <;> simp [Except.toOption]
      rw [foldl_observe_evidence, foldl_observe_evidence]
      apply Evidence.foldl_absorb_eq_of_perm rfl
      · exact hincluded.flatMap_right _
      · rw [reasonSet_hopContributions]
        exact h.hops k hop index hhop hvalid
      · exact Evidence.inOrder_of_bare (hopContributions_bare _ _ _)
  · rw [summaryLoop_evidence hhops, summaryLoop_evidence hhops]
    exact pathEvidence_eq hincluded h
  · unfold summaryLoop
    rw [SummaryLoop.foldl_sawAny, SummaryLoop.foldl_sawAny]
    have hempty : (request.included other).isEmpty = (request.included records).isEmpty := by
      rw [Bool.eq_iff_iff, List.isEmpty_iff_length_eq_zero, List.isEmpty_iff_length_eq_zero, hincluded.length_eq]
    rw [hempty]

/-! ### What equal summaries say about the evidence -/

theorem concludeHopEvidence_subset (hop : HopSummary) : hop.evidence.reasons ⊆ (concludeHopEvidence hop).reasons := by
  unfold concludeHopEvidence
  split_ifs
  · exact Evidence.merge_subset _ _
  · exact Evidence.merge_subset _ _
  · exact (Evidence.addReasons_kept (hop.evidence.setState .incomplete) [⟨.partialCoverage, hop.hop.toHex⟩]).subset
  · exact List.Subset.refl _

theorem concludeHops_evidence {limits : Limits} {accumulators : List HopAccumulator} {hops : List HopSummary}
    (h : concludeHops request limits accumulators = .ok hops) :
    hops.map HopSummary.evidence = accumulators.map fun a => concludeHopEvidence a.summary := by
  induction accumulators generalizing hops with
  | nil =>
    simp only [concludeHops, Except.ok.injEq] at h
    rw [← h]
    rfl
  | cons a rest ih =>
    unfold concludeHops at h
    obtain ⟨hop, hhop, h⟩ := bind_eq_ok_iff.mp h
    obtain ⟨tail, htail, h⟩ := bind_eq_ok_iff.mp h
    unfold concludeHop at hhop
    obtain ⟨dwell, -, hhop⟩ := bind_eq_ok_iff.mp hhop
    obtain ⟨queueDwell, -, hhop⟩ := bind_eq_ok_iff.mp hhop
    simp only [pure, Except.pure, Except.ok.injEq] at h hhop
    rw [← h, ← hhop, List.map_cons, List.map_cons, ih htail]

/-- The reasons added to the evidence of the path once all exchanges are seen. -/
def closingReasons (summary : PathSummary) : List Reason :=
  (if summary.excludedStale ≠ 0 then [⟨.evidenceStale, decimal summary.excludedStale⟩] else []) ++
    [⟨.aggregateDeterministic, []⟩]

theorem concludeEvidence_eq {s : SummaryLoop} (h : s.sawAny = true) :
    s.concludeEvidence = s.evidence.addReasons (closingReasons s.summary) := by
  unfold SummaryLoop.concludeEvidence closingReasons
  rw [if_pos h]
  split_ifs <;> rfl

theorem hopContributions_cons (index : HopIndex) (hop : HopId) (record : MeasurementRecord) :
    ∃ tail, hopContributions index hop record = (hopEvidence index hop record, []) :: tail := by
  unfold hopContributions
  split_ifs
  · exact ⟨_, rfl⟩
  · exact ⟨_, rfl⟩

section Agreeing

variable (h : ∀ other : List MeasurementRecord, other.Perm records →
  summarize other catalog request policy = summarize records catalog request policy)
  (hanswer : Answerable records catalog request policy path)
include h hanswer

theorem concluded_of_agree : ∃ hops summary, startHops request.histogram 0 path.hops = .ok hops ∧
    ∀ chosen : List MeasurementRecord, chosen.Perm (request.included records) → ∃ other, request.included other = chosen ∧
      concludeSummary request policy (summaryLoop request policy hops other) = .ok summary := by
  obtain ⟨hops, summary, hhops, hsummary, -⟩ := summarize_of_answerable hanswer
  refine ⟨hops, summary, hhops, ?_⟩
  intro chosen hchosen
  obtain ⟨other, hperm, hincluded⟩ := exists_included hchosen
  refine ⟨other, hincluded, ?_⟩
  have hanswer' : Answerable other catalog request policy path :=
    { hanswer with samples := by rw [hincluded, hchosen.length_eq]; exact hanswer.samples }
  obtain ⟨hops', summary', hhops', hsummary', hconclude⟩ := summarize_of_answerable hanswer'
  rw [hhops] at hhops'
  rw [h other hperm, hsummary] at hsummary'
  rw [Except.ok.inj hhops', Except.ok.inj hsummary']
  exact hconclude

theorem hops_fit_of_agree {position : Nat} {hop : HopId} {index : HopIndex} (hhop : path.hops[position]? = some hop)
    (hindex : HopIndex.fromValue (UInt32.ofNat position) = .ok index) :
    (Evidence.reasonSet ((request.included records).map fun record => (hopEvidence index hop record, []))).card ≤
      maxReasons := by
  obtain ⟨hops, summary, hhops, hconcluded⟩ := concluded_of_agree h hanswer
  have hstart : hops[position]? = some (.start index hop request.histogram) := by
    rw [startHops_getElem? hhops position, hhop, Nat.zero_add, hindex]
    rfl
  -- The evidence of the hop in the common summary, for any order of the exchanges.
  have hfinal : ∀ chosen : List MeasurementRecord, chosen.Perm (request.included records) →
      (summary.hops.map HopSummary.evidence)[position]? = some (concludeHopEvidence
        (chosen.foldl (fun a record => a.observe record)
          (HopAccumulator.start index hop request.histogram)).summary) := by
    intro chosen hchosen
    obtain ⟨other, hincluded, hconclude⟩ := hconcluded chosen hchosen
    obtain ⟨endToEnd, summaries, -, hsummaries, hsummary⟩ := concludeSummary_ok hconclude
    have hhopsOf : summary.hops = summaries := by rw [hsummary]
    rw [hhopsOf, concludeHops_evidence hsummaries, summaryLoop_hops, hincluded, List.map_map, List.getElem?_map, hstart]
    rfl
  have hown := hfinal _ (List.Perm.refl _)
  apply @Evidence.reasonSet_fits (.observed .fresh .high) rfl _ (concludeHopEvidence
    ((request.included records).foldl (fun a record => a.observe record)
      (HopAccumulator.start index hop request.histogram)).summary)
  intro c hc
  obtain ⟨record, hrecord, rfl⟩ := List.mem_map.mp hc
  obtain ⟨tail, htail⟩ := hopContributions_cons index hop record
  have hother := hfinal _ (List.perm_cons_erase hrecord).symm
  rw [hown, Option.some.injEq] at hother
  refine ⟨tail ++ ((request.included records).erase record).flatMap (hopContributions index hop), ?_⟩
  rw [hother]
  apply List.Subset.trans ?_ (concludeHopEvidence_subset _)
  rw [foldl_observe_evidence]
  show _ ⊆ (((record :: (request.included records).erase record).flatMap (hopContributions index hop)).foldl
    Evidence.absorb (.observed .fresh .high)).reasons
  rw [List.flatMap_cons, htail]
  exact List.Subset.refl _

/-- In any order of the contributions, the reasons of the fold are the first of the summary's. -/
theorem path_prefix_of_agree : ∃ final : Evidence, ∀ images : List (Evidence × List Reason),
    images.Perm ((request.included records).map (pathContribution path)) → images ≠ [] →
      (images.foldl Evidence.absorb (.observed .fresh .high)).reasons <+: final.reasons := by
  obtain ⟨hops, summary, hhops, hconcluded⟩ := concluded_of_agree h hanswer
  refine ⟨summary.evidence, ?_⟩
  intro images himages hsome
  obtain ⟨chosen, rfl, hchosen⟩ : ∃ chosen : List MeasurementRecord, images = chosen.map (pathContribution path) ∧
      chosen.Perm (request.included records) := by
    have hcomp := congrFun (congrFun (List.eq_map_comp_perm (pathContribution path)) images) (request.included records)
    exact hcomp.mpr himages
  obtain ⟨other, hincluded, hconclude⟩ := hconcluded chosen hchosen
  obtain ⟨endToEnd, summaries, -, -, hsummary⟩ := concludeSummary_ok hconclude
  have hsaw : (summaryLoop request policy hops other).sawAny = true := by
    unfold summaryLoop
    rw [SummaryLoop.foldl_sawAny, hincluded]
    cases chosen with
    | nil => exact absurd rfl hsome
    | cons record rest => simp
  have hevidence : summary.evidence = (summaryLoop request policy hops other).concludeEvidence := by rw [hsummary]
  rw [hevidence, concludeEvidence_eq hsaw, summaryLoop_evidence hhops, hincluded]
  exact Evidence.addReasons_kept _ _

theorem settled_of_agree : Settled path (request.included records) := by
  refine ⟨fun position hop index hhop hindex => hops_fit_of_agree h hanswer hhop hindex, ?_⟩
  by_cases hfew : (request.included records).length ≤ 1
  · exact Or.inl hfew
  · right
    obtain ⟨final, hpre⟩ := path_prefix_of_agree h hanswer
    have hfits : (Evidence.reasonSet ((request.included records).map (pathContribution path))).card ≤ maxReasons := by
      apply @Evidence.reasonSet_fits (.observed .fresh .high) rfl _ final
      intro c hc
      refine ⟨((request.included records).map (pathContribution path)).erase c, ?_⟩
      exact (hpre _ (List.perm_cons_erase hc).symm (List.cons_ne_nil _ _)).subset
    refine ⟨hfits, @Evidence.inOrder_of_agree (.observed .fresh .high) rfl _ hfits ?_ ?_⟩
    · rw [List.length_map]
      omega
    · -- Two prefixes of one list that hold the same reasons are equal.
      intro images himages
      have hnonempty : ∀ l : List (Evidence × List Reason),
          l.Perm ((request.included records).map (pathContribution path)) → l ≠ [] := by
        rintro l hl rfl
        have := hl.length_eq
        rw [List.length_map, List.length_nil] at this
        omega
      have hfirst := hpre images himages (hnonempty images himages)
      have hsecond := hpre _ (List.Perm.refl _) (hnonempty _ (List.Perm.refl _))
      obtain ⟨hmem, -⟩ := @Evidence.foldl_absorb_gathers (.observed .fresh .high) rfl images
        (by rw [Evidence.reasonSet_eq_of_perm himages]; exact hfits)
      obtain ⟨hmem', -⟩ := @Evidence.foldl_absorb_gathers (.observed .fresh .high) rfl _ hfits
      have hperm := (List.perm_ext_iff_of_nodup
        (images.foldl Evidence.absorb (.observed .fresh .high)).reasons_nodup
        (((request.included records).map (pathContribution path)).foldl Evidence.absorb
          (.observed .fresh .high)).reasons_nodup).mpr fun reason => by
            rw [hmem, hmem', Evidence.reasonSet_eq_of_perm himages]
      rw [List.prefix_iff_eq_take.mp hfirst, List.prefix_iff_eq_take.mp hsecond, hperm.length_eq]

end Agreeing

variable (records catalog request policy)

/-- **When `summarize` is order independent.** Every permutation of the records gives the same summary, the
evidence with its reasons included, exactly if the request is not answered or the evidence of the included
exchanges is settled. -/
theorem summarize_order_independent_iff :
    (∀ other : List MeasurementRecord, other.Perm records →
      summarize other catalog request policy = summarize records catalog request policy) ↔
      ∀ path, Answerable records catalog request policy path → Settled path (request.included records) := by
  constructor
  · intro h path hanswer
    exact settled_of_agree h hanswer
  · intro h other hperm
    cases hresult : summarize records catalog request policy with
    | ok summary =>
      obtain ⟨path, hanswer⟩ := answered_of_ok hresult
      rw [← hresult]
      exact summarize_eq_of_settled hperm hanswer (h path hanswer)
    | error e =>
      -- Whether a request is refused, and how, is decided by numbers.
      have hquantities := summarize_quantities_eq request (hperm.map essence) catalog policy
      rw [hresult] at hquantities
      cases hother : summarize other catalog request policy with
      | ok summary =>
        rw [hother] at hquantities
        cases hquantities
      | error e' =>
        rw [hother] at hquantities
        simp only [Except.map, Except.error.injEq] at hquantities
        rw [hquantities]

end Permuted

/-- The sample exchange with a second hop, which its path does not declare. -/
def strayExchange (hop : UInt64) : MeasurementRecord :=
  { Runtime.sampleStored with hops := [{ index := ⟨1, by decide⟩, hop := ⟨hop⟩ }] }

/-- Two exchanges that carry different undeclared hops are summarized differently in the two orders. -/
theorem stray_hops_out_of_order :
    ¬ ∀ other : List MeasurementRecord, other.Perm [strayExchange 1, strayExchange 2] →
      summarize other (Ingest.sampleCatalog 1) Runtime.sampleSummary defaultPolicy =
        summarize [strayExchange 1, strayExchange 2] (Ingest.sampleCatalog 1) Runtime.sampleSummary defaultPolicy := by
  intro h
  have hswapped := h [strayExchange 2, strayExchange 1] (List.Perm.swap _ _ _)
  have hreasons := congrArg (fun result => result.toOption.map fun summary => summary.evidence.reasons) hswapped
  revert hreasons
  decide +kernel

end LatencyObservatory.Stats
