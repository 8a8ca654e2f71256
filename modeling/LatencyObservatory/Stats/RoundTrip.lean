import LatencyObservatory.Stats.Accounting
import LatencyObservatory.Stats.CodecTrees

/-!
# Distributions outlive the process

Whatever the bounds and the probes are, aggregation counts every value once, so that all counters stay below the
number of values, and gives the distribution the shape that its decoder asks for. What remains are the checks of the
bounds and of the probes, which those of a valid request pass.
-/

namespace LatencyObservatory.Stats

open LatencyObservatory.Core LatencyObservatory.Model

/-! ### What aggregation returns -/

theorem bucketIndex_le (value : Nanos) (bounds : List Nanos) : Histogram.bucketIndex value bounds ≤ bounds.length := by
  induction bounds with
  | nil => exact Nat.le_refl 0
  | cons bound rest ih =>
    rw [Histogram.bucketIndex, List.length_cons]
    split_ifs
    · omega
    · omega

/-- A histogram with all its buckets, over some number of values. -/
structure Histogram.Filled (spec : HistogramSpec) (n : Nat) (h : Histogram) : Prop where
  bounds : h.spec = spec
  length : h.buckets.length = spec.bucketCount
  total : h.underflow + h.buckets.sum = n

theorem Histogram.filled_empty (spec : HistogramSpec) : Histogram.Filled spec 0 (.empty spec) :=
  ⟨rfl, List.length_replicate, by simp [Histogram.empty]⟩

theorem Histogram.Filled.add {spec : HistogramSpec} {n : Nat} {h : Histogram} (hfilled : h.Filled spec n)
    (value : Nanos) : (h.add value).Filled spec (n + 1) := by
  have hkept : ¬h.buckets.length ≠ h.spec.bucketCount := by
    rw [hfilled.bounds, not_not]
    exact hfilled.length
  have htotal := hfilled.total
  unfold Histogram.add
  rw [if_neg hkept]
  by_cases hsign : value < 0
  · rw [if_pos hsign]
    exact ⟨hfilled.bounds, hfilled.length, by simp only; omega⟩
  · rw [if_neg hsign]
    have hplace := bucketIndex_le value h.spec.bounds
    have hlt : bucketIndex value h.spec.bounds < h.buckets.length := by
      rw [hfilled.length, ← hfilled.bounds, HistogramSpec.bucketCount]
      omega
    have hsum := @Lib.sum_modify _ id (· + 1) 1 (fun _ => rfl) h.buckets _ hlt
    rw [List.map_id, List.map_id] at hsum
    refine ⟨hfilled.bounds, by simpa using hfilled.length, ?_⟩
    simp only
    omega

theorem Histogram.foldl_add_filled {spec : HistogramSpec} {n : Nat} {h : Histogram} (hfilled : h.Filled spec n)
    (values : List Nanos) : (values.foldl Histogram.add h).Filled spec (n + values.length) := by
  induction values generalizing h n with
  | nil => exact hfilled
  | cons value rest ih =>
    rw [List.foldl_cons, List.length_cons, show n + (rest.length + 1) = n + 1 + rest.length by omega]
    exact ih (hfilled.add value)

theorem Histogram.Filled.fits {spec : HistogramSpec} {n : Nat} {h : Histogram} (hfilled : h.Filled spec n)
    (hvalues : n < 2 ^ 63) (hbounds : spec.bucketCount < 2 ^ 63) : h.Fits := by
  have htotal := hfilled.total
  refine ⟨by omega, hfilled.length ▸ hbounds, fun count hcount => ?_⟩
  have hle := List.single_le_sum (fun _ _ => Nat.zero_le _) count hcount
  omega

theorem floorMean_none {sum : SignedSum} {count : Nat} (h : (floorMean sum count).1 = none) :
    (floorMean sum count).2 = 0 := by
  unfold floorMean at h ⊢
  split_ifs at h ⊢
  · rfl
  · split at h
    · rfl
    · dsimp only at h
      split_ifs at h

/-- What a distribution of some values knows of them, whatever the bounds and the probes are. -/
structure Distribution.Of (spec : HistogramSpec) (probes : List QuantileProbe) (n : Nat) (d : Distribution) :
    Prop extends d.Shaped where
  histogram : d.histogram.Filled spec n
  listed : d.probes = probes
  count : d.count = n
  remainder : d.meanRemainderNs ≤ n

theorem aggregate_of {values : List Nanos} {spec : HistogramSpec} {probes : List QuantileProbe} {limits : Limits}
    {d : Distribution} (hlength : values.length < 2 ^ 63) (h : aggregate values spec probes limits = .ok d) :
    d.Of spec probes values.length := by
  have hmeasures := aggregate_measures hlength h
  have hremainder : d.meanNs = none → d.meanRemainderNs = 0 := by
    intro hnone
    unfold aggregate at h
    split_ifs at h
    · cases h
      rfl
    · simp only [Except.ok.injEq] at h
      subst h
      exact floorMean_none hnone
  have hempty : d.count = 0 → d.minNs = none ∧ d.maxNs = none ∧ d.meanNs = none := by
    intro hzero
    rw [hmeasures.count, List.length_eq_zero_iff] at hzero
    subst hzero
    unfold aggregate at h
    split_ifs at h
    · cases h
      exact ⟨rfl, rfl, rfl⟩
    · rename_i hsome
      exact absurd rfl hsome
  have hbounded : d.meanRemainderNs ≤ values.length := by
    cases hmean : d.meanNs with
    | none => rw [hremainder hmean]; exact Nat.zero_le _
    | some m =>
      obtain ⟨-, hless⟩ := hmeasures.mean m hmean
      rw [hmeasures.count] at hless
      exact Nat.le_of_lt hless
  have hrest : d.histogram.Filled spec values.length ∧ d.probes = probes ∧ d.quantiles.length = probes.length := by
    unfold aggregate at h
    split_ifs at h with hmany hprobes hnone
    · cases h
      rw [List.isEmpty_iff] at hnone
      rw [hnone]
      exact ⟨Histogram.filled_empty spec, rfl, List.length_replicate⟩
    · simp only [Except.ok.injEq] at h
      subst h
      have hsorted := Histogram.foldl_add_filled (Histogram.filled_empty spec) (values.insertionSort (· ≤ ·))
      rw [List.length_insertionSort, Nat.zero_add] at hsorted
      exact ⟨hsorted, rfl, List.length_map _⟩
  obtain ⟨hfilled, hprobes, hquantiles⟩ := hrest
  refine ⟨⟨?_, hquantiles.trans (hprobes ▸ rfl), hempty⟩, hfilled, hprobes, hmeasures.count, hbounded⟩
  rw [hfilled.bounds]
  exact hfilled.length

theorem Distribution.Of.fits {spec : HistogramSpec} {probes : List QuantileProbe} {n : Nat} {d : Distribution}
    (h : d.Of spec probes n) (hvalues : n < 2 ^ 63) (hbounds : spec.bucketCount < 2 ^ 63) : d.Fits where
  count := h.count ▸ hvalues
  remainder := Nat.lt_of_le_of_lt h.remainder hvalues
  histogram := h.histogram.fits hvalues hbounds

/-! ### What a summary returns -/

/-- What a hop summary knows of some exchanges, whatever the bounds and the probes are. -/
structure HopSummary.Of (spec : HistogramSpec) (probes : List QuantileProbe) (n : Nat) (hop : HopSummary) : Prop where
  exchangesIncluded : hop.exchangesIncluded ≤ n
  dwellsObserved : hop.dwellsObserved ≤ n
  dwellsMissing : hop.dwellsMissing ≤ n
  dwellsUnsupported : hop.dwellsUnsupported ≤ n
  queueDwellsObserved : hop.queueDwellsObserved ≤ n
  queueDwellsUnsupported : hop.queueDwellsUnsupported ≤ n
  coveragePpm : hop.coveragePpm ≤ 1000000
  dwell : ∃ m ≤ n, hop.dwell.Of spec probes m
  queueDwell : ∃ m ≤ n, hop.queueDwell.Of spec probes m

theorem HopSummary.Of.fits {spec : HistogramSpec} {probes : List QuantileProbe} {n : Nat} {hop : HopSummary}
    (h : hop.Of spec probes n) (hexchanges : n < 2 ^ 63) (hbounds : spec.bucketCount < 2 ^ 63) : hop.Fits := by
  obtain ⟨m, hm, hdwell⟩ := h.dwell
  obtain ⟨k, hk, hqueueDwell⟩ := h.queueDwell
  have hcoverage := h.coveragePpm
  exact ⟨Nat.lt_of_le_of_lt h.exchangesIncluded hexchanges, Nat.lt_of_le_of_lt h.dwellsObserved hexchanges,
    Nat.lt_of_le_of_lt h.dwellsMissing hexchanges, Nat.lt_of_le_of_lt h.dwellsUnsupported hexchanges,
    Nat.lt_of_le_of_lt h.queueDwellsObserved hexchanges, Nat.lt_of_le_of_lt h.queueDwellsUnsupported hexchanges,
    by omega, hdwell.fits (by omega) hbounds, hqueueDwell.fits (by omega) hbounds⟩

theorem HopSummary.Of.mono {spec : HistogramSpec} {probes : List QuantileProbe} {m n : Nat} {hop : HopSummary}
    (h : hop.Of spec probes m) (hmn : m ≤ n) : hop.Of spec probes n where
  exchangesIncluded := h.exchangesIncluded.trans hmn
  dwellsObserved := h.dwellsObserved.trans hmn
  dwellsMissing := h.dwellsMissing.trans hmn
  dwellsUnsupported := h.dwellsUnsupported.trans hmn
  queueDwellsObserved := h.queueDwellsObserved.trans hmn
  queueDwellsUnsupported := h.queueDwellsUnsupported.trans hmn
  coveragePpm := h.coveragePpm
  dwell := h.dwell.imp fun _ hdwell => ⟨hdwell.1.trans hmn, hdwell.2⟩
  queueDwell := h.queueDwell.imp fun _ hqueueDwell => ⟨hqueueDwell.1.trans hmn, hqueueDwell.2⟩

theorem concludeHop_of {request : SummaryRequest} {limits : Limits} {index : HopIndex} {id : HopId}
    {included : List MeasurementRecord} (hlength : included.length < 2 ^ 63) {hop : HopSummary}
    (h : concludeHop request limits
      (included.foldl (fun a record => a.observe record) (.start index id request.histogram)) = .ok hop) :
    hop.Of request.histogram request.probes included.length := by
  obtain ⟨-, -, haccounts⟩ := concludeHop_accounts (by omega) h
  have hparts := haccounts.parts
  have hcoverage : hop.coveragePpm ≤ 1000000 := by
    rw [haccounts.coverage]
    apply Nat.div_le_of_le_mul
    rw [Nat.mul_comm included.length]
    exact Nat.mul_le_mul_left _ (by omega)
  obtain ⟨evidence, hobserved⟩ := HopAccumulator.foldl_observe included (.start index id request.histogram)
  rw [hobserved] at h
  have hcollected : ∀ f : MeasurementRecord → Option Nanos, (included.filterMap f).length ≤ included.length :=
    fun f => List.length_filterMap_le f included
  unfold concludeHop at h
  obtain ⟨dwell, hdwell, h⟩ := bind_eq_ok_iff.mp h
  obtain ⟨queueDwell, hqueueDwell, h⟩ := bind_eq_ok_iff.mp h
  cases h
  simp only [HopAccumulator.measured, HopAccumulator.start, List.nil_append] at hdwell hqueueDwell
  refine ⟨?_, by omega, by omega, by omega, ?_, ?_, hcoverage,
    ⟨_, hcollected _, aggregate_of (Nat.lt_of_le_of_lt (hcollected _) hlength) hdwell⟩,
    ⟨_, hcollected _, aggregate_of (Nat.lt_of_le_of_lt (hcollected _) hlength) hqueueDwell⟩⟩
  · simp only [HopAccumulator.measured, HopAccumulator.start, Nat.zero_add, le_refl]
  · simp only [HopAccumulator.measured, HopAccumulator.start, Nat.zero_add]
    exact List.countP_le_length
  · simp only [HopAccumulator.measured, HopAccumulator.start, Nat.zero_add]
    exact List.countP_le_length

/-- The parts of a summary over some records. -/
structure PathSummary.Of (request : SummaryRequest) (n : Nat) (summary : PathSummary) : Prop where
  exchangesIncluded : summary.exchangesIncluded ≤ n
  endToEnd : ∃ m ≤ n, summary.endToEnd.Of request.histogram request.probes m
  hops : ∀ hop ∈ summary.hops, hop.Of request.histogram request.probes n

theorem summarize_of {records : List MeasurementRecord} {catalog : Catalog} {request : SummaryRequest}
    {policy : RuntimePolicy} {summary : PathSummary} (hlength : records.length < 2 ^ 63)
    (h : summarize records catalog request policy = .ok summary) : summary.Of request records.length := by
  have hincluded : (request.included records).length ≤ records.length := List.length_filter_le _ _
  obtain ⟨-, hcount, -, hendToEnd⟩ := summarize_records h
  refine ⟨hcount.trans_le hincluded, ⟨_, ?_, aggregate_of ?_ hendToEnd⟩, ?_⟩
  · rw [List.length_map]
    exact hincluded
  · rw [List.length_map]
    omega
  · intro hop hhop
    obtain ⟨path, accumulators, -, hstart, hconclude⟩ := summarize_ok h
    obtain ⟨endToEnd, hopSummaries, -, hhops, rfl⟩ := concludeSummary_ok hconclude
    obtain ⟨a, ha, hconcluded⟩ := concludeHops_mem hhops hhop
    unfold summaryLoop at ha
    rw [SummaryLoop.foldl_hops, List.mem_map] at ha
    obtain ⟨started, hstarted, rfl⟩ := ha
    obtain ⟨-, hfresh⟩ := startHops_mem hstart hstarted
    rw [hfresh] at hconcluded
    exact (concludeHop_of (Nat.lt_of_le_of_lt hincluded hlength) hconcluded).mono hincluded

/-! ### Round trip -/

/-- Bounds that pass `make` under some limits pass it under the default ones if they are not too many. -/
theorem HistogramSpec.make_default {bounds : List Nanos} {limits : Limits} {spec : HistogramSpec}
    (h : make bounds limits = .ok spec) (hcount : bounds.length ≤ 512) :
    spec.bounds = bounds ∧ make spec.bounds {} = .ok spec := by
  unfold make at h ⊢
  obtain ⟨-, h⟩ := guard_eq_ok_iff.mp h
  cases hcheck : checkBounds none bounds with
  | error e =>
    rw [hcheck] at h
    cases h
  | ok u =>
    rw [hcheck] at h
    cases h
    refine ⟨rfl, ?_⟩
    have hfew : ¬bounds.length > ({} : Limits).maxHistogramBuckets := Nat.not_lt.mpr hcount
    rw [if_neg hfew, hcheck]
    rfl

/-- **Distributions outlive the process.** What aggregation returns, for any vector of values, any bounds that `make`
accepts, at most 512 of them, and any valid probes, is read back from its text as it is. -/
theorem distribution_roundTrip {values bounds : List Nanos} {spec : HistogramSpec} {probes : List QuantileProbe}
    {made limits : Limits} {d : Distribution} (hspec : HistogramSpec.make bounds made = .ok spec)
    (hbounds : bounds.length ≤ 512) (hprobes : ∀ probe ∈ probes, probe.Valid) (hlength : values.length < 2 ^ 63)
    (h : aggregate values spec probes limits = .ok d) {maxDepth : Nat} (hdepth : 4 ≤ maxDepth) (pretty : Bool) :
    ∃ tree, parseJson (writeDistribution { pretty := pretty } d).out maxDepth = .ok tree ∧
      decodeDistribution tree = .ok d := by
  obtain ⟨hsame, hdefault⟩ := HistogramSpec.make_default hspec hbounds
  have hof := aggregate_of hlength h
  have hcount : spec.bucketCount < 2 ^ 63 := by
    rw [HistogramSpec.bucketCount, hsame]
    omega
  have hnesting := distributionJson_nesting d
  refine ⟨distributionJson d, ?_, decodeDistribution_json hof.toShaped ?_ ?_⟩
  · rw [writeDistribution_eq]
    exact parse_written (distributionJson_wellFormed (hof.fits hlength hcount)) (by omega) pretty
  · rw [hof.histogram.bounds]
    exact hdefault
  · rw [hof.listed]
    exact hprobes

/-- The extreme values together: a negative sum with a remainder. -/
theorem extremes_roundTrip :
    ∃ d tree, aggregate [5, Int64.minValue, Int64.maxValue, -7] .latencyDefault defaultQuantileProbes {} = .ok d ∧
      parseJson (writeDistribution {} d).out 16 = .ok tree ∧ decodeDistribution tree = .ok d := by
  have hmade : HistogramSpec.make HistogramSpec.latencyDefault.bounds {} = .ok .latencyDefault := by decide
  obtain ⟨d, hd, -⟩ := aggregate_describes (show [5, Int64.minValue, Int64.maxValue, -7].length ≤
    ({} : Limits).maxSamplesPerPath by decide) (show defaultQuantileProbes.length ≤ ({} : Limits).maxQuantileProbes by
      decide) latencyDefault_valid defaultQuantileProbes_valid (by decide)
  obtain ⟨tree, hparse, hdecode⟩ := distribution_roundTrip hmade (by decide) defaultQuantileProbes_valid (by decide) hd
    (show 4 ≤ 16 by decide) false
  exact ⟨d, tree, hd, hparse, hdecode⟩

end LatencyObservatory.Stats
