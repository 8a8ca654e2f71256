import LatencyObservatory.Model.CodecTrees
import LatencyObservatory.Stats.Codec
import LatencyObservatory.Stats.Exact

/-!
# The trees of distributions

The text of a distribution says more than is read back: the digest of the specification and the edges of the buckets
are derived from the bounds. What is read back is checked again. The bounds have to pass `make`, the buckets to be as
many as the bounds ask for, the probes to be proper, and an empty distribution must not carry values.
-/

namespace LatencyObservatory.Core

open JsonValue

theorem parseU64_decimal {n : Nat} (h : n < 2 ^ 64) : parseU64 (decimal n) = some n := by
  obtain ⟨⟨⟨hsome, hdigits⟩, -⟩, hvalue⟩ := decimal_derives n
  have hparse : parseU64 (decimal n) = parseDigits 0 (decimal n) := by
    obtain ⟨c, rest, hcons⟩ := List.exists_cons_of_ne_nil hsome
    rw [hcons] at hdigits ⊢
    have hplus : c ≠ 43 := by
      rintro rfl
      exact absurd (hdigits 43 List.mem_cons_self) (by decide)
    rw [parseU64]
    · exact fun heq => List.cons_ne_nil _ _ heq
    · exact fun cs heq => hplus (List.cons.inj heq).1
  rw [hparse]
  exact (parseDigits_iff hdigits (by decide) n).mpr ⟨hvalue.symm, h⟩

theorem decimal_no_slash (n : Nat) : ∀ c ∈ decimal n, c ≠ 47 := by
  obtain ⟨⟨⟨-, hdigits⟩, -⟩, -⟩ := decimal_derives n
  rintro c hc rfl
  exact absurd (hdigits 47 hc) (by decide)

end LatencyObservatory.Core

namespace LatencyObservatory.Stats

open LatencyObservatory.Core LatencyObservatory.Model JsonValue

/-! ### Probes -/

theorem splitSlash_append {left right : Bytes} (h : ∀ c ∈ left, c ≠ 47) :
    splitSlash (left ++ 47 :: right) = some (left, right) := by
  induction left with
  | nil => rfl
  | cons c left ih =>
    rw [List.forall_mem_cons] at h
    rw [List.cons_append, splitSlash, if_neg h.1, ih h.2]
    rfl

theorem QuantileProbe.make_of_valid {probe : QuantileProbe} (h : probe.Valid) :
    make probe.numerator probe.denominator = .ok probe := by
  have hpositive := h.positive
  have hproper := h.proper
  unfold make
  rw [if_neg, if_neg]
  · rw [not_or, gt_iff_lt, UInt32.lt_iff_toNat_lt, ← UInt32.toNat_inj, UInt32.toNat_zero]
    omega
  · rw [← UInt32.toNat_inj, UInt32.toNat_zero]
    omega

theorem parseQuantileProbe_render (probe : QuantileProbe) :
    parseQuantileProbe probe.render = QuantileProbe.make probe.numerator probe.denominator := by
  have hnumerator := probe.numerator.toNat_lt
  have hdenominator := probe.denominator.toNat_lt
  have hsplit : splitSlash probe.render = some (decimal probe.numerator.toNat, decimal probe.denominator.toNat) := by
    unfold QuantileProbe.render
    rw [List.append_assoc]
    exact splitSlash_append (decimal_no_slash _)
  unfold parseQuantileProbe
  rw [hsplit]
  dsimp only
  rw [parseU64_decimal (by omega), parseU64_decimal (by omega)]
  show (if probe.numerator.toNat > 0xFFFFFFFF ∨ probe.denominator.toNat > 0xFFFFFFFF then _ else
    QuantileProbe.make (UInt32.ofNat probe.numerator.toNat) (UInt32.ofNat probe.denominator.toNat)) = _
  rw [if_neg (by omega), UInt32.ofNat_toNat, UInt32.ofNat_toNat]

/-! ### Histograms -/

def histogramSpecJson (spec : HistogramSpec) : JsonValue :=
  .object [(text "digest", .string spec.digest),
    (text "bounds", .array (spec.bounds.map fun bound => .number bound.toInt))]

def bucketJson (spec : HistogramSpec) (bucket : Nat × Nat) : JsonValue :=
  .object [(text "index", .number bucket.2),
    (text "lower_ns", .number (lowerBound spec bucket.2)),
    (text "upper_ns", ofOption (spec.bounds[bucket.2]?.map Int64.toInt)),
    (text "count", .number bucket.1)]

def histogramJson (histogram : Histogram) : JsonValue :=
  .object [(text "spec", histogramSpecJson histogram.spec),
    (text "underflow", .number histogram.underflow),
    (text "buckets", .array (histogram.buckets.zipIdx.map (bucketJson histogram.spec)))]

theorem writeHistogramSpec_eq (w : JsonWriter) (spec : HistogramSpec) :
    writeHistogramSpec w spec = w.writeValue (histogramSpecJson spec) := by
  have hbound : ∀ (w : JsonWriter) (bound : Nanos), w.valueInt bound.toInt = w.writeValue (.number bound.toInt) :=
    fun _ _ => rfl
  simp only [writeHistogramSpec, JsonWriter.foldl_writes hbound]
  rfl

theorem writeBucket_eq (spec : HistogramSpec) (w : JsonWriter) (bucket : Nat × Nat) :
    writeBucket spec w bucket = w.writeValue (bucketJson spec bucket) := by
  simp only [writeBucket, JsonWriter.fieldUint_eq, JsonWriter.fieldOptionalInt_eq]
  rfl

theorem writeHistogram_eq (w : JsonWriter) (histogram : Histogram) :
    writeHistogram w histogram = w.writeValue (histogramJson histogram) := by
  simp only [writeHistogram, writeHistogramSpec_eq, JsonWriter.fieldUint_eq,
    JsonWriter.foldl_writes (writeBucket_eq histogram.spec)]
  rfl

/-- The counters of a histogram are JSON numbers. -/
structure Histogram.Fits (histogram : Histogram) : Prop where
  underflow : histogram.underflow < 2 ^ 63
  length : histogram.buckets.length < 2 ^ 63
  buckets : ∀ count ∈ histogram.buckets, count < 2 ^ 63

theorem histogramSpecJson_wellFormed (spec : HistogramSpec) : (histogramSpecJson spec).WellFormed := by
  refine ⟨by simp only [List.map]; decide, trivial, ?_, trivial⟩
  rw [WellFormed, itemsWellFormed_map]
  exact fun bound _ => representable_toInt bound

theorem lowerBound_representable (spec : HistogramSpec) (index : Nat) : Representable (lowerBound spec index) := by
  unfold lowerBound
  split_ifs
  · decide
  · exact representable_toInt _
  · exact representable_toInt _

theorem histogramJson_wellFormed {histogram : Histogram} (h : histogram.Fits) : (histogramJson histogram).WellFormed := by
  refine ⟨by simp only [List.map]; decide, histogramSpecJson_wellFormed _, representable_natCast h.underflow, ?_,
    trivial⟩
  rw [WellFormed, itemsWellFormed_map]
  rintro ⟨count, index⟩ hbucket
  obtain ⟨hindex, hcount⟩ := List.mem_zipIdx' hbucket
  have hshort := h.length
  exact ⟨by simp only [List.map]; decide, representable_natCast (Nat.lt_trans hindex hshort),
    lowerBound_representable _ _, ofOption_nanos_wellFormed _,
    representable_natCast (h.buckets _ (hcount ▸ List.getElem_mem _)), trivial⟩

theorem histogramSpecJson_nesting (spec : HistogramSpec) : (histogramSpecJson spec).nesting ≤ 2 := by
  have hbounds := itemsNesting_map_le (fun bound (_ : bound ∈ spec.bounds) =>
    show (JsonValue.number bound.toInt).nesting ≤ 0 from Nat.le_refl 0)
  simp only [histogramSpecJson, nesting, membersNesting]
  omega

theorem histogramJson_nesting (histogram : Histogram) : (histogramJson histogram).nesting ≤ 3 := by
  have hspec := histogramSpecJson_nesting histogram.spec
  have hbuckets := itemsNesting_map_le (fun bucket (_ : bucket ∈ histogram.buckets.zipIdx) =>
    show (bucketJson histogram.spec bucket).nesting ≤ 1 by
      simp only [bucketJson, nesting, membersNesting, ofOption_nesting]
      omega)
  simp only [histogramJson, nesting, membersNesting]
  omega

theorem decodeHistogramSpec_json (spec : HistogramSpec) :
    decodeHistogramSpec (histogramSpecJson spec) = HistogramSpec.make spec.bounds {} := by
  have hguard : guardObject (histogramSpecJson spec) "histogram spec must be an object" = .ok () := rfl
  have hitems : (histogramSpecJson spec).requireArray "bounds" =
      .ok (spec.bounds.map fun bound => .number bound.toInt) := requireArray_eq rfl
  have hbounds : decodeAll (fun entry : JsonValue => do return Int64.ofInt (← entry.asInt64))
      (spec.bounds.map fun bound => .number bound.toInt) = .ok spec.bounds :=
    decodeAll_map fun bound _ => congrArg Except.ok bound.ofInt_toInt
  unfold decodeHistogramSpec
  rw [hguard, hitems]
  show (decodeAll _ (spec.bounds.map fun bound => .number bound.toInt)).bind _ = _
  rw [hbounds]
  rfl

theorem decodeBuckets_map (spec : HistogramSpec) {bucketCount : Nat} (buckets : List Nat) (position : Nat)
    (h : position + buckets.length = bucketCount) :
    decodeBuckets bucketCount position ((buckets.zipIdx position).map (bucketJson spec)) = .ok buckets := by
  induction buckets generalizing position with
  | nil =>
    rw [List.zipIdx_nil, List.map_nil, decodeBuckets, if_neg]
    simpa using h
  | cons count rest ih =>
    rw [List.length_cons] at h
    have hindex : (bucketJson spec (count, position)).requireUint "index" = .ok position := requireUint_eq rfl
    have hcount : (bucketJson spec (count, position)).requireUint "count" = .ok count := requireUint_eq rfl
    have hplace : ¬(position ≠ position ∨ position ≥ bucketCount) := by omega
    rw [List.zipIdx_cons, List.map_cons, decodeBuckets]
    simp only [hindex, hcount, hplace, ih (position + 1) (by omega), bind, Except.bind, pure, Except.pure, if_false]

theorem decodeHistogram_json {histogram : Histogram}
    (hspec : HistogramSpec.make histogram.spec.bounds {} = .ok histogram.spec)
    (hlength : histogram.buckets.length = histogram.spec.bucketCount) :
    decodeHistogram (histogramJson histogram) = .ok histogram := by
  have hguard : guardObject (histogramJson histogram) "histogram must be an object" = .ok () := rfl
  have hobject : (histogramJson histogram).requireObject "spec" = .ok (histogramSpecJson histogram.spec) :=
    requireObject_eq rfl
  have hunderflow : (histogramJson histogram).requireUint "underflow" = .ok histogram.underflow := requireUint_eq rfl
  have hitems : (histogramJson histogram).requireArray "buckets" =
      .ok (histogram.buckets.zipIdx.map (bucketJson histogram.spec)) := requireArray_eq rfl
  have hbuckets := decodeBuckets_map histogram.spec histogram.buckets 0 (by rw [Nat.zero_add, hlength])
  unfold decodeHistogram
  simp only [hguard, hobject, decodeHistogramSpec_json, hspec, hunderflow, hitems, hbuckets, bind, Except.bind, pure,
    Except.pure]

/-! ### Distributions -/

def quantileJson (probes : List QuantileProbe) (quantile : Option Nanos × Nat) : JsonValue :=
  .object [(text "probe", .string ((probes[quantile.2]?.map QuantileProbe.render).getD (text "unknown"))),
    (text "value_ns", ofOption (quantile.1.map Int64.toInt))]

def distributionJson (d : Distribution) : JsonValue :=
  .object [(text "count", .number d.count),
    (text "min_ns", ofOption (d.minNs.map Int64.toInt)),
    (text "max_ns", ofOption (d.maxNs.map Int64.toInt)),
    (text "sum_ns", ofOption (d.sumNs.map Int64.toInt)),
    (text "mean_ns", ofOption (d.meanNs.map Int64.toInt)),
    (text "mean_remainder_ns", .number d.meanRemainderNs),
    (text "sum_overflowed", .bool d.sumOverflowed),
    (text "histogram", histogramJson d.histogram),
    (text "quantiles", .array (d.quantiles.zipIdx.map (quantileJson d.probes)))]

theorem writeQuantile_eq (probes : List QuantileProbe) (w : JsonWriter) (quantile : Option Nanos × Nat) :
    writeQuantile probes w quantile = w.writeValue (quantileJson probes quantile) := by
  simp only [writeQuantile, JsonWriter.fieldOptionalInt_eq]
  rfl

theorem writeDistribution_eq (w : JsonWriter) (d : Distribution) :
    writeDistribution w d = w.writeValue (distributionJson d) := by
  simp only [writeDistribution, writeHistogram_eq, JsonWriter.fieldUint_eq, JsonWriter.fieldOptionalInt_eq,
    JsonWriter.foldl_writes (writeQuantile_eq d.probes)]
  rfl

/-- The counters of a distribution are JSON numbers. -/
structure Distribution.Fits (d : Distribution) : Prop where
  count : d.count < 2 ^ 63
  remainder : d.meanRemainderNs < 2 ^ 63
  histogram : d.histogram.Fits

theorem distributionJson_wellFormed {d : Distribution} (h : d.Fits) : (distributionJson d).WellFormed := by
  have hnanos := ofOption_nanos_wellFormed
  refine ⟨by simp only [List.map]; decide, representable_natCast h.count, hnanos _, hnanos _, hnanos _, hnanos _,
    representable_natCast h.remainder, trivial, histogramJson_wellFormed h.histogram, ?_, trivial⟩
  rw [WellFormed, itemsWellFormed_map]
  exact fun quantile _ => ⟨by simp only [List.map]; decide, trivial, hnanos _, trivial⟩

theorem distributionJson_nesting (d : Distribution) : (distributionJson d).nesting ≤ 4 := by
  have hhistogram := histogramJson_nesting d.histogram
  have hquantiles := itemsNesting_map_le (fun quantile (_ : quantile ∈ d.quantiles.zipIdx) =>
    show (quantileJson d.probes quantile).nesting ≤ 1 by
      simp only [quantileJson, nesting, membersNesting, ofOption_nesting]
      omega)
  simp only [distributionJson, nesting, membersNesting, ofOption_nesting]
  omega

theorem decodeQuantiles_map {probes : List QuantileProbe} (hprobes : ∀ probe ∈ probes, probe.Valid)
    {quantiles : List (Option Nanos)} {position : Nat} (h : position + quantiles.length = probes.length) :
    decodeAll decodeQuantile ((quantiles.zipIdx position).map (quantileJson probes)) =
      .ok ((probes.drop position).zip quantiles) := by
  induction quantiles generalizing position with
  | nil => rw [List.zip_nil_right]; rfl
  | cons quantile rest ih =>
    rw [List.length_cons] at h
    have hlt : position < probes.length := by omega
    have hrender : (quantileJson probes (quantile, position)).requireString "probe" = .ok probes[position].render := by
      apply requireString_eq
      rw [show probes[position].render = (probes[position]?.map QuantileProbe.render).getD (text "unknown") by
        rw [List.getElem?_eq_getElem hlt]; rfl]
      rfl
    have hvalue : jsonOptionalNanos (quantileJson probes (quantile, position)) "value_ns" = .ok quantile :=
      jsonOptionalNanos_eq rfl
    have hprobe : parseQuantileProbe probes[position].render = .ok probes[position] := by
      rw [parseQuantileProbe_render]
      exact QuantileProbe.make_of_valid (hprobes _ (List.getElem_mem hlt))
    have hfirst : decodeQuantile (quantileJson probes (quantile, position)) = .ok (probes[position], quantile) := by
      simp only [decodeQuantile, hrender, hprobe, hvalue, bind, Except.bind, pure, Except.pure]
    rw [List.zipIdx_cons, List.map_cons, decodeAll, hfirst, ih (by omega), List.drop_eq_getElem_cons hlt]
    rfl

/-- A distribution of the shape that aggregation gives it. -/
structure Distribution.Shaped (d : Distribution) : Prop where
  buckets : d.histogram.buckets.length = d.histogram.spec.bucketCount
  quantiles : d.quantiles.length = d.probes.length
  empty : d.count = 0 → d.minNs = none ∧ d.maxNs = none ∧ d.meanNs = none

theorem decodeDistribution_json {d : Distribution} (h : d.Shaped)
    (hspec : HistogramSpec.make d.histogram.spec.bounds {} = .ok d.histogram.spec)
    (hprobes : ∀ probe ∈ d.probes, probe.Valid) : decodeDistribution (distributionJson d) = .ok d := by
  have hguard : guardObject (distributionJson d) "distribution must be an object" = .ok () := rfl
  have hcount : (distributionJson d).requireUint "count" = .ok d.count := requireUint_eq rfl
  have hmin : jsonOptionalNanos (distributionJson d) "min_ns" = .ok d.minNs := jsonOptionalNanos_eq rfl
  have hmax : jsonOptionalNanos (distributionJson d) "max_ns" = .ok d.maxNs := jsonOptionalNanos_eq rfl
  have hsum : jsonOptionalNanos (distributionJson d) "sum_ns" = .ok d.sumNs := jsonOptionalNanos_eq rfl
  have hmean : jsonOptionalNanos (distributionJson d) "mean_ns" = .ok d.meanNs := jsonOptionalNanos_eq rfl
  have hremainder : (distributionJson d).requireUint "mean_remainder_ns" = .ok d.meanRemainderNs := requireUint_eq rfl
  have hoverflowed : (distributionJson d).requireBool "sum_overflowed" = .ok d.sumOverflowed := requireBool_eq rfl
  have hobject : (distributionJson d).requireObject "histogram" = .ok (histogramJson d.histogram) :=
    requireObject_eq rfl
  have hitems : (distributionJson d).requireArray "quantiles" = .ok (d.quantiles.zipIdx.map (quantileJson d.probes)) :=
    requireArray_eq rfl
  have hquantiles := @decodeQuantiles_map d.probes hprobes d.quantiles 0 (by rw [Nat.zero_add, h.quantiles])
  have hempty : ¬(d.count = 0 ∧ (d.minNs.isSome = true ∨ d.maxNs.isSome = true ∨ d.meanNs.isSome = true)) := by
    rintro ⟨hzero, hsome⟩
    obtain ⟨hmin, hmax, hmean⟩ := h.empty hzero
    simp [hmin, hmax, hmean] at hsome
  unfold decodeDistribution
  simp only [hguard, hcount, hmin, hmax, hsum, hmean, hremainder, hoverflowed, hobject,
    decodeHistogram_json hspec h.buckets, hitems, hquantiles, hempty, bind, Except.bind, pure, Except.pure, if_false,
    List.drop_zero, List.map_fst_zip h.quantiles.ge, List.map_snd_zip h.quantiles.le]

/-! ### Hop summaries and windows -/

def hopSummaryJson (summary : HopSummary) : JsonValue :=
  .object [(text "index", .number summary.index.value.toNat),
    (text "hop", .string summary.hop.toHex),
    (text "exchanges_included", .number summary.exchangesIncluded),
    (text "dwells_observed", .number summary.dwellsObserved),
    (text "dwells_missing", .number summary.dwellsMissing),
    (text "dwells_unsupported", .number summary.dwellsUnsupported),
    (text "queue_dwells_observed", .number summary.queueDwellsObserved),
    (text "queue_dwells_unsupported", .number summary.queueDwellsUnsupported),
    (text "coverage_ppm", .number summary.coveragePpm),
    (text "dwell", distributionJson summary.dwell),
    (text "queue_dwell", distributionJson summary.queueDwell),
    (text "evidence_state", .string (nameOf states (text "unknown") summary.evidence.state)),
    (text "freshness", .string (nameOf freshnesses (text "unknown") summary.evidence.freshness)),
    (text "confidence", .string (nameOf confidences (text "none") summary.evidence.confidence)),
    (text "reasons", .array (summary.evidence.reasons.map reasonJson))]

def timeWindowJson (window : TimeWindow) : JsonValue :=
  .object [(text "from_ns", .number window.start.ns.toInt),
    (text "to_ns", .number window.stop.ns.toInt),
    (text "clock_domain", .string (optionalHex window.start.domain))]

theorem writeHopSummary_eq (w : JsonWriter) (summary : HopSummary) :
    writeHopSummary w summary = w.writeValue (hopSummaryJson summary) := by
  simp only [writeHopSummary, writeDistribution_eq, JsonWriter.fieldUint_eq, JsonWriter.foldl_writes writeReason_eq]
  rfl

theorem writeTimeWindow_eq (w : JsonWriter) (window : TimeWindow) :
    writeTimeWindow w window = w.writeValue (timeWindowJson window) := rfl

/-- The counters of a hop summary are JSON numbers. -/
structure HopSummary.Fits (summary : HopSummary) : Prop where
  exchangesIncluded : summary.exchangesIncluded < 2 ^ 63
  dwellsObserved : summary.dwellsObserved < 2 ^ 63
  dwellsMissing : summary.dwellsMissing < 2 ^ 63
  dwellsUnsupported : summary.dwellsUnsupported < 2 ^ 63
  queueDwellsObserved : summary.queueDwellsObserved < 2 ^ 63
  queueDwellsUnsupported : summary.queueDwellsUnsupported < 2 ^ 63
  coveragePpm : summary.coveragePpm < 2 ^ 63
  dwell : summary.dwell.Fits
  queueDwell : summary.queueDwell.Fits

theorem hopSummaryJson_wellFormed {summary : HopSummary} (h : summary.Fits) : (hopSummaryJson summary).WellFormed := by
  have hreasons : (JsonValue.array (summary.evidence.reasons.map reasonJson)).WellFormed := by
    rw [WellFormed, itemsWellFormed_map]
    exact fun reason _ => ⟨by simp only [List.map]; decide, trivial, trivial, trivial⟩
  exact ⟨by simp only [List.map]; decide, representable_uint32 _, trivial, representable_natCast h.exchangesIncluded,
    representable_natCast h.dwellsObserved, representable_natCast h.dwellsMissing,
    representable_natCast h.dwellsUnsupported, representable_natCast h.queueDwellsObserved,
    representable_natCast h.queueDwellsUnsupported, representable_natCast h.coveragePpm,
    distributionJson_wellFormed h.dwell, distributionJson_wellFormed h.queueDwell, trivial, trivial, trivial, hreasons,
    trivial⟩

theorem hopSummaryJson_nesting (summary : HopSummary) : (hopSummaryJson summary).nesting ≤ 5 := by
  have hdwell := distributionJson_nesting summary.dwell
  have hqueueDwell := distributionJson_nesting summary.queueDwell
  have hreasons := itemsNesting_map_le (fun reason (_ : reason ∈ summary.evidence.reasons) =>
    show (reasonJson reason).nesting ≤ 1 from Nat.le_refl _)
  simp only [hopSummaryJson, nesting, membersNesting]
  omega

theorem timeWindowJson_wellFormed (window : TimeWindow) : (timeWindowJson window).WellFormed :=
  ⟨by simp only [List.map]; decide, representable_toInt _, representable_toInt _, trivial, trivial⟩

theorem jsonKnownName_eq {α : Type} [DecidableEq α] {table : List (α × Bytes)} (hall : NamesAll table)
    {fallback : Bytes} {value other : α} {members : List (Bytes × JsonValue)} {name : String}
    (h : (object members).find name = some (.string (nameOf table fallback value))) :
    jsonKnownName table (object members) name other = value := by
  unfold jsonKnownName
  rw [h]
  show (parseNamed table (nameOf table fallback value)).getD other = value
  rw [parseNamed_nameOf hall.distinct (hall.all value)]
  rfl

/-- A hop summary comes back with its distributions and reasons; whether reasons were left out is not said. -/
theorem decodeHopSummary_json {summary : HopSummary}
    (hdwell : decodeDistribution (distributionJson summary.dwell) = .ok summary.dwell)
    (hqueueDwell : decodeDistribution (distributionJson summary.queueDwell) = .ok summary.queueDwell) :
    decodeHopSummary (hopSummaryJson summary) =
      .ok { summary with evidence := { summary.evidence with reasonsTruncated := false } } := by
  have hguard : guardObject (hopSummaryJson summary) "hop summary must be an object" = .ok () := rfl
  have hindex : (hopSummaryJson summary).requireUint "index" = .ok summary.index.value.toNat := requireUint_eq rfl
  have hrange : ¬summary.index.value.toNat > 0xFFFFFFFF := by
    have hlt := summary.index.lt_maxExclusive
    omega
  have hhop : jsonId (hopSummaryJson summary) "hop" = .ok summary.hop := jsonId_eq rfl
  have hincluded : (hopSummaryJson summary).requireUint "exchanges_included" = .ok summary.exchangesIncluded :=
    requireUint_eq rfl
  have hobserved : (hopSummaryJson summary).requireUint "dwells_observed" = .ok summary.dwellsObserved :=
    requireUint_eq rfl
  have hmissing : (hopSummaryJson summary).requireUint "dwells_missing" = .ok summary.dwellsMissing :=
    requireUint_eq rfl
  have hunsupported : (hopSummaryJson summary).requireUint "dwells_unsupported" = .ok summary.dwellsUnsupported :=
    requireUint_eq rfl
  have hqueueObserved : (hopSummaryJson summary).requireUint "queue_dwells_observed" =
      .ok summary.queueDwellsObserved := requireUint_eq rfl
  have hqueueUnsupported : (hopSummaryJson summary).requireUint "queue_dwells_unsupported" =
      .ok summary.queueDwellsUnsupported := requireUint_eq rfl
  have hcoverage : (hopSummaryJson summary).requireUint "coverage_ppm" = .ok summary.coveragePpm := requireUint_eq rfl
  have hdwellObject : (hopSummaryJson summary).requireObject "dwell" = .ok (distributionJson summary.dwell) :=
    requireObject_eq rfl
  have hqueueObject : (hopSummaryJson summary).requireObject "queue_dwell" =
      .ok (distributionJson summary.queueDwell) := requireObject_eq rfl
  have hstate : jsonNamed states "unknown evidence state" (hopSummaryJson summary) "evidence_state" =
      .ok summary.evidence.state := jsonNamed_eq states_all rfl
  have hfreshness : jsonKnownName freshnesses (hopSummaryJson summary) "freshness" .unknown =
      summary.evidence.freshness := jsonKnownName_eq freshnesses_all rfl
  have hconfidence : jsonKnownName confidences (hopSummaryJson summary) "confidence" .none =
      summary.evidence.confidence := jsonKnownName_eq confidences_all rfl
  have hfind : (hopSummaryJson summary).find "reasons" = some (.array (summary.evidence.reasons.map reasonJson)) := rfl
  unfold decodeHopSummary
  simp only [hguard, hindex, hrange, hhop, hincluded, hobserved, hmissing, hunsupported, hqueueObserved,
    hqueueUnsupported, hcoverage, hdwellObject, hdwell, hqueueObject, hqueueDwell, hstate, hfreshness, hconfidence,
    hfind, decodeReasons_json, addReasons_parts, fromValue_toNat, bind, Except.bind, pure, Except.pure, if_false]

theorem TimeWindow.make_of_valid {window : TimeWindow} (h : window.valid = true) :
    make window.start window.stop = .ok window := by
  simp only [TimeWindow.valid, Bool.and_eq_true, beq_iff_eq, decide_eq_true_eq] at h
  obtain ⟨⟨⟨hstart, hstop⟩, hdomain⟩, hless⟩ := h
  unfold make
  rw [hstart, hstop, if_neg (by decide), if_neg (not_not.mpr hdomain), if_neg (Int64.not_le.mpr hless)]

theorem decodeTimeWindow_json {window : TimeWindow} (h : window.valid = true) :
    decodeTimeWindow (timeWindowJson window) = .ok window := by
  have hguard : guardObject (timeWindowJson window) "time window must be an object" = .ok () := rfl
  have hstart : (timeWindowJson window).requireInt "from_ns" = .ok window.start.ns.toInt := requireInt_eq rfl
  have hstop : (timeWindowJson window).requireInt "to_ns" = .ok window.stop.ns.toInt := requireInt_eq rfl
  have hdomainText : (timeWindowJson window).requireString "clock_domain" = .ok (optionalHex window.start.domain) :=
    requireString_eq rfl
  have hmake := TimeWindow.make_of_valid h
  simp only [TimeWindow.valid, Bool.and_eq_true, beq_iff_eq, decide_eq_true_eq] at h
  obtain ⟨⟨⟨hvalid, -⟩, hdomain⟩, -⟩ := h
  have hhex : optionalHex window.start.domain = window.start.domain.toHex := if_pos hvalid
  have hmade : TimeWindow.make ⟨window.start.ns, window.start.domain⟩ ⟨window.stop.ns, window.start.domain⟩ =
      .ok window := by
    have hsame : (⟨window.stop.ns, window.start.domain⟩ : Timestamp) = window.stop := by rw [hdomain]
    rw [hsame]
    exact hmake
  unfold decodeTimeWindow
  rw [hguard, hstart, hstop, hdomainText, hhex]
  simp only [bind, Except.bind]
  rw [if_neg (by rw [toHex_ne_nil]; exact Bool.false_ne_true), StrongId.parseHex_toHex]
  dsimp only
  rw [Int64.ofInt_toInt, Int64.ofInt_toInt, hmade]

end LatencyObservatory.Stats
