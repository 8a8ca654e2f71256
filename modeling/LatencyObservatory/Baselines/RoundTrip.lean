import LatencyObservatory.Baselines.Baseline
import LatencyObservatory.Stats.RoundTrip

/-!
# Baselines outlive the process

The text of a baseline leaves out the reasons of its evidence and names no clock domain for its creation. Neither is
looked at by a comparison. What decides whether the text is read back at all are three checks of the decoder that
the registry does not make: that of the name, those of the histogram's bounds under the default limits, and those of
the probes.
-/

namespace LatencyObservatory.Baselines

open LatencyObservatory.Core LatencyObservatory.Model LatencyObservatory.Stats JsonValue

theorem name_of_parse {input : Bytes} {name : Name} (h : Name.parse input = .ok name) : name.str = input := by
  unfold Name.parse at h
  split at h
  · cases h
  · obtain ⟨-, h⟩ := guard_eq_ok_iff.mp h
    obtain ⟨-, h⟩ := guard_eq_ok_iff.mp h
    obtain ⟨-, h⟩ := guard_eq_ok_iff.mp h
    cases h
    rfl

theorem spec_of_make {bounds : List Nanos} {limits : Limits} {spec : HistogramSpec}
    (h : HistogramSpec.make bounds limits = .ok spec) : spec = ⟨bounds⟩ := by
  unfold HistogramSpec.make at h
  obtain ⟨-, h⟩ := guard_eq_ok_iff.mp h
  cases hcheck : HistogramSpec.checkBounds none bounds with
  | error e =>
    rw [hcheck] at h
    cases h
  | ok u =>
    rw [hcheck] at h
    cases h
    rfl

theorem valid_of_make {numerator denominator : UInt32} {probe : QuantileProbe}
    (h : QuantileProbe.make numerator denominator = .ok probe) : (⟨numerator, denominator⟩ : QuantileProbe).Valid := by
  unfold QuantileProbe.make at h
  obtain ⟨-, h⟩ := guard_eq_ok_iff.mp h
  obtain ⟨hproper, -⟩ := guard_eq_ok_iff.mp h
  rw [not_or, gt_iff_lt, UInt32.lt_iff_toNat_lt, ← UInt32.toNat_inj, UInt32.toNat_zero] at hproper
  exact ⟨by simp only; omega, by simp only; omega⟩

/-! ### The tree of a baseline -/

def baselineJson (b : Baseline) : JsonValue :=
  .object [(text "baseline", .string b.id.toHex),
    (text "name", .string b.name.str),
    (text "path", .string b.path.toHex),
    (text "generation", .string b.generation.toHex),
    (text "clock_domain", .string b.domain.toHex),
    (text "revision", .number b.revision.value.toNat),
    (text "source", .string b.source.toHex),
    (text "synthetic", .bool b.synthetic),
    (text "created_at_ns", .number b.createdAt.ns.toInt),
    (text "exchange_count", .number b.exchangeCount),
    (text "policy_digest", .string b.policyDigest),
    (text "histogram", histogramSpecJson b.histogram),
    (text "probes", .array (b.probes.map fun probe => .string probe.render)),
    (text "window", timeWindowJson b.window),
    (text "end_to_end", distributionJson b.endToEnd),
    (text "hops", .array (b.hops.map hopSummaryJson)),
    (text "evidence_state", .string (nameOf states (text "unknown") b.evidence.state))]

theorem writeBaseline_eq (w : JsonWriter) (b : Baseline) : writeBaseline w b = w.writeValue (baselineJson b) := by
  have hprobe : ∀ (w : JsonWriter) (probe : QuantileProbe),
      w.valueString probe.render = w.writeValue (.string probe.render) := fun _ _ => rfl
  simp only [writeBaseline, writeHistogramSpec_eq, writeTimeWindow_eq, writeDistribution_eq, JsonWriter.fieldUint_eq,
    JsonWriter.foldl_writes hprobe, JsonWriter.foldl_writes writeHopSummary_eq]
  rfl

/-- What a baseline is that was made of a summary over some exchanges. -/
structure Baseline.Of (n : Nat) (b : Baseline) : Prop where
  revision : b.revision.valid = true
  window : b.window.valid = true
  exchangeCount : b.exchangeCount ≤ n
  endToEnd : ∃ m ≤ n, b.endToEnd.Of b.histogram b.probes m
  hops : ∀ hop ∈ b.hops, hop.Of b.histogram b.probes n

theorem baselineJson_wellFormed {n : Nat} {b : Baseline} (h : b.Of n) (hexchanges : n < 2 ^ 63)
    (hbounds : b.histogram.bucketCount < 2 ^ 63) : (baselineJson b).WellFormed := by
  obtain ⟨m, hm, hendToEnd⟩ := h.endToEnd
  have hprobes : (JsonValue.array (b.probes.map fun probe => .string probe.render)).WellFormed := by
    rw [WellFormed, itemsWellFormed_map]
    exact fun _ _ => trivial
  have hhops : (JsonValue.array (b.hops.map hopSummaryJson)).WellFormed := by
    rw [WellFormed, itemsWellFormed_map]
    exact fun hop hhop => hopSummaryJson_wellFormed ((h.hops hop hhop).fits hexchanges hbounds)
  exact ⟨by simp only [List.map]; decide, trivial, trivial, trivial, trivial, trivial, representable_uint32 _, trivial,
    trivial, representable_toInt _, representable_natCast (Nat.lt_of_le_of_lt h.exchangeCount hexchanges), trivial,
    histogramSpecJson_wellFormed _, hprobes, timeWindowJson_wellFormed _,
    distributionJson_wellFormed (hendToEnd.fits (Nat.lt_of_le_of_lt hm hexchanges) hbounds), hhops, trivial, trivial⟩

theorem baselineJson_nesting (b : Baseline) : (baselineJson b).nesting ≤ 7 := by
  have hhistogram := histogramSpecJson_nesting b.histogram
  have hendToEnd := distributionJson_nesting b.endToEnd
  have hwindow : (timeWindowJson b.window).nesting ≤ 1 := Nat.le_refl _
  have hprobes := itemsNesting_map_le (fun probe (_ : probe ∈ b.probes) =>
    show (JsonValue.string probe.render).nesting ≤ 0 from Nat.le_refl 0)
  have hhops := itemsNesting_map_le (fun hop (_ : hop ∈ b.hops) => hopSummaryJson_nesting hop)
  simp only [baselineJson, nesting, membersNesting]
  omega

/-! ### Reading -/

/-- The checks of the decoder that the registry does not make. -/
structure Baseline.Readable (b : Baseline) : Prop where
  name : Name.parse b.name.str = .ok b.name
  histogram : HistogramSpec.make b.histogram.bounds {} = .ok b.histogram
  probes : ∀ probe ∈ b.probes, probe.Valid

def restoredHop (hop : HopSummary) : HopSummary :=
  { hop with evidence := { hop.evidence with reasonsTruncated := false } }

/-- What comes back of a baseline: of the evidence only the state, and the creation in the baseline's own domain. -/
def Baseline.restored (b : Baseline) : Baseline :=
  { b with
    createdAt := ⟨b.createdAt.ns, b.domain⟩
    hops := b.hops.map restoredHop
    evidence := (default : Evidence).setState b.evidence.state }

theorem decodeMeasured {spec : HistogramSpec} {probes : List QuantileProbe} {n : Nat} {d : Distribution}
    (h : d.Of spec probes n) (hspec : HistogramSpec.make spec.bounds {} = .ok spec)
    (hprobes : ∀ probe ∈ probes, probe.Valid) : decodeDistribution (distributionJson d) = .ok d := by
  apply decodeDistribution_json h.toShaped
  · rw [h.histogram.bounds]
    exact hspec
  · rw [h.listed]
    exact hprobes

theorem decodeProbe_json (probe : QuantileProbe) :
    (do parseQuantileProbe (← (JsonValue.string probe.render).asString) : Except Error QuantileProbe) =
      QuantileProbe.make probe.numerator probe.denominator :=
  parseQuantileProbe_render probe

theorem decodeBaseline_json {n : Nat} {b : Baseline} (h : b.Of n) (hreadable : b.Readable) :
    decodeBaseline (baselineJson b) = .ok b.restored := by
  obtain ⟨m, -, hendToEnd⟩ := h.endToEnd
  have hguard : guardObject (baselineJson b) "baseline must be an object" = .ok () := rfl
  have hid : jsonId (baselineJson b) "baseline" = .ok b.id := jsonId_eq rfl
  have hname : jsonName (baselineJson b) "name" = .ok b.name := jsonName_eq hreadable.name rfl
  have hpath : jsonId (baselineJson b) "path" = .ok b.path := jsonId_eq rfl
  have hgeneration : jsonId (baselineJson b) "generation" = .ok b.generation := jsonId_eq rfl
  have hdomain : jsonId (baselineJson b) "clock_domain" = .ok b.domain := jsonId_eq rfl
  have hrevision : jsonRevision (baselineJson b) "revision" = .ok b.revision := jsonRevision_eq h.revision rfl
  have hsource : jsonOptionalId (baselineJson b) "source" = .ok b.source := by
    have hhex : jsonOptionalIdHex (baselineJson b) "source" = some b.source.toHex := by
      show (if b.source.toHex.isEmpty then none else some b.source.toHex) = _
      rw [toHex_ne_nil, if_neg Bool.false_ne_true]
    unfold jsonOptionalId
    rw [hhex]
    exact b.source.parseHex_toHex
  have hsynthetic : (baselineJson b).requireBool "synthetic" = .ok b.synthetic := requireBool_eq rfl
  have hcreated : (baselineJson b).requireInt "created_at_ns" = .ok b.createdAt.ns.toInt := requireInt_eq rfl
  have hcount : (baselineJson b).requireUint "exchange_count" = .ok b.exchangeCount := requireUint_eq rfl
  have hdigest : (baselineJson b).requireString "policy_digest" = .ok b.policyDigest := requireString_eq rfl
  have hspec : (baselineJson b).requireObject "histogram" = .ok (histogramSpecJson b.histogram) := requireObject_eq rfl
  have hhistogram := (decodeHistogramSpec_json b.histogram).trans hreadable.histogram
  have hprobeItems : (baselineJson b).requireArray "probes" =
      .ok (b.probes.map fun probe => .string probe.render) := requireArray_eq rfl
  have hprobes : decodeAll (fun entry => do parseQuantileProbe (← entry.asString))
      (b.probes.map fun probe => .string probe.render) = .ok b.probes :=
    decodeAll_map fun probe hprobe =>
      (decodeProbe_json probe).trans (QuantileProbe.make_of_valid (hreadable.probes probe hprobe))
  have hwindowObject : (baselineJson b).requireObject "window" = .ok (timeWindowJson b.window) := requireObject_eq rfl
  have hwindow := decodeTimeWindow_json h.window
  have hmeasured : (baselineJson b).requireObject "end_to_end" = .ok (distributionJson b.endToEnd) :=
    requireObject_eq rfl
  have hdistribution := decodeMeasured hendToEnd hreadable.histogram hreadable.probes
  have hhopItems : (baselineJson b).requireArray "hops" = .ok (b.hops.map hopSummaryJson) := requireArray_eq rfl
  have hhops : decodeAll decodeHopSummary (b.hops.map hopSummaryJson) = .ok (b.hops.map restoredHop) := by
    apply decodeAll_map_map
    intro hop hhop
    obtain ⟨k, -, hdwell⟩ := (h.hops hop hhop).dwell
    obtain ⟨l, -, hqueueDwell⟩ := (h.hops hop hhop).queueDwell
    exact decodeHopSummary_json (decodeMeasured hdwell hreadable.histogram hreadable.probes)
      (decodeMeasured hqueueDwell hreadable.histogram hreadable.probes)
  have hstate : jsonNamed states "unknown evidence state" (baselineJson b) "evidence_state" = .ok b.evidence.state :=
    jsonNamed_eq states_all rfl
  simp only [bind, Except.bind] at hprobes
  unfold decodeBaseline
  simp only [hguard, hid, hname, hpath, hgeneration, hdomain, hrevision, hsource, hsynthetic, hcreated, hcount,
    hdigest, hspec, hhistogram, hprobeItems, hprobes, hwindowObject, hwindow, hmeasured, hdistribution, hhopItems,
    hhops, hstate, bind, Except.bind, pure, Except.pure, Int64.ofInt_toInt]
  rfl

theorem readable_of_decoded {b b' : Baseline} (h : decodeBaseline (baselineJson b) = .ok b') : b.Readable := by
  have hspec : (baselineJson b).requireObject "histogram" = .ok (histogramSpecJson b.histogram) := requireObject_eq rfl
  have hprobeItems : (baselineJson b).requireArray "probes" =
      .ok (b.probes.map fun probe => .string probe.render) := requireArray_eq rfl
  have hnameText : (baselineJson b).requireString "name" = .ok b.name.str := requireString_eq rfl
  unfold decodeBaseline at h
  obtain ⟨_, -, h⟩ := bind_eq_ok_iff.mp h
  obtain ⟨_, -, h⟩ := bind_eq_ok_iff.mp h
  obtain ⟨name, hname, h⟩ := bind_eq_ok_iff.mp h
  obtain ⟨_, -, h⟩ := bind_eq_ok_iff.mp h
  obtain ⟨_, -, h⟩ := bind_eq_ok_iff.mp h
  obtain ⟨_, -, h⟩ := bind_eq_ok_iff.mp h
  obtain ⟨_, -, h⟩ := bind_eq_ok_iff.mp h
  obtain ⟨_, -, h⟩ := bind_eq_ok_iff.mp h
  obtain ⟨_, -, h⟩ := bind_eq_ok_iff.mp h
  obtain ⟨_, -, h⟩ := bind_eq_ok_iff.mp h
  obtain ⟨_, -, h⟩ := bind_eq_ok_iff.mp h
  obtain ⟨_, -, h⟩ := bind_eq_ok_iff.mp h
  obtain ⟨object, hobject, h⟩ := bind_eq_ok_iff.mp h
  obtain ⟨histogram, hhistogram, h⟩ := bind_eq_ok_iff.mp h
  obtain ⟨items, hitems, h⟩ := bind_eq_ok_iff.mp h
  obtain ⟨probes, hprobes, -⟩ := bind_eq_ok_iff.mp h
  rw [hspec, Except.ok.injEq] at hobject
  rw [hprobeItems, Except.ok.injEq] at hitems
  subst hobject hitems
  refine ⟨?_, ?_, fun probe hprobe => ?_⟩
  · unfold jsonName at hname
    rw [hnameText] at hname
    have hparse : Name.parse b.name.str = .ok name := hname
    rw [hparse, show name = b.name from congrArg Name.mk (name_of_parse hparse)]
  · rw [decodeHistogramSpec_json] at hhistogram
    rw [hhistogram, spec_of_make hhistogram]
  · obtain ⟨value, hvalue⟩ := decodeAll_map_ok hprobes probe hprobe
    rw [decodeProbe_json] at hvalue
    exact valid_of_make hvalue

/-! ### Comparing -/

theorem find?_restored (hops : List HopSummary) (index : HopIndex) :
    (hops.map restoredHop).find? (fun candidate => candidate.index == index) =
      (hops.find? fun candidate => candidate.index == index).map restoredHop := by
  rw [List.find?_map]
  rfl

theorem compare_restored (b : Baseline) (later : PathSummary) (policy : RuntimePolicy) :
    compare b.restored later policy = compare b later policy := by
  have hmismatches : checkMismatches b.restored later policy = checkMismatches b later policy := rfl
  have hhops : ∀ hop : HopSummary,
      ((b.restored.hops.find? fun candidate => candidate.index == hop.index).map fun candidate =>
        classifyAnomaly hop.dwell candidate.dwell hop.index hop.hop policy) =
      (b.hops.find? fun candidate => candidate.index == hop.index).map fun candidate =>
        classifyAnomaly hop.dwell candidate.dwell hop.index hop.hop policy := by
    intro hop
    show ((b.hops.map restoredHop).find? fun candidate => candidate.index == hop.index).map _ = _
    rw [find?_restored, Option.map_map]
    rfl
  unfold compare
  rw [hmismatches]
  simp only [hhops]
  rfl

/-- A baseline survives a restart: its text is parsed and decoded, and whatever is compared with the result is
answered as before. -/
def Baseline.Survives (policy : RuntimePolicy) (b : Baseline) : Prop :=
  ∃ tree b', parseJson (encodeWith fun w => writeBaseline w b) policy.limits.maxJsonDepth = .ok tree ∧
    decodeBaseline tree = .ok b' ∧ ∀ later, compare b' later policy = compare b later policy

theorem survives_iff {n : Nat} {b : Baseline} {policy : RuntimePolicy} (h : b.Of n) (hexchanges : n < 2 ^ 63)
    (hbounds : b.histogram.bucketCount < 2 ^ 63) (hdepth : 7 ≤ policy.limits.maxJsonDepth) :
    b.Survives policy ↔ b.Readable := by
  have hparse : parseJson (encodeWith fun w => writeBaseline w b) policy.limits.maxJsonDepth =
      .ok (baselineJson b) := by
    have hnesting := baselineJson_nesting b
    unfold encodeWith
    beta_reduce
    rw [writeBaseline_eq]
    exact parse_written (baselineJson_wellFormed h hexchanges hbounds) (by omega) false
  constructor
  · rintro ⟨tree, b', htree, hdecode, -⟩
    rw [hparse, Except.ok.injEq] at htree
    subst htree
    exact readable_of_decoded hdecode
  · intro hreadable
    exact ⟨_, _, hparse, decodeBaseline_json h hreadable, fun later => compare_restored b later policy⟩

end LatencyObservatory.Baselines
