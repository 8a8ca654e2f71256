import LatencyObservatory.Baselines.Baseline
import LatencyObservatory.Stats.Exact

/-!
# What the deltas of an anomaly mean

The mean delta and the ratio are what they are called. The delta called p99 is looked up in the probe lists of
the two distributions: where a list does not name the probe 99/100 literally, its last quantile is taken instead,
whatever its probability.
-/

namespace LatencyObservatory.Baselines

open LatencyObservatory.Core LatencyObservatory.Model LatencyObservatory.Stats

/-! ### The lookup -/

/-- The probe 99/100. -/
def p99 : QuantileProbe := ⟨99, 100⟩

theorem p99_valid : p99.Valid := ⟨by decide, by decide⟩

/-- The probe stands for the probability 99/100. -/
def IsP99 (probe : QuantileProbe) : Prop :=
  probe.numerator.toNat * 100 = 99 * probe.denominator.toNat

/-- The probe whose quantile is read: 99/100 if it is listed as such, otherwise the last one. -/
def readProbe (probes : List QuantileProbe) : Option QuantileProbe :=
  if p99 ∈ probes then some p99 else probes.getLast?

theorem IsP99.rank_eq {probe : QuantileProbe} (h : IsP99 probe) (hvalid : probe.Valid) (count : Nat) :
    probe.rank count = p99.rank count := by
  have hnumerator : p99.numerator.toNat = 99 := rfl
  have hdenominator : p99.denominator.toNat = 100 := rfl
  unfold IsP99 at h
  apply Nat.le_antisymm
  · exact hvalid.rank_mono p99_valid (by rw [hnumerator, hdenominator]; omega) count
  · exact p99_valid.rank_mono hvalid (by rw [hnumerator, hdenominator]; omega) count

theorem readProbe_mem {probes : List QuantileProbe} {probe : QuantileProbe} (h : readProbe probes = some probe) :
    probe ∈ probes := by
  unfold readProbe at h
  split_ifs at h with hlisted
  · cases h
    exact hlisted
  · exact List.mem_of_getLast? h

theorem readProbe_isSome {probes : List QuantileProbe} (h : probes ≠ []) : ∃ probe, readProbe probes = some probe := by
  unfold readProbe
  split_ifs
  · exact ⟨p99, rfl⟩
  · exact ⟨_, List.getLast?_eq_some_getLast h⟩

theorem quantileAt_eq_some_iff {values : List Nanos} {spec : HistogramSpec} {probes : List QuantileProbe}
    {d : Distribution} (h : d.Describes values spec probes) (x : Nanos) :
    quantileAt d 99 100 = some x ↔
      ∃ probe, readProbe probes = some probe ∧ Lib.IsNth (· ≤ ·) values (probe.rank values.length) x := by
  have hlookup : ∀ (i : Nat) (probe : QuantileProbe), probes[i]? = some probe →
      ((d.quantiles[i]?).getD none = some x ↔ Lib.IsNth (· ≤ ·) values (probe.rank values.length) x) := by
    intro i probe hprobe
    rw [← h.quantiles.2 i probe hprobe x]
    cases d.quantiles[i]? <;> simp
  have hsame : ∀ probe : QuantileProbe, (probe.numerator == 99 && probe.denominator == 100) = true ↔ probe = p99 := by
    rintro ⟨numerator, denominator⟩
    simp [p99]
  unfold quantileAt readProbe
  rw [h.listed]
  cases hfind : probes.findIdx? fun probe => probe.numerator == 99 && probe.denominator == 100 with
  | some i =>
    obtain ⟨hlt, hfound, -⟩ := List.findIdx?_eq_some_iff_getElem.mp hfind
    have hp99 := (hsame _).mp hfound
    have hmem : p99 ∈ probes := hp99 ▸ List.getElem_mem hlt
    rw [if_pos hmem]
    simp only [Option.some.injEq, exists_eq_left']
    exact hlookup i p99 (by rw [List.getElem?_eq_getElem hlt, hp99])
  | none =>
    have hmem : p99 ∉ probes := by
      intro hmem
      have := List.findIdx?_eq_none_iff.mp hfind p99 hmem
      rw [(hsame p99).mpr rfl] at this
      cases this
    rw [if_neg hmem]
    simp only [List.getLast?_eq_getElem?]
    rw [h.quantiles.1]
    cases hlast : probes[probes.length - 1]? with
    | none =>
      have hnone : d.quantiles[probes.length - 1]? = none := by
        rw [List.getElem?_eq_none_iff] at hlast ⊢
        rw [h.quantiles.1]
        exact hlast
      simp [hnone]
    | some probe =>
      simp only [Option.some.injEq, exists_eq_left']
      exact hlookup _ probe hlast

/-! ### Deltas -/

theorem delta_eq_some_iff {current reference : Option Nanos} (x : Nanos) :
    delta current reference = some x ↔
      ∃ m n, current = some m ∧ reference = some n ∧ x.toInt = m.toInt - n.toInt := by
  unfold delta
  simp only [Option.bind_eq_some_iff]
  constructor
  · rintro ⟨m, hm, n, hn, hx⟩
    exact ⟨m, n, hm, hn, checkedSubI64_toInt hx⟩
  · rintro ⟨m, n, hm, hn, hx⟩
    refine ⟨m, hm, n, hn, ?_⟩
    obtain ⟨y, hy⟩ := Option.isSome_iff_exists.mp
      ((checkedSubI64_isSome_iff m n).mpr (representable_iff_exists.mpr ⟨x, hx⟩))
    rw [hy, ← Int64.toInt_inj.mp (hx.trans (checkedSubI64_toInt hy).symm)]

theorem meanRatioPpm_eq {m n : Nanos} (hm : 0 ≤ m.toInt) (hn : 0 < n.toInt)
    (hfits : 1000000 * m.toInt.toNat / n.toInt.toNat < 2 ^ 64) :
    meanRatioPpm (some m) (some n) = 1000000 * m.toInt.toNat / n.toInt.toNat := by
  have hpositive : ¬n ≤ 0 := by
    rw [Int64.le_iff_toInt_le, Int64.toInt_zero]
    omega
  have hnonneg : ¬m < 0 := by
    rw [Int64.lt_iff_toInt_lt, Int64.toInt_zero]
    omega
  have hword : n.toUInt64.toNat = n.toInt.toNat := toNat_toUInt64_of_nonneg hn.le
  have hdivisor : n.toUInt64 ≠ 0 := by
    intro hzero
    rw [hzero, UInt64.toNat_zero] at hword
    omega
  obtain ⟨hquotient, -⟩ := UInt128.divmod_toNat (UInt128.mulU64 m.toUInt64 1000000) hdivisor
  rw [UInt128.mulU64_toNat, toNat_toUInt64_of_nonneg hm, hword, show (1000000 : UInt64).toNat = 1000000 from rfl,
    Nat.mul_comm] at hquotient
  unfold meanRatioPpm
  simp only
  rw [if_neg hpositive, if_neg hnonneg]
  generalize (UInt128.mulU64 m.toUInt64 1000000).divmod n.toUInt64 = found at hquotient
  obtain ⟨quotient, remainder⟩ := found
  simp only at hquotient ⊢
  rw [← hquotient] at hfits ⊢
  have hfits' : quotient.fitsU64 = true := (UInt128.fitsU64_iff _).mpr hfits
  rw [hfits']
  exact UInt128.lo_toNat hfits

theorem classifyAnomaly_numbers (current reference : Distribution) (index : HopIndex) (hop : HopId)
    (policy : RuntimePolicy) :
    (classifyAnomaly current reference index hop policy).meanDeltaNs = delta current.meanNs reference.meanNs ∧
      (classifyAnomaly current reference index hop policy).p99DeltaNs =
        delta (quantileAt current 99 100) (quantileAt reference 99 100) ∧
      (classifyAnomaly current reference index hop policy).ratioPpm = meanRatioPpm current.meanNs reference.meanNs := by
  unfold classifyAnomaly
  simp only
  by_cases hfew : current.count < policy.anomaly.minSamples ∨ reference.count < policy.anomaly.minSamples
  · rw [if_pos hfew]
    exact ⟨rfl, rfl, rfl⟩
  · rw [if_neg hfew]
    cases delta current.meanNs reference.meanNs <;> exact ⟨rfl, rfl, rfl⟩

/-- The anomaly of two distributions, of the values `current` and `reference`, means what its parts are called. -/
structure AnomalyEvidence.Meant (current reference : List Nanos) (currentProbes referenceProbes : List QuantileProbe)
    (now before : Distribution) (anomaly : AnomalyEvidence) : Prop where
  meanDelta : ∀ x, anomaly.meanDeltaNs = some x ↔
    ∃ m n, now.meanNs = some m ∧ before.meanNs = some n ∧ x.toInt = m.toInt - n.toInt
  p99Delta : ∀ x, anomaly.p99DeltaNs = some x ↔
    (∃ probe ∈ currentProbes, IsP99 probe) ∧ (∃ probe ∈ referenceProbes, IsP99 probe) ∧
      ∃ m n, Lib.IsNth (· ≤ ·) current (p99.rank current.length) m ∧
        Lib.IsNth (· ≤ ·) reference (p99.rank reference.length) n ∧ x.toInt = m.toInt - n.toInt
  ratio : ∀ m n, now.meanNs = some m → before.meanNs = some n → 0 ≤ m.toInt → 0 < n.toInt →
    1000000 * m.toInt.toNat / n.toInt.toNat < 2 ^ 64 →
      anomaly.ratioPpm = 1000000 * m.toInt.toNat / n.toInt.toNat

/-- The distribution is the aggregate of these values with these probes. -/
def Sampled (values : List Nanos) (probes : List QuantileProbe) (d : Distribution) : Prop :=
  ∃ spec limits, HistogramSpec.Valid spec ∧ values.length < 2 ^ 63 ∧ aggregate values spec probes limits = .ok d

/-- What is read from the probe list stands for 99/100. -/
def ReadsP99 (probes : List QuantileProbe) : Prop :=
  ∃ probe, readProbe probes = some probe ∧ IsP99 probe

instance (probe : QuantileProbe) : Decidable (IsP99 probe) := inferInstanceAs (Decidable (_ = _))

section Reports

variable {current reference : List Nanos} {currentProbes referenceProbes : List QuantileProbe}
  {now before : Distribution} (hcurrent : ∀ probe ∈ currentProbes, probe.Valid)
  (hreference : ∀ probe ∈ referenceProbes, probe.Valid)
include hcurrent hreference

theorem p99Delta_eq_some_iff (hnow : Sampled current currentProbes now) (hbefore : Sampled reference referenceProbes before)
    (index : HopIndex) (hop : HopId) (policy : RuntimePolicy) (x : Nanos) :
    (classifyAnomaly now before index hop policy).p99DeltaNs = some x ↔
      ∃ p q m n, readProbe currentProbes = some p ∧ readProbe referenceProbes = some q ∧
        Lib.IsNth (· ≤ ·) current (p.rank current.length) m ∧
        Lib.IsNth (· ≤ ·) reference (q.rank reference.length) n ∧ x.toInt = m.toInt - n.toInt := by
  obtain ⟨spec, limits, hspec, hlength, hd⟩ := hnow
  obtain ⟨spec', limits', hspec', hlength', hd'⟩ := hbefore
  have hdescribes := describes_of_aggregate hspec hcurrent hlength hd
  have hdescribes' := describes_of_aggregate hspec' hreference hlength' hd'
  rw [(classifyAnomaly_numbers now before index hop policy).2.1, delta_eq_some_iff]
  simp only [quantileAt_eq_some_iff hdescribes, quantileAt_eq_some_iff hdescribes']
  constructor
  · rintro ⟨m, n, ⟨p, hp, hm⟩, ⟨q, hq, hn⟩, hx⟩
    exact ⟨p, q, m, n, hp, hq, hm, hn, hx⟩
  · rintro ⟨p, q, m, n, hp, hq, hm, hn, hx⟩
    exact ⟨m, n, ⟨p, hp, hm⟩, ⟨q, hq, hn⟩, hx⟩

/-- If what is read stands for 99/100, or nothing is read, the anomaly means what it is called. -/
theorem meant_of_reads (h : currentProbes = [] ∨ referenceProbes = [] ∨ ReadsP99 currentProbes ∧ ReadsP99 referenceProbes)
    (hnow : Sampled current currentProbes now) (hbefore : Sampled reference referenceProbes before)
    (index : HopIndex) (hop : HopId) (policy : RuntimePolicy) :
    (classifyAnomaly now before index hop policy).Meant current reference currentProbes referenceProbes now before := by
  obtain ⟨hmean, -, hratio⟩ := classifyAnomaly_numbers now before index hop policy
  refine ⟨?_, ?_, ?_⟩
  · intro x
    rw [hmean]
    exact delta_eq_some_iff x
  · intro x
    rw [p99Delta_eq_some_iff hcurrent hreference hnow hbefore]
    rcases h with rfl | rfl | ⟨⟨p, hp, hp99⟩, ⟨q, hq, hq99⟩⟩
    · simp [readProbe]
    · simp [readProbe]
    · have hprank := hp99.rank_eq (hcurrent p (readProbe_mem hp)) current.length
      have hqrank := hq99.rank_eq (hreference q (readProbe_mem hq)) reference.length
      constructor
      · rintro ⟨p', q', m, n, hp', hq', hm, hn, hx⟩
        rw [hp, Option.some.injEq] at hp'
        rw [hq, Option.some.injEq] at hq'
        rw [← hp', hprank] at hm
        rw [← hq', hqrank] at hn
        exact ⟨⟨p, readProbe_mem hp, hp99⟩, ⟨q, readProbe_mem hq, hq99⟩, m, n, hm, hn, hx⟩
      · rintro ⟨-, -, m, n, hm, hn, hx⟩
        exact ⟨p, q, m, n, hp, hq, by rw [hprank]; exact hm, by rw [hqrank]; exact hn, hx⟩
  · intro m n hm hn hnonneg hpositive hfits
    rw [hratio, hm, hn]
    exact meanRatioPpm_eq hnonneg hpositive hfits

end Reports

/-! ### Values that tell two ranks apart -/

/-- The first values from zero on. -/
def ladder (n : Nat) : List Nanos :=
  (List.range n).map Int64.ofNat

theorem ladder_nodup {n : Nat} (hn : n < 2 ^ 63) : (ladder n).Nodup := by
  refine List.Nodup.map_on ?_ List.nodup_range
  intro a ha b hb hab
  rw [List.mem_range] at ha hb
  have := congrArg Int64.toInt hab
  rw [Int64.toInt_ofNat_of_lt (by omega), Int64.toInt_ofNat_of_lt (by omega)] at this
  omega

theorem length_ladder (n : Nat) : (ladder n).length = n := by
  rw [ladder, List.length_map, List.length_range]

theorem rank_ne_p99 {probe : QuantileProbe} (hvalid : probe.Valid) (h : ¬IsP99 probe) :
    probe.rank (100 * probe.denominator.toNat) ≠ p99.rank (100 * probe.denominator.toNat) := by
  have hpositive := hvalid.positive
  have hproper := hvalid.proper
  have hnumerator : p99.numerator.toNat = 99 := rfl
  have hdenominator : p99.denominator.toNat = 100 := rfl
  unfold IsP99 at h
  unfold QuantileProbe.rank
  rw [hnumerator, hdenominator, div_ceil _ (by omega), div_ceil _ (by omega)]
  have hleft : 100 * probe.denominator.toNat * probe.numerator.toNat =
      probe.denominator.toNat * (probe.numerator.toNat * 100) := by ring
  have hright : 100 * probe.denominator.toNat * 99 = 100 * (99 * probe.denominator.toNat) := by ring
  rw [hleft, hright, Nat.mul_div_cancel_left _ (by omega), Nat.mul_mod_right, Nat.mul_div_cancel_left _ (by omega),
    Nat.mul_mod_right]
  simpa using h

theorem rank_one {probe : QuantileProbe} (hvalid : probe.Valid) : probe.rank 1 = 1 := by
  obtain ⟨hlow, hhigh⟩ := hvalid.rank_bounds Nat.zero_lt_one
  omega

theorem sampled_exists (values : List Nanos) {probes : List QuantileProbe} (hprobes : ∀ probe ∈ probes, probe.Valid)
    (hlength : values.length < 2 ^ 63) : ∃ d, Sampled values probes d := by
  have hspec : HistogramSpec.Valid ⟨[]⟩ := ⟨by simp, List.Pairwise.nil⟩
  obtain ⟨d, hd, -⟩ := @aggregate_describes values ⟨[]⟩ probes
    { maxSamplesPerPath := values.length, maxQuantileProbes := probes.length } (Nat.le_refl _) (Nat.le_refl _) hspec
    hprobes hlength
  exact ⟨d, ⟨[]⟩, _, hspec, hlength, hd⟩

theorem exists_isNth {values : List Nanos} (hne : values ≠ []) (hlength : values.length < 2 ^ 63)
    {probe : QuantileProbe} (hvalid : probe.Valid) :
    ∃ x, Lib.IsNth (· ≤ ·) values (probe.rank values.length) x := by
  obtain ⟨x, -, hx⟩ := quantile_isNth hne hlength hvalid
  exact ⟨x, hx⟩

theorem isNth_zero {x : Nanos} (h : Lib.IsNth (· ≤ ·) [(0 : Nanos)] 1 x) : x = 0 := by
  have hzero : Lib.IsNth (· ≤ ·) [(0 : Nanos)] 1 0 := by
    constructor <;> decide
  exact h.unique hzero

theorem ladder_nonneg {n k : Nat} (hn : n < 2 ^ 63) (hk : 0 < k) {x : Nanos} (h : Lib.IsNth (· ≤ ·) (ladder n) k x) :
    0 ≤ x.toInt := by
  have hsome : 0 < (ladder n).countP fun y => y ≤ x := Nat.lt_of_lt_of_le hk h.2
  obtain ⟨y, hy, hle⟩ := List.countP_pos_iff.mp hsome
  obtain ⟨a, ha, rfl⟩ := List.mem_map.mp hy
  rw [List.mem_range] at ha
  rw [decide_eq_true_eq, Int64.le_iff_toInt_le, Int64.toInt_ofNat_of_lt (by omega)] at hle
  omega

section Misread

variable {currentProbes referenceProbes : List QuantileProbe} (hcurrent : ∀ probe ∈ currentProbes, probe.Valid)
  (hreference : ∀ probe ∈ referenceProbes, probe.Valid) {p q : QuantileProbe}
  (hp : readProbe currentProbes = some p) (hq : readProbe referenceProbes = some q)
  (h : ∀ current reference now before, Sampled current currentProbes now → Sampled reference referenceProbes before →
    (classifyAnomaly now before default .none {}).Meant current reference currentProbes referenceProbes now before)
include hcurrent hreference hp hq h

/-- The quantile read from the current values stands for 99/100: over a ladder it would show otherwise. -/
theorem current_isP99 : IsP99 p := by
  have hpValid := hcurrent p (readProbe_mem hp)
  have hqValid := hreference q (readProbe_mem hq)
  have hsize : 100 * p.denominator.toNat < 2 ^ 63 := by
    have := p.denominator.toNat_lt
    omega
  have hlength : (ladder (100 * p.denominator.toNat)).length < 2 ^ 63 := by rwa [length_ladder]
  have hne : ladder (100 * p.denominator.toNat) ≠ [] := by
    have hpositive := hpValid.positive
    have hproper := hpValid.proper
    rw [← List.length_pos_iff, length_ladder]
    omega
  obtain ⟨now, hnow⟩ := sampled_exists (ladder (100 * p.denominator.toNat)) hcurrent hlength
  obtain ⟨before, hbefore⟩ := sampled_exists [0] hreference (by decide)
  obtain ⟨m, hm⟩ := exists_isNth hne hlength hpValid
  obtain ⟨n, hn⟩ := @exists_isNth [0] (by simp) (by decide) q hqValid
  have hn0 : n = 0 := isNth_zero (by rw [← rank_one hqValid]; exact hn)
  have hreport := (p99Delta_eq_some_iff hcurrent hreference hnow hbefore default .none {} m).mpr
    ⟨p, q, m, n, hp, hq, hm, hn, by rw [hn0, Int64.toInt_zero, Int.sub_zero]⟩
  obtain ⟨-, -, m', n', hm', hn', hx⟩ := ((h _ _ now before hnow hbefore).p99Delta m).mp hreport
  have hn0' : n' = 0 := isNth_zero (by rw [← rank_one p99_valid]; exact hn')
  rw [hn0', Int64.toInt_zero, Int.sub_zero] at hx
  rw [← Int64.toInt_inj.mp hx] at hm'
  have hrank := hm.rank_unique (ladder_nodup hsize) hm'
  rw [length_ladder] at hrank
  by_contra hother
  exact rank_ne_p99 hpValid hother hrank

theorem reference_isP99 : IsP99 q := by
  have hpValid := hcurrent p (readProbe_mem hp)
  have hqValid := hreference q (readProbe_mem hq)
  have hsize : 100 * q.denominator.toNat < 2 ^ 63 := by
    have := q.denominator.toNat_lt
    omega
  have hlength : (ladder (100 * q.denominator.toNat)).length < 2 ^ 63 := by rwa [length_ladder]
  have hne : ladder (100 * q.denominator.toNat) ≠ [] := by
    have hpositive := hqValid.positive
    have hproper := hqValid.proper
    rw [← List.length_pos_iff, length_ladder]
    omega
  obtain ⟨now, hnow⟩ := sampled_exists [0] hcurrent (by decide)
  obtain ⟨before, hbefore⟩ := sampled_exists (ladder (100 * q.denominator.toNat)) hreference hlength
  obtain ⟨m, hm⟩ := @exists_isNth [0] (by simp) (by decide) p hpValid
  obtain ⟨n, hn⟩ := exists_isNth hne hlength hqValid
  have hm0 : m = 0 := isNth_zero (by rw [← rank_one hpValid]; exact hm)
  have hnonneg := ladder_nonneg hsize (hqValid.rank_bounds (List.length_pos_iff.mpr hne)).1 hn
  have hhigh := n.toInt_lt
  obtain ⟨x, hx⟩ : ∃ x : Nanos, x.toInt = m.toInt - n.toInt := by
    rw [hm0, Int64.toInt_zero]
    exact representable_iff_exists.mp ⟨by omega, by omega⟩
  have hreport := (p99Delta_eq_some_iff hcurrent hreference hnow hbefore default .none {} x).mpr
    ⟨p, q, m, n, hp, hq, hm, hn, hx⟩
  obtain ⟨-, -, m', n', hm', hn', hx'⟩ := ((h _ _ now before hnow hbefore).p99Delta x).mp hreport
  have hm0' : m' = 0 := isNth_zero (by rw [← rank_one p99_valid]; exact hm')
  rw [hx, hm0, hm0', Int.sub_right_inj] at hx'
  rw [← Int64.toInt_inj.mp hx'] at hn'
  have hrank := hn.rank_unique (ladder_nodup hsize) hn'
  rw [length_ladder] at hrank
  by_contra hother
  exact rank_ne_p99 hqValid hother hrank

end Misread

/-- **When the deltas of an anomaly mean what they are called.** For two lists of valid probes, the anomaly of any
two lists of values means what its parts are called exactly if one list names no probe or both lists lead to a
probe of the probability 99/100: the probe 99/100 itself, or the last one of a list without it. -/
theorem anomaly_meant_iff {currentProbes referenceProbes : List QuantileProbe}
    (hcurrent : ∀ probe ∈ currentProbes, probe.Valid) (hreference : ∀ probe ∈ referenceProbes, probe.Valid) :
    (∀ current reference now before index hop policy, Sampled current currentProbes now →
      Sampled reference referenceProbes before →
        (classifyAnomaly now before index hop policy).Meant current reference currentProbes referenceProbes now before) ↔
      currentProbes = [] ∨ referenceProbes = [] ∨ ReadsP99 currentProbes ∧ ReadsP99 referenceProbes := by
  constructor
  · intro h
    by_cases hnone : currentProbes = []
    · exact Or.inl hnone
    by_cases hnone' : referenceProbes = []
    · exact Or.inr (Or.inl hnone')
    obtain ⟨p, hp⟩ := readProbe_isSome hnone
    obtain ⟨q, hq⟩ := readProbe_isSome hnone'
    have hall := fun current reference now before hnow hbefore =>
      h current reference now before default .none {} hnow hbefore
    exact Or.inr (Or.inr ⟨⟨p, hp, current_isP99 hcurrent hreference hp hq hall⟩,
      ⟨q, hq, reference_isP99 hcurrent hreference hp hq hall⟩⟩)
  · intro h current reference now before index hop policy hnow hbefore
    exact meant_of_reads hcurrent hreference h hnow hbefore index hop policy

/-- The default probes name 99/100. -/
theorem default_probes_meant :
    ∃ now before, Sampled [10, 30, 20] defaultQuantileProbes now ∧ Sampled [5] defaultQuantileProbes before ∧
      (classifyAnomaly now before default .none {}).Meant [10, 30, 20] [5] defaultQuantileProbes defaultQuantileProbes
        now before := by
  obtain ⟨now, hnow⟩ := sampled_exists [10, 30, 20] defaultQuantileProbes_valid (by decide)
  obtain ⟨before, hbefore⟩ := sampled_exists [5] defaultQuantileProbes_valid (by decide)
  have hreads : ReadsP99 defaultQuantileProbes := ⟨p99, by decide, by decide⟩
  exact ⟨now, before, hnow, hbefore, (anomaly_meant_iff defaultQuantileProbes_valid defaultQuantileProbes_valid).mpr
    (Or.inr (Or.inr ⟨hreads, hreads⟩)) _ _ now before default .none {} hnow hbefore⟩

/-- With the median as the only probe, the difference of two medians is reported as a p99 delta. -/
theorem median_reported_as_p99 :
    ∃ now before, Sampled [10, 30, 20] [⟨1, 2⟩] now ∧ Sampled [5] [⟨1, 2⟩] before ∧
      (classifyAnomaly now before default .none {}).p99DeltaNs = some 15 ∧
      ¬(classifyAnomaly now before default .none {}).Meant [10, 30, 20] [5] [⟨1, 2⟩] [⟨1, 2⟩] now before := by
  have hvalid : ∀ probe ∈ [(⟨1, 2⟩ : QuantileProbe)], probe.Valid := by
    intro probe hprobe
    rw [List.mem_singleton.mp hprobe]
    exact ⟨by decide, by decide⟩
  obtain ⟨now, hnow⟩ := sampled_exists [10, 30, 20] hvalid (by decide)
  obtain ⟨before, hbefore⟩ := sampled_exists [5] hvalid (by decide)
  have hreport : (classifyAnomaly now before default .none {}).p99DeltaNs = some 15 :=
    (p99Delta_eq_some_iff hvalid hvalid hnow hbefore default .none {} 15).mpr
      ⟨⟨1, 2⟩, ⟨1, 2⟩, 20, 5, by decide, by decide, ⟨by decide, by decide⟩, ⟨by decide, by decide⟩, by decide⟩
  refine ⟨now, before, hnow, hbefore, hreport, ?_⟩
  intro hmeant
  obtain ⟨⟨probe, hprobe, hp99⟩, -⟩ := (hmeant.p99Delta 15).mp hreport
  rw [List.mem_singleton.mp hprobe] at hp99
  revert hp99
  decide

end LatencyObservatory.Baselines
