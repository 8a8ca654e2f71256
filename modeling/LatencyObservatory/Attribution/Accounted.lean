import LatencyObservatory.Attribution.Gate
import LatencyObservatory.Lib.Shares
import LatencyObservatory.Stats.Exact

/-!
# The accounted time

The accounted time of a produced decomposition is added up hop by hop in an unsigned word: a hop sum that is not
representable is skipped, and so is one that would take the word past its end. What is skipped is missing from the
accounted mean and from the whole that the shares refer to.
-/

namespace LatencyObservatory.Attribution

open LatencyObservatory.Core LatencyObservatory.Model LatencyObservatory.Stats LatencyObservatory.Baselines

/-! ### The exact sums -/

/-- The complete exchanges of a request, for a path of `n` hops. -/
def AttributionRequest.complete (request : AttributionRequest) (clocks : ClockRegistry) (n : Nat)
    (records : List MeasurementRecord) : List MeasurementRecord :=
  (request.included records).filter (isComplete clocks n)

theorem AttributionRequest.length_complete_le (request : AttributionRequest) (clocks : ClockRegistry) (n : Nat)
    (records : List MeasurementRecord) : (request.complete clocks n records).length ≤ records.length := by
  have hcomplete : (request.complete clocks n records).length ≤ (request.included records).length :=
    List.length_filter_le _ _
  have hincluded : (request.included records).length ≤ records.length := List.length_filter_le _ _
  omega

/-- The dwells of an exchange at the declared hops. -/
def dwells (n : Nat) (record : MeasurementRecord) : List Nanos :=
  (List.range n).filterMap (dwellAt · record)

/-- The sum of the dwells at one hop. -/
def hopSum (exchanges : List MeasurementRecord) (k : Nat) : Int :=
  exactSum (exchanges.filterMap (dwellAt k))

def hopSums (n : Nat) (exchanges : List MeasurementRecord) : List Int :=
  (List.range n).map (hopSum exchanges)

/-- The sum of all dwells of all exchanges. -/
def totalDwell (n : Nat) (exchanges : List MeasurementRecord) : Int :=
  exactSum (exchanges.flatMap (dwells n))

/-- A hop sum enters the accumulator if it is representable and the word can hold the total. -/
def fitsWord (total sum : Int) : Bool :=
  sum < 2 ^ 63 && total + sum < 2 ^ 64

theorem fitsWord_iff (total sum : Int) : fitsWord total sum = true ↔ sum < 2 ^ 63 ∧ total + sum < 2 ^ 64 := by
  unfold fitsWord
  rw [Bool.and_eq_true, decide_eq_true_eq, decide_eq_true_eq]

/-- What the accumulator leaves out of the accounted time. -/
def leftOut (n : Nat) (exchanges : List MeasurementRecord) : Int :=
  Lib.leftOut fitsWord 0 (hopSums n exchanges)

theorem sum_hopSums (n : Nat) (exchanges : List MeasurementRecord) :
    (hopSums n exchanges).sum = totalDwell n exchanges := by
  unfold hopSums hopSum totalDwell dwells
  rw [exactSum_flatMap]
  simp only [exactSum_filterMap]
  exact Lib.sum_map_sum_comm _ _ fun k record => (dwellAt k record).elim 0 Int64.toInt

section Exchanges

variable {clocks : ClockRegistry} {n : Nat} {exchanges : List MeasurementRecord}

/-- No dwell of the exchanges is negative. -/
def NonnegDwells (n : Nat) (exchanges : List MeasurementRecord) : Prop :=
  ∀ record ∈ exchanges, ∀ dwell ∈ dwells n record, 0 ≤ dwell

instance (n : Nat) (exchanges : List MeasurementRecord) : Decidable (NonnegDwells n exchanges) :=
  decidable_of_iff ((exchanges.all fun record => (dwells n record).all fun dwell => decide (0 ≤ dwell)) = true) (by
    unfold NonnegDwells
    simp only [List.all_eq_true, decide_eq_true_eq])

theorem NonnegDwells.hopSums_nonneg (h : NonnegDwells n exchanges) : ∀ sum ∈ hopSums n exchanges, 0 ≤ sum := by
  intro sum hsum
  unfold hopSums at hsum
  obtain ⟨k, hk, rfl⟩ := List.mem_map.mp hsum
  apply exactSum_nonneg
  intro value hvalue
  obtain ⟨record, hrecord, hdwell⟩ := List.mem_filterMap.mp hvalue
  exact h record hrecord value (List.mem_filterMap.mpr ⟨k, hk, hdwell⟩)

/-! ### A complete exchange -/

theorem accountedSum_toInt {α : Type} {f : α → Option Nanos} {l : List α} {before accounted : Nanos}
    (h : accountedSum before (l.map f) = some accounted) :
    accounted.toInt = before.toInt + exactSum (l.filterMap f) := by
  induction l generalizing before with
  | nil =>
    cases h
    simp [exactSum]
  | cons a rest ih =>
    rw [List.map_cons] at h
    rw [List.filterMap_cons]
    cases hvalue : f a with
    | none =>
      rw [hvalue] at h
      cases h
    | some value =>
      rw [hvalue] at h
      obtain ⟨sum, hsum, hrest⟩ := Option.bind_eq_some_iff.mp h
      simp only
      rw [ih hrest, checkedAddI64_toInt hsum, exactSum_cons, Int.add_assoc]

theorem isComplete_dwells {record : MeasurementRecord} (h : isComplete clocks n record = true) :
    0 ≤ endToEndOf record ∧ (∀ k < n, (dwellAt k record).isSome = true) ∧
      ∃ accounted, accountedOf n record = some accounted ∧ accounted.toInt = exactSum (dwells n record) := by
  unfold isComplete at h
  simp only [Bool.and_eq_true, decide_eq_true_eq, List.all_eq_true, List.mem_range] at h
  obtain ⟨⟨⟨-, hreadable⟩, hendToEnd⟩, hsum⟩ := h
  refine ⟨hendToEnd, ?_, ?_⟩
  · intro k hk
    have hhop := hreadable k hk
    unfold readable at hhop
    unfold dwellAt
    cases hfound : observationAt k record with
    | none =>
      rw [hfound] at hhop
      cases hhop
    | some observation =>
      rw [hfound, Option.any_some, Bool.and_eq_true] at hhop
      exact hhop.1
  · obtain ⟨accounted, haccounted⟩ := Option.isSome_iff_exists.mp hsum
    refine ⟨accounted, haccounted, ?_⟩
    have hexact := accountedSum_toInt haccounted
    rw [Int64.toInt_zero, Int.zero_add] at hexact
    exact hexact

theorem totalDwell_le (hcomplete : ∀ record ∈ exchanges, isComplete clocks n record = true) :
    totalDwell n exchanges ≤ (2 ^ 63 - 1) * exchanges.length := by
  unfold totalDwell
  rw [exactSum_flatMap]
  have hbound : ∀ sum ∈ exchanges.map fun record => exactSum (dwells n record), sum ≤ 2 ^ 63 - 1 := by
    intro sum hsum
    obtain ⟨record, hrecord, rfl⟩ := List.mem_map.mp hsum
    obtain ⟨-, -, accounted, -, hexact⟩ := isComplete_dwells (hcomplete record hrecord)
    have hhigh := accounted.toInt_lt
    omega
  have hsum := List.sum_le_card_nsmul _ _ hbound
  rw [nsmul_eq_mul, List.length_map, mul_comm] at hsum
  exact hsum

theorem length_dwellsAt (hcomplete : ∀ record ∈ exchanges, isComplete clocks n record = true) {k : Nat} (hk : k < n) :
    (exchanges.filterMap (dwellAt k)).length = exchanges.length := by
  induction exchanges with
  | nil => rfl
  | cons record rest ih =>
    rw [List.forall_mem_cons] at hcomplete
    obtain ⟨dwell, hdwell⟩ := Option.isSome_iff_exists.mp ((isComplete_dwells hcomplete.1).2.1 k hk)
    rw [List.filterMap_cons, hdwell, List.length_cons, List.length_cons, ih hcomplete.2]

end Exchanges

/-! ### What a produced decomposition says -/

/-- The sum of a contribution is this number, where it is representable. -/
def HopContribution.Sums (c : HopContribution) (sum : Int) : Prop :=
  ∀ x, c.sumDwellNs = some x ↔ x.toInt = sum

theorem HopContribution.Sums.word {c : HopContribution} {sum : Int} (h : c.Sums sum) (hnonneg : 0 ≤ sum) :
    (c.sumDwellNs = none ∧ ¬sum < 2 ^ 63) ∨
      ∃ x, c.sumDwellNs = some x ∧ 0 ≤ x ∧ (x.toUInt64.toNat : Int) = sum ∧ sum < 2 ^ 63 := by
  cases hfound : c.sumDwellNs with
  | none =>
    left
    refine ⟨rfl, ?_⟩
    intro hsmall
    obtain ⟨x, hx⟩ := representable_iff_exists.mp (show Representable sum by unfold Representable; omega)
    rw [(h x).mpr hx] at hfound
    cases hfound
  | some x =>
    right
    have hx : x.toInt = sum := (h x).mp hfound
    have hhigh := x.toInt_lt
    refine ⟨x, rfl, ?_, ?_, by omega⟩
    · rw [Int64.le_iff_toInt_le, Int64.toInt_zero, hx]
      exact hnonneg
    · rw [toNat_toUInt64_of_nonneg (by omega), hx]
      omega

/-- What a produced decomposition over a path of `n` hops says of its complete exchanges. -/
structure Accounted (policy : RuntimePolicy) (n : Nat) (exchanges : List MeasurementRecord)
    (result : AttributionResult) : Prop where
  nonempty : 0 < exchanges.length
  complete : result.exchangesComplete = exchanges.length
  negative : result.negativeResiduals = exchanges.countP fun record => residualOf n record < 0
  endToEnd : ∃ d : Distribution, d.Measures (exchanges.map endToEndOf) ∧ result.endToEndMeanNs = d.meanNs
  residual : ∃ d : Distribution, d.Measures (exchanges.map (residualOf n)) ∧ result.residualMinNs = d.minNs ∧
    result.residualMaxNs = d.maxNs ∧ result.residualMeanNs = d.meanNs
  hops : ∃ hops evidence, List.Forall₂ HopContribution.Sums hops (hopSums n exchanges) ∧
    (∀ c ∈ hops, c.sharePpm = 0) ∧ result.contributions = hops.map (share (hops.foldl accountHop (0, false)).1) ∧
    result.accountedMeanNs = (publishMeans policy (hops.foldl accountHop (0, false)).1 exchanges.length
      result.endToEndMeanNs evidence).1 ∧
    result.unaccountedMeanNs = (publishMeans policy (hops.foldl accountHop (0, false)).1 exchanges.length
      result.endToEndMeanNs evidence).2.1

theorem contributions_sums {clocks : ClockRegistry} {request : AttributionRequest} {limits : Limits}
    {records : List MeasurementRecord} {n : Nat} {s : AttributionLoop} {hops : List HopContribution}
    (hsaw : s.Saw clocks n records) (hlength : records.length < 2 ^ 63) (hcomplete : s.complete ≠ 0)
    (h : contributions request limits 0 s.hops = .ok hops) :
    List.Forall₂ HopContribution.Sums hops (hopSums n (records.filter (isComplete clocks n))) := by
  obtain ⟨-, hpairs⟩ := contributions_forall₂ (Nat.zero_le _) h
  have hall : ∀ record ∈ records.filter (isComplete clocks n), isComplete clocks n record = true :=
    fun record hrecord => (List.mem_filter.mp hrecord).2
  have hfewer := List.length_filter_le (isComplete clocks n) records
  rw [hsaw.complete] at hcomplete
  rw [List.forall₂_iff_get] at hpairs ⊢
  obtain ⟨hlengths, hpairs⟩ := hpairs
  unfold hopSums
  refine ⟨by rw [← hlengths, hsaw.length, List.length_map, List.length_range], ?_⟩
  intro k hk hk'
  obtain ⟨-, d, hd, hsum⟩ := hpairs k (by omega) hk
  have hkn : k < n := by
    rw [List.length_map, List.length_range] at hk'
    exact hk'
  have hvalues := hsaw.values k (s.hops.get ⟨k, by omega⟩) (List.getElem?_eq_getElem _)
  rw [hvalues] at hd
  have hcount := length_dwellsAt hall hkn
  have hmeasures := aggregate_measures (by omega) hd
  intro x
  rw [hsum, hmeasures.sum, List.get_eq_getElem, List.getElem_map, List.getElem_range]
  refine and_iff_right ?_
  intro hempty
  rw [hempty, List.length_nil] at hcount
  omega

theorem attributeExchanges_accounted {records : List MeasurementRecord} {catalog : Catalog} {clocks : ClockRegistry}
    {baselines : BaselineStore} {request : AttributionRequest} {policy : RuntimePolicy} {result : AttributionResult}
    {path : PathDef} (hpath : catalog.path request.path = .ok path)
    (h : attributeExchanges records catalog clocks baselines request policy = .ok result)
    (hproduced : result.kind.produced = true) (hlength : records.length < 2 ^ 63) :
    path.hops.length ≤ HopIndex.maxExclusive ∧
      Accounted policy path.hops.length (request.complete clocks path.hops.length records) result := by
  obtain ⟨path', s, hpath', hbound, hsaw, hresult⟩ := attributeExchanges_saw h
  rw [hpath', Except.ok.injEq] at hpath
  subst hpath
  have hincluded : (request.included records).length < 2 ^ 63 := by
    have hfewer : (request.included records).length ≤ records.length := List.length_filter_le _ _
    omega
  have hexchanges := request.length_complete_le clocks path'.hops.length records
  have hcomplete : s.complete ≠ 0 := by
    obtain ⟨evidence, hkind⟩ := hresult.kind
    rw [hkind] at hproduced
    exact (verdict_produced hproduced).2.2.1
  have hcount : s.complete = (request.complete clocks path'.hops.length records).length := hsaw.complete
  obtain ⟨e, he, hmean⟩ := hresult.endToEnd
  obtain ⟨r, hr, hmin, hmax, hmean'⟩ := hresult.residual
  obtain ⟨hops, hhops, hcontributions, hmeans⟩ := hresult.hops
  obtain ⟨evidence, haccounted, hunaccounted⟩ := hmeans hproduced
  rw [hsaw.endToEnd] at he
  rw [hsaw.residuals] at hr
  rw [if_pos hproduced] at hcontributions
  rw [hcount] at haccounted hunaccounted
  refine ⟨hbound, ⟨by omega, hresult.complete.trans hcount, hresult.negative.trans hsaw.negative, ?_, ?_, ?_⟩⟩
  · exact ⟨e, aggregate_measures (by rw [List.length_map]; exact lt_of_le_of_lt hexchanges hlength) he, hmean⟩
  · exact ⟨r, aggregate_measures (by rw [List.length_map]; exact lt_of_le_of_lt hexchanges hlength) hr, hmin, hmax,
      hmean'⟩
  · exact ⟨hops, evidence, contributions_sums hsaw hincluded hcomplete hhops, contributions_share hhops, hcontributions,
      haccounted, hunaccounted⟩

/-! ### The accumulator -/

theorem accountHop_toNat {c : HopContribution} {sum : Int} (hsum : c.Sums sum) (hnonneg : 0 ≤ sum)
    (acc : UInt64 × Bool) :
    ((accountHop acc c).1.toNat : Int) =
      if fitsWord acc.1.toNat sum then (acc.1.toNat : Int) + sum else acc.1.toNat := by
  have hfitsWord := fitsWord_iff acc.1.toNat sum
  unfold accountHop
  rcases hsum.word hnonneg with ⟨hfound, hlarge⟩ | ⟨x, hfound, hsign, hword, hsmall⟩
  · rw [hfound, if_neg (by rw [hfitsWord]; omega)]
  · simp only [hfound, ge_iff_le, if_pos hsign]
    by_cases hfits : acc.1.toNat + x.toUInt64.toNat < 2 ^ 64
    · rw [if_pos hfits, if_pos (hfitsWord.mpr (by omega)), UInt64.toNat_add]
      omega
    · rw [if_neg hfits, if_neg (by rw [hfitsWord]; omega)]

theorem foldl_accountHop_toNat {hops : List HopContribution} {sums : List Int}
    (h : List.Forall₂ HopContribution.Sums hops sums) (hnonneg : ∀ sum ∈ sums, 0 ≤ sum) (acc : UInt64 × Bool) :
    ((hops.foldl accountHop acc).1.toNat : Int) = Lib.keepFitting fitsWord acc.1.toNat sums := by
  induction h generalizing acc with
  | nil => rfl
  | @cons c sum hops sums hsum hrest ih =>
    rw [List.forall_mem_cons] at hnonneg
    rw [List.foldl_cons, ih hnonneg.2, accountHop_toNat hsum hnonneg.1]
    conv_rhs => unfold Lib.keepFitting
    split_ifs <;> rfl

theorem accounted_toNat {n : Nat} {exchanges : List MeasurementRecord} {hops : List HopContribution}
    (h : List.Forall₂ HopContribution.Sums hops (hopSums n exchanges)) (hnonneg : NonnegDwells n exchanges) :
    ((hops.foldl accountHop (0, false)).1.toNat : Int) = totalDwell n exchanges - leftOut n exchanges := by
  have hkept := foldl_accountHop_toNat h hnonneg.hopSums_nonneg (0, false)
  have hsplit := Lib.keepFitting_add_leftOut fitsWord 0 (hopSums n exchanges)
  have hzero : ((0 : UInt64).toNat : Int) = 0 := rfl
  rw [hzero] at hkept
  rw [sum_hopSums, Int.zero_add] at hsplit
  unfold leftOut
  omega

theorem leftOut_nonneg {n : Nat} {exchanges : List MeasurementRecord} (hnonneg : NonnegDwells n exchanges) :
    0 ≤ leftOut n exchanges :=
  Lib.leftOut_nonneg hnonneg.hopSums_nonneg 0

theorem leftOut_eq_zero {n : Nat} {exchanges : List MeasurementRecord} (hnonneg : NonnegDwells n exchanges)
    (hsums : ∀ sum ∈ hopSums n exchanges, sum < 2 ^ 63) (htotal : totalDwell n exchanges < 2 ^ 64) :
    leftOut n exchanges = 0 := by
  apply Lib.leftOut_eq_zero _ hnonneg.hopSums_nonneg le_rfl
  · rw [sum_hopSums, Int.zero_add]
    exact htotal
  · intro total sum hsum hbound
    rw [fitsWord_iff]
    exact ⟨hsums sum hsum, hbound⟩

theorem NonnegDwells.hopSum_le {n : Nat} {exchanges : List MeasurementRecord} (h : NonnegDwells n exchanges) {sum : Int}
    (hmem : sum ∈ hopSums n exchanges) : sum ≤ totalDwell n exchanges := by
  rw [← sum_hopSums]
  exact List.single_le_sum h.hopSums_nonneg sum hmem

theorem leftOut_eq_zero_of_representable {n : Nat} {exchanges : List MeasurementRecord}
    (hnonneg : NonnegDwells n exchanges) (hsmall : totalDwell n exchanges < 2 ^ 63) : leftOut n exchanges = 0 := by
  apply leftOut_eq_zero hnonneg _ (by omega)
  intro sum hsum
  exact lt_of_le_of_lt (hnonneg.hopSum_le hsum) hsmall

/-! ### The accounted mean -/

section Means

variable {policy : RuntimePolicy} {accounted : UInt64} {complete : Nat} {endToEnd : Option Nanos} {evidence : Evidence}

/-- The accounted mean is the floor of the word by the number of exchanges; a zero word publishes none. -/
theorem publishMeans_mean_iff (hpos : 0 < complete) (hlt : complete < 2 ^ 63) (m : Nanos) :
    (publishMeans policy accounted complete endToEnd evidence).1 = some m ↔
      accounted.toNat ≠ 0 ∧ m.toInt = (accounted.toNat : Int) / complete := by
  have hfirst : (publishMeans policy accounted complete endToEnd evidence).1 =
      if accounted ≠ 0 ∧ complete ≠ 0 then
        if accounted / UInt64.ofNat complete ≤ 0x7FFFFFFFFFFFFFFF then
          some (accounted / UInt64.ofNat complete).toInt64 else none
      else none := by
    unfold publishMeans
    by_cases hzero : accounted ≠ 0 ∧ complete ≠ 0
    · by_cases hfits : accounted / UInt64.ofNat complete ≤ 0x7FFFFFFFFFFFFFFF
      · simp only [if_pos hzero, if_pos hfits]
        cases endToEnd with
        | none => rfl
        | some e =>
          simp only
          cases checkedSubI64 e (accounted / UInt64.ofNat complete).toInt64 <;> rfl
      · simp only [if_pos hzero, if_neg hfits]
    · simp only [if_neg hzero]
  have hne : accounted ≠ 0 ↔ accounted.toNat ≠ 0 := by
    rw [ne_eq, ne_eq, ← UInt64.toNat_inj, UInt64.toNat_zero]
  have hword : (accounted / UInt64.ofNat complete).toNat = accounted.toNat / complete := by
    rw [UInt64.toNat_div, UInt64.toNat_ofNat_of_lt' (by simp only [UInt64.size]; omega)]
  have hmax : (0x7FFFFFFFFFFFFFFF : UInt64).toNat = 2 ^ 63 - 1 := rfl
  have hhigh := m.toInt_lt
  rw [hfirst, ← hne]
  by_cases hzero : accounted = 0
  · simp [hzero]
  · have hbound : accounted / UInt64.ofNat complete ≤ 0x7FFFFFFFFFFFFFFF ↔
        accounted.toNat / complete ≤ 2 ^ 63 - 1 := by
      rw [UInt64.le_iff_toNat_le, hword, hmax]
    rw [if_pos ⟨hzero, by omega⟩, ← Int.natCast_ediv]
    by_cases hfits : accounted / UInt64.ofNat complete ≤ 0x7FFFFFFFFFFFFFFF
    · rw [hbound] at hfits
      have hread := @toInt_toInt64 (accounted / UInt64.ofNat complete) (by omega)
      rw [if_pos (hbound.mpr hfits), Option.some.injEq, ← Int64.toInt_inj, hread, hword]
      simp only [ne_eq, hzero, not_false_eq_true, true_and]
      exact eq_comm
    · rw [if_neg hfits]
      rw [hbound] at hfits
      simp only [reduceCtorEq, false_iff, not_and]
      omega

theorem publishMeans_unaccounted {unaccounted : Nanos}
    (h : (publishMeans policy accounted complete endToEnd evidence).2.1 = some unaccounted) :
    ∃ e m, endToEnd = some e ∧ (publishMeans policy accounted complete endToEnd evidence).1 = some m ∧
      unaccounted.toInt = e.toInt - m.toInt := by
  unfold publishMeans at h ⊢
  generalize (if accounted ≠ 0 ∧ complete ≠ 0 then _ else _ : Option Nanos × Evidence) = published at h ⊢
  obtain ⟨mean, noted⟩ := published
  cases endToEnd with
  | none =>
    cases mean <;> cases h
  | some e =>
    cases mean with
    | none => cases h
    | some m =>
      simp only at h ⊢
      cases hdifference : checkedSubI64 e m with
      | none =>
        rw [hdifference] at h
        cases h
      | some difference =>
        rw [hdifference] at h
        simp only [Option.some.injEq] at h
        subst h
        exact ⟨e, m, rfl, rfl, checkedSubI64_toInt hdifference⟩

end Means

/-- The accounted mean is exact, or absent where it is not representable. -/
def AccountedExactly (n : Nat) (exchanges : List MeasurementRecord) (result : AttributionResult) : Prop :=
  (result.accountedMeanNs.isSome = true ↔ Representable (totalDwell n exchanges / result.exchangesComplete)) ∧
    ∀ m, result.accountedMeanNs = some m → m.toInt = totalDwell n exchanges / result.exchangesComplete

theorem totalDwell_mean_representable {clocks : ClockRegistry} {n : Nat} {exchanges : List MeasurementRecord}
    (hcomplete : ∀ record ∈ exchanges, isComplete clocks n record = true) (hpos : 0 < exchanges.length)
    (hnonneg : 0 ≤ totalDwell n exchanges) : Representable (totalDwell n exchanges / exchanges.length) := by
  have hcount : (0 : Int) < exchanges.length := by omega
  have hle := totalDwell_le hcomplete
  have hlow := Int.ediv_nonneg hnonneg hcount.le
  have hhigh : totalDwell n exchanges / exchanges.length < 2 ^ 63 := by
    rw [Int.ediv_lt_iff_lt_mul hcount]
    linarith
  unfold Representable
  omega

/-- **Accounted time.** Over complete exchanges without negative dwells, the accounted mean is exact or absent exactly
when some time was spent in hops and the accumulator has left out no more than the remainder of the mean. -/
theorem accounted_exactly_iff {records : List MeasurementRecord} {catalog : Catalog} {clocks : ClockRegistry}
    {baselines : BaselineStore} {request : AttributionRequest} {policy : RuntimePolicy} {result : AttributionResult}
    {path : PathDef} (hpath : catalog.path request.path = .ok path)
    (h : attributeExchanges records catalog clocks baselines request policy = .ok result)
    (hproduced : result.kind.produced = true) (hlength : records.length < 2 ^ 63)
    (hnonneg : NonnegDwells path.hops.length (request.complete clocks path.hops.length records)) :
    AccountedExactly path.hops.length (request.complete clocks path.hops.length records) result ↔
      0 < totalDwell path.hops.length (request.complete clocks path.hops.length records) ∧
      leftOut path.hops.length (request.complete clocks path.hops.length records) ≤
        totalDwell path.hops.length (request.complete clocks path.hops.length records) %
          (request.complete clocks path.hops.length records).length := by
  obtain ⟨-, haccounted⟩ := attributeExchanges_accounted hpath h hproduced hlength
  have hall : ∀ record ∈ request.complete clocks path.hops.length records,
      isComplete clocks path.hops.length record = true := fun record hrecord => (List.mem_filter.mp hrecord).2
  have hfewer := request.length_complete_le clocks path.hops.length records
  generalize request.complete clocks path.hops.length records = exchanges at *
  generalize path.hops.length = n at *
  have hpos := haccounted.nonempty
  obtain ⟨hops, evidence, hsums, -, -, hmean, -⟩ := haccounted.hops
  have hword := accounted_toNat hsums hnonneg
  have hkept := leftOut_nonneg hnonneg
  have htotal : 0 ≤ totalDwell n exchanges := by omega
  have hrepresentable := totalDwell_mean_representable hall hpos htotal
  have hcount : (0 : Int) < exchanges.length := by omega
  have hpublished : AccountedExactly n exchanges result ↔
      totalDwell n exchanges - leftOut n exchanges ≠ 0 ∧
        (totalDwell n exchanges - leftOut n exchanges) / exchanges.length = totalDwell n exchanges / exchanges.length := by
    have hmeans := @publishMeans_mean_iff policy (hops.foldl accountHop (0, false)).1 exchanges.length
      result.endToEndMeanNs evidence hpos (by omega)
    rw [← hmean] at hmeans
    unfold AccountedExactly
    rw [haccounted.complete, iff_true_right hrepresentable]
    rw [← Int.natCast_ne_zero, hword] at hmeans
    constructor
    · rintro ⟨hsome, hexact⟩
      obtain ⟨m, hm⟩ := Option.isSome_iff_exists.mp hsome
      obtain ⟨hne, hfloor⟩ := (hmeans m).mp hm
      exact ⟨hne, hfloor.symm.trans (hexact m hm)⟩
    · rintro ⟨hne, hsame⟩
      rw [← hsame] at hrepresentable
      obtain ⟨m, hm⟩ := representable_iff_exists.mp hrepresentable
      refine ⟨Option.isSome_iff_exists.mpr ⟨m, (hmeans m).mpr ⟨hne, hm⟩⟩, ?_⟩
      intro m' hm'
      rw [((hmeans m').mp hm').2, hsame]
  rw [hpublished, Lib.ediv_sub_eq_iff hcount hkept]
  refine and_congr_left fun hrest => ?_
  constructor
  · intro hne
    have hnonnegWord : 0 ≤ totalDwell n exchanges - leftOut n exchanges := by omega
    omega
  · intro hsome hnone
    -- All the time would have been left out, and less than one representable value was.
    have hmod := Int.emod_lt_of_pos (totalDwell n exchanges) hcount
    have hzero := leftOut_eq_zero_of_representable hnonneg (by omega)
    omega

/-! ### Exchanges with one dwell -/

/-- An exchange of 10 ns with a dwell of the given length. -/
def timedExchange (dwell : Nanos) : MeasurementRecord :=
  measuredExchange [{
    entry := ⟨2, referenceClockDomain⟩
    exit := ⟨2 + dwell, referenceClockDomain⟩
    dwellNs := some dwell }]

/-- No time was spent in the hop, and no mean is published. -/
theorem zero_dwell_not_published :
    ∃ result, dwellAttribution [timedExchange 0] = .ok result ∧ result.kind = .observedDecomposition ∧
      NonnegDwells 1 (dwellRequest.complete Ingest.sampleClocks 1 [timedExchange 0]) ∧
      ¬AccountedExactly 1 (dwellRequest.complete Ingest.sampleClocks 1 [timedExchange 0]) result := by
  have hanswered : (dwellAttribution [timedExchange 0]).map (fun result => (result.kind, result.accountedMeanNs,
      result.exchangesComplete)) = .ok (.observedDecomposition, none, 1) := by decide +kernel
  cases hresult : dwellAttribution [timedExchange 0] with
  | error e =>
    rw [hresult] at hanswered
    cases hanswered
  | ok result =>
    rw [hresult] at hanswered
    simp only [Except.map, Except.ok.injEq, Prod.mk.injEq] at hanswered
    obtain ⟨hkind, hnone, hone⟩ := hanswered
    have htotal : totalDwell 1 (dwellRequest.complete Ingest.sampleClocks 1 [timedExchange 0]) = 0 := by decide +kernel
    refine ⟨result, rfl, hkind, by decide +kernel, ?_⟩
    rintro ⟨hpublished, -⟩
    rw [hnone, hone, htotal] at hpublished
    exact absurd (hpublished.mpr (by unfold Representable; decide)) (by decide)

/-- A dwell of 4 ns is accounted for. -/
theorem short_dwell_accounted :
    ∃ result, dwellAttribution [timedExchange 4] = .ok result ∧
      AccountedExactly 1 (dwellRequest.complete Ingest.sampleClocks 1 [timedExchange 4]) result := by
  obtain ⟨path, hpath, hhops⟩ := dwellCatalog_path
  have hanswered : (dwellAttribution [timedExchange 4]).map AttributionResult.kind = .ok .observedDecomposition := by
    decide +kernel
  cases hresult : dwellAttribution [timedExchange 4] with
  | error e =>
    rw [hresult] at hanswered
    cases hanswered
  | ok result =>
    rw [hresult] at hanswered
    have hkind : result.kind = .observedDecomposition := Except.ok.inj hanswered
    have hexact := @accounted_exactly_iff _ _ _ _ _ _ _ path hpath hresult (by rw [hkind]; rfl) (by decide)
    rw [hhops] at hexact
    exact ⟨result, rfl, (hexact (by decide +kernel)).mpr (by decide +kernel)⟩

end LatencyObservatory.Attribution
