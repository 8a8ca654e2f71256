import LatencyObservatory.Attribution.Accounted

/-!
# The two residuals

What the hops leave of the end to end time is reported twice: as the difference of the two means, and as the mean of
the differences. The means are floored, so the first may exceed the second, by one at most.
-/

namespace LatencyObservatory.Attribution

open LatencyObservatory.Core LatencyObservatory.Model LatencyObservatory.Stats LatencyObservatory.Baselines

section Exchanges

variable {clocks : ClockRegistry} {n : Nat} {exchanges : List MeasurementRecord}

theorem residualOf_toInt {record : MeasurementRecord} (h : isComplete clocks n record = true)
    (hnonneg : ∀ dwell ∈ dwells n record, 0 ≤ dwell) :
    (residualOf n record).toInt = (endToEndOf record).toInt - exactSum (dwells n record) := by
  obtain ⟨hendToEnd, -, accounted, haccounted, hexact⟩ := isComplete_dwells h
  have hsum := exactSum_nonneg hnonneg
  have hhigh := (endToEndOf record).toInt_lt
  have hhigh' := accounted.toInt_lt
  rw [Int64.le_iff_toInt_le, Int64.toInt_zero] at hendToEnd
  unfold residualOf
  rw [haccounted, Option.getD_some, toInt_sub_of_representable (by unfold Representable; omega), hexact]

theorem exactSum_residuals (hcomplete : ∀ record ∈ exchanges, isComplete clocks n record = true)
    (hnonneg : NonnegDwells n exchanges) :
    exactSum (exchanges.map (residualOf n)) = exactSum (exchanges.map endToEndOf) - totalDwell n exchanges := by
  unfold totalDwell NonnegDwells at *
  induction exchanges with
  | nil => rfl
  | cons record rest ih =>
    rw [List.forall_mem_cons] at hcomplete hnonneg
    rw [List.map_cons, List.map_cons, exactSum_cons, exactSum_cons, ih hcomplete.2 hnonneg.2,
      residualOf_toInt hcomplete.1 hnonneg.1, exactSum_flatMap, exactSum_flatMap, List.map_cons, List.sum_cons]
    omega

theorem countP_negative (hcomplete : ∀ record ∈ exchanges, isComplete clocks n record = true)
    (hnonneg : NonnegDwells n exchanges) :
    exchanges.countP (fun record => residualOf n record < 0) =
      exchanges.countP fun record => (endToEndOf record).toInt < exactSum (dwells n record) := by
  apply List.countP_congr
  intro record hrecord
  rw [decide_eq_true_eq, decide_eq_true_eq, Int64.lt_iff_toInt_lt, Int64.toInt_zero,
    residualOf_toInt (hcomplete record hrecord) (hnonneg record hrecord)]
  omega

end Exchanges

/-- **Residuals.** In a produced decomposition over exchanges without negative dwells, where neither a hop sum nor the
total overflows and the four means are published, the two residuals differ by at most the rounding, the mean residual
lies between the extremes, and the negative residuals are counted. -/
theorem residual_identity {records : List MeasurementRecord} {catalog : Catalog} {clocks : ClockRegistry}
    {baselines : BaselineStore} {request : AttributionRequest} {policy : RuntimePolicy} {result : AttributionResult}
    {path : PathDef} (hpath : catalog.path request.path = .ok path)
    (h : attributeExchanges records catalog clocks baselines request policy = .ok result)
    (hproduced : result.kind.produced = true) (hlength : records.length < 2 ^ 63)
    (hnonneg : NonnegDwells path.hops.length (request.complete clocks path.hops.length records))
    (hsums : ∀ sum ∈ hopSums path.hops.length (request.complete clocks path.hops.length records), sum < 2 ^ 63)
    (htotal : totalDwell path.hops.length (request.complete clocks path.hops.length records) < 2 ^ 64)
    {endToEnd accounted unaccounted residual : Nanos} (hendToEnd : result.endToEndMeanNs = some endToEnd)
    (haccounted : result.accountedMeanNs = some accounted) (hunaccounted : result.unaccountedMeanNs = some unaccounted)
    (hresidual : result.residualMeanNs = some residual) :
    (unaccounted.toInt - residual.toInt = 0 ∨ unaccounted.toInt - residual.toInt = 1) ∧
      (∃ low high, result.residualMinNs = some low ∧ result.residualMaxNs = some high ∧ low ≤ residual ∧
        residual ≤ high) ∧
      result.negativeResiduals = (request.complete clocks path.hops.length records).countP fun record =>
        (endToEndOf record).toInt < exactSum (dwells path.hops.length record) := by
  obtain ⟨-, hresult⟩ := attributeExchanges_accounted hpath h hproduced hlength
  have hall : ∀ record ∈ request.complete clocks path.hops.length records,
      isComplete clocks path.hops.length record = true := fun record hrecord => (List.mem_filter.mp hrecord).2
  have hfewer := request.length_complete_le clocks path.hops.length records
  generalize request.complete clocks path.hops.length records = exchanges at *
  generalize path.hops.length = n at *
  have hcount : (0 : Int) < exchanges.length := by
    have := hresult.nonempty
    omega
  obtain ⟨e, he, hmean⟩ := hresult.endToEnd
  obtain ⟨r, hr, hmin, hmax, hmean'⟩ := hresult.residual
  obtain ⟨hops, evidence, hhops, -, -, hfirst, hsecond⟩ := hresult.hops
  rw [hmean] at hendToEnd
  rw [hmean'] at hresidual
  refine ⟨?_, ?_, ?_⟩
  · have hendToEndMean := he.mean_eq hendToEnd
    have hresidualMean := hr.mean_eq hresidual
    rw [List.length_map] at hendToEndMean hresidualMean
    rw [exactSum_residuals hall hnonneg] at hresidualMean
    rw [hfirst] at haccounted
    have haccountedMean := ((publishMeans_mean_iff hresult.nonempty (by omega) accounted).mp haccounted).2
    rw [accounted_toNat hhops hnonneg, leftOut_eq_zero hnonneg hsums htotal, Int.sub_zero] at haccountedMean
    rw [hsecond] at hunaccounted
    obtain ⟨e', m, he', hm, hdifference⟩ := publishMeans_unaccounted hunaccounted
    rw [haccounted, Option.some.injEq] at hm
    rw [hmean, hendToEnd, Option.some.injEq] at he'
    subst hm he'
    rw [hdifference, hendToEndMean, haccountedMean, hresidualMean]
    exact Lib.ediv_sub_ediv_cases hcount _ _
  · rw [hmin, hmax]
    exact hr.mean_between hresidual
  · rw [hresult.negative]
    exact countP_negative hall hnonneg

/-- The dwells of the last of these exchanges overlap. -/
def overlappingExchanges : List MeasurementRecord :=
  [timedExchange 4, timedExchange 7, timedExchange 12]

theorem overlapping_residual_identity :
    ∃ result, dwellAttribution overlappingExchanges = .ok result ∧
      (∃ low high, result.residualMinNs = some low ∧ result.residualMaxNs = some high ∧ low ≤ 2 ∧ 2 ≤ high) ∧
      result.negativeResiduals = 1 := by
  obtain ⟨path, hpath, hhops⟩ := dwellCatalog_path
  have hanswered : (dwellAttribution overlappingExchanges).map (fun result => (result.kind, result.endToEndMeanNs,
      result.accountedMeanNs, result.unaccountedMeanNs, result.residualMeanNs)) =
        .ok (.observedDecomposition, some 10, some 7, some 3, some 2) := by decide +kernel
  cases hresult : dwellAttribution overlappingExchanges with
  | error e =>
    rw [hresult] at hanswered
    cases hanswered
  | ok result =>
    rw [hresult] at hanswered
    simp only [Except.map, Except.ok.injEq, Prod.mk.injEq] at hanswered
    obtain ⟨hkind, hendToEnd, haccounted, hunaccounted, hresidual⟩ := hanswered
    have hidentity := @residual_identity _ _ _ _ _ _ _ path hpath hresult (by rw [hkind]; rfl) (by decide)
    rw [hhops] at hidentity
    obtain ⟨-, hbetween, hnegative⟩ := hidentity (by decide +kernel) (by decide +kernel)
      (by decide +kernel) hendToEnd haccounted hunaccounted hresidual
    exact ⟨result, rfl, hbetween, hnegative.trans (by decide +kernel)⟩

end LatencyObservatory.Attribution
