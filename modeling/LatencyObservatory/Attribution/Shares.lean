import LatencyObservatory.Attribution.Accounted

/-!
# The shares of the hops

A share is the hop sum in parts per million of the accounted time. The shares partition the accounted time as long
as nothing was left out of it that would show in a share; a hop sum that is not representable always shows.
-/

namespace LatencyObservatory.Attribution

open LatencyObservatory.Core LatencyObservatory.Model LatencyObservatory.Stats LatencyObservatory.Baselines

/-- The shares of a decomposition over `n` hops are the floors of the exact quotients, and add up to the whole but
for the rounding. -/
structure SharesPartition (n : Nat) (exchanges : List MeasurementRecord) (result : AttributionResult) : Prop where
  shares : result.contributions.map (fun c => (c.sharePpm : Int)) =
    (hopSums n exchanges).map fun sum => 1000000 * sum / totalDwell n exchanges
  atMost : (result.contributions.map fun c => (c.sharePpm : Int)).sum ≤ 1000000
  above : 1000000 - n < (result.contributions.map fun c => (c.sharePpm : Int)).sum

/-- What was left out of the accounted time does not show in the share of a hop. -/
def ShareUnaffected (n : Nat) (exchanges : List MeasurementRecord) (sum : Int) : Prop :=
  sum < 2 ^ 63 ∧
    1000000 * sum / totalDwell n exchanges * leftOut n exchanges + 1000000 * sum % totalDwell n exchanges <
      totalDwell n exchanges - leftOut n exchanges

/-- The share that is computed for a hop sum, of the accounted word. -/
def computedShare (accounted : Nat) (sum : Int) : Int :=
  if sum < 2 ^ 63 ∧ accounted ≠ 0 then min 1000000 (1000000 * sum / accounted) else 0

theorem share_sharePpm {c : HopContribution} {sum : Int} (hsum : c.Sums sum) (hnonneg : 0 ≤ sum)
    (hzero : c.sharePpm = 0) (accounted : UInt64) :
    ((share accounted c).sharePpm : Int) = computedShare accounted.toNat sum := by
  have hne : accounted = 0 ↔ accounted.toNat = 0 := by
    rw [← UInt64.toNat_inj, UInt64.toNat_zero]
  unfold share computedShare
  rcases hsum.word hnonneg with ⟨hfound, hlarge⟩ | ⟨x, hfound, hsign, hword, hsmall⟩
  · rw [if_neg fun h => hlarge h.1]
    simp only [hfound, hzero, Nat.cast_zero]
  · simp only [hfound]
    by_cases haccounted : accounted = 0
    · rw [if_pos (Or.inr haccounted), if_neg fun h => h.2 (hne.mp haccounted), hzero]
      rfl
    · rw [if_neg fun h => h.elim (Int64.not_lt.mpr hsign) haccounted,
        if_pos ⟨hsmall, fun h => haccounted (hne.mpr h)⟩]
      simp only
      rw [ratioPpm_toNat, Nat.cast_min, Int.natCast_ediv, Nat.cast_mul, hword, mul_comm sum]
      rfl

/-- The share that is computed is the exact one exactly when what was left out does not show in it. -/
theorem share_eq_iff {n : Nat} {exchanges : List MeasurementRecord} (hnonneg : NonnegDwells n exchanges)
    {sum : Int} (hmem : sum ∈ hopSums n exchanges) (hsmall : sum < 2 ^ 63)
    (hkept : 0 < totalDwell n exchanges - leftOut n exchanges) :
    min 1000000 (1000000 * sum / (totalDwell n exchanges - leftOut n exchanges)) =
        1000000 * sum / totalDwell n exchanges ↔ ShareUnaffected n exchanges sum := by
  have hleftOut := leftOut_nonneg hnonneg
  have hsum := hnonneg.hopSums_nonneg sum hmem
  have htotal : 0 < totalDwell n exchanges := by omega
  have hpart := hnonneg.hopSum_le hmem
  have hwhole : 1000000 * sum / totalDwell n exchanges ≤ 1000000 := by
    rw [Int.ediv_le_iff_le_mul htotal]
    linarith
  unfold ShareUnaffected
  rw [and_iff_right hsmall, ← Lib.ediv_sub_right_eq_iff (by omega) hleftOut hkept]
  generalize hquotient : 1000000 * sum / totalDwell n exchanges = quotient at *
  constructor
  · intro hmin
    by_cases hbelow : quotient < 1000000
    · omega
    · -- The hop is the whole: nothing was left out.
      have hall : totalDwell n exchanges ≤ sum := by
        have hmul := Int.ediv_mul_le (1000000 * sum) htotal.ne'
        rw [hquotient] at hmul
        nlinarith
      rw [leftOut_eq_zero_of_representable hnonneg (by omega), Int.sub_zero, hquotient]
  · intro hsame
    omega

theorem map_share {hops : List HopContribution} {sums : List Int} (h : List.Forall₂ HopContribution.Sums hops sums)
    (hnonneg : ∀ sum ∈ sums, 0 ≤ sum) (hzero : ∀ c ∈ hops, c.sharePpm = 0) (accounted : UInt64) :
    (hops.map (share accounted)).map (fun c => (c.sharePpm : Int)) = sums.map (computedShare accounted.toNat) := by
  induction h with
  | nil => rfl
  | cons hsum hrest ih =>
    rw [List.forall_mem_cons] at hnonneg hzero
    rw [List.map_cons, List.map_cons, List.map_cons, share_sharePpm hsum hnonneg.1 hzero.1, ih hnonneg.2 hzero.2]

theorem sharesPartition_iff {n : Nat} {exchanges : List MeasurementRecord} {result : AttributionResult}
    (htotal : 0 < totalDwell n exchanges) :
    SharesPartition n exchanges result ↔ result.contributions.map (fun c => (c.sharePpm : Int)) =
      (hopSums n exchanges).map fun sum => 1000000 * sum / totalDwell n exchanges := by
  constructor
  · intro h
    exact h.shares
  · intro hshares
    rw [← sum_hopSums] at htotal
    obtain ⟨hatMost, habove⟩ := @Lib.sum_shares_bounds 1000000 _ htotal
    rw [sum_hopSums, ← hshares] at hatMost habove
    have hlength : (hopSums n exchanges).length = n := by simp [hopSums]
    rw [hlength] at habove
    exact ⟨hshares, hatMost, by omega⟩

theorem exists_largest_hop {n : Nat} {exchanges : List MeasurementRecord} (hn : n ≤ 1000000)
    (htotal : 0 < totalDwell n exchanges) :
    ∃ largest ∈ hopSums n exchanges, (∀ sum ∈ hopSums n exchanges, sum ≤ largest) ∧
      0 < 1000000 * largest / totalDwell n exchanges := by
  rw [← sum_hopSums] at htotal
  obtain ⟨largest, hmem, hmax, hsum⟩ := Lib.exists_largest_part htotal
  have hlength : (hopSums n exchanges).length = n := by simp [hopSums]
  rw [hlength] at hsum
  refine ⟨largest, hmem, hmax, ?_⟩
  rw [← sum_hopSums]
  have hlargest : 0 < largest := by
    by_contra hnot
    have : (n : Int) * largest ≤ 0 := Int.mul_nonpos_of_nonneg_of_nonpos (by omega) (by omega)
    omega
  have hscaled : (hopSums n exchanges).sum ≤ 1000000 * largest := by
    have : (n : Int) * largest ≤ 1000000 * largest := Int.mul_le_mul_of_nonneg_right (by omega) hlargest.le
    omega
  have hone := Int.ediv_le_ediv htotal hscaled
  rw [Int.ediv_self htotal.ne'] at hone
  omega

theorem computed_shares_eq_iff {n : Nat} {exchanges : List MeasurementRecord} (hn : n ≤ 1000000)
    (hnonneg : NonnegDwells n exchanges) (htotal : 0 < totalDwell n exchanges) {accounted : Nat}
    (haccounted : (accounted : Int) = totalDwell n exchanges - leftOut n exchanges) :
    (hopSums n exchanges).map (computedShare accounted) =
        (hopSums n exchanges).map (fun sum => 1000000 * sum / totalDwell n exchanges) ↔
      ∀ sum ∈ hopSums n exchanges, ShareUnaffected n exchanges sum := by
  rw [List.map_inj_left]
  simp only [computedShare, haccounted]
  obtain ⟨largest, hlargest, hmax, hshare⟩ := exists_largest_hop hn htotal
  constructor
  · intro hequal
    -- The largest hop has a share, so its sum is representable and something was accounted for.
    have hfound : largest < 2 ^ 63 ∧ accounted ≠ 0 := by
      by_contra hnot
      have hzero := hequal largest hlargest
      rw [if_neg hnot] at hzero
      omega
    intro sum hsum
    have hsmall : sum < 2 ^ 63 := lt_of_le_of_lt (hmax sum hsum) hfound.1
    have hexact := hequal sum hsum
    rw [if_pos ⟨hsmall, hfound.2⟩] at hexact
    exact (share_eq_iff hnonneg hsum hsmall (by omega)).mp hexact
  · intro hunaffected
    have hkept : 0 < totalDwell n exchanges - leftOut n exchanges := by
      have hquotient := mul_nonneg hshare.le (leftOut_nonneg hnonneg)
      have hrest := Int.emod_nonneg (1000000 * largest) htotal.ne'
      have hfits := (hunaffected largest hlargest).2
      omega
    intro sum hsum
    have hsmall := (hunaffected sum hsum).1
    rw [if_pos ⟨hsmall, by omega⟩]
    exact (share_eq_iff hnonneg hsum hsmall hkept).mpr (hunaffected sum hsum)

/-- **Shares.** A decomposition that was not produced has no shares. One that was produced over complete exchanges
without negative dwells, with some time spent in hops, has the exact shares exactly when what the accumulator left
out shows in none of them. -/
theorem shares_partition_iff_unaffected {records : List MeasurementRecord} {catalog : Catalog} {clocks : ClockRegistry}
    {baselines : BaselineStore} {request : AttributionRequest} {policy : RuntimePolicy} {result : AttributionResult}
    {path : PathDef} (hpath : catalog.path request.path = .ok path)
    (h : attributeExchanges records catalog clocks baselines request policy = .ok result)
    (hlength : records.length < 2 ^ 63) :
    (result.kind.produced = false → ∀ c ∈ result.contributions, c.sharePpm = 0) ∧
      (result.kind.produced = true →
        NonnegDwells path.hops.length (request.complete clocks path.hops.length records) →
        0 < totalDwell path.hops.length (request.complete clocks path.hops.length records) →
        (SharesPartition path.hops.length (request.complete clocks path.hops.length records) result ↔
          ∀ sum ∈ hopSums path.hops.length (request.complete clocks path.hops.length records),
            ShareUnaffected path.hops.length (request.complete clocks path.hops.length records) sum)) := by
  constructor
  · intro hrefused c hc
    obtain ⟨path', s, -, -, -, hresult⟩ := attributeExchanges_saw h
    obtain ⟨hops, hhops, hcontributions, -⟩ := hresult.hops
    rw [hcontributions, hrefused] at hc
    exact contributions_share hhops c hc
  · intro hproduced hnonneg htotal
    obtain ⟨hbound, haccounted⟩ := attributeExchanges_accounted hpath h hproduced hlength
    obtain ⟨hops, evidence, hsums, hzero, hcontributions, -, -⟩ := haccounted.hops
    rw [sharesPartition_iff htotal, hcontributions, map_share hsums hnonneg.hopSums_nonneg hzero]
    exact computed_shares_eq_iff (le_trans hbound (by decide)) hnonneg htotal (accounted_toNat hsums hnonneg)

/-- An exchange whose dwell takes half of the representable range. -/
def longExchange : MeasurementRecord :=
  { timedExchange 0x4000000000000000 with response := ⟨0x400000000000000A, referenceClockDomain⟩ }

/-- The only hop of two long exchanges has no share: its sum is not representable. -/
theorem long_dwells_have_no_share :
    ∃ result, dwellAttribution [longExchange, longExchange] = .ok result ∧ result.kind = .observedDecomposition ∧
      NonnegDwells 1 (dwellRequest.complete Ingest.sampleClocks 1 [longExchange, longExchange]) ∧
      0 < totalDwell 1 (dwellRequest.complete Ingest.sampleClocks 1 [longExchange, longExchange]) ∧
      ¬SharesPartition 1 (dwellRequest.complete Ingest.sampleClocks 1 [longExchange, longExchange]) result := by
  have hanswered : (dwellAttribution [longExchange, longExchange]).map (fun result => (result.kind,
      result.contributions.map HopContribution.sharePpm)) = .ok (.observedDecomposition, [0]) := by decide +kernel
  cases hresult : dwellAttribution [longExchange, longExchange] with
  | error e =>
    rw [hresult] at hanswered
    cases hanswered
  | ok result =>
    rw [hresult] at hanswered
    simp only [Except.map, Except.ok.injEq, Prod.mk.injEq] at hanswered
    obtain ⟨hkind, hshares⟩ := hanswered
    refine ⟨result, rfl, hkind, by decide +kernel, by decide +kernel, ?_⟩
    intro hpartition
    have habove := hpartition.above
    have hlisted : result.contributions.map (fun c => (c.sharePpm : Int)) =
        (result.contributions.map HopContribution.sharePpm).map Int.ofNat := by
      rw [List.map_map]
      rfl
    rw [hlisted, hshares] at habove
    revert habove
    decide

/-- The only hop of a short exchange has all of it. -/
theorem short_dwell_has_all :
    ∃ result, dwellAttribution [timedExchange 4] = .ok result ∧
      SharesPartition 1 (dwellRequest.complete Ingest.sampleClocks 1 [timedExchange 4]) result := by
  obtain ⟨path, hpath, hhops⟩ := dwellCatalog_path
  have hanswered : (dwellAttribution [timedExchange 4]).map AttributionResult.kind = .ok .observedDecomposition := by
    decide +kernel
  cases hresult : dwellAttribution [timedExchange 4] with
  | error e =>
    rw [hresult] at hanswered
    cases hanswered
  | ok result =>
    rw [hresult] at hanswered
    have hkind : result.kind = .observedDecomposition := Except.ok.inj hanswered
    have hshares := (shares_partition_iff_unaffected hpath hresult (by decide)).2 (by rw [hkind]; rfl)
    rw [hhops] at hshares
    refine ⟨result, rfl, (hshares (by decide +kernel) (by decide +kernel)).mpr ?_⟩
    unfold ShareUnaffected
    decide +kernel

end LatencyObservatory.Attribution
