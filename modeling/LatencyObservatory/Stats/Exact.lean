import LatencyObservatory.Core.Wide
import LatencyObservatory.Stats.Order
import Mathlib.Algebra.Order.BigOperators.Group.List
import Mathlib.Data.Finset.Max

/-!
# A distribution is what it is called

Every part of an aggregate against its definition on integers: the sum over the split accumulator, the floor
mean with its remainder, the histogram as counts of half-open intervals and the quantiles as order statistics.
A list of 64-bit values in memory has fewer than `2 ^ 63` entries, which keeps the accumulator from saturating.
-/

namespace LatencyObservatory.Stats

open LatencyObservatory.Core LatencyObservatory.Model

/-! ### The sum -/

/-- The sum on integers. -/
def exactSum (values : List Nanos) : Int :=
  (values.map Int64.toInt).sum

theorem exactSum_cons (value : Nanos) (values : List Nanos) :
    exactSum (value :: values) = value.toInt + exactSum values := by
  simp [exactSum]

theorem exactSum_perm {values values' : List Nanos} (h : values.Perm values') : exactSum values = exactSum values' :=
  (h.map Int64.toInt).sum_eq

theorem exactSum_filterMap {α : Type} (f : α → Option Nanos) (l : List α) :
    exactSum (l.filterMap f) = (l.map fun a => (f a).elim 0 Int64.toInt).sum := by
  induction l with
  | nil => rfl
  | cons a rest ih =>
    rw [List.filterMap_cons, List.map_cons, List.sum_cons]
    cases f a with
    | none => simpa using ih
    | some value =>
      simp only [Option.elim_some]
      rw [exactSum_cons, ih]

theorem exactSum_flatMap {α : Type} (f : α → List Nanos) (l : List α) :
    exactSum (l.flatMap f) = (l.map fun a => exactSum (f a)).sum := by
  induction l with
  | nil => rfl
  | cons a rest ih =>
    rw [List.flatMap_cons, List.map_cons, List.sum_cons, ← ih]
    simp [exactSum]

theorem exactSum_nonneg {values : List Nanos} (h : ∀ value ∈ values, 0 ≤ value) : 0 ≤ exactSum values := by
  unfold exactSum
  apply List.sum_nonneg
  intro x hx
  obtain ⟨value, hvalue, rfl⟩ := List.mem_map.mp hx
  have hsign := h value hvalue
  rw [Int64.le_iff_toInt_le, Int64.toInt_zero] at hsign
  exact hsign

namespace SignedSum

/-- The number that the two magnitudes stand for. -/
def value (sum : SignedSum) : Int :=
  (sum.positive.toNat : Int) - sum.negative.toNat

/-- After `n` additions neither magnitude exceeds `n` times the largest value. -/
def Bounded (n : Nat) (sum : SignedSum) : Prop :=
  sum.positive.toNat ≤ n * 2 ^ 63 ∧ sum.negative.toNat ≤ n * 2 ^ 63

theorem value_zero : value {} = 0 := by decide

theorem bounded_zero : Bounded 0 {} := by
  unfold Bounded
  decide

theorem add_spec {sum : SignedSum} {n : Nat} (h : sum.Bounded n) (hn : n < 2 ^ 63) (v : Nanos) :
    (sum.add v).value = sum.value + v.toInt ∧ (sum.add v).Bounded (n + 1) := by
  obtain ⟨hpositive, hnegative⟩ := h
  have hhigh := v.toInt_lt
  have hlow := v.le_toInt
  have hbound : n * 2 ^ 63 ≤ (2 ^ 63 - 1) * 2 ^ 63 := Nat.mul_le_mul_right _ (by omega)
  unfold add
  by_cases hsign : v ≥ 0
  · rw [if_pos hsign]
    have hnonneg : 0 ≤ v.toInt := by
      rw [ge_iff_le, Int64.le_iff_toInt_le, Int64.toInt_zero] at hsign
      exact hsign
    have hmagnitude : (UInt128.ofU64 v.toUInt64).toNat = v.toInt.toNat := by
      rw [UInt128.toNat_ofU64, toNat_toUInt64_of_nonneg hnonneg]
    have hsum := @UInt128.add_toNat sum.positive (.ofU64 v.toUInt64) (by omega)
    simp only [value, Bounded, hsum, hmagnitude]
    omega
  · rw [if_neg hsign]
    have hneg : v.toInt < 0 := by
      rw [ge_iff_le, Int64.le_iff_toInt_le, Int64.toInt_zero] at hsign
      omega
    have hmagnitude : (UInt128.ofU64 (0 - v.toUInt64)).toNat = (-v.toInt).toNat := by
      have hword := toNat_toUInt64_of_neg hneg
      rw [UInt128.toNat_ofU64, UInt64.toNat_sub, UInt64.toNat_zero]
      omega
    have hsum := @UInt128.add_toNat sum.negative (.ofU64 (0 - v.toUInt64)) (by omega)
    simp only [value, Bounded, hsum, hmagnitude]
    omega

theorem foldl_add_spec {sum : SignedSum} {n : Nat} (h : sum.Bounded n) (values : List Nanos)
    (hn : n + values.length < 2 ^ 63) :
    (values.foldl add sum).value = sum.value + exactSum values ∧ (values.foldl add sum).Bounded (n + values.length) := by
  induction values generalizing sum n with
  | nil => exact ⟨by simp [exactSum], h⟩
  | cons v rest ih =>
    rw [List.length_cons] at hn
    obtain ⟨hvalue, hbounded⟩ := add_spec h (by omega) v
    obtain ⟨hrest, hbounded'⟩ := ih hbounded (by omega)
    rw [List.foldl_cons, hrest, hvalue, exactSum_cons, List.length_cons]
    refine ⟨by omega, ?_⟩
    rw [show n + (rest.length + 1) = n + 1 + rest.length by omega]
    exact hbounded'

/-- Below saturation, the conversion returns the number where it is representable, and nothing otherwise. -/
theorem toI64_eq_some_iff {sum : SignedSum} {n : Nat} (h : sum.Bounded n) (hn : n < 2 ^ 63) (x : Nanos) :
    sum.toI64 = some x ↔ x.toInt = sum.value := by
  obtain ⟨hpositive, hnegative⟩ := h
  have hbound : n * 2 ^ 63 ≤ (2 ^ 63 - 1) * 2 ^ 63 := Nat.mul_le_mul_right _ (by omega)
  have hhigh := x.toInt_lt
  have hlow := x.le_toInt
  have hsaturated : ¬sum.overflowed = true := by
    rw [overflowed, Bool.or_eq_true, UInt128.isSaturated_iff, UInt128.isSaturated_iff]
    omega
  have hmax : (0x7FFFFFFFFFFFFFFF : UInt64).toNat = 2 ^ 63 - 1 := rfl
  have hmin : (0x8000000000000000 : UInt64).toNat = 2 ^ 63 := rfl
  unfold toI64 value
  rw [if_neg hsaturated]
  by_cases hzero : (sum.positive.isZero && sum.negative.isZero) = true
  · rw [if_pos hzero]
    rw [Bool.and_eq_true, UInt128.isZero_iff, UInt128.isZero_iff] at hzero
    rw [hzero.1, hzero.2, Option.some.injEq, eq_comm, ← Int64.toInt_inj, Int64.toInt_zero]
    simp
  · rw [if_neg hzero]
    by_cases hsign : sum.negative.toNat ≤ sum.positive.toNat
    · have hless : (!sum.positive.less sum.negative) = true := by
        rw [Bool.not_eq_true', ← Bool.not_eq_true, UInt128.less_iff]
        omega
      have hdiff := UInt128.sub_toNat hsign
      rw [if_pos hless]
      simp only
      generalize sum.positive.sub sum.negative = diff at hdiff
      have hexceeds := diff.exceeds_iff 0x7FFFFFFFFFFFFFFF
      rw [hmax] at hexceeds
      by_cases hfits : diff.toNat < 2 ^ 63
      · have hword := @UInt128.lo_toNat diff (by omega)
        have hread := @toInt_toInt64 diff.lo (by omega)
        rw [if_neg (by rw [hexceeds]; omega), Option.some.injEq, eq_comm, ← Int64.toInt_inj, hread, hword, hdiff]
        omega
      · rw [if_pos (hexceeds.mpr (by omega))]
        simp only [reduceCtorEq, false_iff]
        omega
    · have hless : ¬(!sum.positive.less sum.negative) = true := by
        rw [Bool.not_eq_true', Bool.not_eq_false, UInt128.less_iff]
        omega
      have hdiff := @UInt128.sub_toNat sum.negative sum.positive (by omega)
      rw [if_neg hless]
      simp only
      generalize sum.negative.sub sum.positive = diff at hdiff
      have hexceeds := diff.exceeds_iff 0x8000000000000000
      rw [hmin] at hexceeds
      by_cases hfits : diff.toNat ≤ 2 ^ 63
      · have hword := @UInt128.lo_toNat diff (by omega)
        rw [if_neg (by rw [hexceeds]; omega)]
        by_cases hlast : diff.lo = 0x8000000000000000
        · have hnat : diff.toNat = 2 ^ 63 := by rw [← hword, hlast, hmin]
          rw [if_pos hlast, Option.some.injEq, eq_comm, ← Int64.toInt_inj, Int64.toInt_minValue]
          omega
        · have hnat : diff.toNat ≠ 2 ^ 63 := by
            intro hequal
            exact hlast (UInt64.toNat_inj.mp (by rw [hword, hequal, hmin]))
          have hread := @toInt_neg_toInt64 diff.lo (by omega)
          rw [if_neg hlast, Option.some.injEq, eq_comm, ← Int64.toInt_inj, hread, hword, hdiff]
          omega
      · rw [if_pos (hexceeds.mpr (by omega))]
        simp only [reduceCtorEq, false_iff]
        omega

theorem toI64_isSome_iff {sum : SignedSum} {n : Nat} (h : sum.Bounded n) (hn : n < 2 ^ 63) :
    sum.toI64.isSome = true ↔ Representable sum.value := by
  rw [Option.isSome_iff_exists, representable_iff_exists]
  exact exists_congr (toI64_eq_some_iff h hn)

end SignedSum

/-! ### The mean -/

/-- The division by a count, rounded towards zero and corrected for a negative remainder, is the floor
division. -/
theorem floorMean_of_sum {sum : SignedSum} {count : Nat} {total : Nanos} (hsum : sum.toI64 = some total)
    (hpos : 0 < count) (hcount : count < 2 ^ 63) :
    ∃ mean, floorMean sum count = (some mean, (total.toInt % count).toNat) ∧ mean.toInt = total.toInt / count := by
  have hdivisor : (Int64.ofNat count).toInt = count := Int64.toInt_ofNat_of_lt hcount
  have hdivisorNe : Int64.ofNat count ≠ -1 := by
    intro hminus
    rw [hminus] at hdivisor
    have : (-1 : Int64).toInt = -1 := rfl
    omega
  have hquotient : (total / Int64.ofNat count).toInt = total.toInt.tdiv count := by
    rw [Int64.toInt_div_of_ne_right _ _ hdivisorNe, hdivisor]
  have hrest : (total % Int64.ofNat count).toInt = total.toInt.tmod count := by
    rw [Int64.toInt_mod, hdivisor]
  have hhigh := total.toInt_lt
  have hlow := total.le_toInt
  have hfloor := Int.emod_add_mul_ediv total.toInt count
  have hmodPos := Int.emod_nonneg total.toInt (show (count : Int) ≠ 0 by omega)
  have hmodLt := Int.emod_lt_of_pos total.toInt (show (0 : Int) < count by omega)
  unfold floorMean
  rw [if_neg (by omega), hsum]
  simp only
  rw [Int.tdiv_eq_ediv] at hquotient
  rw [Int.tmod_eq_emod] at hrest
  by_cases hexact : 0 ≤ total.toInt ∨ (count : Int) ∣ total.toInt
  · rw [if_pos hexact, Int.add_zero] at hquotient
    rw [if_pos hexact, Nat.cast_zero, Int.sub_zero] at hrest
    have hnonneg : ¬total % Int64.ofNat count < 0 := by
      rw [Int64.lt_iff_toInt_lt, hrest, Int64.toInt_zero]
      omega
    rw [if_neg hnonneg, toNat_toUInt64_of_nonneg (by omega), hrest]
    exact ⟨_, rfl, hquotient⟩
  · rw [if_neg hexact, Int.sign_natCast_of_ne_zero (by omega)] at hquotient
    rw [if_neg hexact, Int.natAbs_natCast] at hrest
    have hnegative : total % Int64.ofNat count < 0 := by
      rw [Int64.lt_iff_toInt_lt, hrest, Int64.toInt_zero]
      omega
    have hcorrected : (total % Int64.ofNat count + Int64.ofNat count).toInt = total.toInt % count := by
      rw [toInt_add_of_representable (by rw [hrest, hdivisor]; unfold Representable; omega), hrest, hdivisor]
      omega
    have hbelow : -2 ^ 63 ≤ total.toInt / count := by
      have := Int.ediv_le_ediv (show (0 : Int) < count by omega) hlow
      have hone : (-2 ^ 63 : Int) ≤ -2 ^ 63 / count := by
        rw [Int.le_ediv_iff_mul_le (by omega)]
        nlinarith
      omega
    have hone : (1 : Int64).toInt = 1 := rfl
    have habove : total.toInt / count < 0 := Int.ediv_neg_of_neg_of_pos (by omega) (by omega)
    have hmean : (total / Int64.ofNat count - 1).toInt = total.toInt / count := by
      rw [toInt_sub_of_representable (by rw [hquotient, hone]; unfold Representable; omega), hquotient, hone]
      omega
    rw [if_pos hnegative, toNat_toUInt64_of_nonneg (by rw [hcorrected]; omega), hcorrected]
    exact ⟨_, rfl, hmean⟩

theorem floorMean_isSome {sum : SignedSum} {count : Nat} (hpos : 0 < count) (hcount : count < 2 ^ 63) :
    (floorMean sum count).1.isSome = true ↔ sum.toI64.isSome = true := by
  cases htotal : sum.toI64 with
  | none =>
    unfold floorMean
    rw [if_neg (by omega), htotal]
  | some total =>
    obtain ⟨mean, hmean, -⟩ := floorMean_of_sum htotal hpos hcount
    rw [hmean]
    simp

/-! ### The histogram -/

namespace HistogramSpec

/-- The bounds that `make` lets through: not negative and strictly increasing. -/
structure Valid (spec : HistogramSpec) : Prop where
  nonneg : ∀ bound ∈ spec.bounds, 0 ≤ bound
  increasing : spec.bounds.Pairwise (· < ·)

theorem checkBounds_ok {previous : Option Nanos} {bounds : List Nanos} (h : checkBounds previous bounds = .ok ()) :
    (∀ bound ∈ bounds, 0 ≤ bound) ∧ (previous.toList ++ bounds).Pairwise (· < ·) := by
  induction bounds generalizing previous with
  | nil => exact ⟨by simp, by cases previous <;> simp⟩
  | cons bound rest ih =>
    unfold checkBounds at h
    obtain ⟨hsign, h⟩ := guard_eq_ok_iff.mp h
    obtain ⟨hgrows, h⟩ := guard_eq_ok_iff.mp h
    obtain ⟨hnonneg, hincreasing⟩ := ih h
    rw [Int64.not_lt] at hsign
    refine ⟨List.forall_mem_cons.mpr ⟨hsign, hnonneg⟩, ?_⟩
    cases previous with
    | none => exact hincreasing
    | some first =>
      have hless : first < bound := by simpa using hgrows
      have hrest : (bound :: rest).Pairwise (· < ·) := hincreasing
      show (first :: bound :: rest).Pairwise (· < ·)
      refine List.pairwise_cons.mpr ⟨?_, hrest⟩
      intro other hother
      rcases List.mem_cons.mp hother with rfl | hother
      · exact hless
      · exact Int64.lt_trans hless (List.rel_of_pairwise_cons hrest hother)

theorem make_valid {bounds : List Nanos} {limits : Limits} {spec : HistogramSpec} (h : make bounds limits = .ok spec) :
    spec.Valid := by
  unfold make at h
  obtain ⟨-, h⟩ := guard_eq_ok_iff.mp h
  cases hcheck : checkBounds none bounds with
  | error e =>
    rw [hcheck] at h
    cases h
  | ok u =>
    rw [hcheck] at h
    cases h
    obtain ⟨hnonneg, hincreasing⟩ := checkBounds_ok hcheck
    exact ⟨hnonneg, hincreasing⟩

/-- The half-open interval of a bucket: from the bound before it, or from zero, up to its own bound, if any. -/
def InBucket (spec : HistogramSpec) (index : Nat) (value : Nanos) : Prop :=
  0 ≤ value ∧ (∀ bound, 0 < index → spec.bounds[index - 1]? = some bound → bound ≤ value) ∧
    ∀ bound, spec.bounds[index]? = some bound → value < bound

instance (spec : HistogramSpec) (index : Nat) (value : Nanos) : Decidable (spec.InBucket index value) :=
  decidable_of_iff (0 ≤ value ∧ (0 < index → (spec.bounds[index - 1]?).all (· ≤ value)) ∧
    (spec.bounds[index]?).all (value < ·)) (by
      unfold InBucket
      cases spec.bounds[index - 1]? <;> cases spec.bounds[index]? <;> simp)

end HistogramSpec

theorem bucketIndex_eq_iff {bounds : List Nanos} (h : bounds.Pairwise (· < ·)) {value : Nanos} {index : Nat} :
    Histogram.bucketIndex value bounds = index ↔ index ≤ bounds.length ∧
      (∀ bound, 0 < index → bounds[index - 1]? = some bound → bound ≤ value) ∧
      ∀ bound, bounds[index]? = some bound → value < bound := by
  induction bounds generalizing index with
  | nil =>
    simp only [Histogram.bucketIndex, List.length_nil, List.getElem?_nil, reduceCtorEq, false_implies, implies_true,
      and_true]
    omega
  | cons bound rest ih =>
    have hrest := (List.pairwise_cons.mp h).2
    unfold Histogram.bucketIndex
    by_cases habove : value ≥ bound
    · rw [if_pos habove]
      cases index with
      | zero =>
        simp only [Nat.add_one_ne_zero, false_iff, not_and, List.getElem?_cons_zero, Option.some.injEq]
        intro _ _ hless
        exact Int64.not_lt.mpr habove (hless bound rfl)
      | succ index =>
        rw [Nat.add_right_cancel_iff, ih hrest, List.length_cons, Nat.add_le_add_iff_right, List.getElem?_cons_succ]
        refine and_congr_right fun hlength => and_congr_left fun hstop => ?_
        cases index with
        | zero =>
          simp only [Nat.lt_irrefl, false_implies, implies_true, Nat.zero_add, Nat.zero_lt_one, Nat.sub_self,
            List.getElem?_cons_zero, Option.some.injEq, forall_const, forall_eq', true_iff]
          exact habove
        | succ index =>
          simp only [Nat.zero_lt_succ, forall_const, Nat.add_sub_cancel, List.getElem?_cons_succ]
    · rw [if_neg habove]
      have hbelow : value < bound := Int64.not_le.mp habove
      cases index with
      | zero => simp [hbelow]
      | succ index =>
        -- An earlier bound is already above the value.
        simp only [Nat.right_eq_add, Nat.add_eq_zero_iff, Nat.one_ne_zero, and_false, false_iff, not_and]
        intro hlength hstart
        exfalso
        cases index with
        | zero => exact habove (hstart bound (by omega) (by simp))
        | succ index =>
          rw [List.length_cons] at hlength
          have hlt : index < rest.length := by omega
          have hsome : (bound :: rest)[index + 1 + 1 - 1]? = some rest[index] := by simp [hlt]
          have hless := List.rel_of_pairwise_cons h (List.getElem_mem hlt)
          exact habove (Int64.le_trans (Int64.le_of_lt hless) (hstart _ (by omega) hsome))

namespace Histogram

/-- `Histogram::total`. -/
def total (h : Histogram) : Nat :=
  h.buckets.foldl (· + ·) h.underflow

theorem total_eq (h : Histogram) : h.total = h.underflow + h.buckets.sum := by
  obtain ⟨spec, buckets, underflow⟩ := h
  unfold total
  simp only
  induction buckets generalizing underflow with
  | nil => rfl
  | cons bucket rest ih =>
    rw [List.foldl_cons, ih, List.sum_cons]
    omega

/-- What a histogram over some values has counted. -/
structure Counts (spec : HistogramSpec) (values : List Nanos) (h : Histogram) : Prop where
  bounds : h.spec = spec
  underflow : h.underflow = values.countP (· < 0)
  length : h.buckets.length = spec.bucketCount
  buckets : ∀ index count, h.buckets[index]? = some count → count = values.countP fun value => spec.InBucket index value
  total : h.total = values.length

theorem counts_empty (spec : HistogramSpec) : Counts spec [] (empty spec) := by
  refine ⟨rfl, rfl, by simp [empty], ?_, by simp [total_eq, empty]⟩
  intro index count hcount
  have hmem := List.mem_of_getElem? hcount
  exact (List.eq_of_mem_replicate hmem).trans (by simp)

theorem Counts.of_perm {spec : HistogramSpec} {values values' : List Nanos} {h : Histogram}
    (hcounts : Counts spec values h) (hperm : values.Perm values') : Counts spec values' h where
  bounds := hcounts.bounds
  underflow := by rw [hcounts.underflow, hperm.countP_eq]
  length := hcounts.length
  buckets index count hcount := by rw [hcounts.buckets index count hcount, hperm.countP_eq]
  total := by rw [hcounts.total, hperm.length_eq]

theorem Counts.add {spec : HistogramSpec} (hvalid : spec.Valid) {values : List Nanos} {h : Histogram}
    (hcounts : Counts spec values h) (value : Nanos) : Counts spec (value :: values) (h.add value) := by
  have hkept : ¬h.buckets.length ≠ h.spec.bucketCount := by
    rw [hcounts.bounds, not_not]
    exact hcounts.length
  unfold Histogram.add
  rw [if_neg hkept]
  by_cases hsign : value < 0
  · rw [if_pos hsign]
    refine ⟨hcounts.bounds, ?_, hcounts.length, ?_, ?_⟩
    · rw [List.countP_cons_of_pos (by simpa using hsign), ← hcounts.underflow]
    · intro index count hcount
      rw [List.countP_cons_of_neg, hcounts.buckets index count hcount]
      have hnot : ¬0 ≤ value := Int64.not_le.mpr hsign
      simp [HistogramSpec.InBucket, hnot]
    · have htotal := hcounts.total
      rw [total_eq] at htotal ⊢
      simp only [List.length_cons]
      omega
  · rw [if_neg hsign]
    have hnonneg : 0 ≤ value := Int64.not_lt.mp hsign
    obtain ⟨found, hfound⟩ : ∃ found, bucketIndex value h.spec.bounds = found := ⟨_, rfl⟩
    have hplace := (bucketIndex_eq_iff (by rw [hcounts.bounds]; exact hvalid.increasing)).mp hfound
    rw [hcounts.bounds] at hplace
    have hlt : found < h.buckets.length := by
      rw [hcounts.length, HistogramSpec.bucketCount]
      omega
    rw [hfound]
    refine ⟨hcounts.bounds, ?_, by simpa using hcounts.length, ?_, ?_⟩
    · rw [List.countP_cons_of_neg (by simpa using hsign)]
      exact hcounts.underflow
    · intro index count hcount
      rw [List.getElem?_modify] at hcount
      obtain ⟨before, hbefore, hcount⟩ := Option.map_eq_some_iff.mp hcount
      rw [List.countP_cons, ← hcounts.buckets index before hbefore, ← hcount]
      have hinside : spec.InBucket index value ↔ found = index := by
        have hindex : index ≤ spec.bounds.length := by
          have := (List.getElem?_eq_some_iff.mp hbefore).1
          rw [hcounts.length, HistogramSpec.bucketCount] at this
          omega
        rw [← hfound, hcounts.bounds, bucketIndex_eq_iff hvalid.increasing]
        unfold HistogramSpec.InBucket
        simp [hnonneg, hindex]
      by_cases hsame : found = index
      · simp [hsame, hinside.mpr hsame]
      · simp [hsame, hinside.not.mpr hsame]
    · have htotal := hcounts.total
      rw [total_eq] at htotal ⊢
      have hsum := @Lib.sum_modify _ id (· + 1) 1 (fun _ => rfl) h.buckets found hlt
      rw [List.map_id, List.map_id] at hsum
      simp only [List.length_cons]
      omega

end Histogram

/-! ### The quantiles -/

namespace QuantileProbe

/-- The probes that `make` lets through. -/
structure Valid (probe : QuantileProbe) : Prop where
  positive : 0 < probe.numerator.toNat
  proper : probe.numerator.toNat ≤ probe.denominator.toNat

theorem make_valid {numerator denominator : UInt32} {probe : QuantileProbe}
    (h : make numerator denominator = .ok probe) : probe.Valid := by
  unfold make at h
  obtain ⟨-, h⟩ := guard_eq_ok_iff.mp h
  obtain ⟨hrange, h⟩ := guard_eq_ok_iff.mp h
  cases h
  rw [not_or, gt_iff_lt, UInt32.lt_iff_toNat_lt, ← UInt32.toNat_inj, UInt32.toNat_zero] at hrange
  exact ⟨by simp only; omega, by simp only; omega⟩

/-- The rank of a quantile among `count` values: the probability times the count, rounded up. -/
def rank (probe : QuantileProbe) (count : Nat) : Nat :=
  (count * probe.numerator.toNat + probe.denominator.toNat - 1) / probe.denominator.toNat

theorem Valid.rank_bounds {probe : QuantileProbe} (h : probe.Valid) {count : Nat} (hcount : 0 < count) :
    1 ≤ probe.rank count ∧ probe.rank count ≤ count := by
  have hpositive := h.positive
  have hproper := h.proper
  have hproduct : 1 * 1 ≤ count * probe.numerator.toNat := Nat.mul_le_mul hcount hpositive
  have hbelow : count * probe.numerator.toNat ≤ count * probe.denominator.toNat := Nat.mul_le_mul_left _ hproper
  unfold rank
  constructor
  · rw [Nat.le_div_iff_mul_le (by omega)]
    omega
  · rw [Nat.div_le_iff_le_mul_add_pred (by omega), Nat.mul_comm probe.denominator.toNat]
    omega

theorem Valid.rank_mono {p q : QuantileProbe} (hp : p.Valid) (hq : q.Valid)
    (h : p.numerator.toNat * q.denominator.toNat ≤ q.numerator.toNat * p.denominator.toNat) (count : Nat) :
    p.rank count ≤ q.rank count := by
  have hpPositive := hp.positive
  have hpProper := hp.proper
  have hqPositive := hq.positive
  have hqProper := hq.proper
  unfold rank
  generalize p.numerator.toNat = a at *
  generalize p.denominator.toNat = b at *
  generalize q.numerator.toNat = c at *
  generalize q.denominator.toNat = d at *
  -- With the rank r of the larger one, count * c ≤ r * d, and so count * a ≤ r * b.
  rw [Nat.div_le_iff_le_mul_add_pred (by omega)]
  have hceil : count * c ≤ (count * c + d - 1) / d * d := by
    have hmod := Nat.div_add_mod (count * c + d - 1) d
    have hlt := Nat.mod_lt (count * c + d - 1) (show 0 < d by omega)
    rw [Nat.mul_comm] at hmod
    omega
  generalize (count * c + d - 1) / d = r at *
  have hscaled : count * a * d ≤ r * b * d := by
    calc count * a * d = count * (a * d) := by ring
      _ ≤ count * (c * b) := Nat.mul_le_mul_left _ h
      _ = count * c * b := by ring
      _ ≤ r * d * b := Nat.mul_le_mul_right _ hceil
      _ = r * b * d := by ring
  have hle := Nat.le_of_mul_le_mul_right hscaled (by omega)
  rw [Nat.mul_comm b r]
  omega

end QuantileProbe

theorem div_ceil (n : Nat) {d : Nat} (hd : 0 < d) : (n + d - 1) / d = n / d + if n % d = 0 then 0 else 1 := by
  have hmod := Nat.div_add_mod n d
  have hlt := Nat.mod_lt n hd
  generalize n / d = q at *
  generalize n % d = r at *
  split_ifs with hexact
  · apply Nat.div_eq_of_lt_le
    · rw [Nat.add_zero, Nat.mul_comm]
      omega
    · rw [Nat.add_zero, Nat.add_mul, Nat.mul_comm, Nat.one_mul]
      omega
  · apply Nat.div_eq_of_lt_le
    · rw [Nat.add_mul, Nat.mul_comm, Nat.one_mul]
      omega
    · rw [Nat.add_mul, Nat.add_mul, Nat.mul_comm, Nat.one_mul]
      omega

theorem nearestRank_eq {sorted : List Nanos} (hne : sorted ≠ []) (hlength : sorted.length < 2 ^ 63)
    {probe : QuantileProbe} (hvalid : probe.Valid) :
    nearestRank sorted probe = sorted[probe.rank sorted.length - 1]? := by
  have hcount : 0 < sorted.length := List.length_pos_iff.mpr hne
  obtain ⟨hlow, hhigh⟩ := hvalid.rank_bounds hcount
  have hpositive := hvalid.positive
  have hproper := hvalid.proper
  have hdenominator : probe.denominator.toUInt64 ≠ 0 := by
    intro hzero
    have := congrArg UInt64.toNat hzero
    rw [UInt32.toNat_toUInt64, UInt64.toNat_zero] at this
    omega
  have hword : (UInt64.ofNat sorted.length).toNat = sorted.length := by
    rw [UInt64.toNat_ofNat', Nat.mod_eq_of_lt (by omega)]
  obtain ⟨hquotient, hremainder⟩ := UInt128.divmod_toNat
    (UInt128.mulU64 probe.numerator.toUInt64 (UInt64.ofNat sorted.length)) hdenominator
  rw [UInt128.mulU64_toNat, hword, UInt32.toNat_toUInt64, UInt32.toNat_toUInt64, Nat.mul_comm] at hquotient hremainder
  unfold nearestRank
  rw [if_neg (by simpa using hne)]
  simp only
  generalize (UInt128.mulU64 probe.numerator.toUInt64 (UInt64.ofNat sorted.length)).divmod
    probe.denominator.toUInt64 = found at hquotient hremainder
  obtain ⟨quotient, remainder⟩ := found
  simp only at hquotient hremainder ⊢
  have hceil : probe.rank sorted.length =
      quotient.toNat + if remainder.toNat = 0 then 0 else 1 := by
    rw [hquotient, hremainder]
    unfold QuantileProbe.rank
    exact div_ceil _ (by omega)
  have hlo := @UInt128.lo_toNat quotient (by omega)
  -- The word that is computed is the rank, and neither clamp applies.
  have hrank : (if remainder ≠ 0 then quotient.lo + 1 else quotient.lo).toNat = probe.rank sorted.length := by
    have hzero : remainder = 0 ↔ remainder.toNat = 0 := by rw [← UInt64.toNat_inj, UInt64.toNat_zero]
    by_cases hexact : remainder = 0
    · rw [if_neg (not_not.mpr hexact), hlo, hceil, if_pos (hzero.mp hexact), Nat.add_zero]
    · rw [if_pos hexact, UInt64.toNat_add, hlo, UInt64.toNat_one, hceil, if_neg (hzero.not.mp hexact)]
      rw [if_neg (hzero.not.mp hexact)] at hceil
      rw [Nat.mod_eq_of_lt (by omega)]
  generalize (if remainder ≠ 0 then quotient.lo + 1 else quotient.lo) = word at hrank
  have hnonzero : word ≠ 0 := by
    intro hzero
    rw [hzero, UInt64.toNat_zero] at hrank
    omega
  have hwithin : ¬word > UInt64.ofNat sorted.length := by
    rw [gt_iff_lt, UInt64.lt_iff_toNat_lt, hword]
    omega
  rw [if_neg hnonzero, if_neg hwithin, UInt64.toNat_sub_of_le _ _ (by rw [UInt64.le_iff_toNat_le, UInt64.toNat_one]; omega),
    UInt64.toNat_one, hrank]

/-! ### The aggregate -/

/-- What a distribution says of the values in numbers. Without values it knows no sum and no mean. -/
structure Distribution.Measures (values : List Nanos) (d : Distribution) : Prop where
  count : d.count = values.length
  minimum : ∀ x, d.minNs = some x ↔ x ∈ values ∧ ∀ value ∈ values, x ≤ value
  maximum : ∀ x, d.maxNs = some x ↔ x ∈ values ∧ ∀ value ∈ values, value ≤ x
  sum : ∀ x, d.sumNs = some x ↔ values ≠ [] ∧ x.toInt = exactSum values
  overflowed : d.sumOverflowed = true ↔ ¬Representable (exactSum values)
  known : d.meanNs.isSome = true ↔ values ≠ [] ∧ Representable (exactSum values)
  mean : ∀ m, d.meanNs = some m →
    exactSum values = m.toInt * d.count + d.meanRemainderNs ∧ d.meanRemainderNs < d.count

/-- The distribution says of the values what its parts are called. -/
structure Distribution.Describes (values : List Nanos) (spec : HistogramSpec) (probes : List QuantileProbe)
    (d : Distribution) : Prop extends d.Measures values where
  histogram : d.histogram.Counts spec values
  listed : d.probes = probes
  quantiles : d.quantiles.length = probes.length ∧ ∀ (i : Nat) (probe : QuantileProbe), probes[i]? = some probe →
    ∀ x, d.quantiles[i]? = some (some x) ↔ Lib.IsNth (· ≤ ·) values (probe.rank values.length) x
  answered : values ≠ [] → ∀ i < probes.length, ∃ x, d.quantiles[i]? = some (some x)

theorem Distribution.Measures.mean_eq {values : List Nanos} {d : Distribution} (h : d.Measures values) {m : Nanos}
    (hm : d.meanNs = some m) : m.toInt = exactSum values / values.length := by
  obtain ⟨hsum, hless⟩ := h.mean m hm
  rw [h.count] at hsum hless
  symm
  rw [Int.ediv_eq_iff_of_pos (by omega)]
  omega

theorem Distribution.Measures.mean_between {values : List Nanos} {d : Distribution} (h : d.Measures values) {m : Nanos}
    (hm : d.meanNs = some m) : ∃ low high, d.minNs = some low ∧ d.maxNs = some high ∧ low ≤ m ∧ m ≤ high := by
  have hne : values ≠ [] := (h.known.mp (Option.isSome_iff_exists.mpr ⟨m, hm⟩)).1
  have hpos : (0 : Int) < values.length := by
    have := List.length_pos_iff.mpr hne
    omega
  have hnonempty : values.toFinset.Nonempty := by
    obtain ⟨value, hvalue⟩ := List.exists_mem_of_ne_nil values hne
    exact ⟨value, List.mem_toFinset.mpr hvalue⟩
  obtain ⟨low, hlow, hleast⟩ := values.toFinset.exists_min_image Int64.toInt hnonempty
  obtain ⟨high, hhigh, hgreatest⟩ := values.toFinset.exists_max_image Int64.toInt hnonempty
  simp only [List.mem_toFinset] at hlow hleast hhigh hgreatest
  refine ⟨low, high, (h.minimum low).mpr ⟨hlow, ?_⟩, (h.maximum high).mpr ⟨hhigh, ?_⟩, ?_, ?_⟩
  · intro value hvalue
    exact Int64.le_iff_toInt_le.mpr (hleast value hvalue)
  · intro value hvalue
    exact Int64.le_iff_toInt_le.mpr (hgreatest value hvalue)
  · rw [Int64.le_iff_toInt_le, h.mean_eq hm, Int.le_ediv_iff_mul_le hpos, mul_comm]
    have hsum := List.card_nsmul_le_sum (values.map Int64.toInt) low.toInt
      (List.forall_mem_map.mpr hleast)
    rw [List.length_map, nsmul_eq_mul] at hsum
    exact hsum
  · rw [Int64.le_iff_toInt_le, h.mean_eq hm, Int.ediv_le_iff_le_mul hpos]
    have hsum := List.sum_le_card_nsmul (values.map Int64.toInt) high.toInt
      (List.forall_mem_map.mpr hgreatest)
    rw [List.length_map, nsmul_eq_mul] at hsum
    unfold exactSum
    linarith

theorem Distribution.Describes.quantiles_mono {values : List Nanos} {spec : HistogramSpec}
    {probes : List QuantileProbe} {d : Distribution} (h : d.Describes values spec probes)
    (hvalid : ∀ probe ∈ probes, probe.Valid) {i j : Nat} {p q : QuantileProbe} (hp : probes[i]? = some p)
    (hq : probes[j]? = some q) (hpq : p.numerator.toNat * q.denominator.toNat ≤ q.numerator.toNat * p.denominator.toNat)
    {x y : Nanos} (hx : d.quantiles[i]? = some (some x)) (hy : d.quantiles[j]? = some (some y)) : x ≤ y := by
  have hfirst := (h.quantiles.2 i p hp x).mp hx
  have hsecond := (h.quantiles.2 j q hq y).mp hy
  have hpValid := hvalid p (List.mem_of_getElem? hp)
  have hqValid := hvalid q (List.mem_of_getElem? hq)
  exact hfirst.mono hsecond (hpValid.rank_mono hqValid hpq values.length)

theorem Histogram.foldl_add_counts {spec : HistogramSpec} (hvalid : spec.Valid) (values : List Nanos) :
    Histogram.Counts spec values (values.foldl Histogram.add (.empty spec)) := by
  have hrun : ∀ (rest seen : List Nanos) (h : Histogram), Histogram.Counts spec seen h →
      Histogram.Counts spec (rest.reverse ++ seen) (rest.foldl Histogram.add h) := by
    intro rest
    induction rest with
    | nil =>
      intro seen h hcounts
      exact hcounts
    | cons value rest ih =>
      intro seen h hcounts
      rw [List.foldl_cons, List.reverse_cons, List.append_assoc]
      exact ih _ _ (hcounts.add hvalid value)
  have hall := hrun values [] _ (counts_empty spec)
  rw [List.append_nil] at hall
  exact hall.of_perm values.reverse_perm

theorem quantile_isNth {values : List Nanos} (hne : values ≠ []) (hlength : values.length < 2 ^ 63)
    {probe : QuantileProbe} (hvalid : probe.Valid) :
    ∃ x, nearestRank (values.insertionSort (· ≤ ·)) probe = some x ∧
      Lib.IsNth (· ≤ ·) values (probe.rank values.length) x := by
  have hperm := List.perm_insertionSort (fun a b : Nanos => a ≤ b) values
  have hpos : 0 < values.length := List.length_pos_iff.mpr hne
  obtain ⟨hlow, hhigh⟩ := hvalid.rank_bounds hpos
  have hsorted : values.insertionSort (· ≤ ·) ≠ [] := by
    rw [← List.length_pos_iff, hperm.length_eq]
    exact hpos
  have hlt : probe.rank values.length - 1 < (values.insertionSort (· ≤ ·)).length := by
    rw [hperm.length_eq]
    omega
  have hnth := Lib.isNth_of_sorted (List.getElem?_eq_getElem hlt)
  rw [show probe.rank values.length - 1 + 1 = probe.rank values.length by omega] at hnth
  refine ⟨_, ?_, hnth⟩
  rw [nearestRank_eq hsorted (by rw [hperm.length_eq]; exact hlength) hvalid, hperm.length_eq,
    List.getElem?_eq_getElem hlt]

theorem aggregate_measures {values : List Nanos} {spec : HistogramSpec} {probes : List QuantileProbe} {limits : Limits}
    {d : Distribution} (hlength : values.length < 2 ^ 63) (h : aggregate values spec probes limits = .ok d) :
    d.Measures values := by
  unfold aggregate at h
  obtain ⟨-, h⟩ := guard_eq_ok_iff.mp h
  obtain ⟨-, h⟩ := guard_eq_ok_iff.mp h
  by_cases hempty : values.isEmpty = true
  · rw [if_pos hempty] at h
    cases h
    rw [List.isEmpty_iff] at hempty
    rw [hempty]
    refine ⟨rfl, by simp, by simp, by simp, ?_, by simp, by simp⟩
    simp [exactSum, Representable]
  · rw [if_neg hempty] at h
    simp only [Except.ok.injEq] at h
    subst h
    rw [List.isEmpty_iff] at hempty
    have hpos : 0 < values.length := List.length_pos_iff.mpr hempty
    have hperm := List.perm_insertionSort (fun a b : Nanos => a ≤ b) values
    have hfits : 0 + (values.insertionSort (· ≤ ·)).length < 2 ^ 63 := by
      rw [Nat.zero_add, hperm.length_eq]
      exact hlength
    obtain ⟨hsum, hbounded⟩ := SignedSum.foldl_add_spec SignedSum.bounded_zero _ hfits
    rw [Nat.zero_add, hperm.length_eq] at hbounded
    rw [exactSum_perm hperm, SignedSum.value_zero, Int.zero_add] at hsum
    generalize (values.insertionSort (· ≤ ·)).foldl SignedSum.add {} = sum at *
    have htotal := SignedSum.toI64_eq_some_iff hbounded hlength
    have hpresent := SignedSum.toI64_isSome_iff hbounded hlength
    rw [hsum] at htotal hpresent
    refine ⟨rfl, fun x => Lib.head?_insertionSort_iff, fun x => Lib.getLast?_insertionSort_iff, ?_, ?_, ?_, ?_⟩
    · intro x
      simp only [htotal x, ne_eq, hempty, not_false_eq_true, true_and]
    · have hflag : sum.overflowed = true → sum.toI64 = none := fun hover => if_pos hover
      rw [Bool.or_eq_true, Option.isNone_iff_eq_none, or_iff_right_of_imp hflag, ← hpresent,
        Option.not_isSome_iff_eq_none]
    · rw [floorMean_isSome hpos hlength, hpresent]
      simp only [ne_eq, hempty, not_false_eq_true, true_and]
    · intro m hm
      obtain ⟨total, hsome⟩ := Option.isSome_iff_exists.mp
        ((floorMean_isSome hpos hlength).mp (Option.isSome_iff_exists.mpr ⟨m, hm⟩))
      obtain ⟨mean, hmean, hfloor⟩ := floorMean_of_sum hsome hpos hlength
      rw [hmean, Option.some.injEq] at hm
      have hdivision := Int.emod_add_mul_ediv total.toInt values.length
      have hnonneg := Int.emod_nonneg total.toInt (show (values.length : Int) ≠ 0 by omega)
      have hless := Int.emod_lt_of_pos total.toInt (show (0 : Int) < values.length by omega)
      rw [hmean, ← (htotal total).mp hsome, ← hm, hfloor, Int.mul_comm]
      simp only
      omega

theorem not_isNth_nil {probe : QuantileProbe} (h : probe.Valid) (x : Nanos) :
    ¬Lib.IsNth (· ≤ ·) [] (probe.rank 0) x := by
  have hpositive := h.positive
  have hproper := h.proper
  have hrank : probe.rank 0 = 0 := by
    unfold QuantileProbe.rank
    rw [Nat.zero_mul, Nat.zero_add, Nat.div_eq_zero_iff]
    omega
  rw [hrank]
  intro hx
  exact Nat.not_lt_zero _ hx.1

/-- Within the limits, aggregation answers with a distribution that describes the values. -/
theorem aggregate_describes {values : List Nanos} {spec : HistogramSpec} {probes : List QuantileProbe} {limits : Limits}
    (hlimit : values.length ≤ limits.maxSamplesPerPath) (hprobeLimit : probes.length ≤ limits.maxQuantileProbes)
    (hspec : spec.Valid) (hprobes : ∀ probe ∈ probes, probe.Valid) (hlength : values.length < 2 ^ 63) :
    ∃ d, aggregate values spec probes limits = .ok d ∧ d.Describes values spec probes := by
  obtain ⟨d, hd⟩ : ∃ d, aggregate values spec probes limits = .ok d := by
    unfold aggregate
    rw [if_neg (by omega), if_neg (by omega)]
    by_cases hempty : values.isEmpty = true
    · rw [if_pos hempty]
      exact ⟨_, rfl⟩
    · rw [if_neg hempty]
      exact ⟨_, rfl⟩
  have hmeasures := aggregate_measures hlength hd
  refine ⟨d, hd, ?_⟩
  unfold aggregate at hd
  rw [if_neg (by omega), if_neg (by omega)] at hd
  by_cases hempty : values.isEmpty = true
  · rw [if_pos hempty] at hd
    cases hd
    rw [List.isEmpty_iff] at hempty
    rw [hempty] at hmeasures ⊢
    refine ⟨hmeasures, Histogram.counts_empty spec, rfl, ⟨List.length_replicate, ?_⟩, by simp⟩
    intro i probe hprobe x
    refine iff_of_false ?_ (not_isNth_nil (hprobes probe (List.mem_of_getElem? hprobe)) x)
    intro hx
    have := List.eq_of_mem_replicate (List.mem_of_getElem? hx)
    cases this
  · rw [if_neg hempty] at hd
    simp only [Except.ok.injEq] at hd
    subst hd
    rw [List.isEmpty_iff] at hempty
    have hperm := List.perm_insertionSort (fun a b : Nanos => a ≤ b) values
    refine ⟨hmeasures, (Histogram.foldl_add_counts hspec (values.insertionSort (· ≤ ·))).of_perm hperm, rfl,
      ⟨List.length_map .., ?_⟩, ?_⟩
    · intro i probe hprobe x
      have hquantile := hprobes probe (List.mem_of_getElem? hprobe)
      obtain ⟨y, hy, hnth⟩ := quantile_isNth hempty hlength hquantile
      rw [List.getElem?_map, hprobe, Option.map_some, hy, Option.some.injEq, Option.some.injEq]
      constructor
      · rintro rfl
        exact hnth
      · exact fun hx => hnth.unique hx
    · intro _ i hi
      have hquantile := hprobes probes[i] (List.getElem_mem hi)
      obtain ⟨y, hy, -⟩ := quantile_isNth hempty hlength hquantile
      exact ⟨y, by rw [List.getElem?_map, List.getElem?_eq_getElem hi, Option.map_some, hy]⟩

theorem describes_of_aggregate {values : List Nanos} {spec : HistogramSpec} {probes : List QuantileProbe}
    {limits : Limits} {d : Distribution} (hspec : spec.Valid) (hprobes : ∀ probe ∈ probes, probe.Valid)
    (hlength : values.length < 2 ^ 63) (h : aggregate values spec probes limits = .ok d) :
    d.Describes values spec probes := by
  have hwithin : values.length ≤ limits.maxSamplesPerPath ∧ probes.length ≤ limits.maxQuantileProbes := by
    unfold aggregate at h
    obtain ⟨hlimit, h⟩ := guard_eq_ok_iff.mp h
    obtain ⟨hprobeLimit, -⟩ := guard_eq_ok_iff.mp h
    omega
  obtain ⟨d', hd', hdescribes⟩ := aggregate_describes hwithin.1 hwithin.2 hspec hprobes hlength
  rw [h, Except.ok.injEq] at hd'
  rw [hd']
  exact hdescribes

/-- Within the limits the aggregate is the distribution of the values, with quantiles in the order of their
probabilities, and it is the same for every order of the values. -/
theorem aggregate_exact (values : List Nanos) (spec : HistogramSpec) (probes : List QuantileProbe) (limits : Limits)
    (hlimit : values.length ≤ limits.maxSamplesPerPath) (hprobeLimit : probes.length ≤ limits.maxQuantileProbes)
    (hspec : spec.Valid) (hprobes : ∀ probe ∈ probes, probe.Valid) (hlength : values.length < 2 ^ 63) :
    ∃ d, aggregate values spec probes limits = .ok d ∧ d.Describes values spec probes ∧
      (∀ (i j : Nat) (p q : QuantileProbe) (x y : Nanos), probes[i]? = some p → probes[j]? = some q →
        p.numerator.toNat * q.denominator.toNat ≤ q.numerator.toNat * p.denominator.toNat →
        d.quantiles[i]? = some (some x) → d.quantiles[j]? = some (some y) → x ≤ y) ∧
      ∀ values' : List Nanos, values.Perm values' → aggregate values' spec probes limits = .ok d := by
  obtain ⟨d, hd, hdescribes⟩ := aggregate_describes hlimit hprobeLimit hspec hprobes hlength
  refine ⟨d, hd, hdescribes, ?_, ?_⟩
  · intro i j p q x y hp hq hpq hx hy
    exact hdescribes.quantiles_mono hprobes hp hq hpq hx hy
  · intro values' hperm
    rw [← hd]
    exact (aggregate_eq_of_perm hperm spec probes limits).symm

theorem latencyDefault_valid : HistogramSpec.latencyDefault.Valid := by
  have hall : HistogramSpec.latencyDefault.bounds.all (fun bound => decide (0 ≤ bound)) = true := by decide
  constructor
  · intro bound hbound
    exact of_decide_eq_true (List.all_eq_true.mp hall bound hbound)
  · decide

theorem defaultQuantileProbes_valid : ∀ probe ∈ defaultQuantileProbes, probe.Valid := by
  intro probe hprobe
  constructor
  · revert probe
    decide
  · revert probe
    decide

/-- The extreme values together: a negative sum with a remainder. -/
theorem extremes_aggregate_exact :
    ∃ d, aggregate [5, Int64.minValue, Int64.maxValue, -7] .latencyDefault defaultQuantileProbes {} = .ok d ∧
      d.Describes [5, Int64.minValue, Int64.maxValue, -7] .latencyDefault defaultQuantileProbes := by
  obtain ⟨d, hd, hdescribes, -, -⟩ := aggregate_exact [5, Int64.minValue, Int64.maxValue, -7] .latencyDefault
    defaultQuantileProbes {} (by decide) (by decide) latencyDefault_valid defaultQuantileProbes_valid (by decide)
  exact ⟨d, hd, hdescribes⟩

/-- An empty list has the representable sum zero, which is not reported, and more probes than the limits allow
are refused. -/
theorem aggregate_absent :
    (Representable (exactSum []) ∧
      (aggregate [] .latencyDefault defaultQuantileProbes {}).map Distribution.sumNs = .ok none) ∧
      (∀ probe ∈ List.replicate 17 (⟨1, 2⟩ : QuantileProbe), probe.Valid) ∧
      aggregate [5] .latencyDefault (List.replicate 17 ⟨1, 2⟩) {} =
        .error ⟨.outOfRange, "quantile probe count exceeds the configured limit", text "17"⟩ := by
  refine ⟨⟨by decide, by decide +kernel⟩, ?_, by decide +kernel⟩
  intro probe hprobe
  rw [List.eq_of_mem_replicate hprobe]
  exact ⟨by decide, by decide⟩

end LatencyObservatory.Stats
