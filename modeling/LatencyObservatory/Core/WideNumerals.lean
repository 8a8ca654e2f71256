import LatencyObservatory.Core.Wide

/-!
# Saturation and numerals of the 128-bit helpers

Sums and products that two words cannot hold saturate, and the decimal text of a value is read off by dividing by ten
until nothing is left.
-/

namespace LatencyObservatory.Core

namespace UInt128

/-- `mul_u128_u64`. -/
def mulU128U64 (a : UInt128) (b : UInt64) : UInt128 :=
  if a.isZero || b == 0 then ⟨0, 0⟩
  else
    let low := mulU64 a.lo b
    let high := mulU64 a.hi b
    if high.hi ≠ 0 then saturated
    else if high.lo + low.hi < high.lo then saturated
    else ⟨high.lo + low.hi, low.lo⟩

/-! ### Saturation -/

theorem add_saturated {a b : UInt128} (h : 2 ^ 128 ≤ a.toNat + b.toNat) : a.add b = saturated := by
  have halo := a.lo.toNat_lt
  have hblo := b.lo.toNat_lt
  have hahi := a.hi.toNat_lt
  have hbhi := b.hi.toNat_lt
  have hmax : (0xFFFFFFFFFFFFFFFF : UInt64).toNat = 2 ^ 64 - 1 := rfl
  have hlo : (a.lo + b.lo).toNat = (a.lo.toNat + b.lo.toNat) % 2 ^ 64 := UInt64.toNat_add _ _
  have hcarry : (if a.lo + b.lo < a.lo then (1 : UInt64) else 0).toNat = (a.lo.toNat + b.lo.toNat) / 2 ^ 64 := by
    rw [apply_ite UInt64.toNat, UInt64.toNat_one, UInt64.toNat_zero]
    split_ifs with hwrap <;> rw [UInt64.lt_iff_toNat_lt, hlo] at hwrap <;> omega
  unfold toNat at h
  unfold add
  simp only
  generalize (if a.lo + b.lo < a.lo then (1 : UInt64) else 0) = carry at hcarry
  by_cases hfirst : a.hi > 0xFFFFFFFFFFFFFFFF - b.hi
  · rw [if_pos hfirst]
  · rw [if_neg hfirst, if_pos]
    -- The high words alone do not overflow, the carry does it.
    rw [gt_iff_lt, UInt64.lt_iff_toNat_lt, UInt64.toNat_sub_of_le _ _ (by rw [UInt64.le_iff_toNat_le, hmax]; omega),
      hmax] at hfirst
    have hsum : (a.hi + b.hi).toNat = a.hi.toNat + b.hi.toNat := by
      rw [UInt64.toNat_add, Nat.mod_eq_of_lt]
      omega
    rw [gt_iff_lt, UInt64.lt_iff_toNat_lt, UInt64.toNat_sub_of_le _ _ (by rw [UInt64.le_iff_toNat_le, hmax]; omega),
      hmax, hsum]
    omega

theorem toNat_mul_word (a : UInt128) (b : UInt64) :
    a.toNat * b.toNat = (mulU64 a.hi b).toNat * 2 ^ 64 + (mulU64 a.lo b).toNat := by
  rw [mulU64_toNat, mulU64_toNat, toNat]
  ring

theorem mulU128U64_spec (a : UInt128) (b : UInt64) :
    (a.toNat * b.toNat < 2 ^ 128 → (a.mulU128U64 b).toNat = a.toNat * b.toNat) ∧
      (2 ^ 128 ≤ a.toNat * b.toNat → a.mulU128U64 b = saturated) := by
  unfold mulU128U64
  by_cases hzero : (a.isZero || b == 0) = true
  · have hproduct : a.toNat * b.toNat = 0 := by
      rcases Bool.or_eq_true_iff.mp hzero with ha | hb
      · rw [(isZero_iff a).mp ha, Nat.zero_mul]
      · rw [beq_iff_eq.mp hb, UInt64.toNat_zero, Nat.mul_zero]
    rw [if_pos hzero, hproduct]
    exact ⟨fun _ => rfl, fun h => absurd h (by decide)⟩
  · have hexact := toNat_mul_word a b
    rw [if_neg hzero]
    simp only
    generalize mulU64 a.lo b = low at hexact
    generalize mulU64 a.hi b = high at hexact
    have hlow := low.lo.toNat_lt
    have hcarry := low.hi.toNat_lt
    have hhigh := high.lo.toNat_lt
    unfold toNat at hexact ⊢
    by_cases hword : high.hi = 0
    · rw [if_neg (not_not.mpr hword)]
      rw [hword, UInt64.toNat_zero] at hexact
      have hsum : (high.lo + low.hi).toNat = (high.lo.toNat + low.hi.toNat) % 2 ^ 64 := UInt64.toNat_add _ _
      by_cases hwrap : high.lo + low.hi < high.lo
      · rw [if_pos hwrap]
        rw [UInt64.lt_iff_toNat_lt, hsum] at hwrap
        exact ⟨fun h => absurd h (by omega), fun _ => rfl⟩
      · rw [if_neg hwrap]
        rw [UInt64.lt_iff_toNat_lt, hsum] at hwrap
        simp only [hsum]
        exact ⟨fun _ => by omega, fun h => absurd h (by omega)⟩
    · have hpos : 0 < high.hi.toNat := by
        have hne : high.hi.toNat ≠ 0 := fun heq => hword (UInt64.toNat_inj.mp heq)
        omega
      rw [if_pos hword]
      exact ⟨fun h => absurd h (by omega), fun _ => rfl⟩

/-! ### Numerals -/

theorem divmod_ten_lt {v : UInt128} (h : v.isZero = false) : (v.divmod 10).1.toNat < v.toNat := by
  have hpos : v.toNat ≠ 0 := by
    intro hzero
    rw [(isZero_iff v).mpr hzero] at h
    cases h
  have hten : (10 : UInt64).toNat = 10 := rfl
  rw [(divmod_toNat v (by decide)).1, hten]
  omega

/-- The digit loop of `to_string`, last digit first. -/
def pushDigits (current : UInt128) (digits : Bytes) : Bytes :=
  if _h : current.isZero = true then digits
  else pushDigits (current.divmod 10).1 (digits ++ [UInt8.ofNat (48 + (current.divmod 10).2.toNat)])
termination_by current.toNat
decreasing_by exact divmod_ten_lt (by simpa using _h)

def toString (v : UInt128) : Bytes :=
  if v.isZero then text "0" else (pushDigits v []).reverse

theorem pushDigits_eq (current : UInt128) (digits : Bytes) :
    pushDigits current digits = digits ++ (Nat.digits 10 current.toNat).map fun d => UInt8.ofNat (48 + d) := by
  induction current, digits using pushDigits.induct with
  | case1 current digits hzero =>
    rw [pushDigits, dif_pos hzero, (isZero_iff current).mp hzero, Nat.digits_zero, List.map_nil, List.append_nil]
  | case2 current digits hsome ih =>
    have hpos : 0 < current.toNat := by
      have hne : current.toNat ≠ 0 := fun h => hsome ((isZero_iff current).mpr h)
      omega
    have hten : (10 : UInt64).toNat = 10 := rfl
    obtain ⟨hquotient, hrem⟩ := divmod_toNat current (show (10 : UInt64) ≠ 0 by decide)
    rw [pushDigits, dif_neg hsome, ih, hquotient, hrem, hten, Nat.digits_def' (by decide) hpos, List.map_cons,
      List.append_assoc]
    rfl

theorem toString_eq (v : UInt128) : v.toString = decimal v.toNat := by
  unfold toString decimal
  by_cases hzero : v.isZero = true
  · rw [if_pos hzero, if_pos ((isZero_iff v).mp hzero)]
    rfl
  · rw [if_neg hzero, if_neg (fun h => hzero ((isZero_iff v).mpr h)), pushDigits_eq, List.nil_append, List.map_reverse]

/-- All operations on two words, for all operands. -/
theorem wide_exact :
    (∀ a b : UInt64, (mulU64 a b).toNat = a.toNat * b.toNat) ∧
      (∀ (value : UInt128) (divisor : UInt64), divisor ≠ 0 →
        value.toNat = (value.divmod divisor).1.toNat * divisor.toNat + (value.divmod divisor).2.toNat ∧
          (value.divmod divisor).2.toNat < divisor.toNat) ∧
      (∀ a b : UInt128, (a.toNat + b.toNat < 2 ^ 128 → (a.add b).toNat = a.toNat + b.toNat) ∧
        (2 ^ 128 ≤ a.toNat + b.toNat → a.add b = saturated)) ∧
      (∀ (a : UInt128) (b : UInt64), (a.toNat * b.toNat < 2 ^ 128 → (a.mulU128U64 b).toNat = a.toNat * b.toNat) ∧
        (2 ^ 128 ≤ a.toNat * b.toNat → a.mulU128U64 b = saturated)) ∧
      (∀ a b : UInt128, b.toNat ≤ a.toNat → (a.sub b).toNat = a.toNat - b.toNat) ∧
      ∀ v : UInt128, v.toString = decimal v.toNat := by
  refine ⟨mulU64_toNat, ?_, fun a b => ⟨add_toNat, add_saturated⟩, mulU128U64_spec, fun a b => sub_toNat, toString_eq⟩
  intro value divisor hdivisor
  have hpos : 0 < divisor.toNat := by
    have hne : divisor.toNat ≠ 0 := fun h => hdivisor (UInt64.toNat_inj.mp h)
    omega
  obtain ⟨hquotient, hrem⟩ := divmod_toNat value hdivisor
  rw [hquotient, hrem]
  refine ⟨?_, Nat.mod_lt _ hpos⟩
  rw [Nat.mul_comm]
  exact (Nat.div_add_mod _ _).symm

end UInt128

end LatencyObservatory.Core
