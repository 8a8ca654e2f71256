import LatencyObservatory.Core.Checked
import LatencyObservatory.Lib.LongDivision

/-!
# The 128-bit helpers are exact

A pair of words stands for one number. Addition is exact below saturation, subtraction where it does not go
below zero, the product of two words always, and so is the long division by a word.
-/

namespace LatencyObservatory.Core

namespace UInt128

/-- The number that the two words stand for. -/
def toNat (v : UInt128) : Nat :=
  v.hi.toNat * 2 ^ 64 + v.lo.toNat

theorem toNat_lt (v : UInt128) : v.toNat < 2 ^ 128 := by
  have hhi := v.hi.toNat_lt
  have hlo := v.lo.toNat_lt
  unfold toNat
  omega

theorem toNat_ofU64 (value : UInt64) : (ofU64 value).toNat = value.toNat := by
  simp [toNat, ofU64]

theorem toNat_inj {a b : UInt128} : a.toNat = b.toNat ↔ a = b := by
  refine ⟨fun h => ?_, congrArg toNat⟩
  obtain ⟨ahi, alo⟩ := a
  obtain ⟨bhi, blo⟩ := b
  have halo := alo.toNat_lt
  have hblo := blo.toNat_lt
  simp only [toNat] at h
  have hhi : ahi = bhi := UInt64.toNat_inj.mp (by omega)
  have hlo : alo = blo := UInt64.toNat_inj.mp (by omega)
  rw [hhi, hlo]

theorem isSaturated_iff (v : UInt128) : v.isSaturated = true ↔ v.toNat = 2 ^ 128 - 1 := by
  have hmax : saturated.toNat = 2 ^ 128 - 1 := by decide
  rw [isSaturated, beq_iff_eq, ← hmax, toNat_inj]

theorem isZero_iff (v : UInt128) : v.isZero = true ↔ v.toNat = 0 := by
  rw [isZero, Bool.and_eq_true, beq_iff_eq, beq_iff_eq, ← UInt64.toNat_inj, ← UInt64.toNat_inj, UInt64.toNat_zero]
  unfold toNat
  omega

theorem fitsU64_iff (v : UInt128) : v.fitsU64 = true ↔ v.toNat < 2 ^ 64 := by
  have hlo := v.lo.toNat_lt
  rw [fitsU64, beq_iff_eq, ← UInt64.toNat_inj, UInt64.toNat_zero]
  unfold toNat
  omega

theorem lo_toNat {v : UInt128} (h : v.toNat < 2 ^ 64) : v.lo.toNat = v.toNat := by
  unfold toNat at *
  omega

theorem exceeds_iff (v : UInt128) (bound : UInt64) :
    (!v.fitsU64 || decide (v.lo > bound)) = true ↔ bound.toNat < v.toNat := by
  have hbound := bound.toNat_lt
  rw [Bool.or_eq_true, Bool.not_eq_true', ← Bool.not_eq_true, fitsU64_iff, decide_eq_true_eq, gt_iff_lt,
    UInt64.lt_iff_toNat_lt]
  by_cases hword : v.toNat < 2 ^ 64
  · rw [lo_toNat hword]
    omega
  · omega

theorem less_iff (a b : UInt128) : a.less b = true ↔ a.toNat < b.toNat := by
  have halo := a.lo.toNat_lt
  have hblo := b.lo.toNat_lt
  unfold less toNat
  by_cases hhi : a.hi = b.hi
  · rw [if_neg (not_not.mpr hhi), decide_eq_true_eq, UInt64.lt_iff_toNat_lt, hhi]
    omega
  · have hne : a.hi.toNat ≠ b.hi.toNat := fun h => hhi (UInt64.toNat_inj.mp h)
    rw [if_pos hhi, decide_eq_true_eq, UInt64.lt_iff_toNat_lt]
    omega

/-! ### Addition and subtraction -/

theorem add_toNat {a b : UInt128} (h : a.toNat + b.toNat < 2 ^ 128) : (a.add b).toNat = a.toNat + b.toNat := by
  have halo := a.lo.toNat_lt
  have hblo := b.lo.toNat_lt
  have hahi := a.hi.toNat_lt
  have hbhi := b.hi.toNat_lt
  have hmax : (0xFFFFFFFFFFFFFFFF : UInt64).toNat = 2 ^ 64 - 1 := rfl
  have hlo : (a.lo + b.lo).toNat = (a.lo.toNat + b.lo.toNat) % 2 ^ 64 := UInt64.toNat_add _ _
  have hcarry : (if a.lo + b.lo < a.lo then (1 : UInt64) else 0).toNat = (a.lo.toNat + b.lo.toNat) / 2 ^ 64 := by
    rw [apply_ite UInt64.toNat, UInt64.toNat_one, UInt64.toNat_zero]
    split_ifs with hwrap <;> rw [UInt64.lt_iff_toNat_lt, hlo] at hwrap <;> omega
  unfold toNat at h
  unfold add
  simp only
  generalize (if a.lo + b.lo < a.lo then (1 : UInt64) else 0) = carry at hcarry
  have hfirst : ¬a.hi > 0xFFFFFFFFFFFFFFFF - b.hi := by
    rw [gt_iff_lt, UInt64.lt_iff_toNat_lt, UInt64.toNat_sub_of_le _ _ (by rw [UInt64.le_iff_toNat_le, hmax]; omega), hmax]
    omega
  have hsum : (a.hi + b.hi).toNat = a.hi.toNat + b.hi.toNat := by
    rw [UInt64.toNat_add, Nat.mod_eq_of_lt]
    omega
  have hsecond : ¬a.hi + b.hi > 0xFFFFFFFFFFFFFFFF - carry := by
    rw [gt_iff_lt, UInt64.lt_iff_toNat_lt, UInt64.toNat_sub_of_le _ _ (by rw [UInt64.le_iff_toNat_le, hmax]; omega), hmax,
      hsum]
    omega
  rw [if_neg hfirst, if_neg hsecond]
  show (a.hi + b.hi + carry).toNat * 2 ^ 64 + (a.lo + b.lo).toNat = _
  rw [UInt64.toNat_add, hsum, hlo, hcarry, Nat.mod_eq_of_lt (by omega)]
  unfold toNat
  omega

theorem sub_toNat {a b : UInt128} (h : b.toNat ≤ a.toNat) : (a.sub b).toNat = a.toNat - b.toNat := by
  have halo := a.lo.toNat_lt
  have hblo := b.lo.toNat_lt
  have hahi := a.hi.toNat_lt
  have hbhi := b.hi.toNat_lt
  have hborrow : (if a.lo < b.lo then (1 : UInt64) else 0).toNat = if a.lo.toNat < b.lo.toNat then 1 else 0 := by
    simp only [UInt64.lt_iff_toNat_lt]
    split_ifs <;> rfl
  unfold toNat at h
  show (a.hi - b.hi - (if a.lo < b.lo then (1 : UInt64) else 0)).toNat * 2 ^ 64 + (a.lo - b.lo).toNat = _
  rw [UInt64.toNat_sub, UInt64.toNat_sub, UInt64.toNat_sub, hborrow]
  unfold toNat
  split_ifs <;> omega

/-! ### Multiplication -/

theorem halves_or {lo hi : Nat} (hlo : lo < 2 ^ 32) : lo ||| hi <<< 32 % 2 ^ 64 = lo + hi % 2 ^ 32 * 2 ^ 32 := by
  have hhalf : hi <<< 32 % 2 ^ 64 = 2 ^ 32 * (hi % 2 ^ 32) := by
    rw [Nat.shiftLeft_eq]
    omega
  rw [hhalf, Nat.or_comm, ← Nat.two_pow_add_eq_or_of_lt hlo]
  omega

theorem mask_toNat (v : UInt64) : (v &&& 0xFFFFFFFF).toNat = v.toNat % 2 ^ 32 := by
  rw [UInt64.toNat_and]
  exact Nat.and_two_pow_sub_one_eq_mod v.toNat 32

theorem shift_toNat (v : UInt64) : (v >>> 32).toNat = v.toNat / 2 ^ 32 := by
  rw [UInt64.toNat_shiftRight]
  exact Nat.shiftRight_eq_div_pow v.toNat 32

theorem half_mul {x y : UInt64} (hx : x.toNat < 2 ^ 32) (hy : y.toNat < 2 ^ 32) :
    (x * y).toNat = x.toNat * y.toNat ∧ (x * y).toNat ≤ (2 ^ 32 - 1) * (2 ^ 32 - 1) := by
  have hle : x.toNat * y.toNat ≤ (2 ^ 32 - 1) * (2 ^ 32 - 1) := Nat.mul_le_mul (by omega) (by omega)
  have hexact : (x * y).toNat = x.toNat * y.toNat := by rw [UInt64.toNat_mul, Nat.mod_eq_of_lt (by omega)]
  exact ⟨hexact, by rw [hexact]; exact hle⟩

theorem products_toNat {p0 p1 p2 p3 mid : UInt64} (h0 : p0.toNat ≤ (2 ^ 32 - 1) * (2 ^ 32 - 1))
    (h1 : p1.toNat ≤ (2 ^ 32 - 1) * (2 ^ 32 - 1)) (h2 : p2.toNat ≤ (2 ^ 32 - 1) * (2 ^ 32 - 1))
    (h3 : p3.toNat ≤ (2 ^ 32 - 1) * (2 ^ 32 - 1))
    (hmid : mid = (p0 >>> 32) + (p1 &&& (0xFFFFFFFF : UInt64)) + (p2 &&& (0xFFFFFFFF : UInt64))) :
    toNat ⟨p3 + (p1 >>> 32) + (p2 >>> 32) + (mid >>> 32), (p0 &&& (0xFFFFFFFF : UInt64)) ||| (mid <<< 32)⟩ =
      p3.toNat * 2 ^ 64 + (p1.toNat + p2.toNat) * 2 ^ 32 + p0.toNat := by
  have hmidNat : mid.toNat = p0.toNat / 2 ^ 32 + p1.toNat % 2 ^ 32 + p2.toNat % 2 ^ 32 := by
    rw [hmid, UInt64.toNat_add, UInt64.toNat_add, mask_toNat, mask_toNat, shift_toNat]
    omega
  have hhigh : (p3 + (p1 >>> 32) + (p2 >>> 32) + (mid >>> 32)).toNat =
      p3.toNat + p1.toNat / 2 ^ 32 + p2.toNat / 2 ^ 32 + mid.toNat / 2 ^ 32 := by
    rw [UInt64.toNat_add, UInt64.toNat_add, UInt64.toNat_add, shift_toNat, shift_toNat, shift_toNat]
    omega
  have hlow : ((p0 &&& (0xFFFFFFFF : UInt64)) ||| (mid <<< 32)).toNat = p0.toNat % 2 ^ 32 + mid.toNat % 2 ^ 32 * 2 ^ 32 := by
    rw [UInt64.toNat_or, mask_toNat, UInt64.toNat_shiftLeft]
    exact halves_or (by omega)
  unfold toNat
  rw [hhigh, hlow, hmidNat]
  omega

theorem mulU64_toNat (a b : UInt64) : (mulU64 a b).toNat = a.toNat * b.toNat := by
  have ha := a.toNat_lt
  have hb := b.toNat_lt
  have haLo : (a &&& 0xFFFFFFFF).toNat < 2 ^ 32 := by rw [mask_toNat]; omega
  have hbLo : (b &&& 0xFFFFFFFF).toNat < 2 ^ 32 := by rw [mask_toNat]; omega
  have haHi : (a >>> 32).toNat < 2 ^ 32 := by rw [shift_toNat]; omega
  have hbHi : (b >>> 32).toNat < 2 ^ 32 := by rw [shift_toNat]; omega
  obtain ⟨h0, hle0⟩ := half_mul haLo hbLo
  obtain ⟨h1, hle1⟩ := half_mul haLo hbHi
  obtain ⟨h2, hle2⟩ := half_mul haHi hbLo
  obtain ⟨h3, hle3⟩ := half_mul haHi hbHi
  have hsplit : ∀ v : UInt64, v.toNat = (v >>> 32).toNat * 2 ^ 32 + (v &&& 0xFFFFFFFF).toNat := by
    intro v
    rw [mask_toNat, shift_toNat]
    omega
  have hproducts := products_toNat hle0 hle1 hle2 hle3 rfl
  rw [h0, h1, h2, h3] at hproducts
  refine hproducts.trans ?_
  rw [hsplit a, hsplit b]
  ring

/-! ### Division -/

theorem shl_or {v bit : Nat} (hbit : bit < 2) : v <<< 1 % 2 ^ 64 ||| bit = 2 * v % 2 ^ 64 + bit := by
  have heven : v <<< 1 % 2 ^ 64 = 2 ^ 1 * (v % 2 ^ 63) := by
    rw [Nat.shiftLeft_eq]
    omega
  rw [heven, ← Nat.two_pow_add_eq_or_of_lt (by omega)]
  omega

/-- The pair shifted left, with a bit coming in from the right. -/
def shiftIn (v : UInt128) (bit : UInt64) : UInt128 :=
  ⟨(v.hi <<< 1) ||| (v.lo >>> 63), (v.lo <<< 1) ||| bit⟩

theorem shiftIn_toNat {v : UInt128} {bit : UInt64} (hbit : bit.toNat < 2) (hfits : v.toNat < 2 ^ 127) :
    (v.shiftIn bit).toNat = 2 * v.toNat + bit.toNat := by
  obtain ⟨hi, lo⟩ := v
  have hlo := lo.toNat_lt
  simp only [toNat] at hfits
  have htop : lo.toNat >>> 63 = lo.toNat / 2 ^ 63 := Nat.shiftRight_eq_div_pow _ _
  have hhigh : ((hi <<< 1) ||| (lo >>> 63)).toNat = 2 * hi.toNat + lo.toNat / 2 ^ 63 := by
    rw [UInt64.toNat_or, UInt64.toNat_shiftLeft, UInt64.toNat_shiftRight]
    show hi.toNat <<< 1 % 2 ^ 64 ||| lo.toNat >>> 63 = _
    rw [htop, shl_or (by omega)]
    omega
  have hlow : ((lo <<< 1) ||| bit).toNat = 2 * lo.toNat % 2 ^ 64 + bit.toNat := by
    rw [UInt64.toNat_or, UInt64.toNat_shiftLeft]
    exact shl_or hbit
  simp only [shiftIn, toNat, hhigh, hlow]
  omega

theorem bitAt_toNat (v : UInt128) {bit : Nat} (hbit : bit < 128) :
    (v.bitAt bit).toNat = v.toNat / 2 ^ bit % 2 := by
  have hword : ∀ (w : UInt64) (k : Nat), k < 64 → ((w >>> UInt64.ofNat k) &&& 1).toNat = w.toNat / 2 ^ k % 2 := by
    intro w k hk
    rw [UInt64.toNat_and, UInt64.toNat_shiftRight, UInt64.toNat_ofNat', UInt64.toNat_one, Nat.and_one_is_mod,
      Nat.shiftRight_eq_div_pow, Nat.mod_eq_of_lt (by omega : k < 2 ^ 64), Nat.mod_eq_of_lt hk]
  have hlo := v.lo.toNat_lt
  unfold bitAt toNat
  simp only
  split_ifs with hhigh
  · rw [hword _ _ (by omega)]
    have hpow : 2 ^ bit = 2 ^ 64 * 2 ^ (bit - 64) := by rw [← Nat.pow_add]; congr 1; omega
    rw [hpow, ← Nat.div_div_eq_div_mul]
    congr 2
    omega
  · rw [hword _ _ (by omega)]
    -- The high word is a multiple of the next power of two.
    have hpow : (2 : Nat) ^ 64 = 2 ^ bit * (2 * 2 ^ (63 - bit)) := by
      rw [← Nat.pow_succ', ← Nat.pow_add]
      congr 1
      omega
    rw [hpow, show v.hi.toNat * (2 ^ bit * (2 * 2 ^ (63 - bit))) = 2 ^ bit * (2 * (v.hi.toNat * 2 ^ (63 - bit))) by ring,
      Nat.mul_add_div (Nat.two_pow_pos bit)]
    omega

/-- The numbers that a quotient and a remainder stand for. -/
def toNatPair (qr : UInt128 × UInt128) : Nat × Nat :=
  (qr.1.toNat, qr.2.toNat)

theorem divStep_eq (value : UInt128) (divisor : UInt64) (quotient rem : UInt128) (bit : Nat) :
    divStep value divisor (quotient, rem) bit =
      if (rem.shiftIn (value.bitAt bit)).hi ≠ 0 ∨ (rem.shiftIn (value.bitAt bit)).lo ≥ divisor then
        (quotient.shiftIn 1, (rem.shiftIn (value.bitAt bit)).sub (ofU64 divisor))
      else (quotient.shiftIn 0, rem.shiftIn (value.bitAt bit)) := by
  have hsub : ∀ v : UInt128, v.sub (ofU64 divisor) = ⟨v.hi - (if v.lo < divisor then 1 else 0), v.lo - divisor⟩ := by
    intro v
    unfold sub ofU64
    rw [UInt64.sub_zero]
  have hzero : quotient.shiftIn 0 = ⟨(quotient.hi <<< 1) ||| (quotient.lo >>> 63), quotient.lo <<< 1⟩ := by
    unfold shiftIn
    rw [UInt64.or_zero]
  rw [hsub, hzero]
  rfl

theorem divStep_toNat {value : UInt128} {divisor : UInt64} {quotient rem : UInt128} {bit : Nat} (hbit : bit < 128)
    (hrem : rem.toNat < divisor.toNat) (hquotient : quotient.toNat < 2 ^ 127) :
    toNatPair (divStep value divisor (quotient, rem) bit) =
      Lib.divBit value.toNat divisor.toNat (quotient.toNat, rem.toNat) bit := by
  have hdivisor := divisor.toNat_lt
  have hbitAt := bitAt_toNat value hbit
  have hshifted := @shiftIn_toNat rem (value.bitAt bit) (by omega) (by omega)
  have hodd := @shiftIn_toNat quotient 1 (by decide) hquotient
  have heven := @shiftIn_toNat quotient 0 (by decide) hquotient
  rw [UInt64.toNat_one] at hodd
  rw [UInt64.toNat_zero, Nat.add_zero] at heven
  rw [hbitAt] at hshifted
  rw [divStep_eq]
  generalize rem.shiftIn (value.bitAt bit) = next at hshifted
  have hfits : (next.hi ≠ 0 ∨ next.lo ≥ divisor) ↔ divisor.toNat ≤ next.toNat := by
    have hzero : next.hi = 0 ↔ next.hi.toNat = 0 := by rw [← UInt64.toNat_inj, UInt64.toNat_zero]
    rw [ne_eq, hzero, ge_iff_le, UInt64.le_iff_toNat_le]
    unfold toNat
    omega
  by_cases hle : divisor.toNat ≤ next.toNat
  · have hsub := @sub_toNat next (ofU64 divisor) (by rw [toNat_ofU64]; exact hle)
    rw [toNat_ofU64] at hsub
    rw [if_pos (hfits.mpr hle), Lib.divBit_of_le (by omega)]
    simp only [toNatPair, hodd, hsub, hshifted]
  · rw [if_neg (fun h => hle (hfits.mp h)), Lib.divBit_of_lt (by omega)]
    simp only [toNatPair, heven, hshifted]

theorem foldl_divStep {value : UInt128} {divisor : UInt64} {bits : Nat} (hbits : bits ≤ 128)
    {qr : UInt128 × UInt128} (h : Lib.DividesAbove value.toNat divisor.toNat bits (toNatPair qr)) :
    Lib.DividesAbove value.toNat divisor.toNat 0
      (toNatPair ((List.range bits).reverse.foldl (divStep value divisor) qr)) := by
  induction bits generalizing qr with
  | zero => exact h
  | succ bit ih =>
    obtain ⟨quotient, rem⟩ := qr
    rw [List.range_succ, List.reverse_append, List.reverse_singleton, List.singleton_append, List.foldl_cons]
    have hquotient : quotient.toNat < 2 ^ 127 := by
      have hle : quotient.toNat ≤ _ := h.quotient_le
      have hvalue := value.toNat_lt
      have hhalf : value.toNat / 2 ^ (bit + 1) ≤ value.toNat / 2 ^ 1 :=
        Nat.div_le_div_left (Nat.pow_le_pow_right (by omega) (by omega)) (by omega)
      omega
    apply ih (by omega)
    rw [divStep_toNat (by omega) h.2 hquotient]
    exact h.next

theorem divmod_toNat (value : UInt128) {divisor : UInt64} (h : divisor ≠ 0) :
    (value.divmod divisor).1.toNat = value.toNat / divisor.toNat ∧
      (value.divmod divisor).2.toNat = value.toNat % divisor.toNat := by
  have hpos : 0 < divisor.toNat := by
    have hne : divisor.toNat ≠ 0 := fun hzero => h (UInt64.toNat_inj.mp hzero)
    omega
  have hstart : Lib.DividesAbove value.toNat divisor.toNat 128 (toNatPair (⟨0, 0⟩, ⟨0, 0⟩)) := by
    refine ⟨?_, hpos⟩
    rw [Nat.div_eq_of_lt value.toNat_lt]
    simp [toNatPair, toNat]
  obtain ⟨hquotient, hrem⟩ := (foldl_divStep (Nat.le_refl 128) hstart).result
  have hlow : value.toNat % divisor.toNat < 2 ^ 64 := (Nat.mod_lt _ hpos).trans divisor.toNat_lt
  unfold divmod
  rw [if_neg h]
  generalize (List.range 128).reverse.foldl (divStep value divisor) (⟨0, 0⟩, ⟨0, 0⟩) = found at hquotient hrem
  obtain ⟨quotient, rem⟩ := found
  have hword : rem.toNat = value.toNat % divisor.toNat := hrem
  refine ⟨hquotient, ?_⟩
  show rem.lo.toNat = _
  rw [lo_toNat (by rw [hword]; exact hlow), hword]

end UInt128

theorem ratioPpm_toNat (numerator denominator : UInt64) :
    (ratioPpm numerator denominator).toNat = min 1000000 (numerator.toNat * 1000000 / denominator.toNat) := by
  unfold ratioPpm
  split_ifs with hzero
  · rw [hzero]
    simp
  · obtain ⟨hquotient, -⟩ := UInt128.divmod_toNat (UInt128.mulU64 numerator 1000000) hzero
    rw [UInt128.mulU64_toNat] at hquotient
    generalize (UInt128.mulU64 numerator 1000000).divmod denominator = found at hquotient
    obtain ⟨quotient, rem⟩ := found
    have hvalue : quotient.toNat = numerator.toNat * 1000000 / denominator.toNat := hquotient
    have hmillion : (1000000 : UInt64).toNat = 1000000 := rfl
    simp only
    rw [← hvalue]
    by_cases hfits : quotient.toNat < 2 ^ 64
    · have hword := UInt128.lo_toNat hfits
      rw [if_neg (by simpa using (UInt128.fitsU64_iff quotient).mpr hfits)]
      split_ifs with hlarge <;> rw [gt_iff_lt, UInt64.lt_iff_toNat_lt, hmillion, hword] at hlarge
      · rw [hmillion]
        omega
      · rw [hword]
        omega
    · rw [if_pos (by simpa using (UInt128.fitsU64_iff quotient).not.mpr hfits), hmillion]
      omega

/-! ### Words read as signed values -/

theorem toInt_toInt64 {word : UInt64} (h : word.toNat < 2 ^ 63) : word.toInt64.toInt = word.toNat := by
  have hread : word.toInt64.toInt = (word.toNat : Int).bmod (2 ^ 64) := BitVec.toInt_eq_toNat_bmod word.toBitVec
  rw [hread, Int.bmod_def]
  omega

theorem toInt_neg_toInt64 {word : UInt64} (h : word.toNat < 2 ^ 63) : (-word.toInt64).toInt = -(word.toNat : Int) := by
  have hread := toInt_toInt64 h
  have hbound : Representable (-(word.toNat : Int)) := by
    unfold Representable
    omega
  have hsub := @toInt_sub_of_representable 0 word.toInt64 (by rw [hread, Int64.toInt_zero, Int.zero_sub]; exact hbound)
  rw [Int64.zero_sub, hread, Int64.toInt_zero, Int.zero_sub] at hsub
  exact hsub

theorem toNat_toUInt64_of_neg {a : Int64} (h : a.toInt < 0) : (a.toUInt64.toNat : Int) = a.toInt + 2 ^ 64 := by
  have hread : a.toInt = (a.toUInt64.toNat : Int).bmod (2 ^ 64) := BitVec.toInt_eq_toNat_bmod a.toBitVec
  have hlt := a.toUInt64.toNat_lt
  rw [Int.bmod_def] at hread
  omega

/-! ### Checked arithmetic -/

theorem checkedSubI64_isSome_iff (a b : Int64) :
    (checkedSubI64 a b).isSome = true ↔ Representable (a.toInt - b.toInt) := by
  unfold checkedSubI64 Representable
  simp only [gt_iff_lt, Int64.lt_iff_toInt_lt, Int64.toInt_add, Int64.toInt_maxValue, Int64.toInt_minValue,
    Int64.toInt_zero]
  have ha := a.toInt_lt
  have ha' := a.le_toInt
  have hb := b.toInt_lt
  have hb' := b.le_toInt
  simp only [Int.bmod_def]
  split_ifs with hover hunder <;> simp only [Option.isSome_none, Option.isSome_some, Bool.false_eq_true, false_iff,
    true_iff] <;> omega

theorem checkedAddI64_isSome_iff (a b : Int64) :
    (checkedAddI64 a b).isSome = true ↔ Representable (a.toInt + b.toInt) := by
  unfold checkedAddI64 Representable
  simp only [gt_iff_lt, Int64.lt_iff_toInt_lt, Int64.toInt_sub, Int64.toInt_maxValue, Int64.toInt_minValue,
    Int64.toInt_zero]
  have ha := a.toInt_lt
  have ha' := a.le_toInt
  have hb := b.toInt_lt
  have hb' := b.le_toInt
  simp only [Int.bmod_def]
  split_ifs with hover hunder <;> simp only [Option.isSome_none, Option.isSome_some, Bool.false_eq_true, false_iff,
    true_iff] <;> omega

theorem representable_iff_exists {n : Int} : Representable n ↔ ∃ x : Int64, x.toInt = n := by
  unfold Representable
  constructor
  · rintro ⟨hlow, hhigh⟩
    exact ⟨Int64.ofInt n, Int64.toInt_ofInt_of_le hlow hhigh⟩
  · rintro ⟨x, rfl⟩
    exact ⟨x.le_toInt, x.toInt_lt⟩

end LatencyObservatory.Core
