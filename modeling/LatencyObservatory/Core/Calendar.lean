import LatencyObservatory.Core.Wide
import LatencyObservatory.Lib.Gregorian

/-!
# Days and civil dates

The conversions of `time.cpp` between a day count and a civil date, on machine words, and the calendar they compute.
-/

namespace LatencyObservatory.Core

open Lib.Gregorian

/-- The values `civil_from_days` writes. -/
structure Civil where
  year : Int64
  month : UInt32
  day : UInt32
deriving DecidableEq, Repr

def Civil.date (civil : Civil) : Date :=
  { year := civil.year.toInt, month := civil.month.toNat, day := civil.day.toNat }

def civilFromDays (days : Int64) : Civil :=
  let days := days + 719468
  let era := (if days ≥ 0 then days else days - 146096) / 146097
  let doe := (days - era * 146097).toUInt64
  let yoe := (doe - doe / 1460 + doe / 36524 - doe / 146096) / 365
  let y := yoe.toInt64 + era * 400
  let doy := doe - (365 * yoe + yoe / 4 - yoe / 100)
  let mp := (5 * doy + 2) / 153
  let d := doy - (153 * mp + 2) / 5 + 1
  let m := if mp < 10 then mp + 3 else mp - 9
  { year := y + if m ≤ 2 then 1 else 0, month := m.toUInt32, day := d.toUInt32 }

def daysFromCivil (year : Int64) (month day : UInt32) : Int64 :=
  let year := year - if month ≤ 2 then 1 else 0
  let era := (if year ≥ 0 then year else year - 399) / 400
  let yoe := (year - era * 400).toUInt64
  let doy := ((153 * (if month > 2 then month - 3 else month + 9) + 2) / 5 + day - 1).toUInt64
  let doe := yoe * 365 + yoe / 4 - yoe / 100 + doy
  era * 146097 + doe.toInt64 - 719468

/-! ### The signed operations -/

def civilFromDaysOps (days : Int64) : List PlainOp :=
  let shifted := days + 719468
  let era := (if shifted ≥ 0 then shifted else shifted - 146096) / 146097
  let doe := (shifted - era * 146097).toUInt64
  let yoe := (doe - doe / 1460 + doe / 36524 - doe / 146096) / 365
  let y := yoe.toInt64 + era * 400
  .add days 719468 :: (if shifted ≥ 0 then [] else [.sub shifted 146096]) ++
    [.mul era 146097, .sub shifted (era * 146097), .mul era 400, .add yoe.toInt64 (era * 400),
      .add y (if (civilFromDays days).month ≤ 2 then 1 else 0)]

def daysFromCivilOps (year : Int64) (month day : UInt32) : List PlainOp :=
  let shifted := year - if month ≤ 2 then 1 else 0
  let era := (if shifted ≥ 0 then shifted else shifted - 399) / 400
  let yoe := (shifted - era * 400).toUInt64
  let doy := ((153 * (if month > 2 then month - 3 else month + 9) + 2) / 5 + day - 1).toUInt64
  let doe := yoe * 365 + yoe / 4 - yoe / 100 + doy
  .sub year (if month ≤ 2 then 1 else 0) :: (if shifted ≥ 0 then [] else [.sub shifted 399]) ++
    [.mul era 400, .sub shifted (era * 400), .mul era 146097, .add (era * 146097) doe.toInt64,
      .sub (era * 146097 + doe.toInt64) 719468]

/-! ### Floor division -/

/-- Truncating division rounds down once the divisor less one is taken off a negative dividend. -/
theorem tdiv_eq_floor (n : Int) {k : Int} (hk : 0 < k) : (if 0 ≤ n then n else n - (k - 1)).tdiv k = n / k := by
  split_ifs with h
  · exact Int.tdiv_eq_ediv_of_nonneg h
  · have hneg : n - (k - 1) = -(k - 1 - n) := by omega
    have hdivide := Int.mul_ediv_add_emod n k
    have hlow := Int.emod_nonneg n hk.ne'
    have hhigh := Int.emod_lt_of_pos n hk
    have hquotient : (k - 1 - n) / k = -(n / k) := by
      rw [Int.ediv_eq_iff_of_pos hk]
      have hproduct : -(n / k) * k = -(k * (n / k)) := by rw [Int.neg_mul, Int.mul_comm]
      rw [hproduct]
      omega
    rw [hneg, Int.neg_tdiv, Int.tdiv_eq_ediv_of_nonneg (by omega), hquotient, Int.neg_neg]

/-- A floor division of the source is one of integers, as long as its dividend is in range. -/
theorem floorDiv_toInt {a step k : Int64} (hk : k.toInt = step.toInt + 1) (hstep : 0 < step.toInt)
    (hfit : a < 0 → Representable (a.toInt - step.toInt)) :
    ((if a ≥ 0 then a else a - step) / k).toInt = a.toInt / k.toInt := by
  have hne : k ≠ -1 := by
    rintro rfl
    simp at hk
    omega
  have hdividend : (if a ≥ 0 then a else a - step).toInt = if 0 ≤ a.toInt then a.toInt else a.toInt - (k.toInt - 1) := by
    by_cases hneg : a < 0
    · have hint := hneg
      rw [Int64.lt_iff_toInt_lt, Int64.toInt_zero] at hint
      rw [if_neg (by rw [ge_iff_le, Int64.not_le]; exact hneg), if_neg (by omega), toInt_sub_of_representable (hfit hneg)]
      omega
    · have hint := hneg
      rw [Int64.lt_iff_toInt_lt, Int64.toInt_zero] at hint
      rw [if_pos (by rw [ge_iff_le, ← Int64.not_lt]; exact hneg), if_pos (by omega)]
  rw [Int64.toInt_div_of_ne_right _ _ hne, hdividend, tdiv_eq_floor _ (by omega)]

/-! ### The unsigned part -/

section Unsigned

theorem toNat_add_exact {a b : UInt64} (h : a.toNat + b.toNat < 2 ^ 64) : (a + b).toNat = a.toNat + b.toNat := by
  rw [UInt64.toNat_add, Nat.mod_eq_of_lt h]

theorem toNat_sub_exact {a b : UInt64} (h : b.toNat ≤ a.toNat) : (a - b).toNat = a.toNat - b.toNat :=
  UInt64.toNat_sub_of_le a b (UInt64.le_iff_toNat_le.mpr h)

theorem toNat_mul_exact {a b : UInt64} (h : a.toNat * b.toNat < 2 ^ 64) : (a * b).toNat = a.toNat * b.toNat := by
  rw [UInt64.toNat_mul, Nat.mod_eq_of_lt h]

variable {doe yoe doy mp : UInt64}

theorem yoe_toNat (h : doe.toNat < 146097) :
    (((doe - doe / 1460 + doe / 36524 - doe / 146096) / 365).toNat : Int) = marchYear doe.toNat := by
  have hspans : (doe / 1460).toNat = doe.toNat / 1460 := UInt64.toNat_div doe 1460
  have hcenturies : (doe / 36524).toNat = doe.toNat / 36524 := UInt64.toNat_div doe 36524
  have hera : (doe / 146096).toNat = doe.toNat / 146096 := UInt64.toNat_div doe 146096
  have hfewer := toNat_sub_exact (by omega : (doe / 1460).toNat ≤ doe.toNat)
  have hmore := toNat_add_exact (by omega : (doe - doe / 1460).toNat + (doe / 36524).toNat < 2 ^ 64)
  have hexact := toNat_sub_exact (by omega : (doe / 146096).toNat ≤ (doe - doe / 1460 + doe / 36524).toNat)
  rw [UInt64.toNat_div, hexact, hmore, hfewer, hspans, hcenturies, hera]
  unfold marchYear
  rw [Int.natCast_ediv, Int.natCast_sub (by omega), Int.natCast_add, Int.natCast_sub (by omega)]
  rfl

theorem yearStart_toNat (h : yoe.toNat < 400) : ((365 * yoe + yoe / 4 - yoe / 100).toNat : Int) = marchDays yoe.toNat := by
  have hdays : (365 * yoe).toNat = 365 * yoe.toNat := toNat_mul_exact (by simp only [UInt64.reduceToNat]; omega)
  have hspans : (yoe / 4).toNat = yoe.toNat / 4 := UInt64.toNat_div yoe 4
  have hcenturies : (yoe / 100).toNat = yoe.toNat / 100 := UInt64.toNat_div yoe 100
  have hmore := toNat_add_exact (by omega : (365 * yoe).toNat + (yoe / 4).toNat < 2 ^ 64)
  rw [toNat_sub_exact (by omega), hmore, hdays, hspans, hcenturies]
  unfold marchDays
  omega

theorem mp_toNat (h : doy.toNat ≤ 365) : (((5 * doy + 2) / 153).toNat : Int) = marchMonth doy.toNat := by
  have hfive : (5 * doy).toNat = 5 * doy.toNat := toNat_mul_exact (by simp only [UInt64.reduceToNat]; omega)
  have hsum : (5 * doy + 2).toNat = 5 * doy.toNat + 2 := by
    rw [toNat_add_exact (by simp only [hfive, UInt64.reduceToNat]; omega), hfive]
    rfl
  rw [UInt64.toNat_div, hsum]
  rfl

theorem monthStart_toNat (h : mp.toNat ≤ 11) : (((153 * mp + 2) / 5).toNat : Int) = marchMonthDays mp.toNat := by
  have hscaled : (153 * mp).toNat = 153 * mp.toNat := toNat_mul_exact (by simp only [UInt64.reduceToNat]; omega)
  have hsum : (153 * mp + 2).toNat = 153 * mp.toNat + 2 := by
    rw [toNat_add_exact (by simp only [hscaled, UInt64.reduceToNat]; omega), hscaled]
    rfl
  rw [UInt64.toNat_div, hsum]
  rfl

theorem month_toNat (h : mp.toNat ≤ 11) :
    ((if mp < 10 then mp + 3 else mp - 9).toNat : Int) =
      if (mp.toNat : Int) < 10 then (mp.toNat : Int) + 3 else mp.toNat - 9 := by
  have hlt : mp < 10 ↔ (mp.toNat : Int) < 10 := by
    simp only [UInt64.lt_iff_toNat_lt, UInt64.reduceToNat]
    omega
  by_cases hearly : mp < 10
  · rw [if_pos hearly, if_pos (hlt.mp hearly), toNat_add_exact (by simp only [UInt64.reduceToNat]; omega)]
    rfl
  · have hlate := hlt.not.mp hearly
    rw [if_neg hearly, if_neg hlate, toNat_sub_exact (by simp only [UInt64.reduceToNat]; omega)]
    simp only [UInt64.reduceToNat]
    omega

end Unsigned

/-! ### From days to dates -/

section FromDays

variable {days shifted era : Int64} {doe yoe doy mp d m : UInt64}

theorem era_toInt (hlow : -2 ^ 63 + 146096 ≤ shifted.toInt)
    (hera : era = (if shifted ≥ 0 then shifted else shifted - 146096) / 146097) :
    era.toInt = shifted.toInt / 146097 := by
  rw [hera]
  exact floorDiv_toInt (by decide) (by decide) fun _ => by
    have hread : (146096 : Int64).toInt = 146096 := by decide
    have hhigh := shifted.toInt_lt
    unfold Representable
    omega

theorem eraDays_fit (hlow : -2 ^ 63 + 146096 ≤ shifted.toInt) (hera : era.toInt = shifted.toInt / 146097) :
    Representable (era.toInt * (146097 : Int64).toInt) := by
  have hread : (146097 : Int64).toInt = 146097 := by decide
  have hhigh := shifted.toInt_lt
  rw [hread, hera]
  unfold Representable
  omega

theorem doe_fit (hlow : -2 ^ 63 + 146096 ≤ shifted.toInt) (hera : era.toInt = shifted.toInt / 146097) :
    Representable (shifted.toInt - (era * 146097).toInt) ∧
      ((shifted - era * 146097).toUInt64.toNat : Int) = shifted.toInt % 146097 := by
  have hread : (146097 : Int64).toInt = 146097 := by decide
  have hdays := toInt_mul_of_representable (eraDays_fit hlow hera)
  have hfit : Representable (shifted.toInt - (era * 146097).toInt) := by
    rw [hdays, hread, hera]
    unfold Representable
    omega
  have hexact := toInt_sub_of_representable hfit
  rw [hdays, hread, hera] at hexact
  refine ⟨hfit, ?_⟩
  rw [toNat_toUInt64_of_nonneg (by omega), hexact]
  omega

theorem eraYears_fit (hera : era.toInt = shifted.toInt / 146097) :
    Representable (era.toInt * (400 : Int64).toInt) := by
  have hread : (400 : Int64).toInt = 400 := by decide
  have hlow := shifted.le_toInt
  have hhigh := shifted.toInt_lt
  rw [hread, hera]
  unfold Representable
  omega

theorem year_fit (hera : era.toInt = shifted.toInt / 146097) (hyoe : yoe.toNat < 400) :
    Representable (yoe.toInt64.toInt + (era * 400).toInt) ∧
      (yoe.toInt64 + era * 400).toInt = yoe.toNat + shifted.toInt / 146097 * 400 := by
  have hread : (400 : Int64).toInt = 400 := by decide
  have hlow := shifted.le_toInt
  have hhigh := shifted.toInt_lt
  have hfit : Representable (yoe.toInt64.toInt + (era * 400).toInt) := by
    rw [toInt_mul_of_representable (eraYears_fit hera), toInt_toInt64 (by omega), hread, hera]
    unfold Representable
    omega
  refine ⟨hfit, ?_⟩
  rw [toInt_add_of_representable hfit, toInt_mul_of_representable (eraYears_fit hera), toInt_toInt64 (by omega), hread,
    hera]

theorem bump_fit {early : Prop} [Decidable early] (hera : era.toInt = shifted.toInt / 146097) (hyoe : yoe.toNat < 400) :
    Representable ((yoe.toInt64 + era * 400).toInt + (if early then (1 : Int64) else 0).toInt) ∧
      (yoe.toInt64 + era * 400 + if early then 1 else 0).toInt =
        yoe.toNat + shifted.toInt / 146097 * 400 + if early then 1 else 0 := by
  have hbump : (if early then (1 : Int64) else 0).toInt = if early then 1 else 0 := by
    split_ifs <;> decide
  have hlow := shifted.le_toInt
  have hhigh := shifted.toInt_lt
  have hyear := (year_fit hera hyoe).2
  have hfit : Representable ((yoe.toInt64 + era * 400).toInt + (if early then (1 : Int64) else 0).toInt) := by
    rw [hyear, hbump]
    unfold Representable
    split_ifs <;> omega
  refine ⟨hfit, ?_⟩
  rw [toInt_add_of_representable hfit, hyear, hbump]

theorem toNat_toUInt32_exact {word : UInt64} (h : word.toNat < 2 ^ 32) : word.toUInt32.toNat = word.toNat := by
  rw [UInt64.toNat_toUInt32, Nat.mod_eq_of_lt h]

theorem dayOfEra_toNat (h : doe.toNat < 146097) (hyoe : yoe = (doe - doe / 1460 + doe / 36524 - doe / 146096) / 365)
    (hdoy : doy = doe - (365 * yoe + yoe / 4 - yoe / 100)) (hmp : mp = (5 * doy + 2) / 153)
    (hd : d = doy - (153 * mp + 2) / 5 + 1) (hm : m = if mp < 10 then mp + 3 else mp - 9) :
    (yoe.toNat : Int) = marchYear doe.toNat ∧ (doy.toNat : Int) = doe.toNat - marchDays yoe.toNat ∧
      (mp.toNat : Int) = marchMonth doy.toNat ∧ (d.toNat : Int) = doy.toNat - marchMonthDays mp.toNat + 1 ∧
      (m.toNat : Int) = (if (mp.toNat : Int) < 10 then (mp.toNat : Int) + 3 else mp.toNat - 9) ∧
      yoe.toNat < 400 ∧ doy.toNat ≤ 365 ∧ mp.toNat ≤ 11 := by
  have hyear : (yoe.toNat : Int) = marchYear doe.toNat := by
    rw [hyoe]
    exact yoe_toNat h
  obtain ⟨hy0, hy1, hstart, hend⟩ := marchYear_spec (by omega : 0 ≤ (doe.toNat : Int)) (by omega)
  rw [← hyear] at hy0 hy1 hstart hend
  have hstartRead := yearStart_toNat (by omega : yoe.toNat < 400)
  have hday : (doy.toNat : Int) = doe.toNat - marchDays yoe.toNat := by
    rw [hdoy, toNat_sub_exact (by omega)]
    omega
  have hlast : doy.toNat ≤ 365 := by
    split_ifs at hend <;> omega
  have hmonth : (mp.toNat : Int) = marchMonth doy.toNat := by
    rw [hmp]
    exact mp_toNat hlast
  obtain ⟨hm0, hm1, hfrom, -⟩ := marchMonth_spec (by omega : 0 ≤ (doy.toNat : Int)) (by omega)
  rw [← hmonth] at hm0 hm1 hfrom
  have hmonthStart := monthStart_toNat (by omega : mp.toNat ≤ 11)
  have hsub := toNat_sub_exact (by omega : ((153 * mp + 2) / 5).toNat ≤ doy.toNat)
  refine ⟨hyear, hday, hmonth, ?_, ?_, by omega, hlast, by omega⟩
  · rw [hd, toNat_add_exact (by rw [hsub, UInt64.toNat_one]; omega), hsub, UInt64.toNat_one]
    omega
  · rw [hm]
    exact month_toNat (by omega)

theorem civilFromDays_date (hfit : Representable (days.toInt + (719468 : Int64).toInt)) :
    (civilFromDays days).date = Date.ofDayNumber days.toInt := by
  have hread : (719468 : Int64).toInt = 719468 := by decide
  obtain ⟨shifted, hshifted⟩ : ∃ shifted, shifted = days + 719468 := ⟨_, rfl⟩
  have hshift := toInt_add_of_representable hfit
  rw [← hshifted, hread] at hshift
  have hlow : -2 ^ 63 + 146096 ≤ shifted.toInt := by
    have hdays := days.le_toInt
    omega
  obtain ⟨era, hera⟩ : ∃ era, era = (if shifted ≥ 0 then shifted else shifted - 146096) / 146097 := ⟨_, rfl⟩
  have heraRead := era_toInt hlow hera
  obtain ⟨doe, hdoe⟩ : ∃ doe, doe = (shifted - era * 146097).toUInt64 := ⟨_, rfl⟩
  have hdoeRead : (doe.toNat : Int) = shifted.toInt % 146097 := by
    rw [hdoe]
    exact (doe_fit hlow heraRead).2
  obtain ⟨yoe, hyoe⟩ : ∃ yoe, yoe = (doe - doe / 1460 + doe / 36524 - doe / 146096) / 365 := ⟨_, rfl⟩
  obtain ⟨doy, hdoy⟩ : ∃ doy, doy = doe - (365 * yoe + yoe / 4 - yoe / 100) := ⟨_, rfl⟩
  obtain ⟨mp, hmp⟩ : ∃ mp, mp = (5 * doy + 2) / 153 := ⟨_, rfl⟩
  obtain ⟨d, hd⟩ : ∃ d, d = doy - (153 * mp + 2) / 5 + 1 := ⟨_, rfl⟩
  obtain ⟨m, hm⟩ : ∃ m, m = if mp < 10 then mp + 3 else mp - 9 := ⟨_, rfl⟩
  have hcivil : civilFromDays days =
      { year := yoe.toInt64 + era * 400 + if m ≤ 2 then 1 else 0, month := m.toUInt32, day := d.toUInt32 } := by
    subst hm hd hmp hdoy hyoe hdoe hera hshifted
    rfl
  obtain ⟨hyearRead, hdoyRead, hmpRead, hdRead, hmRead, hyoeLt, hdoyLe, hmpLe⟩ :=
    dayOfEra_toNat (by omega) hyoe hdoy hmp hd hm
  have hbump : (yoe.toInt64 + era * 400 + if m ≤ 2 then 1 else 0).toInt =
      marchYear (shifted.toInt % 146097) + shifted.toInt / 146097 * 400 + if (mp.toNat : Int) < 10 then 0 else 1 := by
    have hearly : m ≤ 2 ↔ ¬(mp.toNat : Int) < 10 := by
      simp only [UInt64.le_iff_toNat_le, UInt64.reduceToNat]
      split_ifs at hmRead <;> omega
    rw [(bump_fit heraRead hyoeLt).2, hyearRead, hdoeRead]
    simp only [hearly, ite_not]
  have hdate : (civilFromDays days).date =
      { year := marchYear (shifted.toInt % 146097) + shifted.toInt / 146097 * 400 + if (mp.toNat : Int) < 10 then 0 else 1
        month := (if (mp.toNat : Int) < 10 then (mp.toNat : Int) + 3 else mp.toNat - 9).toNat
        day := ((doy.toNat : Int) - marchMonthDays mp.toNat + 1).toNat } := by
    have hdBound : d.toNat < 2 ^ 32 := by
      unfold marchMonthDays at hdRead
      omega
    have hmBound : m.toNat < 2 ^ 32 := by
      split_ifs at hmRead <;> omega
    rw [hcivil, Civil.date, hbump, toNat_toUInt32_exact hdBound, toNat_toUInt32_exact hmBound, ← hmRead, ← hdRead,
      Int.toNat_natCast, Int.toNat_natCast]
  rw [hdate, hmpRead, hdoyRead, hyearRead, hdoeRead, hshift]
  rfl

/-- The shift is the only operation of `civil_from_days` that can leave the signed range. -/
theorem civilFromDaysOps_fit_iff (days : Int64) :
    AllFit (civilFromDaysOps days) ↔ Representable (days.toInt + (719468 : Int64).toInt) := by
  obtain ⟨shifted, hshifted⟩ : ∃ shifted, shifted = days + 719468 := ⟨_, rfl⟩
  obtain ⟨era, hera⟩ : ∃ era, era = (if shifted ≥ 0 then shifted else shifted - 146096) / 146097 := ⟨_, rfl⟩
  obtain ⟨doe, hdoe⟩ : ∃ doe, doe = (shifted - era * 146097).toUInt64 := ⟨_, rfl⟩
  obtain ⟨yoe, hyoe⟩ : ∃ yoe, yoe = (doe - doe / 1460 + doe / 36524 - doe / 146096) / 365 := ⟨_, rfl⟩
  have hops : civilFromDaysOps days =
      .add days 719468 :: (if shifted ≥ 0 then [] else [.sub shifted 146096]) ++
        [.mul era 146097, .sub shifted (era * 146097), .mul era 400, .add yoe.toInt64 (era * 400),
          .add (yoe.toInt64 + era * 400) (if (civilFromDays days).month ≤ 2 then 1 else 0)] := by
    subst hyoe hdoe hera hshifted
    rfl
  rw [hops]
  simp only [List.cons_append, allFit_cons, allFit_append, allFit_ite_not, allFit_nil, PlainOp.exact, and_true]
  refine ⟨fun h => h.1, fun hfit => ⟨hfit, ?_⟩⟩
  have hread : (719468 : Int64).toInt = 719468 := by decide
  have hlower : (146096 : Int64).toInt = 146096 := by decide
  have hshift := toInt_add_of_representable hfit
  rw [← hshifted, hread] at hshift
  have hlow : -2 ^ 63 + 146096 ≤ shifted.toInt := by
    have hdays := days.le_toInt
    omega
  have heraRead := era_toInt hlow hera
  obtain ⟨hback, hdoeRead⟩ := doe_fit hlow heraRead
  rw [← hdoe] at hdoeRead
  have hbound : yoe.toNat < 400 := (dayOfEra_toNat (by omega : doe.toNat < 146097) hyoe rfl rfl rfl rfl).2.2.2.2.2.1
  refine ⟨?_, eraDays_fit hlow heraRead, hback, eraYears_fit heraRead, (year_fit heraRead hbound).1,
    (bump_fit heraRead hbound).1⟩
  intro _
  have hhigh := shifted.toInt_lt
  rw [hlower]
  unfold Representable
  omega

end FromDays

/-! ### From dates to days -/

section FromCivil

variable {year shifted era : Int64} {month day : UInt32} {yoe doy : UInt64}

/-- The month of the March year. -/
def shiftedMonth (month : Nat) : Int :=
  if month ≤ 2 then (month : Int) + 9 else month - 3

theorem early_iff (month : UInt32) : month ≤ 2 ↔ month.toNat ≤ 2 :=
  UInt32.le_iff_toNat_le

theorem doy_toNat (hvalid : (Civil.mk year month day).date.Valid) :
    ((((153 * (if month > 2 then month - 3 else month + 9) + 2) / 5 + day - 1).toUInt64).toNat : Int) =
      marchMonthDays (shiftedMonth month.toNat) + day.toNat - 1 := by
  have hlow : 1 ≤ month.toNat := hvalid.one_le_month
  have hhigh : month.toNat ≤ 12 := hvalid.month_le
  have hday : 1 ≤ day.toNat := hvalid.one_le_day
  have hlast : day.toNat ≤ 31 := by
    refine hvalid.day_le.trans ?_
    unfold monthLength
    split_ifs <;> omega
  obtain ⟨mp, hmp⟩ : ∃ mp, mp = if month > 2 then month - 3 else month + 9 := ⟨_, rfl⟩
  have hmonth : (mp.toNat : Int) = shiftedMonth month.toNat := by
    rw [hmp]
    unfold shiftedMonth
    by_cases hearly : month ≤ 2
    · have hnat := (early_iff month).mp hearly
      rw [if_neg (by rw [gt_iff_lt, UInt32.not_lt]; exact hearly), if_pos hnat, UInt32.toNat_add, Nat.mod_eq_of_lt]
      · rfl
      · simp only [UInt32.reduceToNat]
        omega
    · have hnat := (early_iff month).not.mp hearly
      rw [if_pos (by rw [gt_iff_lt, ← UInt32.not_le]; exact hearly), if_neg hnat, UInt32.toNat_sub_of_le]
      · simp only [UInt32.reduceToNat]
        omega
      · simp only [UInt32.le_iff_toNat_le, UInt32.reduceToNat]
        omega
  have hbound : mp.toNat ≤ 11 := by
    unfold shiftedMonth at hmonth
    split_ifs at hmonth <;> omega
  have hscaled : (153 * mp).toNat = 153 * mp.toNat := by
    rw [UInt32.toNat_mul, Nat.mod_eq_of_lt]
    · rfl
    · simp only [UInt32.reduceToNat]
      omega
  have hstart : ((153 * mp + 2) / 5).toNat = (153 * mp.toNat + 2) / 5 := by
    rw [UInt32.toNat_div, UInt32.toNat_add, hscaled, Nat.mod_eq_of_lt]
    · rfl
    · simp only [UInt32.reduceToNat]
      omega
  have hsum : ((153 * mp + 2) / 5 + day).toNat = (153 * mp.toNat + 2) / 5 + day.toNat := by
    rw [UInt32.toNat_add, hstart, Nat.mod_eq_of_lt (by omega)]
  have hone : 1 ≤ (153 * mp + 2) / 5 + day := by
    rw [UInt32.le_iff_toNat_le, hsum, UInt32.toNat_one]
    omega
  rw [← hmp, ← hmonth, UInt32.toNat_toUInt64, UInt32.toNat_sub_of_le _ _ hone, hsum, UInt32.toNat_one]
  unfold marchMonthDays
  omega

theorem doe_toNat (hyoe : yoe.toNat < 400) (hdoy : doy.toNat ≤ 400) :
    ((yoe * 365 + yoe / 4 - yoe / 100 + doy).toNat : Int) = marchDays yoe.toNat + doy.toNat := by
  have hstart := yearStart_toNat hyoe
  rw [UInt64.mul_comm yoe 365, toNat_add_exact]
  · omega
  · unfold marchDays at hstart
    omega

theorem civilEra_toInt (hfloor : shifted < 0 → Representable (shifted.toInt - (399 : Int64).toInt))
    (hera : era = (if shifted ≥ 0 then shifted else shifted - 399) / 400) : era.toInt = shifted.toInt / 400 := by
  rw [hera]
  exact floorDiv_toInt (by decide) (by decide) hfloor

theorem civilEraYears_fit (hfloor : shifted < 0 → Representable (shifted.toInt - (399 : Int64).toInt))
    (hera : era.toInt = shifted.toInt / 400) : Representable (era.toInt * (400 : Int64).toInt) := by
  have hread : (400 : Int64).toInt = 400 := by decide
  have hlower : (399 : Int64).toInt = 399 := by decide
  have hhigh := shifted.toInt_lt
  rw [Int64.lt_iff_toInt_lt, Int64.toInt_zero, hlower] at hfloor
  rw [hread, hera]
  unfold Representable at *
  omega

theorem yearOfEra_fit (hyears : Representable (era.toInt * (400 : Int64).toInt)) (hera : era.toInt = shifted.toInt / 400) :
    Representable (shifted.toInt - (era * 400).toInt) ∧
      ((shifted - era * 400).toUInt64.toNat : Int) = shifted.toInt % 400 := by
  have hread : (400 : Int64).toInt = 400 := by decide
  have hexactYears := toInt_mul_of_representable hyears
  rw [hread, hera] at hexactYears
  have hfit : Representable (shifted.toInt - (era * 400).toInt) := by
    rw [hexactYears]
    unfold Representable
    omega
  have hexact := toInt_sub_of_representable hfit
  rw [hexactYears] at hexact
  refine ⟨hfit, ?_⟩
  rw [toNat_toUInt64_of_nonneg (by omega), hexact]
  omega

/-- The year that began in the March before the date. -/
def shiftedYear (date : Date) : Int :=
  date.year - if date.month ≤ 2 then 1 else 0

/-- The day of its era that a date is. -/
def dayOfEra (date : Date) : Int :=
  marchDays (shiftedYear date % 400) + marchMonthDays (shiftedMonth date.month) + date.day - 1

theorem dayNumber_eq {date : Date} (h : date.Valid) :
    date.dayNumber = shiftedYear date / 400 * 146097 + dayOfEra date - 719468 := by
  have hmarch := dayNumber_eq_march h
  unfold dayOfEra shiftedYear shiftedMonth
  simp only at hmarch
  omega

theorem dayOfYear_bounds {date : Date} (h : date.Valid) :
    0 ≤ marchMonthDays (shiftedMonth date.month) + date.day - 1 ∧
      marchMonthDays (shiftedMonth date.month) + date.day - 1 ≤ 367 := by
  have hlow := h.one_le_month
  have hhigh := h.month_le
  have hday := h.one_le_day
  have hlast : date.day ≤ 31 := by
    refine h.day_le.trans ?_
    unfold monthLength
    split_ifs <;> omega
  unfold marchMonthDays shiftedMonth
  split_ifs <;> omega

theorem dayOfEra_bounds {date : Date} (h : date.Valid) : 0 ≤ dayOfEra date ∧ dayOfEra date ≤ 146200 := by
  have hday := dayOfYear_bounds h
  have hlow := Int.emod_nonneg (shiftedYear date) (by decide : (400 : Int) ≠ 0)
  have hhigh := Int.emod_lt_of_pos (shiftedYear date) (by decide : (0 : Int) < 400)
  unfold dayOfEra marchDays
  omega

variable {doe : UInt64}

theorem bump_toInt (month : UInt32) :
    (if month ≤ 2 then (1 : Int64) else 0).toInt = if month.toNat ≤ 2 then 1 else 0 := by
  simp only [early_iff]
  split_ifs <;> decide

/-- The words that the conversion of a date passes through, once its first subtractions are in range. -/
theorem civil_words {civil : Civil} (hvalid : civil.date.Valid)
    (hshifted : shifted = civil.year - if civil.month ≤ 2 then 1 else 0)
    (hyear : Representable (civil.year.toInt - (if civil.month ≤ 2 then (1 : Int64) else 0).toInt))
    (hfloor : shifted < 0 → Representable (shifted.toInt - (399 : Int64).toInt))
    (hera : era = (if shifted ≥ 0 then shifted else shifted - 399) / 400)
    (hyoe : yoe = (shifted - era * 400).toUInt64)
    (hdoy : doy = ((153 * (if civil.month > 2 then civil.month - 3 else civil.month + 9) + 2) / 5 + civil.day - 1).toUInt64)
    (hdoe : doe = yoe * 365 + yoe / 4 - yoe / 100 + doy) :
    era.toInt = shiftedYear civil.date / 400 ∧ (doe.toInt64.toInt : Int) = dayOfEra civil.date ∧
      Representable (era.toInt * (400 : Int64).toInt) ∧ Representable (shifted.toInt - (era * 400).toInt) := by
  have hread : shifted.toInt = shiftedYear civil.date := by
    rw [hshifted, toInt_sub_of_representable hyear, bump_toInt]
    rfl
  have heraRead := civilEra_toInt hfloor hera
  have hyears := civilEraYears_fit hfloor heraRead
  obtain ⟨hback, hyoeRead⟩ := yearOfEra_fit hyears heraRead
  rw [← hyoe] at hyoeRead
  have hdoyRead := doy_toNat hvalid
  rw [← hdoy] at hdoyRead
  have hbounds := dayOfEra_bounds hvalid
  have hdoeRead : (doe.toNat : Int) = dayOfEra civil.date := by
    have hdoyBound : doy.toNat ≤ 400 := by
      have hday := (dayOfYear_bounds hvalid).2
      change marchMonthDays (shiftedMonth civil.month.toNat) + (civil.day.toNat : Int) - 1 ≤ 367 at hday
      omega
    rw [hdoe, doe_toNat (by omega) hdoyBound, hyoeRead, hdoyRead, hread]
    unfold dayOfEra
    change _ = marchDays _ + marchMonthDays (shiftedMonth civil.month.toNat) + (civil.day.toNat : Int) - 1
    omega
  refine ⟨heraRead.trans (by rw [hread]), ?_, hyears, hback⟩
  rw [toInt_toInt64 (by omega), hdoeRead]

theorem dayCount_spec {doe : Int64} (hlow : 0 ≤ doe.toInt) (hhigh : doe.toInt ≤ 146200) :
    (Representable (era.toInt * (146097 : Int64).toInt) ∧ Representable ((era * 146097).toInt + doe.toInt) ∧
        Representable ((era * 146097 + doe).toInt - (719468 : Int64).toInt) ↔
      Representable (era.toInt * 146097 + doe.toInt) ∧ Representable (era.toInt * 146097 + doe.toInt - 719468)) ∧
    (Representable (era.toInt * 146097 + doe.toInt) → Representable (era.toInt * 146097 + doe.toInt - 719468) →
      (era * 146097 + doe - 719468).toInt = era.toInt * 146097 + doe.toInt - 719468) := by
  have hread : (719468 : Int64).toInt = 719468 := by decide
  have hdays : (146097 : Int64).toInt = 146097 := by decide
  have hscaled : Representable (era.toInt * 146097) → (era * 146097).toInt = era.toInt * 146097 := fun h => by
    rw [toInt_mul_of_representable (by rw [hdays]; exact h), hdays]
  have hsum : Representable (era.toInt * 146097) → Representable (era.toInt * 146097 + doe.toInt) →
      (era * 146097 + doe).toInt = era.toInt * 146097 + doe.toInt := fun h hfit => by
    rw [toInt_add_of_representable (by rw [hscaled h]; exact hfit), hscaled h]
  have hroom : Representable (era.toInt * 146097 + doe.toInt) → Representable (era.toInt * 146097 + doe.toInt - 719468) →
      Representable (era.toInt * 146097) := by
    unfold Representable
    omega
  rw [hread, hdays]
  refine ⟨⟨?_, ?_⟩, ?_⟩
  · rintro ⟨h, hfit, hresult⟩
    rw [hscaled h] at hfit
    rw [hsum h hfit] at hresult
    exact ⟨hfit, hresult⟩
  · rintro ⟨hfit, hresult⟩
    have h := hroom hfit hresult
    rw [hsum h hfit, hscaled h]
    exact ⟨h, hfit, hresult⟩
  · intro hfit hresult
    have hexact := hsum (hroom hfit hresult) hfit
    rw [toInt_sub_of_representable (by rw [hread, hexact]; exact hresult), hread, hexact]

theorem dayNumber_spec {date : Date} (hvalid : date.Valid) {doe : Int64} (hera : era.toInt = shiftedYear date / 400)
    (hdoe : doe.toInt = dayOfEra date) :
    (Representable (era.toInt * (146097 : Int64).toInt) ∧ Representable ((era * 146097).toInt + doe.toInt) ∧
        Representable ((era * 146097 + doe).toInt - (719468 : Int64).toInt) ↔
      Representable (date.dayNumber + 719468) ∧ Representable date.dayNumber) ∧
    (Representable (date.dayNumber + 719468) → Representable date.dayNumber →
      (era * 146097 + doe - 719468).toInt = date.dayNumber) := by
  obtain ⟨hlow, hhigh⟩ := dayOfEra_bounds hvalid
  have hnumber : date.dayNumber = era.toInt * 146097 + doe.toInt - 719468 := by
    rw [dayNumber_eq hvalid, hera, hdoe]
  rw [hnumber, Int.sub_add_cancel]
  exact dayCount_spec (by omega) (by omega)

/-- The operations of `days_from_civil` stay in range exactly for the days that `civil_from_days` takes back. -/
theorem daysFromCivil_spec {civil : Civil} (hvalid : civil.date.Valid) :
    (AllFit (daysFromCivilOps civil.year civil.month civil.day) ↔
        Representable (civil.date.dayNumber + 719468) ∧ Representable civil.date.dayNumber) ∧
      (AllFit (daysFromCivilOps civil.year civil.month civil.day) →
        (daysFromCivil civil.year civil.month civil.day).toInt = civil.date.dayNumber) := by
  have hnumber : civil.date.dayNumber + 719468 = shiftedYear civil.date / 400 * 146097 + dayOfEra civil.date := by
    rw [dayNumber_eq hvalid, Int.sub_add_cancel]
  obtain ⟨hlow, hhigh⟩ := dayOfEra_bounds hvalid
  obtain ⟨shifted, hshifted⟩ : ∃ shifted, shifted = civil.year - if civil.month ≤ 2 then 1 else 0 := ⟨_, rfl⟩
  obtain ⟨era, hera⟩ : ∃ era, era = (if shifted ≥ 0 then shifted else shifted - 399) / 400 := ⟨_, rfl⟩
  obtain ⟨yoe, hyoe⟩ : ∃ yoe, yoe = (shifted - era * 400).toUInt64 := ⟨_, rfl⟩
  obtain ⟨doy, hdoy⟩ : ∃ doy, doy =
    ((153 * (if civil.month > 2 then civil.month - 3 else civil.month + 9) + 2) / 5 + civil.day - 1).toUInt64 := ⟨_, rfl⟩
  obtain ⟨doe, hdoe⟩ : ∃ doe, doe = yoe * 365 + yoe / 4 - yoe / 100 + doy := ⟨_, rfl⟩
  have hops : AllFit (daysFromCivilOps civil.year civil.month civil.day) ↔
      Representable (civil.year.toInt - (if civil.month ≤ 2 then (1 : Int64) else 0).toInt) ∧
        (shifted < 0 → Representable (shifted.toInt - (399 : Int64).toInt)) ∧
        Representable (era.toInt * (400 : Int64).toInt) ∧ Representable (shifted.toInt - (era * 400).toInt) ∧
        Representable (era.toInt * (146097 : Int64).toInt) ∧ Representable ((era * 146097).toInt + doe.toInt64.toInt) ∧
        Representable ((era * 146097 + doe.toInt64).toInt - (719468 : Int64).toInt) := by
    subst hdoe hdoy hyoe hera hshifted
    unfold daysFromCivilOps
    simp only [List.cons_append, allFit_cons, allFit_append, allFit_ite_not, allFit_nil, PlainOp.exact, and_true, ge_iff_le,
      Int64.not_le]
  have hvalue : daysFromCivil civil.year civil.month civil.day = era * 146097 + doe.toInt64 - 719468 := by
    subst hdoe hdoy hyoe hera hshifted
    rfl
  have hread : civil.year.toInt - (if civil.month ≤ 2 then (1 : Int64) else 0).toInt = shiftedYear civil.date := by
    rw [bump_toInt]
    rfl
  have hwords := fun hyear hfloor => civil_words hvalid hshifted hyear hfloor hera hyoe hdoy hdoe
  rw [hops, hvalue]
  constructor
  · constructor
    · rintro ⟨hyear, hfloor, -, -, hcount⟩
      obtain ⟨heraRead, hdoeRead, -, -⟩ := hwords hyear hfloor
      exact (dayNumber_spec hvalid heraRead hdoeRead).1.mp hcount
    · rintro ⟨hshift, hfit⟩
      have hyear : Representable (civil.year.toInt - (if civil.month ≤ 2 then (1 : Int64) else 0).toInt) := by
        rw [hread]
        unfold Representable at *
        omega
      have hexact := toInt_sub_of_representable hyear
      rw [← hshifted, hread] at hexact
      have hfloor : shifted < 0 → Representable (shifted.toInt - (399 : Int64).toInt) := by
        intro _
        rw [hexact]
        unfold Representable at *
        simp only [Int64.reduceToInt]
        omega
      obtain ⟨heraRead, hdoeRead, hyears, hback⟩ := hwords hyear hfloor
      exact ⟨hyear, hfloor, hyears, hback, (dayNumber_spec hvalid heraRead hdoeRead).1.mpr ⟨hshift, hfit⟩⟩
  · rintro ⟨hyear, hfloor, -, -, hcount⟩
    obtain ⟨heraRead, hdoeRead, -, -⟩ := hwords hyear hfloor
    have hspec := dayNumber_spec hvalid heraRead hdoeRead
    obtain ⟨hshift, hfit⟩ := hspec.1.mp hcount
    exact hspec.2 hshift hfit

end FromCivil

/-! ### The conversions are inverse -/

theorem Civil.date_inj {civil other : Civil} : civil.date = other.date ↔ civil = other := by
  refine ⟨fun h => ?_, congrArg Civil.date⟩
  obtain ⟨year, month, day⟩ := civil
  obtain ⟨year', month', day'⟩ := other
  simp only [Civil.date, Date.mk.injEq, Int64.toInt_inj, UInt32.toNat_inj] at h
  obtain ⟨rfl, rfl, rfl⟩ := h
  rfl

/-- Days and dates correspond as long as no operation leaves the signed range, and the dates are those of the calendar. -/
theorem civil_days_bijection :
    (∀ days, AllFit (civilFromDaysOps days) →
      (civilFromDays days).date.Valid ∧
        AllFit (daysFromCivilOps (civilFromDays days).year (civilFromDays days).month (civilFromDays days).day) ∧
        daysFromCivil (civilFromDays days).year (civilFromDays days).month (civilFromDays days).day = days) ∧
    ∀ civil : Civil, civil.date.Valid → AllFit (daysFromCivilOps civil.year civil.month civil.day) →
      AllFit (civilFromDaysOps (daysFromCivil civil.year civil.month civil.day)) ∧
        civilFromDays (daysFromCivil civil.year civil.month civil.day) = civil := by
  have hread : (719468 : Int64).toInt = 719468 := by decide
  constructor
  · intro days hops
    have hfit := (civilFromDaysOps_fit_iff days).mp hops
    have hdate := civilFromDays_date hfit
    obtain ⟨hvalid, hnumber⟩ := Date.ofDayNumber_spec days.toInt
    rw [← hdate] at hvalid hnumber
    obtain ⟨hiff, hvalue⟩ := daysFromCivil_spec hvalid
    rw [hnumber, hread.symm] at hiff
    have hback := hiff.mpr ⟨hfit, days.le_toInt, days.toInt_lt⟩
    exact ⟨hvalid, hback, Int64.toInt_inj.mp ((hvalue hback).trans hnumber)⟩
  · intro civil hvalid hops
    obtain ⟨hiff, hvalue⟩ := daysFromCivil_spec hvalid
    have hfit : Representable ((daysFromCivil civil.year civil.month civil.day).toInt + (719468 : Int64).toInt) := by
      rw [hvalue hops, hread]
      exact (hiff.mp hops).1
    refine ⟨(civilFromDaysOps_fit_iff _).mpr hfit, Civil.date_inj.mp ?_⟩
    rw [civilFromDays_date hfit, hvalue hops, Date.ofDayNumber_dayNumber hvalid]

/-- The leap day of 2000, found from its number and numbered again. -/
theorem civil_days_leap_day :
    daysFromCivil (civilFromDays 11016).year (civilFromDays 11016).month (civilFromDays 11016).day = 11016 ∧
      civilFromDays (daysFromCivil 2000 2 29) = ⟨2000, 2, 29⟩ :=
  ⟨(civil_days_bijection.1 11016 (by decide)).2.2,
    (civil_days_bijection.2 ⟨2000, 2, 29⟩ (by decide) (by decide)).2⟩

/-- Past the range both conversions are wrong: a year of `2^62` does not come back from its day count, and a day count
close to the largest gives a date that does not exist. -/
theorem civil_days_overflow :
    (Civil.mk (2 ^ 62) 1 1).date.Valid ∧ civilFromDays (daysFromCivil (2 ^ 62) 1 1) ≠ ⟨2 ^ 62, 1, 1⟩ ∧
      ¬(civilFromDays (Int64.maxValue - 719312)).date.Valid := by
  decide +kernel

end LatencyObservatory.Core
