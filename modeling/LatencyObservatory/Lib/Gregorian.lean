import Mathlib.Tactic.IntervalCases
import Mathlib.Tactic.SplitIfs

/-!
# The proleptic Gregorian calendar

Dates of any year, the number of days before them, and the two facts that a conversion rests on: a day number belongs
to one date only, and the days of an era of 400 years fall into years that begin in March.
-/

namespace LatencyObservatory.Lib

namespace Gregorian

def Leap (year : Int) : Prop :=
  year % 4 = 0 ∧ (year % 100 ≠ 0 ∨ year % 400 = 0)

instance (year : Int) : Decidable (Leap year) := inferInstanceAs (Decidable (_ ∧ _))

def yearLength (year : Int) : Int :=
  if Leap year then 366 else 365

def monthLength (year : Int) (month : Nat) : Nat :=
  if month = 2 then (if Leap year then 29 else 28)
  else if month = 4 ∨ month = 6 ∨ month = 9 ∨ month = 11 then 30
  else 31

/-- A year, a month and a day, in the order in which dates are compared. -/
structure Date where
  year : Int
  month : Nat
  day : Nat
deriving DecidableEq, Repr

/-- The date exists. -/
structure Date.Valid (date : Date) : Prop where
  one_le_month : 1 ≤ date.month
  month_le : date.month ≤ 12
  one_le_day : 1 ≤ date.day
  day_le : date.day ≤ monthLength date.year date.month

instance (date : Date) : Decidable date.Valid :=
  decidable_of_iff (1 ≤ date.month ∧ date.month ≤ 12 ∧ 1 ≤ date.day ∧ date.day ≤ monthLength date.year date.month)
    ⟨fun ⟨h1, h2, h3, h4⟩ => ⟨h1, h2, h3, h4⟩, fun ⟨h1, h2, h3, h4⟩ => ⟨h1, h2, h3, h4⟩⟩

/-- The days of the years 1 to `year - 1`, counted backwards for years before the first. -/
def daysBeforeYear (year : Int) : Int :=
  365 * (year - 1) + (year - 1) / 4 - (year - 1) / 100 + (year - 1) / 400

/-- The days of the months before a month of a year. -/
def daysBeforeMonth (year : Int) : Nat → Nat
  | 0 => 0
  | 1 => 0
  | month + 2 => daysBeforeMonth year (month + 1) + monthLength year (month + 1)

/-- The days between 1970-01-01 and a date. -/
def Date.dayNumber (date : Date) : Int :=
  daysBeforeYear date.year + daysBeforeMonth date.year date.month + date.day - 719163

example : (⟨1970, 1, 1⟩ : Date).dayNumber = 0 := by decide

/-! ### Day numbers order the dates -/

theorem daysBeforeYear_succ (year : Int) : daysBeforeYear (year + 1) = daysBeforeYear year + yearLength year := by
  unfold daysBeforeYear yearLength Leap
  split_ifs <;> omega

theorem daysBeforeYear_lt {earlier later : Int} (h : earlier < later) :
    daysBeforeYear earlier + yearLength earlier ≤ daysBeforeYear later := by
  rw [← daysBeforeYear_succ]
  unfold daysBeforeYear
  by_cases hnext : later = earlier + 1
  · rw [hnext]
  · omega

theorem daysBeforeMonth_succ (year : Int) {month : Nat} (h : 1 ≤ month) :
    daysBeforeMonth year (month + 1) = daysBeforeMonth year month + monthLength year month := by
  obtain ⟨m, rfl⟩ := Nat.exists_eq_add_of_le' h
  rfl

theorem daysBeforeMonth_lt (year : Int) {earlier later : Nat} (hone : 1 ≤ earlier) (h : earlier < later) :
    daysBeforeMonth year earlier + monthLength year earlier ≤ daysBeforeMonth year later := by
  induction later, h using Nat.le_induction with
  | base => exact (daysBeforeMonth_succ year hone).ge
  | succ later hlater ih =>
    rw [daysBeforeMonth_succ year (by omega)]
    omega

/-- The days of a year that begins in March before a month of it, where March is month 0. -/
def marchMonthDays (shifted : Int) : Int :=
  (153 * shifted + 2) / 5

/-- Every length but that of February is fixed. The month after December stands for the end of the year. -/
theorem daysBeforeMonth_eq (year : Int) {month : Nat} (hlow : 1 ≤ month) (hhigh : month ≤ 13) :
    (daysBeforeMonth year month : Int) =
      if month ≤ 2 then 31 * ((month : Int) - 1)
      else 59 + (if Leap year then 1 else 0) + marchMonthDays ((month : Int) - 3) := by
  unfold marchMonthDays
  by_cases hleap : Leap year <;> interval_cases month <;> simp [daysBeforeMonth, monthLength, hleap]

theorem daysBeforeMonth_year (year : Int) : (daysBeforeMonth year 13 : Int) = yearLength year := by
  rw [daysBeforeMonth_eq year (by decide) (by decide)]
  unfold yearLength
  by_cases hleap : Leap year
  · rw [if_pos hleap, if_pos hleap]
    rfl
  · rw [if_neg hleap, if_neg hleap]
    rfl

namespace Date

variable {date other : Date}

theorem Valid.dayOfYear_le (h : date.Valid) :
    (daysBeforeMonth date.year date.month : Int) + date.day ≤ yearLength date.year := by
  have hmonth := daysBeforeMonth_lt date.year h.one_le_month (Nat.lt_of_le_of_lt h.month_le (by decide : 12 < 13))
  have hday := h.day_le
  rw [← daysBeforeMonth_year]
  omega

theorem Valid.year_le (h : date.Valid) (hother : other.Valid) (heq : date.dayNumber = other.dayNumber) :
    date.year ≤ other.year := by
  by_contra hlater
  have hbefore := daysBeforeYear_lt (not_le.mp hlater)
  have hend := hother.dayOfYear_le
  have hday := h.one_le_day
  unfold dayNumber at heq
  omega

theorem Valid.month_le_of_year (h : date.Valid) (hother : other.Valid) (hyear : date.year = other.year)
    (heq : date.dayNumber = other.dayNumber) : date.month ≤ other.month := by
  by_contra hlater
  have hbefore := daysBeforeMonth_lt other.year hother.one_le_month (not_le.mp hlater)
  have hend := hother.day_le
  have hday := h.one_le_day
  unfold dayNumber at heq
  rw [hyear] at heq
  omega

theorem Valid.eq_of_dayNumber_eq (h : date.Valid) (hother : other.Valid) (heq : date.dayNumber = other.dayNumber) :
    date = other := by
  have hyear : date.year = other.year := Int.le_antisymm (h.year_le hother heq) (hother.year_le h heq.symm)
  have hmonth : date.month = other.month :=
    Nat.le_antisymm (h.month_le_of_year hother hyear heq) (hother.month_le_of_year h hyear.symm heq.symm)
  have hday : date.day = other.day := by
    unfold dayNumber at heq
    rw [hyear, hmonth] at heq
    omega
  obtain ⟨year, month, day⟩ := date
  obtain ⟨year', month', day'⟩ := other
  simp only at hyear hmonth hday
  rw [hyear, hmonth, hday]

end Date

/-! ### Years from March to March -/

/-- The days of an era before a year of it, when the years begin in March. -/
def marchDays (yearOfEra : Int) : Int :=
  365 * yearOfEra + yearOfEra / 4 - yearOfEra / 100

theorem dayNumber_eq_march {date : Date} (h : date.Valid) :
    date.dayNumber =
      let year := date.year - if date.month ≤ 2 then 1 else 0
      let shifted := if date.month ≤ 2 then (date.month : Int) + 9 else date.month - 3
      year / 400 * 146097 + marchDays (year % 400) + marchMonthDays shifted + date.day - 1 - 719468 := by
  have hlow := h.one_le_month
  have hhigh := h.month_le
  unfold Date.dayNumber
  rw [daysBeforeMonth_eq date.year hlow (by omega)]
  unfold daysBeforeYear marchDays
  by_cases hearly : date.month ≤ 2
  · -- The leap day of the March year is still to come.
    simp only [if_pos hearly]
    unfold marchMonthDays
    omega
  · simp only [if_neg hearly]
    generalize marchMonthDays ((date.month : Int) - 3) = before
    unfold Leap
    split_ifs <;> omega

/-! ### The date of a day number -/

/-- The March year of a day of an era. -/
def marchYear (dayOfEra : Int) : Int :=
  (dayOfEra - dayOfEra / 1460 + dayOfEra / 36524 - dayOfEra / 146096) / 365

/-- The March month of a day of a March year. -/
def marchMonth (dayOfYear : Int) : Int :=
  (5 * dayOfYear + 2) / 153

/-- A day of an era in centuries, spans of four years, years and days. The last day of a span, and that of the era,
belong to the year before. -/
theorem exists_digits {dayOfEra : Int} (hlow : 0 ≤ dayOfEra) (hhigh : dayOfEra < 146097) :
    ∃ century span year day : Int, dayOfEra = 36524 * century + 1461 * span + 365 * year + day ∧
      0 ≤ century ∧ century ≤ 3 ∧ 0 ≤ span ∧ span ≤ 24 ∧ 0 ≤ year ∧ year ≤ 3 ∧ 0 ≤ day ∧ day ≤ 365 ∧
      (day = 365 → year = 3 ∧ (span = 24 → century = 3)) := by
  obtain ⟨century, hcentury⟩ : ∃ century, century = min 3 (dayOfEra / 36524) := ⟨_, rfl⟩
  obtain ⟨ofCentury, hofCentury⟩ : ∃ m, m = dayOfEra - 36524 * century := ⟨_, rfl⟩
  have hbound : 0 ≤ ofCentury ∧ ofCentury ≤ 36524 ∧ (ofCentury = 36524 → century = 3) := by omega
  obtain ⟨ofSpan, hofSpan⟩ : ∃ m, m = ofCentury % 1461 := ⟨_, rfl⟩
  have hspan : ofCentury = 1461 * (ofCentury / 1461) + ofSpan := by omega
  obtain ⟨year, hyear⟩ : ∃ year, year = min 3 (ofSpan / 365) := ⟨_, rfl⟩
  refine ⟨century, ofCentury / 1461, year, ofSpan - 365 * year, by omega, by omega, by omega, by omega, by omega,
    by omega, by omega, by omega, by omega, ?_⟩
  omega

theorem marchYear_eq {dayOfEra century span year day : Int}
    (hday : dayOfEra = 36524 * century + 1461 * span + 365 * year + day) (hcentury : 0 ≤ century ∧ century ≤ 3)
    (hspan : 0 ≤ span ∧ span ≤ 24) (hyear : 0 ≤ year ∧ year ≤ 3) (hbound : 0 ≤ day ∧ day ≤ 365)
    (hlast : day = 365 → year = 3 ∧ (span = 24 → century = 3)) :
    marchYear dayOfEra = 100 * century + 4 * span + year := by
  have hleaps : dayOfEra / 1460 =
      25 * century + span + if 1460 ≤ 24 * century + span + 365 * year + day then 1 else 0 := by
    split_ifs <;> omega
  have hcenturies : dayOfEra / 36524 - dayOfEra / 146096 = century := by
    by_cases hend : dayOfEra = 146096
    · omega
    · have hin : 1461 * span + 365 * year + day ≤ 36523 := by omega
      have hcenturies : dayOfEra / 36524 = century := by omega
      omega
  unfold marchYear
  split_ifs at hleaps <;> omega

/-- A day of an era belongs to its year: it is not before the year, and not after its last day. -/
theorem marchYear_spec {dayOfEra : Int} (hlow : 0 ≤ dayOfEra) (hhigh : dayOfEra < 146097) :
    0 ≤ marchYear dayOfEra ∧ marchYear dayOfEra < 400 ∧ marchDays (marchYear dayOfEra) ≤ dayOfEra ∧
      dayOfEra - marchDays (marchYear dayOfEra) ≤ 364 + if Leap (marchYear dayOfEra + 1) then 1 else 0 := by
  obtain ⟨century, span, year, day, hday, hc0, hc1, hs0, hs1, hy0, hy1, hd0, hd1, hlast⟩ := exists_digits hlow hhigh
  rw [marchYear_eq hday ⟨hc0, hc1⟩ ⟨hs0, hs1⟩ ⟨hy0, hy1⟩ ⟨hd0, hd1⟩ hlast]
  have hstart : marchDays (100 * century + 4 * span + year) = 36524 * century + 1461 * span + 365 * year := by
    have hspans : (100 * century + 4 * span + year) / 4 = 25 * century + span := by omega
    have hcenturies : (100 * century + 4 * span + year) / 100 = century := by omega
    unfold marchDays
    omega
  rw [hstart]
  refine ⟨by omega, by omega, by omega, ?_⟩
  unfold Leap
  split_ifs <;> omega

theorem marchMonth_spec {dayOfYear : Int} (hlow : 0 ≤ dayOfYear) (hhigh : dayOfYear ≤ 365) :
    0 ≤ marchMonth dayOfYear ∧ marchMonth dayOfYear ≤ 11 ∧ marchMonthDays (marchMonth dayOfYear) ≤ dayOfYear ∧
      dayOfYear < marchMonthDays (marchMonth dayOfYear + 1) := by
  unfold marchMonthDays marchMonth
  omega

def Date.ofDayNumber (dayNumber : Int) : Date :=
  let shifted := dayNumber + 719468
  let year := marchYear (shifted % 146097)
  let dayOfYear := shifted % 146097 - marchDays year
  let month := marchMonth dayOfYear
  { year := year + shifted / 146097 * 400 + if month < 10 then 0 else 1
    month := (if month < 10 then month + 3 else month - 9).toNat
    day := (dayOfYear - marchMonthDays month + 1).toNat }

theorem day_le_monthLength {year dayOfYear month : Int} (hlow : 0 ≤ month) (hhigh : month ≤ 11)
    (hlast : dayOfYear ≤ 364 + if Leap (year + 1) then 1 else 0) (hto : dayOfYear < marchMonthDays (month + 1)) :
    (dayOfYear - marchMonthDays month + 1).toNat ≤
      monthLength (year + if month < 10 then 0 else 1) (if month < 10 then month + 3 else month - 9).toNat := by
  unfold marchMonthDays at *
  by_cases hleap : Leap (year + 1)
  · rw [if_pos hleap] at hlast
    interval_cases month <;> simp [monthLength, hleap] <;> omega
  · rw [if_neg hleap] at hlast
    interval_cases month <;> simp [monthLength, hleap] <;> omega

theorem leap_add_era (year era : Int) : Leap (year + era * 400) ↔ Leap year := by
  unfold Leap
  omega

theorem monthLength_add_era (year era : Int) (month : Nat) :
    monthLength (year + era * 400) month = monthLength year month := by
  unfold monthLength
  simp only [leap_add_era]

theorem Date.ofDayNumber_spec (dayNumber : Int) :
    (ofDayNumber dayNumber).Valid ∧ (ofDayNumber dayNumber).dayNumber = dayNumber := by
  obtain ⟨shifted, hshifted⟩ : ∃ shifted, shifted = dayNumber + 719468 := ⟨_, rfl⟩
  obtain ⟨year, hyear⟩ : ∃ year, year = marchYear (shifted % 146097) := ⟨_, rfl⟩
  obtain ⟨dayOfYear, hday⟩ : ∃ day, day = shifted % 146097 - marchDays year := ⟨_, rfl⟩
  obtain ⟨month, hmonth⟩ : ∃ month, month = marchMonth dayOfYear := ⟨_, rfl⟩
  obtain ⟨hy0, hy1, hstart, hend⟩ := marchYear_spec (Int.emod_nonneg shifted (by decide : (146097 : Int) ≠ 0))
    (Int.emod_lt_of_pos shifted (by decide))
  rw [← hyear] at hy0 hy1 hstart hend
  rw [← hday] at hend
  have hlast : dayOfYear ≤ 365 := by
    split_ifs at hend <;> omega
  obtain ⟨hm0, hm1, hfrom, hto⟩ := marchMonth_spec (by omega : 0 ≤ dayOfYear) hlast
  rw [← hmonth] at hm0 hm1 hfrom hto
  have hdate : ofDayNumber dayNumber =
      { year := year + shifted / 146097 * 400 + if month < 10 then 0 else 1
        month := (if month < 10 then month + 3 else month - 9).toNat
        day := (dayOfYear - marchMonthDays month + 1).toNat } := by
    subst hmonth hday hyear hshifted
    rfl
  have hvalid : (ofDayNumber dayNumber).Valid := by
    rw [hdate]
    constructor
    · simp only
      split_ifs <;> omega
    · simp only
      split_ifs <;> omega
    · simp only
      omega
    · simp only
      rw [add_right_comm, monthLength_add_era]
      exact day_le_monthLength hm0 hm1 hend hto
  refine ⟨hvalid, ?_⟩
  rw [dayNumber_eq_march hvalid, hdate]
  -- The year that begins in March is found again, whether or not January has passed.
  have hera : (year + shifted / 146097 * 400) / 400 = shifted / 146097 := by omega
  have hofEra : (year + shifted / 146097 * 400) % 400 = year := by omega
  by_cases hearly : month < 10
  · have hnot : ¬(month + 3).toNat ≤ 2 := by omega
    have hback : ((month + 3).toNat : Int) - 3 = month := by omega
    simp only [if_pos hearly, if_neg hnot, hback, Int.add_zero, Int.sub_zero, hera, hofEra]
    omega
  · have hyes : (month - 9).toNat ≤ 2 := by omega
    have hback : ((month - 9).toNat : Int) + 9 = month := by omega
    simp only [if_neg hearly, if_pos hyes, hback, Int.add_sub_cancel, hera, hofEra]
    omega

theorem Date.ofDayNumber_dayNumber {date : Date} (h : date.Valid) : ofDayNumber date.dayNumber = date :=
  have hspec := ofDayNumber_spec date.dayNumber
  hspec.1.eq_of_dayNumber_eq h hspec.2

/-! ### Instants -/

/-- A date and a time of day, to the nanosecond. -/
structure Stamp where
  date : Date
  hour : Nat
  minute : Nat
  second : Nat
  nanos : Nat
deriving DecidableEq, Repr

namespace Stamp

structure Valid (stamp : Stamp) : Prop where
  date : stamp.date.Valid
  hour : stamp.hour ≤ 23
  minute : stamp.minute ≤ 59
  second : stamp.second ≤ 59
  nanos : stamp.nanos < 10 ^ 9

/-- The seconds since 1970-01-01, leap seconds not counted. -/
def seconds (stamp : Stamp) : Int :=
  stamp.date.dayNumber * 86400 + (stamp.hour * 3600 + stamp.minute * 60 + stamp.second)

/-- The nanoseconds since 1970-01-01. -/
def instant (stamp : Stamp) : Int :=
  stamp.seconds * 10 ^ 9 + stamp.nanos

def ofInstant (instant : Int) : Stamp :=
  let seconds := instant / 10 ^ 9
  let ofDay := seconds % 86400
  { date := Date.ofDayNumber (seconds / 86400)
    hour := (ofDay / 3600).toNat
    minute := (ofDay % 3600 / 60).toNat
    second := (ofDay % 60).toNat
    nanos := (instant % 10 ^ 9).toNat }

theorem ofInstant_spec (n : Int) :
    (ofInstant n).Valid ∧ (ofInstant n).seconds = n / 10 ^ 9 ∧ (ofInstant n).instant = n := by
  obtain ⟨hdate, hnumber⟩ := Date.ofDayNumber_spec (n / 10 ^ 9 / 86400)
  have hseconds : (ofInstant n).seconds = n / 10 ^ 9 := by
    unfold seconds ofInstant
    simp only
    rw [hnumber]
    omega
  refine ⟨⟨hdate, ?_, ?_, ?_, ?_⟩, hseconds, ?_⟩
  · unfold ofInstant
    simp only
    omega
  · unfold ofInstant
    simp only
    omega
  · unfold ofInstant
    simp only
    omega
  · unfold ofInstant
    simp only
    omega
  · unfold instant
    rw [hseconds]
    unfold ofInstant
    simp only
    omega

theorem ofInstant_instant {stamp : Stamp} (h : stamp.Valid) : ofInstant stamp.instant = stamp := by
  have hhour := h.hour
  have hminute := h.minute
  have hsecond := h.second
  have hnanos := h.nanos
  have hseconds : stamp.instant / 10 ^ 9 = stamp.seconds := by
    unfold instant
    omega
  have hfraction : stamp.instant % 10 ^ 9 = stamp.nanos := by
    unfold instant
    omega
  have hday : stamp.seconds / 86400 = stamp.date.dayNumber := by
    unfold seconds
    omega
  have hofDay : stamp.seconds % 86400 = stamp.hour * 3600 + stamp.minute * 60 + stamp.second := by
    unfold seconds
    omega
  obtain ⟨date, hour, minute, second, nanos⟩ := stamp
  unfold ofInstant
  rw [hseconds, hfraction]
  simp only
  rw [hday, hofDay, Date.ofDayNumber_dayNumber h.date]
  simp only [mk.injEq, Int.toNat_natCast, true_and, and_true]
  simp only at hhour hminute hsecond
  omega

end Stamp

end Gregorian

end LatencyObservatory.Lib
