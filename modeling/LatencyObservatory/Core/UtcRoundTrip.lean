import LatencyObservatory.Core.UtcText

/-!
# UTC texts are read back

What `parse_utc` makes of a text of `format_utc`, and which texts `format_utc` gives back.
-/

namespace LatencyObservatory.Core

open Lib.Gregorian JsonGrammar

/-! ### Reading a laid out text -/

theorem parseI64_digits {digits : Bytes} (h : Digits digits) (hlength : digits.length ≤ 18) :
    parseI64 digits = some (digitsValue digits : Int) := by
  rw [parseI64_eq_some_iff]
  refine ⟨.unsigned (.bare h), ?_⟩
  have hlt := digitsValue_lt h.2
  have hpower : 10 ^ digits.length ≤ 10 ^ 18 := Nat.pow_le_pow_right (by decide) hlength
  unfold Representable
  omega

theorem fractionLoop_digits {digits tail : Bytes} (hdigits : ∀ c ∈ digits, isDigit c = true)
    (htail : ∀ c ∈ tail.head?, isDigit c = false) {fraction scale : Int64} {taken : Nat}
    (hcount : taken + digits.length = 9) (hscale : scale.toInt = 10 ^ digits.length / 10)
    (hlow : 0 ≤ fraction.toInt) (hhigh : fraction.toInt + 10 ^ digits.length ≤ 10 ^ 9) :
    ∃ result : Int64, fractionLoop fraction scale taken (digits ++ tail) = (result, 9, tail) ∧
      result.toInt = fraction.toInt + digitsValue digits := by
  induction digits generalizing fraction scale taken with
  | nil =>
    refine ⟨fraction, ?_, by simp [digitsValue]⟩
    rw [List.nil_append]
    obtain _ | ⟨c, rest⟩ := tail
    · rw [fractionLoop, ← hcount]
      rfl
    · have hstop := htail c rfl
      rw [fractionLoop, if_neg (by rw [hstop]; decide), ← hcount]
      rfl
  | cons c digits ih =>
    rw [List.forall_mem_cons] at hdigits
    rw [List.length_cons] at hcount hscale hhigh
    obtain ⟨power, hpower⟩ : ∃ power : Int, power = 10 ^ digits.length := ⟨_, rfl⟩
    have hpos : 0 < power := by
      rw [hpower]
      positivity
    rw [pow_succ, ← hpower] at hscale hhigh
    have hdigit := (isDigit_iff c).mp hdigits.1
    obtain ⟨digit, hvalue⟩ : ∃ digit : Int64, digit = (c - 48).toUInt64.toInt64 := ⟨_, rfl⟩
    have hdigitRead : digit.toInt = ((c.toNat - 48 : Nat) : Int) := by
      have hword : (c - 48).toNat = c.toNat - 48 := UInt8.toNat_sub_of_le c 48 (UInt8.le_iff_toNat_le.mpr hdigit.1)
      rw [hvalue, toInt_toInt64 (by rw [UInt8.toNat_toUInt64]; omega), UInt8.toNat_toUInt64, hword]
    have hscaleRead : scale.toInt = power := by
      rw [hscale]
      omega
    have hbound : digit.toInt * power ≤ 9 * power := by
      apply Int.mul_le_mul_of_nonneg_right
      · omega
      · exact hpos.le
    have hnonneg : 0 ≤ digit.toInt * power := by
      apply Int.mul_nonneg
      · omega
      · exact hpos.le
    have hproduct : (digit * scale).toInt = digit.toInt * power := by
      rw [toInt_mul_of_representable, hscaleRead]
      rw [hscaleRead]
      unfold Representable
      omega
    have hsum : (fraction + digit * scale).toInt = fraction.toInt + digit.toInt * power := by
      rw [toInt_add_of_representable, hproduct]
      rw [hproduct]
      unfold Representable
      omega
    have hlower : (scale / 10).toInt = 10 ^ digits.length / 10 := by
      rw [(divMod_toInt (by decide) (by omega)).1, hscaleRead, hpower]
      rfl
    have hcount' : taken + 1 + digits.length = 9 := by omega
    have hlow' : 0 ≤ (fraction + digit * scale).toInt := by omega
    have hhigh' : (fraction + digit * scale).toInt + 10 ^ digits.length ≤ 10 ^ 9 := by
      rw [hsum, ← hpower]
      omega
    obtain ⟨result, hloop, hresult⟩ := ih hdigits.2 hcount' hlower hlow' hhigh'
    refine ⟨result, ?_, ?_⟩
    · rw [List.cons_append, fractionLoop, if_pos hdigits.1, if_pos (by omega), ← hvalue]
      exact hloop
    · rw [hresult, hsum, digitsValue_cons, hdigitRead, hpower]
      push_cast
      ring

theorem timestampFraction_digits {input digits : Bytes} (htail : input.drop 19 = 46 :: digits ++ [90])
    (hdigits : ∀ c ∈ digits, isDigit c = true) (hlength : digits.length = 9) :
    ∃ fraction : Int64, timestampFraction input = .ok (fraction, [90]) ∧ fraction.toInt = digitsValue digits := by
  have hnot : ∀ c ∈ ([90] : Bytes).head?, isDigit c = false := by
    rintro c ⟨⟩
    decide
  have hscale : (100000000 : Int64).toInt = 10 ^ digits.length / 10 := by
    rw [hlength]
    decide
  have hhigh : (0 : Int64).toInt + 10 ^ digits.length ≤ 10 ^ 9 := by
    rw [hlength]
    decide
  obtain ⟨fraction, hloop, hvalue⟩ := fractionLoop_digits hdigits hnot ((Nat.zero_add _).trans hlength) hscale
    (by decide) hhigh
  refine ⟨fraction, ?_, ?_⟩
  · rw [timestampFraction, htail]
    simp only [List.cons_append, hloop]
  · rw [hvalue, Int64.toInt_zero, Int.zero_add]

/-! ### The recombination -/

/-- An instant is put together exactly when the seconds of the day count, the seconds, their nanoseconds and the whole
are each in range. -/
theorem checkedInstant_eq_ok_iff (days ofDay fraction ns : Int64) (input : Bytes) :
    checkedInstant days ofDay fraction input = .ok ns ↔
      Representable (days.toInt * 86400) ∧ Representable (days.toInt * 86400 + ofDay.toInt) ∧
        Representable ((days.toInt * 86400 + ofDay.toInt) * 10 ^ 9) ∧
        ns.toInt = (days.toInt * 86400 + ofDay.toInt) * 10 ^ 9 + fraction.toInt := by
  have hday : (86400 : Int64).toInt = 86400 := by decide
  have hsecond : nanosPerSecond.toInt = 10 ^ 9 := by decide
  unfold checkedInstant
  constructor
  · intro h
    split at h
    · cases h
    · rename_i seconds hseconds
      split at h
      · cases h
      · rename_i total htotal
        split at h
        · cases h
        · rename_i nanos hnanos
          split at h
          · cases h
          · rename_i whole hwhole
            cases h
            rw [checkedMulI64_eq_some_iff, hday] at hseconds
            rw [checkedAddI64_eq_some_iff, hseconds] at htotal
            rw [checkedMulI64_eq_some_iff, htotal, hsecond] at hnanos
            rw [checkedAddI64_eq_some_iff, hnanos] at hwhole
            rw [← hwhole, ← hnanos, ← htotal, ← hseconds]
            exact ⟨representable_iff_exists.mpr ⟨seconds, rfl⟩, representable_iff_exists.mpr ⟨total, rfl⟩,
              representable_iff_exists.mpr ⟨nanos, rfl⟩, rfl⟩
  · rintro ⟨hseconds, htotal, hnanos, hns⟩
    obtain ⟨seconds, hseconds⟩ := representable_iff_exists.mp hseconds
    obtain ⟨total, htotal⟩ := representable_iff_exists.mp htotal
    obtain ⟨nanos, hnanos⟩ := representable_iff_exists.mp hnanos
    rw [← hseconds] at htotal hnanos hns
    rw [← htotal] at hnanos hns
    rw [← hnanos] at hns
    rw [← hday] at hseconds
    rw [← hsecond] at hnanos
    simp only [(checkedMulI64_eq_some_iff _ _ _).mpr hseconds, (checkedAddI64_eq_some_iff _ _ _).mpr htotal,
      (checkedMulI64_eq_some_iff _ _ _).mpr hnanos, (checkedAddI64_eq_some_iff _ _ _).mpr hns]

/-! ### The text of a stamp is read -/

section Stamps

variable {stamp : Stamp} {input : Bytes}

theorem ofInt_natCast_toInt {n : Nat} (h : n < 2 ^ 63) : (Int64.ofInt n).toInt = n :=
  Int64.toInt_ofInt_of_le (by omega) (by omega)

theorem digitsAt_padded {offset width n : Nat} (hinside : offset + width ≤ input.length)
    (hfield : substr input offset width = padded width n) (hsome : 0 < width) (hwidth : width ≤ 18)
    (hn : n < 10 ^ width) : digitsAt input offset width = some (n : Int) := by
  obtain ⟨hlength, hdigits, hvalue⟩ := padded_spec hsome hn
  have hnonempty : padded width n ≠ [] := by
    rw [← List.length_pos_iff, hlength]
    exact hsome
  rw [digitsAt, if_neg (by omega), hfield, parseI64_digits ⟨hnonempty, hdigits⟩ (by omega), hvalue]

/-- The fields of a stamp as `parse_utc` reads them. -/
def stampFields (stamp : Stamp) : UtcFields :=
  { year := stamp.date.year.toNat, month := stamp.date.month, day := stamp.date.day, hour := stamp.hour
    minute := stamp.minute, second := stamp.second }

theorem parseFields_utcText (h : Plain stamp) : parseFields (utcText stamp) = some (stampFields stamp) := by
  obtain ⟨hlength, -, -, hyear, hmonth, hday, hhour, hminute, hsecond⟩ := utcText_spec h
  obtain ⟨hyear', hmonth', hday', hhour', hminute', hsecond'⟩ := h.padded_lengths
  rw [parseFields, digitsAt_padded (by omega) hyear (by decide) (by decide) hyear',
    digitsAt_padded (by omega) hmonth (by decide) (by decide) hmonth',
    digitsAt_padded (by omega) hday (by decide) (by decide) hday',
    digitsAt_padded (by omega) hhour (by decide) (by decide) hhour',
    digitsAt_padded (by omega) hminute (by decide) (by decide) hminute',
    digitsAt_padded (by omega) hsecond (by decide) (by decide) hsecond']
  rfl

theorem stampFields_inRange (h : Plain stamp) : (stampFields stamp).inRange = true := by
  have hmonth := h.valid.date.one_le_month
  have hmonth' := h.valid.date.month_le
  have hday := h.valid.date.one_le_day
  have hday' := h.valid.date.day_le
  have hhour := h.valid.hour
  have hminute := h.valid.minute
  have hsecond := h.valid.second
  have hlast : monthLength stamp.date.year stamp.date.month ≤ 31 := by
    unfold monthLength
    split_ifs <;> omega
  unfold UtcFields.inRange stampFields
  simp only [Bool.not_eq_true', Bool.or_eq_false_iff, decide_eq_false_iff_not]
  omega

theorem dayNumber_bounds (h : Plain stamp) : -1000000 ≤ stamp.date.dayNumber ∧ stamp.date.dayNumber ≤ 4000000 := by
  have hofYear := h.valid.date.dayOfYear_le
  have hlow := h.year_nonneg
  have hhigh := h.year_lt
  have hlength : yearLength stamp.date.year ≤ 366 := by
    unfold yearLength
    split_ifs <;> omega
  unfold Date.dayNumber daysBeforeYear
  omega

theorem stampDays_toInt (h : Plain stamp) :
    (daysFromCivil (Int64.ofInt (stampFields stamp).year) (toUnsigned (Int64.ofInt (stampFields stamp).month))
      (toUnsigned (Int64.ofInt (stampFields stamp).day))).toInt = stamp.date.dayNumber := by
  obtain ⟨hyear, hmonth, hday, -⟩ := h.padded_lengths
  have hlow := h.year_nonneg
  have hunsigned : ∀ n : Nat, n < 10 ^ 2 → (toUnsigned (Int64.ofInt n)).toNat = n := by
    intro n hn
    have hread := ofInt_natCast_toInt (by omega : n < 2 ^ 63)
    rw [toUnsigned_toNat (by omega) (by omega), hread, Int.toNat_natCast]
  have hdate : (Civil.mk (Int64.ofInt (stampFields stamp).year) (toUnsigned (Int64.ofInt (stampFields stamp).month))
      (toUnsigned (Int64.ofInt (stampFields stamp).day))).date = stamp.date := by
    unfold Civil.date stampFields
    rw [ofInt_natCast_toInt (by omega), hunsigned _ hmonth, hunsigned _ hday, Int.toNat_of_nonneg hlow]
  have hspec := @daysFromCivil_spec ⟨Int64.ofInt (stampFields stamp).year,
    toUnsigned (Int64.ofInt (stampFields stamp).month), toUnsigned (Int64.ofInt (stampFields stamp).day)⟩
    (by rw [hdate]; exact h.valid.date)
  rw [hdate] at hspec
  have hbounds := dayNumber_bounds h
  exact hspec.2 (hspec.1.mpr ⟨by unfold Representable; omega, by unfold Representable; omega⟩)

theorem stampSeconds_toInt (h : Plain stamp) :
    (Int64.ofInt (stampFields stamp).hour * 3600 + Int64.ofInt (stampFields stamp).minute * 60 +
      Int64.ofInt (stampFields stamp).second).toInt = stamp.hour * 3600 + stamp.minute * 60 + stamp.second := by
  have hread : (3600 : Int64).toInt = 3600 := by decide
  have hread' : (60 : Int64).toInt = 60 := by decide
  have hhour := h.valid.hour
  have hminute := h.valid.minute
  have hsecond := h.valid.second
  have hhourRead := ofInt_natCast_toInt (by omega : stamp.hour < 2 ^ 63)
  have hminuteRead := ofInt_natCast_toInt (by omega : stamp.minute < 2 ^ 63)
  have hsecondRead := ofInt_natCast_toInt (by omega : stamp.second < 2 ^ 63)
  have hours : (Int64.ofInt stamp.hour * 3600).toInt = stamp.hour * 3600 := by
    rw [toInt_mul_of_representable, hhourRead, hread]
    rw [hhourRead, hread]
    unfold Representable
    omega
  have minutes : (Int64.ofInt stamp.minute * 60).toInt = stamp.minute * 60 := by
    rw [toInt_mul_of_representable, hminuteRead, hread']
    rw [hminuteRead, hread']
    unfold Representable
    omega
  have hsum : (Int64.ofInt stamp.hour * 3600 + Int64.ofInt stamp.minute * 60).toInt =
      stamp.hour * 3600 + stamp.minute * 60 := by
    rw [toInt_add_of_representable, hours, minutes]
    rw [hours, minutes]
    unfold Representable
    omega
  unfold stampFields
  rw [toInt_add_of_representable, hsum, hsecondRead]
  rw [hsum, hsecondRead]
  unfold Representable
  omega

/-- The text of a stamp is read as its instant, as long as its whole seconds are in range as nanoseconds. -/
theorem parseUtc_utcText (h : Plain stamp) (ns : Int64) :
    parseUtc (utcText stamp) = .ok ns ↔ Representable (stamp.seconds * 10 ^ 9) ∧ ns.toInt = stamp.instant := by
  obtain ⟨hlength, hseparated, htail, -⟩ := utcText_spec h
  obtain ⟨hwidth, hdigits, hvalue⟩ := padded_spec (by decide : 0 < 9) h.valid.nanos
  obtain ⟨fraction, hfraction, hfractionRead⟩ := timestampFraction_digits htail hdigits hwidth
  rw [hvalue] at hfractionRead
  have hbounds := dayNumber_bounds h
  have hhour := h.valid.hour
  have hminute := h.valid.minute
  have hsecond := h.valid.second
  have hparse : parseUtc (utcText stamp) = (stampFields stamp).combine fraction (utcText stamp) := by
    rw [parseUtc, if_neg (by omega), parseFields_utcText h]
    simp only [hseparated, stampFields_inRange h, hfraction, Bool.not_true, Bool.false_eq_true, if_false, ne_eq, not_true]
  rw [hparse, UtcFields.combine, checkedInstant_eq_ok_iff, stampDays_toInt h, stampSeconds_toInt h, hfractionRead]
  change _ ∧ _ ∧ Representable (stamp.seconds * 10 ^ 9) ∧ ns.toInt = stamp.instant ↔ _
  refine ⟨fun hall => hall.2.2, fun hlast => ⟨?_, ?_, hlast⟩⟩
  · unfold Representable
    omega
  · unfold Representable
    omega

end Stamps

/-! ### The round trip -/

/-- An instant is read back from its text except below the least whole second that is representable in nanoseconds: there
the seconds overflow before the fraction is added. -/
theorem parseUtc_formatUtc_iff (ns : Int64) :
    parseUtc (formatUtc ns) = .ok ns ↔ -9223372036000000000 ≤ ns.toInt := by
  have hlow := ns.le_toInt
  have hhigh := ns.toInt_lt
  obtain ⟨-, hseconds, hinstant⟩ := Stamp.ofInstant_spec ns.toInt
  rw [formatUtc_eq, parseUtc_utcText (ofInstant_plain ns), hseconds, hinstant]
  unfold Representable
  omega

/-- The least instant is not read back. -/
theorem parseUtc_formatUtc_minValue : parseUtc (formatUtc Int64.minValue) ≠ .ok Int64.minValue := by
  decide +kernel

/-! ### Which texts are given back -/

/-- Nine digits stand behind the point. -/
def NineDigitFraction (input : Bytes) : Prop :=
  input[19]? = some 46 ∧ ((input.drop 20).takeWhile isDigit).length = 9

instance (input : Bytes) : Decidable (NineDigitFraction input) := inferInstanceAs (Decidable (_ ∧ _))

/-- The places of the year, the month, the day, the hour, the minute and the second. -/
def fieldPlaces : List (Nat × Nat) :=
  [(0, 4), (5, 2), (8, 2), (11, 2), (14, 2), (17, 2)]

def dateOf (input : Bytes) : Date :=
  { year := digitsValue (substr input 0 4), month := digitsValue (substr input 5 2)
    day := digitsValue (substr input 8 2) }

/-- The fields are digits without a sign, the day exists, and the second is one of sixty. -/
structure RealTimestamp (input : Bytes) : Prop where
  digits : ∀ place ∈ fieldPlaces, ∀ c ∈ substr input place.1 place.2, isDigit c = true
  date : (dateOf input).Valid
  second : digitsValue (substr input 17 2) ≤ 59

theorem fractionLoop_tail (fraction scale : Int64) (taken : Nat) (input : Bytes) :
    (fractionLoop fraction scale taken input).2.2 = input.dropWhile isDigit := by
  induction input generalizing fraction scale taken with
  | nil => rfl
  | cons c rest ih =>
    rw [fractionLoop]
    by_cases hdigit : isDigit c = true
    · rw [if_pos hdigit, List.dropWhile_cons_of_pos hdigit]
      split_ifs
      · exact ih _ _ _
      · exact ih _ _ _
    · rw [if_neg hdigit, List.dropWhile_cons_of_neg hdigit]

theorem timestampFraction_tail {input tail : Bytes} {fraction : Int64} (hpoint : input[19]? = some 46)
    (h : timestampFraction input = .ok (fraction, tail)) : tail = (input.drop 20).dropWhile isDigit := by
  have hloop := fractionLoop_tail 0 100000000 0 (input.drop 20)
  rw [timestampFraction, drop_eq_cons hpoint] at h
  rcases hread : fractionLoop 0 100000000 0 (input.drop 20) with ⟨result, taken, rest⟩
  rw [hread] at hloop
  simp only [hread] at h
  obtain _ | taken := taken
  · cases h
  · simp only [Except.ok.injEq, Prod.mk.injEq] at h
    rw [← h.2]
    exact hloop

theorem parseUtc_ok {input : Bytes} {ns : Int64} (h : parseUtc input = .ok ns) :
    20 ≤ input.length ∧ separated input = true ∧ ∃ fields fraction, parseFields input = some fields ∧
      fields.inRange = true ∧ timestampFraction input = .ok (fraction, [90]) := by
  rw [parseUtc, guard_eq_ok_iff] at h
  obtain ⟨hlength, h⟩ := h
  rcases hfields : parseFields input with _ | fields
  · rw [hfields] at h
    cases h
  · simp only [hfields, guard_eq_ok_iff, Bool.not_eq_true', Bool.not_eq_false] at h
    obtain ⟨hseparated, hrange, h⟩ := h
    rcases hfraction : timestampFraction input with e | ⟨fraction, tail⟩
    · rw [hfraction] at h
      cases h
    · simp only [hfraction, guard_eq_ok_iff, ne_eq, not_not] at h
      obtain ⟨rfl, -⟩ := h
      exact ⟨by omega, hseparated, fields, fraction, rfl, hrange, rfl⟩

theorem digitsAt_digits {input : Bytes} {offset width : Nat} {value : Int} (hsome : 0 < width) (hwidth : width ≤ 18)
    (hdigits : ∀ c ∈ substr input offset width, isDigit c = true) (h : digitsAt input offset width = some value) :
    (substr input offset width).length = width ∧ value = digitsValue (substr input offset width) := by
  rw [digitsAt] at h
  split_ifs at h with hinside
  have hlength : (substr input offset width).length = width := by
    rw [substr, List.length_take, List.length_drop]
    omega
  have hnonempty : substr input offset width ≠ [] := by
    rw [← List.length_pos_iff, hlength]
    exact hsome
  rw [parseI64_digits ⟨hnonempty, hdigits⟩ (by omega), Option.some.injEq] at h
  exact ⟨hlength, h.symm⟩

/-- The stamp a text writes. -/
def stampOf (input : Bytes) : Stamp :=
  { date := dateOf input, hour := digitsValue (substr input 11 2), minute := digitsValue (substr input 14 2)
    second := digitsValue (substr input 17 2), nanos := digitsValue ((input.drop 20).takeWhile isDigit) }

theorem parseFields_eq_some {input : Bytes} {fields : UtcFields} (h : parseFields input = some fields) :
    digitsAt input 0 4 = some fields.year ∧ digitsAt input 5 2 = some fields.month ∧
      digitsAt input 8 2 = some fields.day ∧ digitsAt input 11 2 = some fields.hour ∧
      digitsAt input 14 2 = some fields.minute ∧ digitsAt input 17 2 = some fields.second := by
  simp only [parseFields, Option.bind_eq_bind, Option.bind_eq_some_iff, Option.pure_def, Option.some.injEq] at h
  obtain ⟨year, hyear, month, hmonth, day, hday, hour, hhour, minute, hminute, second, hsecond, rfl⟩ := h
  exact ⟨hyear, hmonth, hday, hhour, hminute, hsecond⟩

theorem utcText_stampOf {input : Bytes} {ns : Int64} (hparse : parseUtc input = .ok ns) (hnine : NineDigitFraction input)
    (hreal : RealTimestamp input) : Plain (stampOf input) ∧ utcText (stampOf input) = input := by
  obtain ⟨-, hseparated, fields, fraction, hfields, hrange, hfraction⟩ := parseUtc_ok hparse
  obtain ⟨hyear, hmonth, hday, hhour, hminute, hsecond⟩ := parseFields_eq_some hfields
  have hdigits := hreal.digits
  have hyearDigits : ∀ c ∈ substr input 0 4, isDigit c = true := hdigits (0, 4) (by decide)
  have hmonthDigits : ∀ c ∈ substr input 5 2, isDigit c = true := hdigits (5, 2) (by decide)
  have hdayDigits : ∀ c ∈ substr input 8 2, isDigit c = true := hdigits (8, 2) (by decide)
  have hhourDigits : ∀ c ∈ substr input 11 2, isDigit c = true := hdigits (11, 2) (by decide)
  have hminuteDigits : ∀ c ∈ substr input 14 2, isDigit c = true := hdigits (14, 2) (by decide)
  have hsecondDigits : ∀ c ∈ substr input 17 2, isDigit c = true := hdigits (17, 2) (by decide)
  obtain ⟨hyearLength, -⟩ := digitsAt_digits (by decide) (by decide) hyearDigits hyear
  obtain ⟨hmonthLength, -⟩ := digitsAt_digits (by decide) (by decide) hmonthDigits hmonth
  obtain ⟨hdayLength, -⟩ := digitsAt_digits (by decide) (by decide) hdayDigits hday
  obtain ⟨hhourLength, hhourValue⟩ := digitsAt_digits (by decide) (by decide) hhourDigits hhour
  obtain ⟨hminuteLength, hminuteValue⟩ := digitsAt_digits (by decide) (by decide) hminuteDigits hminute
  obtain ⟨hsecondLength, -⟩ := digitsAt_digits (by decide) (by decide) hsecondDigits hsecond
  -- The text is taken apart at its separators, and each part is the padded form of its value.
  have hnanosDigits : ∀ c ∈ (input.drop 20).takeWhile isDigit, isDigit c = true := fun c hc =>
    List.mem_takeWhile_imp hc
  have htail := timestampFraction_tail hnine.1 hfraction
  have hpoint := drop_eq_cons hnine.1
  rw [← List.takeWhile_append_dropWhile (p := isDigit) (l := input.drop 20), ← htail] at hpoint
  have hrepad : ∀ {digits : Bytes} {width : Nat}, digits.length = width → 0 < width →
      (∀ c ∈ digits, isDigit c = true) → padded width (digitsValue digits) = digits := by
    rintro digits width rfl hsome hall
    exact padded_digitsValue (List.length_pos_iff.mp hsome) hall
  have htext : utcText (stampOf input) = input := by
    have hlaid := layout_of_separated hseparated
    rw [hpoint] at hlaid
    rw [utcText, stampOf, dateOf]
    simp only [Int.toNat_natCast]
    rw [hrepad hyearLength (by decide) hyearDigits, hrepad hmonthLength (by decide) hmonthDigits,
      hrepad hdayLength (by decide) hdayDigits, hrepad hhourLength (by decide) hhourDigits,
      hrepad hminuteLength (by decide) hminuteDigits, hrepad hsecondLength (by decide) hsecondDigits,
      hrepad hnine.2 (by decide) hnanosDigits]
    exact hlaid.symm
  have hbounds : fields.hour ≤ 23 ∧ fields.minute ≤ 59 := by
    simp only [UtcFields.inRange, Bool.not_eq_true', Bool.or_eq_false_iff, decide_eq_false_iff_not] at hrange
    omega
  have hyearBound := digitsValue_lt hyearDigits
  have hnanosBound := digitsValue_lt hnanosDigits
  rw [hyearLength] at hyearBound
  rw [hnine.2] at hnanosBound
  refine ⟨⟨⟨hreal.date, ?_, ?_, hreal.second, hnanosBound⟩, ?_, ?_⟩, htext⟩
  · change digitsValue (substr input 11 2) ≤ 23
    omega
  · change digitsValue (substr input 14 2) ≤ 59
    omega
  · exact Int.natCast_nonneg _
  · change ((digitsValue (substr input 0 4) : Nat) : Int) < 10 ^ 4
    exact_mod_cast hyearBound

theorem utcText_real {stamp : Stamp} (h : Plain stamp) : RealTimestamp (utcText stamp) := by
  obtain ⟨-, -, -, hyear, hmonth, hday, hhour, hminute, hsecond⟩ := utcText_spec h
  obtain ⟨hyear', hmonth', hday', hhour', hminute', hsecond'⟩ := h.padded_lengths
  have hyearSpec := (padded_spec (by decide : 0 < 4) hyear').2
  have hmonthSpec := (padded_spec (by decide : 0 < 2) hmonth').2
  have hdaySpec := (padded_spec (by decide : 0 < 2) hday').2
  have hhourSpec := (padded_spec (by decide : 0 < 2) hhour').2
  have hminuteSpec := (padded_spec (by decide : 0 < 2) hminute').2
  have hsecondSpec := (padded_spec (by decide : 0 < 2) hsecond').2
  constructor
  · simp only [fieldPlaces, List.forall_mem_cons, hyear, hmonth, hday, hhour, hminute, hsecond]
    exact ⟨hyearSpec.1, hmonthSpec.1, hdaySpec.1, hhourSpec.1, hminuteSpec.1, hsecondSpec.1,
      fun _ hnone => absurd hnone List.not_mem_nil⟩
  · rw [dateOf, hyear, hmonth, hday, hyearSpec.2, hmonthSpec.2, hdaySpec.2, Int.toNat_of_nonneg h.year_nonneg]
    exact h.valid.date
  · rw [hsecond, hsecondSpec.2]
    exact h.valid.second

theorem formatUtc_of_real {input : Bytes} {ns : Int64} (hparse : parseUtc input = .ok ns)
    (hnine : NineDigitFraction input) (hreal : RealTimestamp input) : formatUtc ns = input := by
  obtain ⟨hplain, htext⟩ := utcText_stampOf hparse hnine hreal
  have hread := hparse
  rw [← htext, parseUtc_utcText hplain] at hread
  rw [formatUtc_eq, hread.2, Stamp.ofInstant_instant hplain.valid, htext]

/-- An accepted text with nine digits of fraction is given back exactly when it is that of a real timestamp, and two such
texts never denote one instant. -/
theorem formatUtc_parseUtc_iff (input : Bytes) (ns : Int64) (hparse : parseUtc input = .ok ns)
    (hnine : NineDigitFraction input) :
    (formatUtc ns = input ↔ RealTimestamp input) ∧
    ∀ other : Bytes, parseUtc other = .ok ns → NineDigitFraction other → RealTimestamp input → RealTimestamp other →
      input = other := by
  refine ⟨⟨?_, formatUtc_of_real hparse hnine⟩, ?_⟩
  · intro htext
    rw [← htext, formatUtc_eq]
    exact utcText_real (ofInstant_plain ns)
  · intro other hparse' hnine' hreal hreal'
    exact (formatUtc_of_real hparse hnine hreal).symm.trans (formatUtc_of_real hparse' hnine' hreal')

/-- A leap day is given back. -/
theorem formatUtc_parseUtc_leap_day : formatUtc 951782400000000000 = text "2000-02-29T00:00:00.000000000Z" :=
  (formatUtc_parseUtc_iff _ _ (by decide +kernel) (by decide +kernel)).1.mpr
    ⟨by decide +kernel, by decide +kernel, by decide +kernel⟩

/-- A day that does not exist, a signed month and a sixtieth second are accepted and come back as other texts. -/
theorem formatUtc_parseUtc_impossible :
    (parseUtc (text "2026-02-30T00:00:00.000000000Z") = .ok 1772409600000000000 ∧
      NineDigitFraction (text "2026-02-30T00:00:00.000000000Z") ∧
      formatUtc 1772409600000000000 = text "2026-03-02T00:00:00.000000000Z") ∧
    (parseUtc (text "2026-+1-01T00:00:00.000000000Z") = .ok 1767225600000000000 ∧
      formatUtc 1767225600000000000 = text "2026-01-01T00:00:00.000000000Z") ∧
    parseUtc (text "2026-01-01T00:00:60.000000000Z") = .ok 1767225660000000000 ∧
      formatUtc 1767225660000000000 = text "2026-01-01T00:01:00.000000000Z" := by
  decide +kernel

end LatencyObservatory.Core
