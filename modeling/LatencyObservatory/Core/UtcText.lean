import LatencyObservatory.Core.Calendar
import LatencyObservatory.Core.CheckedExact
import LatencyObservatory.Core.JsonRoundTrip

/-!
# UTC texts

`format_utc` and `parse_utc`: the rendering of a nanosecond count as a civil date and time, and its reader.
-/

namespace LatencyObservatory.Core

open Lib.Gregorian JsonGrammar

/-! ### Rendering -/

/-- A number in `%0<width>u`. -/
def padded (width n : Nat) : Bytes :=
  List.replicate (width - (decimal n).length) 48 ++ decimal n

/-- A number in `%0<width>lld`: the sign counts towards the width. -/
def paddedInt (width : Nat) (i : Int) : Bytes :=
  if i < 0 then 45 :: padded (width - 1) i.natAbs else padded width i.natAbs

def nanosPerSecond : Int64 := 1000000000

/-- `static_cast<unsigned>` of a signed value. -/
def toUnsigned (a : Int64) : UInt32 :=
  a.toUInt64.toUInt32

def formatUtc (unixNs : Int64) : Bytes :=
  let fraction := unixNs % nanosPerSecond
  let seconds := if fraction < 0 then unixNs / nanosPerSecond - 1 else unixNs / nanosPerSecond
  let fraction := if fraction < 0 then fraction + nanosPerSecond else fraction
  -- Before 1970 the day index rounds down as well.
  let secondOfDay := seconds % 86400
  let days := if secondOfDay < 0 then seconds / 86400 - 1 else seconds / 86400
  let secondOfDay := if secondOfDay < 0 then secondOfDay + 86400 else secondOfDay
  let civil := civilFromDays days
  let hour := toUnsigned (secondOfDay / 3600)
  let minute := toUnsigned (secondOfDay % 3600 / 60)
  let second := toUnsigned (secondOfDay % 60)
  (paddedInt 4 civil.year.toInt ++ 45 :: padded 2 civil.month.toNat ++ 45 :: padded 2 civil.day.toNat ++
    84 :: padded 2 hour.toNat ++ 58 :: padded 2 minute.toNat ++ 58 :: padded 2 second.toNat ++
    46 :: paddedInt 9 fraction.toInt ++ [90]).take 47

/-! ### Reading -/

/-- `text.substr(offset, count)`. -/
def substr (input : Bytes) (offset count : Nat) : Bytes :=
  (input.drop offset).take count

/-- The local function `digits` of `parse_utc`. -/
def digitsAt (input : Bytes) (offset count : Nat) : Option Int :=
  if offset + count > input.length then none else parseI64 (substr input offset count)

/-- The loop over the digits behind the point: at most nine of them count, and all of them are passed. -/
def fractionLoop (fraction scale : Int64) (taken : Nat) : Bytes → Int64 × Nat × Bytes
  | [] => (fraction, taken, [])
  | c :: rest =>
    if isDigit c = true then
      if taken < 9 then fractionLoop (fraction + (c - 48).toUInt64.toInt64 * scale) (scale / 10) (taken + 1) rest
      else fractionLoop fraction scale taken rest
    else (fraction, taken, c :: rest)

/-- The fraction, and the text behind it. -/
def timestampFraction (input : Bytes) : Except Error (Int64 × Bytes) :=
  match input.drop 19 with
  | 46 :: rest =>
    match fractionLoop 0 100000000 0 rest with
    | (_, 0, _) => .error { code := .parseError, message := "timestamp fraction has no digits", context := input }
    | (fraction, _, tail) => .ok (fraction, tail)
  | tail => .ok (0, tail)

/-- The fields of the text as they are read, before any range is checked. -/
structure UtcFields where
  year : Int
  month : Int
  day : Int
  hour : Int
  minute : Int
  second : Int
deriving DecidableEq, Repr

def parseFields (input : Bytes) : Option UtcFields := do
  let year ← digitsAt input 0 4
  let month ← digitsAt input 5 2
  let day ← digitsAt input 8 2
  let hour ← digitsAt input 11 2
  let minute ← digitsAt input 14 2
  let second ← digitsAt input 17 2
  return { year, month, day, hour, minute, second }

/-- The separators stand at their places. -/
def separated (input : Bytes) : Bool :=
  input[4]? == some 45 && input[7]? == some 45 && input[10]? == some 84 && input[13]? == some 58 && input[16]? == some 58

def UtcFields.inRange (f : UtcFields) : Bool :=
  !(f.month < 1 || f.month > 12 || f.day < 1 || f.day > 31 || f.hour < 0 || f.hour > 23 || f.minute < 0 ||
    f.minute > 59 || f.second < 0 || f.second > 60)

/-- The instant of a day count, the seconds of the day and a fraction, each step checked. -/
def checkedInstant (days ofDay fraction : Int64) (input : Bytes) : Except Error Int64 :=
  match checkedMulI64 days 86400 with
  | none => .error { code := .overflow, message := "timestamp day count overflows", context := input }
  | some seconds =>
    match checkedAddI64 seconds ofDay with
    | none => .error { code := .overflow, message := "timestamp seconds overflow", context := input }
    | some total =>
      match checkedMulI64 total nanosPerSecond with
      | none => .error { code := .overflow, message := "timestamp nanoseconds overflow", context := input }
      | some total =>
        match checkedAddI64 total fraction with
        | none => .error { code := .overflow, message := "timestamp nanoseconds overflow", context := input }
        | some withFraction => .ok withFraction

def UtcFields.combine (f : UtcFields) (fraction : Int64) (input : Bytes) : Except Error Int64 :=
  checkedInstant (daysFromCivil (Int64.ofInt f.year) (toUnsigned (Int64.ofInt f.month)) (toUnsigned (Int64.ofInt f.day)))
    (Int64.ofInt f.hour * 3600 + Int64.ofInt f.minute * 60 + Int64.ofInt f.second) fraction input

def parseUtc (input : Bytes) : Except Error Int64 :=
  if input.length < 20 ∨ input.length > 30 then
    .error { code := .parseError, message := "timestamp has an unsupported length", context := input }
  else match parseFields input with
    | none => .error { code := .parseError, message := "timestamp field is malformed", context := input }
    | some fields =>
      if !separated input then
        .error { code := .parseError, message := "timestamp separators are malformed", context := input }
      else if !fields.inRange then
        .error { code := .outOfRange, message := "timestamp field is out of range", context := input }
      else match timestampFraction input with
        | .error e => .error e
        | .ok (fraction, tail) =>
          if tail ≠ [90] then
            .error { code := .parseError, message := "timestamp must end with 'Z'", context := input }
          else fields.combine fraction input

/-! ### Numbers of a fixed width -/

theorem digitsValue_append (digits : Bytes) (c : UInt8) :
    digitsValue (digits ++ [c]) = digitsValue digits * 10 + (c.toNat - 48) := by
  unfold digitsValue
  rw [List.foldl_append, List.foldl_cons, List.foldl_nil]

theorem digitsValue_cons (c : UInt8) (digits : Bytes) :
    digitsValue (c :: digits) = (c.toNat - 48) * 10 ^ digits.length + digitsValue digits := by
  induction digits using List.reverseRecOn with
  | nil => simp [digitsValue]
  | append_singleton digits d ih =>
    rw [← List.cons_append, digitsValue_append, ih, digitsValue_append, List.length_append, List.length_singleton,
      Nat.pow_succ]
    ring

theorem isDigit_iff (c : UInt8) : isDigit c = true ↔ 48 ≤ c.toNat ∧ c.toNat ≤ 57 := by
  simp only [isDigit, Bool.and_eq_true, decide_eq_true_eq, UInt8.le_iff_toNat_le]
  rfl

theorem digitsValue_lt {digits : Bytes} (h : ∀ c ∈ digits, isDigit c = true) :
    digitsValue digits < 10 ^ digits.length := by
  induction digits with
  | nil => decide
  | cons c digits ih =>
    rw [List.forall_mem_cons] at h
    have hmore := ih h.2
    have hdigit := (isDigit_iff c).mp h.1
    have hweight : (c.toNat - 48) * 10 ^ digits.length ≤ 9 * 10 ^ digits.length :=
      Nat.mul_le_mul_right _ (by omega)
    rw [digitsValue_cons, List.length_cons, Nat.pow_succ]
    omega

theorem digits_eq_of_value_eq {digits other : Bytes} (h : ∀ c ∈ digits, isDigit c = true)
    (hother : ∀ c ∈ other, isDigit c = true) (hlength : digits.length = other.length)
    (hvalue : digitsValue digits = digitsValue other) : digits = other := by
  induction digits generalizing other with
  | nil => exact (List.length_eq_zero_iff.mp hlength.symm).symm
  | cons c digits ih =>
    obtain _ | ⟨d, other⟩ := other
    · cases hlength
    rw [List.forall_mem_cons] at h hother
    have hrest : digits.length = other.length := Nat.succ.inj hlength
    have hc := (isDigit_iff c).mp h.1
    have hd := (isDigit_iff d).mp hother.1
    have hlow := digitsValue_lt h.2
    have hlow' := digitsValue_lt hother.2
    rw [digitsValue_cons, digitsValue_cons, ← hrest] at hvalue
    rw [← hrest] at hlow'
    have hlead : c.toNat - 48 = d.toNat - 48 := by
      have hleft := congrArg (· / 10 ^ digits.length) hvalue
      rw [Nat.add_comm, Nat.add_mul_div_right _ _ (by positivity), Nat.div_eq_of_lt hlow, Nat.add_comm _ (digitsValue other),
        Nat.add_mul_div_right _ _ (by positivity), Nat.div_eq_of_lt hlow'] at hleft
      omega
    have hhead : c = d := UInt8.toNat_inj.mp (by omega)
    rw [hlead] at hvalue
    rw [hhead, ih h.2 hother.2 hrest (Nat.add_left_cancel hvalue)]

theorem decimal_length_le {n width : Nat} (hsome : 0 < width) (h : n < 10 ^ width) : (decimal n).length ≤ width := by
  unfold decimal
  split_ifs with hzero
  · exact hsome
  · rw [List.length_map, List.length_reverse]
    exact (Nat.digits_length_le_iff (by decide) n).mpr h

theorem padded_spec {n width : Nat} (hsome : 0 < width) (h : n < 10 ^ width) :
    (padded width n).length = width ∧ (∀ c ∈ padded width n, isDigit c = true) ∧ digitsValue (padded width n) = n := by
  obtain ⟨⟨⟨-, hdigits⟩, -⟩, hvalue⟩ := decimal_derives n
  have hlength := decimal_length_le hsome h
  have hzeros : ∀ count : Nat, ∀ digits : Bytes, digitsValue (List.replicate count 48 ++ digits) = digitsValue digits := by
    intro count digits
    induction count with
    | zero => rfl
    | succ count ih =>
      rw [List.replicate_succ, List.cons_append, digitsValue_cons, ih]
      simp
  unfold padded
  refine ⟨?_, ?_, (hzeros _ _).trans hvalue⟩
  · rw [List.length_append, List.length_replicate]
    omega
  · intro c hc
    rcases List.mem_append.mp hc with hzero | hdigit
    · rw [List.eq_of_mem_replicate hzero]
      decide
    · exact hdigits c hdigit

theorem padded_digitsValue {digits : Bytes} (hsome : digits ≠ []) (h : ∀ c ∈ digits, isDigit c = true) :
    padded digits.length (digitsValue digits) = digits := by
  obtain ⟨hlength, hdigits, hvalue⟩ := padded_spec (List.length_pos_iff.mpr hsome) (digitsValue_lt h)
  exact digits_eq_of_value_eq hdigits h hlength hvalue

/-! ### The text of a stamp -/

/-- Six fields with their separators, and what follows them. -/
def layout (year month day hour minute second tail : Bytes) : Bytes :=
  year ++ 45 :: month ++ 45 :: day ++ 84 :: hour ++ 58 :: minute ++ 58 :: second ++ tail

def utcText (stamp : Stamp) : Bytes :=
  layout (padded 4 stamp.date.year.toNat) (padded 2 stamp.date.month) (padded 2 stamp.date.day) (padded 2 stamp.hour)
    (padded 2 stamp.minute) (padded 2 stamp.second) (46 :: padded 9 stamp.nanos ++ [90])

theorem layout_spec : ∀ {year month day hour minute second tail : Bytes}, year.length = 4 → month.length = 2 →
    day.length = 2 → hour.length = 2 → minute.length = 2 → second.length = 2 →
    let input := layout year month day hour minute second tail
    input.length = 19 + tail.length ∧ separated input = true ∧ input.drop 19 = tail ∧ substr input 0 4 = year ∧
      substr input 5 2 = month ∧ substr input 8 2 = day ∧ substr input 11 2 = hour ∧ substr input 14 2 = minute ∧
      substr input 17 2 = second
  | [_, _, _, _], [_, _], [_, _], [_, _], [_, _], [_, _], tail, _, _, _, _, _, _ => by
    refine ⟨?_, rfl, rfl, rfl, rfl, rfl, rfl, rfl, rfl⟩
    simp [layout]
    omega

theorem drop_eq_cons {input : Bytes} {i : Nat} {c : UInt8} (h : input[i]? = some c) :
    input.drop i = c :: input.drop (i + 1) := by
  obtain ⟨hi, rfl⟩ := List.getElem?_eq_some_iff.mp h
  exact List.drop_eq_getElem_cons hi

theorem drop_eq_substr (input : Bytes) (i width : Nat) :
    input.drop i = substr input i width ++ input.drop (i + width) := by
  rw [substr, ← List.drop_drop, List.take_append_drop]

theorem layout_of_separated {input : Bytes} (h : separated input = true) :
    input = layout (substr input 0 4) (substr input 5 2) (substr input 8 2) (substr input 11 2) (substr input 14 2)
      (substr input 17 2) (input.drop 19) := by
  simp only [separated, Bool.and_eq_true, beq_iff_eq] at h
  obtain ⟨⟨⟨⟨h4, h7⟩, h10⟩, h13⟩, h16⟩ := h
  have hyear := drop_eq_substr input 0 4
  have hmonth := drop_eq_substr input 5 2
  have hday := drop_eq_substr input 8 2
  have hhour := drop_eq_substr input 11 2
  have hminute := drop_eq_substr input 14 2
  have hsecond := drop_eq_substr input 17 2
  rw [drop_eq_cons h4, hmonth, drop_eq_cons h7, hday, drop_eq_cons h10, hhour, drop_eq_cons h13, hminute,
    drop_eq_cons h16, hsecond] at hyear
  simpa [layout] using hyear

theorem floorDivMod (n : Int) {k : Int} (hk : 0 < k) :
    (if n.tmod k < 0 then n.tdiv k - 1 else n.tdiv k) = n / k ∧
      (if n.tmod k < 0 then n.tmod k + k else n.tmod k) = n % k := by
  have hlow := Int.emod_nonneg n hk.ne'
  have hhigh := Int.emod_lt_of_pos n hk
  have habs : (k.natAbs : Int) = k := Int.natAbs_of_nonneg hk.le
  rw [Int.tdiv_eq_ediv, Int.tmod_eq_emod, Int.sign_eq_one_of_pos hk]
  by_cases hexact : 0 ≤ n ∨ k ∣ n
  · simp only [if_pos hexact, Int.natCast_zero, Int.sub_zero, Int.add_zero, if_neg (Int.not_lt.mpr hlow), and_self]
  · simp only [if_neg hexact, habs, if_pos (by omega : n % k - k < 0)]
    omega

theorem floorDivMod_toInt {a k : Int64} (hk : 1 < k.toInt) :
    (if a % k < 0 then a / k - 1 else a / k).toInt = a.toInt / k.toInt ∧
      (if a % k < 0 then a % k + k else a % k).toInt = a.toInt % k.toInt := by
  have hne : k ≠ -1 := by
    rintro rfl
    revert hk
    decide
  have hdiv : (a / k).toInt = a.toInt.tdiv k.toInt := Int64.toInt_div_of_ne_right a k hne
  have hmod : (a % k).toInt = a.toInt.tmod k.toInt := Int64.toInt_mod a k
  obtain ⟨hquotient, hremainder⟩ := floorDivMod a.toInt (by omega : 0 < k.toInt)
  have hneg : a % k < 0 ↔ a.toInt.tmod k.toInt < 0 := by
    rw [Int64.lt_iff_toInt_lt, Int64.toInt_zero, hmod]
  have hlow := a.le_toInt
  have hhigh := a.toInt_lt
  have hdivide := Int.mul_ediv_add_emod a.toInt k.toInt
  have hmodLow := Int.emod_nonneg a.toInt (by omega : k.toInt ≠ 0)
  have hmodHigh := Int.emod_lt_of_pos a.toInt (by omega : 0 < k.toInt)
  have hkHigh := k.toInt_lt
  by_cases h : a % k < 0
  · have hint := hneg.mp h
    rw [if_pos hint] at hquotient hremainder
    have hfit : Representable ((a / k).toInt - (1 : Int64).toInt) := by
      have hfloor : -2 ^ 63 ≤ a.toInt / k.toInt := by
        rw [Int.le_ediv_iff_mul_le (by omega)]
        omega
      have hnegative : a.toInt / k.toInt < 0 := by
        refine Int.ediv_neg_of_neg_of_pos ?_ (by omega)
        by_contra hnonneg
        have htmod := Int.tmod_nonneg k.toInt (not_lt.mp hnonneg)
        omega
      rw [hdiv, Int64.toInt_one, hquotient]
      unfold Representable
      omega
    have hfit' : Representable ((a % k).toInt + k.toInt) := by
      rw [hmod, hremainder]
      unfold Representable
      omega
    rw [if_pos h, if_pos h, toInt_sub_of_representable hfit, toInt_add_of_representable hfit', hdiv, hmod, Int64.toInt_one]
    exact ⟨hquotient, hremainder⟩
  · have hint := hneg.not.mp h
    rw [if_neg hint] at hquotient hremainder
    rw [if_neg h, if_neg h, hdiv, hmod]
    exact ⟨hquotient, hremainder⟩

theorem toUnsigned_toNat {a : Int64} (hlow : 0 ≤ a.toInt) (hhigh : a.toInt < 2 ^ 32) :
    (toUnsigned a).toNat = a.toInt.toNat := by
  unfold toUnsigned
  rw [UInt64.toNat_toUInt32, toNat_toUInt64_of_nonneg hlow, Nat.mod_eq_of_lt (by omega)]

theorem divMod_toInt {a k : Int64} (hk : 0 < k.toInt) (ha : 0 ≤ a.toInt) :
    (a / k).toInt = a.toInt / k.toInt ∧ (a % k).toInt = a.toInt % k.toInt := by
  have hne : k ≠ -1 := by
    rintro rfl
    revert hk
    decide
  rw [Int64.toInt_div_of_ne_right a k hne, Int64.toInt_mod, Int.tdiv_eq_ediv_of_nonneg ha, Int.tmod_eq_emod_of_nonneg ha]
  exact ⟨rfl, rfl⟩

theorem year_bounds {date : Date} (h : date.Valid) (hlow : -200000 ≤ date.dayNumber) (hhigh : date.dayNumber ≤ 200000) :
    0 ≤ date.year ∧ date.year < 10 ^ 4 := by
  have hofYear := h.dayOfYear_le
  have hlength : yearLength date.year ≤ 366 := by
    unfold yearLength
    split_ifs <;> omega
  unfold Date.dayNumber daysBeforeYear at hlow hhigh
  omega

/-- A stamp whose text has the usual width. -/
structure Plain (stamp : Stamp) : Prop where
  valid : stamp.Valid
  year_nonneg : 0 ≤ stamp.date.year
  year_lt : stamp.date.year < 10 ^ 4

theorem Plain.padded_lengths {stamp : Stamp} (h : Plain stamp) :
    stamp.date.year.toNat < 10 ^ 4 ∧ stamp.date.month < 10 ^ 2 ∧ stamp.date.day < 10 ^ 2 ∧ stamp.hour < 10 ^ 2 ∧
      stamp.minute < 10 ^ 2 ∧ stamp.second < 10 ^ 2 := by
  have hyear := h.year_lt
  have hmonth := h.valid.date.month_le
  have hday := h.valid.date.day_le
  have hhour := h.valid.hour
  have hminute := h.valid.minute
  have hsecond := h.valid.second
  have hlast : monthLength stamp.date.year stamp.date.month ≤ 31 := by
    unfold monthLength
    split_ifs <;> omega
  omega

theorem utcText_spec {stamp : Stamp} (h : Plain stamp) :
    (utcText stamp).length = 30 ∧ separated (utcText stamp) = true ∧
      (utcText stamp).drop 19 = 46 :: padded 9 stamp.nanos ++ [90] ∧
      substr (utcText stamp) 0 4 = padded 4 stamp.date.year.toNat ∧ substr (utcText stamp) 5 2 = padded 2 stamp.date.month ∧
      substr (utcText stamp) 8 2 = padded 2 stamp.date.day ∧ substr (utcText stamp) 11 2 = padded 2 stamp.hour ∧
      substr (utcText stamp) 14 2 = padded 2 stamp.minute ∧ substr (utcText stamp) 17 2 = padded 2 stamp.second := by
  obtain ⟨hyear, hmonth, hday, hhour, hminute, hsecond⟩ := h.padded_lengths
  obtain ⟨hlength, hrest⟩ := @layout_spec _ _ _ _ _ _ (46 :: padded 9 stamp.nanos ++ [90])
    (padded_spec (by decide : 0 < 4) hyear).1 (padded_spec (by decide : 0 < 2) hmonth).1
    (padded_spec (by decide : 0 < 2) hday).1 (padded_spec (by decide : 0 < 2) hhour).1
    (padded_spec (by decide : 0 < 2) hminute).1 (padded_spec (by decide : 0 < 2) hsecond).1
  refine ⟨?_, hrest⟩
  have hnanos := (padded_spec (by decide : 0 < 9) h.valid.nanos).1
  rw [utcText, hlength, List.length_append, List.length_cons, hnanos]
  rfl

theorem ofInstant_plain (ns : Int64) : Plain (Stamp.ofInstant ns.toInt) := by
  have hlow := ns.le_toInt
  have hhigh := ns.toInt_lt
  obtain ⟨hvalid, hseconds, -⟩ := Stamp.ofInstant_spec ns.toInt
  have hnumber : (Stamp.ofInstant ns.toInt).date.dayNumber = ns.toInt / 10 ^ 9 / 86400 :=
    (Date.ofDayNumber_spec _).2
  obtain ⟨hyearLow, hyearHigh⟩ := year_bounds hvalid.date (by omega) (by omega)
  exact ⟨hvalid, hyearLow, hyearHigh⟩

theorem timeOfDay_toNat {secondOfDay : Int64} (hlow : 0 ≤ secondOfDay.toInt) (hhigh : secondOfDay.toInt < 86400) :
    (toUnsigned (secondOfDay / 3600)).toNat = (secondOfDay.toInt / 3600).toNat ∧
      (toUnsigned (secondOfDay % 3600 / 60)).toNat = (secondOfDay.toInt % 3600 / 60).toNat ∧
      (toUnsigned (secondOfDay % 60)).toNat = (secondOfDay.toInt % 60).toNat := by
  have hhour : (3600 : Int64).toInt = 3600 := by decide
  have hminute : (60 : Int64).toInt = 60 := by decide
  obtain ⟨hquotient, hremainder⟩ := divMod_toInt (a := secondOfDay) (k := 3600) (by decide) hlow
  rw [hhour] at hquotient hremainder
  have hminutes := (divMod_toInt (a := secondOfDay % 3600) (k := 60) (by decide) (by omega)).1
  have hseconds := (divMod_toInt (a := secondOfDay) (k := 60) (by decide) hlow).2
  rw [hminute] at hminutes hseconds
  refine ⟨?_, ?_, ?_⟩
  · rw [toUnsigned_toNat (by omega) (by omega), hquotient]
  · rw [toUnsigned_toNat (by omega) (by omega), hminutes, hremainder]
  · rw [toUnsigned_toNat (by omega) (by omega), hseconds]

theorem paddedInt_of_nonneg {i : Int} (width : Nat) (h : 0 ≤ i) : paddedInt width i = padded width i.toNat := by
  have habs : i.natAbs = i.toNat := by omega
  rw [paddedInt, if_neg (by omega), habs]

theorem formatUtc_eq (ns : Int64) : formatUtc ns = utcText (Stamp.ofInstant ns.toInt) := by
  have hread : nanosPerSecond.toInt = 10 ^ 9 := by decide
  have hday : (86400 : Int64).toInt = 86400 := by decide
  have hlow := ns.le_toInt
  have hhigh := ns.toInt_lt
  obtain ⟨seconds, hseconds⟩ : ∃ seconds, seconds =
    if ns % nanosPerSecond < 0 then ns / nanosPerSecond - 1 else ns / nanosPerSecond := ⟨_, rfl⟩
  obtain ⟨fraction, hfraction⟩ : ∃ fraction, fraction =
    if ns % nanosPerSecond < 0 then ns % nanosPerSecond + nanosPerSecond else ns % nanosPerSecond := ⟨_, rfl⟩
  obtain ⟨days, hdays⟩ : ∃ days, days = if seconds % 86400 < 0 then seconds / 86400 - 1 else seconds / 86400 := ⟨_, rfl⟩
  obtain ⟨secondOfDay, hsecondOfDay⟩ : ∃ secondOfDay, secondOfDay =
    if seconds % 86400 < 0 then seconds % 86400 + 86400 else seconds % 86400 := ⟨_, rfl⟩
  have hsplit := floorDivMod_toInt (a := ns) (k := nanosPerSecond) (by rw [hread]; decide)
  rw [← hseconds, ← hfraction, hread] at hsplit
  have hsplitDay := floorDivMod_toInt (a := seconds) (k := 86400) (by rw [hday]; decide)
  rw [← hdays, ← hsecondOfDay, hday, hsplit.1] at hsplitDay
  have hformat : formatUtc ns =
      (paddedInt 4 (civilFromDays days).year.toInt ++ 45 :: padded 2 (civilFromDays days).month.toNat ++
        45 :: padded 2 (civilFromDays days).day.toNat ++ 84 :: padded 2 (toUnsigned (secondOfDay / 3600)).toNat ++
        58 :: padded 2 (toUnsigned (secondOfDay % 3600 / 60)).toNat ++
        58 :: padded 2 (toUnsigned (secondOfDay % 60)).toNat ++ 46 :: paddedInt 9 fraction.toInt ++ [90]).take 47 := by
    subst hsecondOfDay hdays hfraction hseconds
    rfl
  have hdate : (civilFromDays days).date = (Stamp.ofInstant ns.toInt).date := by
    rw [civilFromDays_date, hsplitDay.1]
    · rfl
    · rw [hsplitDay.1]
      have hshift : (719468 : Int64).toInt = 719468 := by decide
      rw [hshift]
      unfold Representable
      omega
  have hyearLow := (ofInstant_plain ns).year_nonneg
  obtain ⟨hhour, hminute, hsecond⟩ := @timeOfDay_toNat secondOfDay (by omega) (by omega)
  have hyear : (civilFromDays days).year.toInt = (Stamp.ofInstant ns.toInt).date.year := by
    rw [← hdate]
    rfl
  have hmonth : (civilFromDays days).month.toNat = (Stamp.ofInstant ns.toInt).date.month := by
    rw [← hdate]
    rfl
  have hmday : (civilFromDays days).day.toNat = (Stamp.ofInstant ns.toInt).date.day := by
    rw [← hdate]
    rfl
  have htext : formatUtc ns = (utcText (Stamp.ofInstant ns.toInt)).take 47 := by
    rw [hformat, hyear, hmonth, hmday, hhour, hminute, hsecond, hsplitDay.2, hsplit.2, paddedInt_of_nonneg 4 hyearLow,
      paddedInt_of_nonneg 9 (by omega)]
    simp only [utcText, layout, Stamp.ofInstant, List.append_assoc, List.cons_append]
  rw [htext, List.take_of_length_le]
  rw [(utcText_spec (ofInstant_plain ns)).1]
  decide

end LatencyObservatory.Core
