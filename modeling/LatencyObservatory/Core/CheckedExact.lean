import LatencyObservatory.Core.JsonTokens
import LatencyObservatory.Core.Wide

/-!
# Checked arithmetic and integer texts are exact

The checked helpers give a value exactly where the result on integers is representable, and none of the operations
their own guards evaluate leaves the signed range. An integer text is an optional sign and at least one digit, and it
is read exactly where its value is representable.
-/

namespace LatencyObservatory.Core

open JsonGrammar

/-! ### Multiplication -/

/-- The unsigned magnitude of a signed value. -/
def magnitude (a : Int64) : UInt64 :=
  if a < 0 then 0 - a.toUInt64 else a.toUInt64

def checkedMulI64 (a b : Int64) : Option Int64 :=
  if a = 0 ∨ b = 0 then some 0
  else if magnitude a > 0xFFFFFFFFFFFFFFFF / magnitude b then none
  else
    let product := magnitude a * magnitude b
    if (decide (a < 0) != decide (b < 0)) = true then
      if product > 0x8000000000000000 then none
      else some (if product = 0x8000000000000000 then Int64.minValue else -product.toInt64)
    else if product > 0x7FFFFFFFFFFFFFFF then none
    else some product.toInt64

/-! ### What the guards evaluate -/

/-- The signed operations of `checked_add_i64`, in the order they are reached. -/
def checkedAddOps (a b : Int64) : List PlainOp :=
  (if b > 0 then [.sub Int64.maxValue b] else []) ++ (if b < 0 then [.sub Int64.minValue b] else []) ++
    (if (checkedAddI64 a b).isSome then [.add a b] else [])

def checkedSubOps (a b : Int64) : List PlainOp :=
  (if b < 0 then [.add Int64.maxValue b] else []) ++ (if b > 0 then [.add Int64.minValue b] else []) ++
    (if (checkedSubI64 a b).isSome then [.sub a b] else [])

/-- The only signed operation of `checked_mul_i64` is the negation of a magnitude below `2^63`. -/
def checkedMulOps (a b : Int64) : List PlainOp :=
  let product := magnitude a * magnitude b
  if (checkedMulI64 a b).isSome ∧ a ≠ 0 ∧ b ≠ 0 ∧ (decide (a < 0) != decide (b < 0)) = true ∧
    product ≠ 0x8000000000000000 then [.sub 0 product.toInt64] else []

/-! ### Exactness -/

/-- A partial result that is exact where it exists, and exists where the exact one is representable. -/
theorem eq_some_iff_of_exact {result : Option Int64} {exact : Int} (hsome : result.isSome = true ↔ Representable exact)
    (hexact : ∀ d, result = some d → d.toInt = exact) (d : Int64) : result = some d ↔ d.toInt = exact := by
  constructor
  · exact hexact d
  · intro hd
    have hfits : Representable exact := representable_iff_exists.mpr ⟨d, hd⟩
    obtain ⟨d', hd'⟩ := Option.isSome_iff_exists.mp (hsome.mpr hfits)
    rw [hd', Option.some.injEq, ← Int64.toInt_inj, hexact d' hd', hd]

theorem checkedAddI64_eq_some_iff (a b d : Int64) : checkedAddI64 a b = some d ↔ d.toInt = a.toInt + b.toInt :=
  eq_some_iff_of_exact (checkedAddI64_isSome_iff a b) (fun _ => checkedAddI64_toInt) d

theorem checkedSubI64_eq_some_iff (a b d : Int64) : checkedSubI64 a b = some d ↔ d.toInt = a.toInt - b.toInt :=
  eq_some_iff_of_exact (checkedSubI64_isSome_iff a b) (fun _ => checkedSubI64_toInt) d

theorem neg_iff (a : Int64) : a < 0 ↔ a.toInt < 0 := by
  rw [Int64.lt_iff_toInt_lt, Int64.toInt_zero]

theorem magnitude_toNat (a : Int64) : (magnitude a).toNat = a.toInt.natAbs := by
  have hlow := a.le_toInt
  have hhigh := a.toInt_lt
  unfold magnitude
  by_cases hneg : a < 0
  · have hint := (neg_iff a).mp hneg
    have hread := toNat_toUInt64_of_neg hint
    have hword := a.toUInt64.toNat_lt
    rw [if_pos hneg, UInt64.toNat_sub, UInt64.toNat_zero]
    omega
  · have hint : 0 ≤ a.toInt := by
      have hnot := (neg_iff a).not.mp hneg
      omega
    rw [if_neg hneg, toNat_toUInt64_of_nonneg hint]
    omega

theorem toInt_mul_eq (a b : Int64) :
    a.toInt * b.toInt =
      if (decide (a < 0) != decide (b < 0)) = true then -(((magnitude a).toNat * (magnitude b).toNat : Nat) : Int)
      else (((magnitude a).toNat * (magnitude b).toNat : Nat) : Int) := by
  rw [magnitude_toNat, magnitude_toNat, Int.natCast_mul]
  have hsign : ∀ c : Int64, (c.toInt.natAbs : Int) = if c < 0 then -c.toInt else c.toInt := by
    intro c
    by_cases hneg : c < 0
    · have hint := (neg_iff c).mp hneg
      rw [if_pos hneg]
      omega
    · have hint := (neg_iff c).not.mp hneg
      rw [if_neg hneg]
      omega
  rw [hsign a, hsign b]
  by_cases ha : a < 0 <;> by_cases hb : b < 0 <;> simp [ha, hb]

theorem checkedMulI64_eq_some_iff (a b d : Int64) : checkedMulI64 a b = some d ↔ d.toInt = a.toInt * b.toInt := by
  have hexact := toInt_mul_eq a b
  have hmax : (0xFFFFFFFFFFFFFFFF : UInt64).toNat = 2 ^ 64 - 1 := rfl
  have hmin : (0x8000000000000000 : UInt64).toNat = 2 ^ 63 := rfl
  have hpositive : (0x7FFFFFFFFFFFFFFF : UInt64).toNat = 2 ^ 63 - 1 := rfl
  have hdlow := d.le_toInt
  have hdhigh := d.toInt_lt
  unfold checkedMulI64
  by_cases hzero : a = 0 ∨ b = 0
  · have hproduct : a.toInt * b.toInt = 0 := by
      rcases hzero with rfl | rfl
      · rw [Int64.toInt_zero, Int.zero_mul]
      · rw [Int64.toInt_zero, Int.mul_zero]
    rw [if_pos hzero, hproduct, Option.some.injEq, ← Int64.toInt_inj, Int64.toInt_zero]
    exact eq_comm
  · rw [if_neg hzero]
    have hb : 0 < (magnitude b).toNat := by
      rw [magnitude_toNat]
      have hne : b.toInt ≠ 0 := fun h => hzero (Or.inr (Int64.toInt_inj.mp (h.trans Int64.toInt_zero.symm)))
      omega
    have hover : magnitude a > 0xFFFFFFFFFFFFFFFF / magnitude b ↔
        2 ^ 64 ≤ (magnitude a).toNat * (magnitude b).toNat := by
      rw [gt_iff_lt, UInt64.lt_iff_toNat_lt, UInt64.toNat_div, hmax, Nat.div_lt_iff_lt_mul hb]
      omega
    by_cases hwide : magnitude a > 0xFFFFFFFFFFFFFFFF / magnitude b
    · -- The magnitudes alone are out of range, whatever the sign.
      have hlarge := hover.mp hwide
      rw [if_pos hwide]
      refine iff_of_false (Option.some_ne_none d).symm ?_
      intro heq
      generalize (magnitude a).toNat * (magnitude b).toNat = n at hexact hlarge
      split_ifs at hexact
      · omega
      · omega
    · have hword : (magnitude a * magnitude b).toNat = (magnitude a).toNat * (magnitude b).toNat := by
        rw [UInt64.toNat_mul, Nat.mod_eq_of_lt]
        have hsmall := hover.not.mp hwide
        omega
      rw [← hword] at hexact
      rw [if_neg hwide, hexact]
      simp only
      generalize magnitude a * magnitude b = product at hexact
      by_cases hsign : (decide (a < 0) != decide (b < 0)) = true
      · rw [if_pos hsign, if_pos hsign]
        by_cases hlarge : product > 0x8000000000000000
        · rw [if_pos hlarge]
          rw [gt_iff_lt, UInt64.lt_iff_toNat_lt, hmin] at hlarge
          exact iff_of_false (Option.some_ne_none d).symm (by omega)
        · rw [if_neg hlarge, Option.some.injEq, ← Int64.toInt_inj]
          rw [gt_iff_lt, UInt64.lt_iff_toNat_lt, hmin] at hlarge
          by_cases hleast : product = 0x8000000000000000
          · rw [if_pos hleast, hleast, hmin, Int64.toInt_minValue]
            exact eq_comm
          · have hless : product.toNat < 2 ^ 63 := by
              have hne : product.toNat ≠ 2 ^ 63 := fun h => hleast (UInt64.toNat_inj.mp (h.trans hmin.symm))
              omega
            rw [if_neg hleast, toInt_neg_toInt64 hless]
            exact eq_comm
      · rw [if_neg hsign, if_neg hsign]
        by_cases hlarge : product > 0x7FFFFFFFFFFFFFFF
        · rw [if_pos hlarge]
          rw [gt_iff_lt, UInt64.lt_iff_toNat_lt, hpositive] at hlarge
          exact iff_of_false (Option.some_ne_none d).symm (by omega)
        · rw [if_neg hlarge, Option.some.injEq, ← Int64.toInt_inj]
          rw [gt_iff_lt, UInt64.lt_iff_toNat_lt, hpositive] at hlarge
          rw [toInt_toInt64 (by omega)]
          exact eq_comm

/-! ### The guards stay in range -/

theorem checkedAddOps_fit (a b : Int64) : AllFit (checkedAddOps a b) := by
  have hb := b.toInt_lt
  have hb' := b.le_toInt
  have hsum := checkedAddI64_isSome_iff a b
  unfold checkedAddOps
  rw [allFit_append, allFit_append, allFit_ite, allFit_ite, allFit_ite]
  simp only [allFit_singleton, PlainOp.exact, gt_iff_lt, Int64.lt_iff_toInt_lt, Int64.toInt_zero, Int64.toInt_maxValue,
    Int64.toInt_minValue]
  refine ⟨⟨?_, ?_⟩, hsum.mp⟩
  · intro hpos
    unfold Representable
    omega
  · intro hneg
    unfold Representable
    omega

theorem checkedSubOps_fit (a b : Int64) : AllFit (checkedSubOps a b) := by
  have hb := b.toInt_lt
  have hb' := b.le_toInt
  have hdifference := checkedSubI64_isSome_iff a b
  unfold checkedSubOps
  rw [allFit_append, allFit_append, allFit_ite, allFit_ite, allFit_ite]
  simp only [allFit_singleton, PlainOp.exact, gt_iff_lt, Int64.lt_iff_toInt_lt, Int64.toInt_zero, Int64.toInt_maxValue,
    Int64.toInt_minValue]
  refine ⟨⟨?_, ?_⟩, hdifference.mp⟩
  · intro hneg
    unfold Representable
    omega
  · intro hpos
    unfold Representable
    omega

theorem checkedMulOps_fit (a b : Int64) : AllFit (checkedMulOps a b) := by
  unfold checkedMulOps
  simp only
  rw [allFit_ite]
  rintro ⟨-, -, -, -, hleast⟩
  rw [allFit_singleton]
  generalize magnitude a * magnitude b = product at hleast
  -- Only the least value has no negation, and it is what the exception is for.
  have hread : product.toInt64.toInt = (product.toNat : Int).bmod (2 ^ 64) :=
    BitVec.toInt_eq_toNat_bmod product.toBitVec
  have hmin : (0x8000000000000000 : UInt64).toNat = 2 ^ 63 := rfl
  have hne : product.toNat ≠ 2 ^ 63 := fun h => hleast (UInt64.toNat_inj.mp (h.trans hmin.symm))
  have hlt := product.toNat_lt
  rw [Int.bmod_def] at hread
  unfold Representable PlainOp.exact
  simp only [Int64.toInt_zero]
  omega

/-! ### Integer texts -/

theorem parseDigits_eq_some_iff (digits : Bytes) {value : Nat} (hvalue : value < 2 ^ 64) (n : Nat) :
    parseDigits value digits = some n ↔
      (∀ c ∈ digits, isDigit c = true) ∧ n = digits.foldl (fun value c => value * 10 + (c.toNat - 48)) value ∧
        n < 2 ^ 64 := by
  have hdigit : ∀ (digits : Bytes) (value : Nat), parseDigits value digits = some n → ∀ c ∈ digits, isDigit c = true := by
    intro digits
    induction digits with
    | nil => exact fun _ _ c hc => absurd hc List.not_mem_nil
    | cons c rest ih =>
      intro value h
      rw [parseDigits] at h
      split_ifs at h with hother hover
      rw [List.forall_mem_cons]
      refine ⟨?_, ih _ h⟩
      rw [not_or, UInt8.not_lt, UInt8.not_lt] at hother
      simp only [isDigit, Bool.and_eq_true, decide_eq_true_eq]
      exact hother
  constructor
  · intro h
    have hall := hdigit digits value h
    exact ⟨hall, (parseDigits_iff hall hvalue n).mp h⟩
  · rintro ⟨hall, hread⟩
    exact (parseDigits_iff hall hvalue n).mpr hread

theorem parseDigits_zero_iff (digits : Bytes) (n : Nat) :
    digits ≠ [] ∧ parseDigits 0 digits = some n ↔ Digits digits ∧ digitsValue digits = n ∧ n < 2 ^ 64 := by
  rw [parseDigits_eq_some_iff digits (by decide)]
  unfold Digits digitsValue
  constructor
  · rintro ⟨hsome, hall, hvalue, hlt⟩
    exact ⟨⟨hsome, hall⟩, hvalue.symm, hlt⟩
  · rintro ⟨⟨hsome, hall⟩, hvalue, hlt⟩
    exact ⟨hsome, hall, hvalue.symm, hlt⟩

/-- A numeral with an optional plus sign. -/
inductive UnsignedText : Bytes → Nat → Prop
  | bare {digits : Bytes} (h : Digits digits) : UnsignedText digits (digitsValue digits)
  | plus {digits : Bytes} (h : Digits digits) : UnsignedText (43 :: digits) (digitsValue digits)

/-- A numeral with an optional sign. -/
inductive SignedText : Bytes → Int → Prop
  | unsigned {input : Bytes} {n : Nat} (h : UnsignedText input n) : SignedText input n
  | minus {digits : Bytes} (h : Digits digits) : SignedText (45 :: digits) (-(digitsValue digits : Int))

theorem JsonGrammar.Digits.not_sign {digits rest : Bytes} {sign : UInt8} (h : Digits digits) (hsign : isDigit sign = false) :
    digits ≠ sign :: rest := by
  rintro rfl
  have hdigit := h.2 sign List.mem_cons_self
  rw [hsign] at hdigit
  cases hdigit

theorem parseU64_bare {input : Bytes} (hplus : ∀ rest, input ≠ 43 :: rest) (hsome : input ≠ []) :
    parseU64 input = parseDigits 0 input := by
  rw [parseU64]
  · exact hsome
  · exact hplus

theorem parseU64_plus (digits : Bytes) : parseU64 (43 :: digits) = if digits = [] then none else parseDigits 0 digits := by
  cases digits <;> rfl

theorem parseU64_eq_some_iff (input : Bytes) (n : Nat) :
    parseU64 input = some n ↔ UnsignedText input n ∧ n < 2 ^ 64 := by
  constructor
  · intro h
    by_cases hsome : input = []
    · rw [hsome] at h
      cases h
    by_cases hplus : ∃ rest, input = 43 :: rest
    · obtain ⟨digits, rfl⟩ := hplus
      rw [parseU64_plus] at h
      split_ifs at h with hempty
      obtain ⟨hdigits, rfl, hlt⟩ := (parseDigits_zero_iff digits n).mp ⟨hempty, h⟩
      exact ⟨.plus hdigits, hlt⟩
    · rw [parseU64_bare (fun rest heq => hplus ⟨rest, heq⟩) hsome] at h
      obtain ⟨hdigits, rfl, hlt⟩ := (parseDigits_zero_iff input n).mp ⟨hsome, h⟩
      exact ⟨.bare hdigits, hlt⟩
  · rintro ⟨htext, hlt⟩
    cases htext with
    | bare hdigits =>
      rw [parseU64_bare (fun rest => hdigits.not_sign (by decide)) hdigits.1]
      exact ((parseDigits_zero_iff input _).mpr ⟨hdigits, rfl, hlt⟩).2
    | @plus digits hdigits =>
      rw [parseU64_plus, if_neg hdigits.1]
      exact ((parseDigits_zero_iff digits _).mpr ⟨hdigits, rfl, hlt⟩).2

theorem UnsignedText.not_minus {input rest : Bytes} {n : Nat} (h : UnsignedText input n) : input ≠ 45 :: rest := by
  cases h with
  | bare hdigits => exact hdigits.not_sign (by decide)
  | plus hdigits =>
    intro heq
    have hsign := (List.cons.inj heq).1
    revert hsign
    decide

theorem parseI64_unsigned {input : Bytes} (hminus : ∀ rest, input ≠ 45 :: rest) (hsome : input ≠ []) :
    parseI64 input = (parseU64 input).bind fun magnitude =>
      if magnitude > 2 ^ 63 - 1 then none else some (magnitude : Int) := by
  rw [parseI64]
  · exact hsome
  · exact hminus

theorem parseI64_minus (digits : Bytes) :
    parseI64 (45 :: digits) = if digits = [] then none else (parseDigits 0 digits).bind fun magnitude =>
      if magnitude > 2 ^ 63 then none else some (-(magnitude : Int)) := by
  cases digits <;> rfl

theorem parseI64_eq_some_iff (input : Bytes) (value : Int) :
    parseI64 input = some value ↔ SignedText input value ∧ Representable value := by
  constructor
  · intro h
    by_cases hsome : input = []
    · rw [hsome] at h
      cases h
    by_cases hminus : ∃ rest, input = 45 :: rest
    · obtain ⟨digits, rfl⟩ := hminus
      rw [parseI64_minus] at h
      split_ifs at h with hempty
      obtain ⟨n, hn, hrange⟩ := Option.bind_eq_some_iff.mp h
      obtain ⟨hdigits, rfl, -⟩ := (parseDigits_zero_iff digits n).mp ⟨hempty, hn⟩
      split_ifs at hrange
      cases hrange
      exact ⟨.minus hdigits, by unfold Representable; omega⟩
    · rw [parseI64_unsigned (fun rest heq => hminus ⟨rest, heq⟩) hsome] at h
      obtain ⟨n, hn, hrange⟩ := Option.bind_eq_some_iff.mp h
      obtain ⟨htext, -⟩ := (parseU64_eq_some_iff input n).mp hn
      split_ifs at hrange
      cases hrange
      exact ⟨.unsigned htext, by unfold Representable; omega⟩
  · rintro ⟨htext, hrange⟩
    unfold Representable at hrange
    cases htext with
    | @unsigned _ n hunsigned =>
      have hsome : input ≠ [] := by
        rintro rfl
        cases hunsigned with
        | bare hdigits => exact hdigits.1 rfl
      rw [parseI64_unsigned (fun rest => hunsigned.not_minus) hsome,
        (parseU64_eq_some_iff input n).mpr ⟨hunsigned, by omega⟩, Option.bind_some, if_neg (by omega)]
    | @minus digits hdigits =>
      have hread := ((parseDigits_zero_iff digits _).mpr ⟨hdigits, rfl, by omega⟩).2
      rw [parseI64_minus, if_neg hdigits.1, hread, Option.bind_some, if_neg (by omega)]

/-- The checked helpers and the integer parsers are exact, for all operands and all texts. -/
theorem checked_exact :
    (∀ a b d : Int64, (checkedAddI64 a b = some d ↔ d.toInt = a.toInt + b.toInt) ∧
        (checkedSubI64 a b = some d ↔ d.toInt = a.toInt - b.toInt) ∧
        (checkedMulI64 a b = some d ↔ d.toInt = a.toInt * b.toInt)) ∧
      (∀ a b : Int64, ((checkedAddI64 a b).isSome = true ↔ Representable (a.toInt + b.toInt)) ∧
        ((checkedSubI64 a b).isSome = true ↔ Representable (a.toInt - b.toInt)) ∧
        ((checkedMulI64 a b).isSome = true ↔ Representable (a.toInt * b.toInt))) ∧
      (∀ a b : Int64, AllFit (checkedAddOps a b) ∧ AllFit (checkedSubOps a b) ∧ AllFit (checkedMulOps a b)) ∧
      (∀ (input : Bytes) (value : Int), parseI64 input = some value ↔ SignedText input value ∧ Representable value) ∧
      ∀ (input : Bytes) (n : Nat), parseU64 input = some n ↔ UnsignedText input n ∧ n < 2 ^ 64 := by
  refine ⟨fun a b d => ⟨checkedAddI64_eq_some_iff a b d, checkedSubI64_eq_some_iff a b d, checkedMulI64_eq_some_iff a b d⟩,
    fun a b => ⟨checkedAddI64_isSome_iff a b, checkedSubI64_isSome_iff a b, ?_⟩,
    fun a b => ⟨checkedAddOps_fit a b, checkedSubOps_fit a b, checkedMulOps_fit a b⟩, parseI64_eq_some_iff,
    parseU64_eq_some_iff⟩
  rw [Option.isSome_iff_exists, representable_iff_exists]
  exact exists_congr (checkedMulI64_eq_some_iff a b)

end LatencyObservatory.Core
