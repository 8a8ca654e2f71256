import LatencyObservatory.Core.Time

/-!
# Checked and 128-bit arithmetic

The helpers of `core/checked.cpp` that the aggregations use. A 128-bit value is a pair of words, as in
the source; an addition that does not fit saturates.
-/

namespace LatencyObservatory.Core

def checkedAddI64 (a b : Int64) : Option Int64 :=
  if b > 0 ∧ a > Int64.maxValue - b then none
  else if b < 0 ∧ a < Int64.minValue - b then none
  else some (a + b)

def checkedSubI64 (a b : Int64) : Option Int64 :=
  if b < 0 ∧ a > Int64.maxValue + b then none
  else if b > 0 ∧ a < Int64.minValue + b then none
  else some (a - b)

theorem checkedSubI64_toInt {a b d : Int64} (h : checkedSubI64 a b = some d) : d.toInt = a.toInt - b.toInt := by
  unfold checkedSubI64 at h
  simp only [gt_iff_lt, Int64.lt_iff_toInt_lt, Int64.toInt_add, Int64.toInt_maxValue, Int64.toInt_minValue,
    Int64.toInt_zero] at h
  have ha := a.toInt_lt
  have ha' := a.le_toInt
  have hb := b.toInt_lt
  have hb' := b.le_toInt
  split_ifs at h with hover hunder
  cases h
  rw [Int64.toInt_sub]
  simp only [Int.bmod_def] at hover hunder ⊢
  omega

theorem checkedAddI64_toInt {a b d : Int64} (h : checkedAddI64 a b = some d) : d.toInt = a.toInt + b.toInt := by
  unfold checkedAddI64 at h
  simp only [gt_iff_lt, Int64.lt_iff_toInt_lt, Int64.toInt_sub, Int64.toInt_maxValue, Int64.toInt_minValue,
    Int64.toInt_zero] at h
  have ha := a.toInt_lt
  have ha' := a.le_toInt
  have hb := b.toInt_lt
  have hb' := b.le_toInt
  split_ifs at h with hover hunder
  cases h
  rw [Int64.toInt_add]
  simp only [Int.bmod_def] at hover hunder ⊢
  omega

/-- The values a signed 64-bit integer can take. -/
def Representable (n : Int) : Prop :=
  -2 ^ 63 ≤ n ∧ n < 2 ^ 63

instance (n : Int) : Decidable (Representable n) := inferInstanceAs (Decidable (_ ∧ _))

theorem toInt_sub_of_representable {a b : Int64} (h : Representable (a.toInt - b.toInt)) :
    (a - b).toInt = a.toInt - b.toInt := by
  rw [Int64.toInt_sub]
  obtain ⟨hlow, hhigh⟩ := h
  simp only [Int.bmod_def]
  omega

theorem toInt_add_of_representable {a b : Int64} (h : Representable (a.toInt + b.toInt)) :
    (a + b).toInt = a.toInt + b.toInt := by
  rw [Int64.toInt_add]
  obtain ⟨hlow, hhigh⟩ := h
  simp only [Int.bmod_def]
  omega

theorem toInt_mul_of_representable {a b : Int64} (h : Representable (a.toInt * b.toInt)) :
    (a * b).toInt = a.toInt * b.toInt := by
  rw [Int64.toInt_mul]
  obtain ⟨hlow, hhigh⟩ := h
  simp only [Int.bmod_def]
  omega

/-! ### Plain operations -/

/-- A plain operation of the source on signed 64-bit values. -/
inductive PlainOp where
  | add (a b : Int64)
  | sub (a b : Int64)
  | mul (a b : Int64)
deriving DecidableEq, Repr

/-- The result of the operation on integers. -/
def PlainOp.exact : PlainOp → Int
  | .add a b => a.toInt + b.toInt
  | .sub a b => a.toInt - b.toInt
  | .mul a b => a.toInt * b.toInt

/-- No operation leaves the signed range. -/
def AllFit (ops : List PlainOp) : Prop :=
  ∀ op ∈ ops, Representable op.exact

instance (ops : List PlainOp) : Decidable (AllFit ops) := inferInstanceAs (Decidable (∀ op ∈ ops, _))

section AllFit

variable {op : PlainOp} {ops others : List PlainOp}

theorem allFit_nil : AllFit [] := fun _ h => absurd h List.not_mem_nil

theorem allFit_cons : AllFit (op :: ops) ↔ Representable op.exact ∧ AllFit ops :=
  List.forall_mem_cons

theorem allFit_singleton : AllFit [op] ↔ Representable op.exact :=
  List.forall_mem_singleton

theorem allFit_append : AllFit (ops ++ others) ↔ AllFit ops ∧ AllFit others :=
  List.forall_mem_append

theorem allFit_flatMap {α : Type} {items : List α} {f : α → List PlainOp} :
    AllFit (items.flatMap f) ↔ ∀ item ∈ items, AllFit (f item) := by
  constructor
  · intro h item hitem op hop
    exact h op (List.mem_flatMap.mpr ⟨item, hitem, hop⟩)
  · intro h op hop
    obtain ⟨item, hitem, hmem⟩ := List.mem_flatMap.mp hop
    exact h item hitem op hmem

theorem allFit_ite {condition : Prop} [Decidable condition] :
    AllFit (if condition then ops else []) ↔ (condition → AllFit ops) := by
  by_cases h : condition
  · rw [if_pos h]
    exact ⟨fun hops _ => hops, fun hops => hops h⟩
  · rw [if_neg h]
    exact ⟨fun _ hcondition => absurd hcondition h, fun _ => allFit_nil⟩

theorem allFit_ite_not {condition : Prop} [Decidable condition] :
    AllFit (if condition then [] else ops) ↔ (¬condition → AllFit ops) := by
  rw [← ite_not]
  exact allFit_ite

theorem allFit_valid {x y : Bool} {bounds : Prop} (h : x = true → y = true → (AllFit ops ↔ bounds)) :
    AllFit (if !x || !y then [] else ops) ↔ (x = true → y = true → bounds) := by
  cases x with
  | false => exact iff_of_true allFit_nil fun hx => absurd hx Bool.false_ne_true
  | true =>
    cases y with
    | false => exact iff_of_true allFit_nil fun _ hy => absurd hy Bool.false_ne_true
    | true => exact (h rfl rfl).trans ⟨fun hbounds _ _ => hbounds, fun hbounds => hbounds rfl rfl⟩

end AllFit

theorem toNat_toUInt64_of_nonneg {a : Int64} (h : 0 ≤ a.toInt) : a.toUInt64.toNat = a.toInt.toNat := by
  rw [Int64.toNat_toUInt64_of_le, Int64.toNat_toInt]
  rw [Int64.le_iff_toInt_le, Int64.toInt_zero]
  exact h

structure UInt128 where
  hi : UInt64
  lo : UInt64
deriving DecidableEq, Repr

namespace UInt128

def ofU64 (value : UInt64) : UInt128 := ⟨0, value⟩

def isZero (v : UInt128) : Bool := v.hi == 0 && v.lo == 0

def fitsU64 (v : UInt128) : Bool := v.hi == 0

/-- `kSaturated`. -/
def saturated : UInt128 := ⟨0xFFFFFFFFFFFFFFFF, 0xFFFFFFFFFFFFFFFF⟩

def isSaturated (v : UInt128) : Bool := v == saturated

/-- `add_u128`. -/
def add (a b : UInt128) : UInt128 :=
  let lo := a.lo + b.lo
  let carry : UInt64 := if lo < a.lo then 1 else 0
  if a.hi > 0xFFFFFFFFFFFFFFFF - b.hi then saturated
  else if a.hi + b.hi > 0xFFFFFFFFFFFFFFFF - carry then saturated
  else ⟨a.hi + b.hi + carry, lo⟩

/-- `sub_u128`. -/
def sub (a b : UInt128) : UInt128 :=
  ⟨a.hi - b.hi - (if a.lo < b.lo then 1 else 0), a.lo - b.lo⟩

/-- `u128_less`. -/
def less (a b : UInt128) : Bool :=
  if a.hi ≠ b.hi then a.hi < b.hi else a.lo < b.lo

/-- `mul_u64_to_u128`. -/
def mulU64 (a b : UInt64) : UInt128 :=
  let mask : UInt64 := 0xFFFFFFFF
  let aLo := a &&& mask
  let aHi := a >>> 32
  let bLo := b &&& mask
  let bHi := b >>> 32
  let p0 := aLo * bLo
  let p1 := aLo * bHi
  let p2 := aHi * bLo
  let p3 := aHi * bHi
  let mid := (p0 >>> 32) + (p1 &&& mask) + (p2 &&& mask)
  ⟨p3 + (p1 >>> 32) + (p2 >>> 32) + (mid >>> 32), (p0 &&& mask) ||| (mid <<< 32)⟩

/-- `bit_at`. -/
def bitAt (v : UInt128) (bit : Nat) : UInt64 :=
  let one : UInt64 := 1
  if bit ≥ 64 then (v.hi >>> UInt64.ofNat (bit - 64)) &&& one
  else (v.lo >>> UInt64.ofNat bit) &&& one

/-- One round of the long division: quotient and remainder so far. -/
def divStep (value : UInt128) (divisor : UInt64) (qr : UInt128 × UInt128) (bit : Nat) : UInt128 × UInt128 :=
  let (quotient, rem) := qr
  let rem : UInt128 := ⟨(rem.hi <<< 1) ||| (rem.lo >>> 63), (rem.lo <<< 1) ||| value.bitAt bit⟩
  let quotient : UInt128 := ⟨(quotient.hi <<< 1) ||| (quotient.lo >>> 63), quotient.lo <<< 1⟩
  if rem.hi ≠ 0 ∨ rem.lo ≥ divisor then
    let borrow : UInt64 := if rem.lo < divisor then 1 else 0
    (⟨quotient.hi, quotient.lo ||| 1⟩, ⟨rem.hi - borrow, rem.lo - divisor⟩)
  else (quotient, rem)

/-- `divmod_u128_u64`: the quotient and the remainder. -/
def divmod (value : UInt128) (divisor : UInt64) : UInt128 × UInt64 :=
  if divisor = 0 then (saturated, 0)
  else
    let (quotient, rem) := (List.range 128).reverse.foldl (divStep value divisor) (⟨0, 0⟩, ⟨0, 0⟩)
    (quotient, rem.lo)

end UInt128

/-- `ratio_ppm`: parts per million, at most one million. -/
def ratioPpm (numerator denominator : UInt64) : UInt64 :=
  if denominator = 0 then 0
  else
    let (quotient, _) := (UInt128.mulU64 numerator 1000000).divmod denominator
    if !quotient.fitsU64 then 1000000
    else if quotient.lo > 1000000 then 1000000 else quotient.lo

example : ratioPpm 1 3 = 333333 := by decide +kernel

end LatencyObservatory.Core
