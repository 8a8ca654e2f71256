import Mathlib.Data.Nat.Digits.Lemmas
import Mathlib.Tactic.Common
import Mathlib.Tactic.Positivity

/-!
# Text

`std::string` is a sequence of bytes: names, error contexts, reason details and record payloads are
all `Bytes`. Decimal and hexadecimal renderings follow `std::to_string` and `StrongId::to_hex`.
-/

namespace LatencyObservatory.Core

/-- The contents of a `std::string`. -/
abbrev Bytes := List UInt8

/-- The bytes of a source literal. -/
def text (s : String) : Bytes :=
  s.toList.map fun c => UInt8.ofNat c.toNat

/-- `std::to_string` of an unsigned value. -/
def decimal (n : Nat) : Bytes :=
  if n = 0 then [48] else (Nat.digits 10 n).reverse.map fun d => UInt8.ofNat (48 + d)

/-- `std::to_string` of a signed value. -/
def decimalInt (i : Int) : Bytes :=
  if i < 0 then 45 :: decimal i.natAbs else decimal i.natAbs

/-- `kDigits[d]`: the lowercase hexadecimal digit of `d < 16`. -/
def hexDigit (d : Nat) : UInt8 :=
  if d < 10 then UInt8.ofNat (48 + d) else UInt8.ofNat (87 + d)

/-- The lowest `width` hexadecimal digits of `n`, most significant first. -/
def hexFixed (width n : Nat) : Bytes :=
  (List.range width).map fun i => hexDigit (n / 16 ^ (width - 1 - i) % 16)

/-- The digit loop of `parse_u64`: a value past `kU64Max` is refused before it is formed. -/
def parseDigits : Nat → Bytes → Option Nat
  | magnitude, [] => some magnitude
  | magnitude, c :: cs =>
    if c < 48 ∨ 57 < c then none
    else if magnitude > (2 ^ 64 - 1 - (c.toNat - 48)) / 10 then none
    else parseDigits (magnitude * 10 + (c.toNat - 48)) cs

/-- `parse_u64`: the whole text is consumed, one leading `+` is allowed. -/
def parseU64 : Bytes → Option Nat
  | [] => none
  | 43 :: cs => if cs.isEmpty then none else parseDigits 0 cs
  | cs => parseDigits 0 cs

/-- `parse_i64`: an optional sign, then digits; the magnitude has to fit the sign's side. -/
def parseI64 : Bytes → Option Int
  | [] => none
  | 45 :: cs =>
    if cs.isEmpty then none
    else (parseDigits 0 cs).bind fun magnitude => if magnitude > 2 ^ 63 then none else some (-(magnitude : Int))
  | cs =>
    (parseU64 cs).bind fun magnitude => if magnitude > 2 ^ 63 - 1 then none else some (magnitude : Int)

@[simp] theorem hexFixed_length (width n : Nat) : (hexFixed width n).length = width := by
  simp [hexFixed]

theorem hexFixed_succ (width n : Nat) :
    hexFixed (width + 1) n = hexDigit (n / 16 ^ width % 16) :: hexFixed width n := by
  rw [hexFixed, List.range_succ_eq_map, List.map_cons, List.map_map, hexFixed]
  refine congrArg₂ List.cons (by simp) (List.map_congr_left fun i hi => ?_)
  have hlt := List.mem_range.mp hi
  simp only [Function.comp_apply, Nat.succ_eq_add_one]
  rw [show width + 1 - 1 - (i + 1) = width - 1 - i by omega]

theorem hexFixed_mod (width n : Nat) : hexFixed width (n % 16 ^ width) = hexFixed width n := by
  refine List.map_congr_left fun i hi => ?_
  have hlt := List.mem_range.mp hi
  have hpow : 16 ^ width = 16 ^ (width - 1 - i) * 16 ^ (i + 1) := by
    rw [← Nat.pow_add, show width - 1 - i + (i + 1) = width by omega]
  rw [hpow, Nat.mod_mul_right_div_self, Nat.pow_succ', Nat.mod_mul_right_mod]

theorem hexDigit_lt {a b : Nat} (hab : a < b) (hb : b < 16) : hexDigit a < hexDigit b := by
  have hall : ∀ b < 16, ∀ a < b, hexDigit a < hexDigit b := by decide
  exact hall b hb a hab

theorem hexFixed_lt {width a b : Nat} (hab : a < b) (hb : b < 16 ^ width) :
    hexFixed width a < hexFixed width b := by
  induction width generalizing a b with
  | zero => simp at hb; omega
  | succ width ih =>
    have hpos : 0 < 16 ^ width := by positivity
    have hdigit : b / 16 ^ width < 16 := Nat.div_lt_of_lt_mul (by rw [← Nat.pow_succ]; exact hb)
    rw [hexFixed_succ, hexFixed_succ, Nat.mod_eq_of_lt hdigit,
      Nat.mod_eq_of_lt (lt_of_le_of_lt (Nat.div_le_div_right hab.le) hdigit)]
    rcases Nat.lt_or_ge (a / 16 ^ width) (b / 16 ^ width) with hhead | hhead
    · exact List.Lex.rel (hexDigit_lt hhead hdigit)
    · -- Equal leading digits leave the comparison to the remainders.
      have heq : a / 16 ^ width = b / 16 ^ width := by
        have := Nat.div_le_div_right (c := 16 ^ width) hab.le
        omega
      rw [heq]
      refine List.Lex.cons ?_
      have ha := Nat.div_add_mod a (16 ^ width)
      have hb := Nat.div_add_mod b (16 ^ width)
      rw [heq] at ha
      have hmod : a % 16 ^ width < b % 16 ^ width := by omega
      have := ih hmod (Nat.mod_lt _ hpos)
      rwa [hexFixed_mod, hexFixed_mod] at this

example : decimal 1024 = text "1024" := by decide
example : hexFixed 8 0x1a2b = text "00001a2b" := by decide

end LatencyObservatory.Core
