import Mathlib.Data.List.Basic
import Mathlib.Tactic.Common

/-!
# Reflected cyclic redundancy checks

A reflected CRC shifts its register to the right and adds the polynomial whenever the bit that falls out was set.
The shift register is linear, so its low bits and its high bits can be advanced apart: the high bits only move down,
and a table can hold what becomes of the low ones. This is why a table of `2 ^ n` entries advances the register by
`n` bits at once.
-/

namespace LatencyObservatory.Lib

variable {w : Nat} (poly : BitVec w)

/-- One bit of the shift register. -/
def crcBit (register : BitVec w) : BitVec w :=
  if register.getLsbD 0 then (register >>> 1) ^^^ poly else register >>> 1

/-- Several bits of the shift register. -/
def crcBits : Nat → BitVec w → BitVec w
  | 0, register => register
  | n + 1, register => crcBits n (crcBit poly register)

/-- The low bits of a register. -/
def lowBits (n : Nat) (register : BitVec w) : BitVec w :=
  (register.setWidth n).setWidth w

theorem crcBit_of_even {register : BitVec w} (h : register.getLsbD 0 = false) :
    crcBit poly register = register >>> 1 := by
  rw [crcBit, h]
  rfl

theorem crcBit_xor (r s : BitVec w) : crcBit poly (r ^^^ s) = crcBit poly r ^^^ crcBit poly s := by
  unfold crcBit
  rw [BitVec.getLsbD_xor, BitVec.ushiftRight_xor_distrib]
  cases r.getLsbD 0 with
  | false =>
    cases s.getLsbD 0 with
    | false => rfl
    | true => exact BitVec.xor_assoc _ _ _
  | true =>
    cases s.getLsbD 0 with
    | false =>
      show (r >>> 1 ^^^ s >>> 1) ^^^ poly = (r >>> 1 ^^^ poly) ^^^ s >>> 1
      rw [BitVec.xor_assoc, BitVec.xor_comm (s >>> 1), BitVec.xor_assoc]
    | true =>
      -- The polynomial is added twice.
      show r >>> 1 ^^^ s >>> 1 = (r >>> 1 ^^^ poly) ^^^ (s >>> 1 ^^^ poly)
      rw [BitVec.xor_comm (s >>> 1) poly, BitVec.xor_assoc, ← BitVec.xor_assoc poly, BitVec.xor_self, BitVec.zero_xor]

theorem crcBits_xor (n : Nat) (r s : BitVec w) : crcBits poly n (r ^^^ s) = crcBits poly n r ^^^ crcBits poly n s := by
  induction n generalizing r s with
  | zero => rfl
  | succ n ih => rw [crcBits, crcBits, crcBits, crcBit_xor, ih]

theorem crcBits_of_low_clear {n : Nat} {register : BitVec w} (h : ∀ i < n, register.getLsbD i = false) :
    crcBits poly n register = register >>> n := by
  induction n generalizing register with
  | zero => rw [crcBits, BitVec.ushiftRight_zero]
  | succ n ih =>
    have hshifted : ∀ i < n, (register >>> 1).getLsbD i = false := by
      intro i hi
      rw [BitVec.getLsbD_ushiftRight]
      exact h (1 + i) (by omega)
    rw [crcBits, crcBit_of_even poly (h 0 (by omega)), ih hshifted, ← BitVec.shiftRight_add, Nat.add_comm]

theorem getLsbD_lowBits (n i : Nat) (register : BitVec w) :
    (lowBits n register).getLsbD i = (decide (i < n) && register.getLsbD i) := by
  unfold lowBits
  rw [BitVec.getLsbD_setWidth, BitVec.getLsbD_setWidth]
  by_cases hi : i < w
  · simp [hi]
  · simp [hi, BitVec.getLsbD_of_ge register i (by omega)]

theorem crcBits_eq_low_xor_high (n : Nat) (register : BitVec w) :
    crcBits poly n register = crcBits poly n (lowBits n register) ^^^ (register >>> n) := by
  have hhigh : ∀ i < n, (lowBits n register ^^^ register).getLsbD i = false := by
    intro i hi
    rw [BitVec.getLsbD_xor, getLsbD_lowBits, decide_eq_true hi, Bool.true_and, Bool.xor_self]
  have hsplit : register = lowBits n register ^^^ (lowBits n register ^^^ register) := by
    rw [← BitVec.xor_assoc, BitVec.xor_self, BitVec.zero_xor]
  have hmoved : (lowBits n register ^^^ register) >>> n = register >>> n := by
    apply BitVec.eq_of_getLsbD_eq
    intro i hi
    rw [BitVec.getLsbD_ushiftRight, BitVec.getLsbD_ushiftRight, BitVec.getLsbD_xor, getLsbD_lowBits,
      decide_eq_false (by omega), Bool.false_and, Bool.false_xor]
  calc crcBits poly n register
      = crcBits poly n (lowBits n register ^^^ (lowBits n register ^^^ register)) := by rw [← hsplit]
    _ = crcBits poly n (lowBits n register) ^^^ crcBits poly n (lowBits n register ^^^ register) := crcBits_xor poly n _ _
    _ = crcBits poly n (lowBits n register) ^^^ (register >>> n) := by rw [crcBits_of_low_clear poly hhigh, hmoved]

end LatencyObservatory.Lib
