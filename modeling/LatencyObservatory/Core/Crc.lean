import LatencyObservatory.Core.Digest
import LatencyObservatory.Lib.ReflectedCrc
import Mathlib.Logic.Function.Iterate

/-!
# The checksum is CRC-32C

CRC-32C is the reflected CRC of 32 bits with polynomial `0x82F63B78`, started and ended with all bits flipped, and is
defined bit by bit. Every entry of the table is what eight bits make of its index, so one step of the table loop
is eight steps of the shift register.
-/

namespace LatencyObservatory.Core

/-! ### Bit by bit -/

/-- One bit of the CRC-32C register. -/
def crc32cBit (crc : UInt32) : UInt32 :=
  if crc &&& 1 = 1 then (crc >>> 1) ^^^ 0x82F63B78 else crc >>> 1

def crc32cByte (crc : UInt32) (byte : UInt8) : UInt32 :=
  Nat.iterate crc32cBit 8 (crc ^^^ byte.toUInt32)

/-- The CRC-32C of a byte string, by definition. -/
def crc32cBitwise (data : Bytes) : UInt32 :=
  data.foldl crc32cByte 0xFFFFFFFF ^^^ 0xFFFFFFFF

/-! ### The table -/

theorem crc32cBit_toBitVec (crc : UInt32) : (crc32cBit crc).toBitVec = Lib.crcBit 0x82F63B78#32 crc.toBitVec := by
  have hodd : crc &&& 1 = 1 ↔ crc.toBitVec.getLsbD 0 = true := by
    rw [← UInt32.toNat_inj, UInt32.toNat_and, UInt32.toNat_one, Nat.and_one_is_mod, BitVec.getLsbD, Nat.testBit_zero,
      decide_eq_true_eq]
    rfl
  unfold crc32cBit Lib.crcBit
  by_cases h : crc &&& 1 = 1
  · rw [if_pos h, if_pos (hodd.mp h)]
    rfl
  · rw [if_neg h, if_neg (fun hbit => h (hodd.mpr hbit))]
    rfl

theorem iterate_crc32cBit (n : Nat) (register : UInt32) :
    (Nat.iterate crc32cBit n register).toBitVec = Lib.crcBits 0x82F63B78#32 n register.toBitVec := by
  induction n generalizing register with
  | zero => rfl
  | succ n ih => rw [Function.iterate_succ_apply, ih, crc32cBit_toBitVec, Lib.crcBits]

theorem crc32cTable_entries :
    crc32cTable.toList.map (fun entry => entry.toBitVec) =
      (List.range 256).map fun i => Lib.crcBits 0x82F63B78#32 8 (BitVec.ofNat 32 i) := by
  decide +kernel

theorem crc32cTable_entry {i : Nat} (hi : i < 256) :
    (crc32cTable.getD i 0).toBitVec = Lib.crcBits 0x82F63B78#32 8 (BitVec.ofNat 32 i) := by
  have hget := congrArg (fun entries => entries[i]?) crc32cTable_entries
  simp only [List.getElem?_map, List.getElem?_range hi, Option.map_some, Option.map_eq_some_iff,
    Array.getElem?_toList] at hget
  obtain ⟨entry, hentry, hvalue⟩ := hget
  rw [Array.getD_eq_getD_getElem?, hentry]
  exact hvalue

theorem mask_toBitVec (register : UInt32) :
    BitVec.ofNat 32 (register &&& 0xFF).toNat = Lib.lowBits 8 register.toBitVec := by
  have hnat : (register &&& 0xFF).toNat = register.toNat % 2 ^ 8 := by
    rw [UInt32.toNat_and]
    exact Nat.and_two_pow_sub_one_eq_mod register.toNat 8
  apply BitVec.eq_of_toNat_eq
  rw [hnat, BitVec.toNat_ofNat, Lib.lowBits, BitVec.toNat_setWidth, BitVec.toNat_setWidth]
  rfl

theorem xor_byte_shift (crc : UInt32) (byte : UInt8) :
    (crc ^^^ byte.toUInt32).toBitVec >>> 8 = (crc >>> 8).toBitVec := by
  have hbyte : byte.toUInt32.toBitVec >>> 8 = 0#32 := by
    apply BitVec.eq_of_toNat_eq
    rw [BitVec.toNat_ushiftRight]
    show byte.toUInt32.toNat >>> 8 = 0
    rw [UInt8.toNat_toUInt32, Nat.shiftRight_eq_div_pow, Nat.div_eq_of_lt byte.toNat_lt]
  show (crc.toBitVec ^^^ byte.toUInt32.toBitVec) >>> 8 = crc.toBitVec >>> 8
  rw [BitVec.ushiftRight_xor_distrib, hbyte, BitVec.xor_zero]

theorem crc32cStep_eq_crc32cByte (crc : UInt32) (byte : UInt8) : crc32cStep crc byte = crc32cByte crc byte := by
  apply UInt32.toBitVec_inj.mp
  rw [crc32cByte, iterate_crc32cBit, Lib.crcBits_eq_low_xor_high, xor_byte_shift, ← mask_toBitVec, ← crc32cTable_entry (and_low_lt _)]
  rfl

/-- `crc32c` is CRC-32C. -/
theorem crc32c_eq_bitwise (data : Bytes) : crc32c data = crc32cBitwise data := by
  have hstep : crc32cStep = crc32cByte := by
    funext crc byte
    exact crc32cStep_eq_crc32cByte crc byte
  unfold crc32c crc32cBitwise
  rw [hstep]

end LatencyObservatory.Core
