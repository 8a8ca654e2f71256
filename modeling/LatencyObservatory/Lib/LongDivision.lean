import Mathlib.Tactic.Ring
import Mathlib.Tactic.Linarith

/-!
# Binary long division

The remainder is shifted by one bit of the dividend at a time, from the highest bit down, and the divisor is
subtracted whenever it fits. What is kept is the dividend's upper part as quotient and remainder.
-/

namespace LatencyObservatory.Lib

/-- One round: the quotient and the remainder after one more bit of the dividend. -/
def divBit (n d : Nat) (qr : Nat × Nat) (bit : Nat) : Nat × Nat :=
  let shifted := 2 * qr.2 + n / 2 ^ bit % 2
  if d ≤ shifted then (2 * qr.1 + 1, shifted - d) else (2 * qr.1, shifted)

theorem divBit_of_le {n d q r bit : Nat} (h : d ≤ 2 * r + n / 2 ^ bit % 2) :
    divBit n d (q, r) bit = (2 * q + 1, 2 * r + n / 2 ^ bit % 2 - d) :=
  if_pos h

theorem divBit_of_lt {n d q r bit : Nat} (h : 2 * r + n / 2 ^ bit % 2 < d) :
    divBit n d (q, r) bit = (2 * q, 2 * r + n / 2 ^ bit % 2) :=
  if_neg (Nat.not_le_of_lt h)

/-- The bits of the dividend above `bit` are divided. -/
def DividesAbove (n d bit : Nat) (qr : Nat × Nat) : Prop :=
  n / 2 ^ bit = qr.1 * d + qr.2 ∧ qr.2 < d

theorem div_two_pow_succ (n bit : Nat) : n / 2 ^ bit = 2 * (n / 2 ^ (bit + 1)) + n / 2 ^ bit % 2 := by
  rw [Nat.pow_succ, ← Nat.div_div_eq_div_mul]
  omega

theorem DividesAbove.next {n d bit : Nat} {qr : Nat × Nat} (h : DividesAbove n d (bit + 1) qr) :
    DividesAbove n d bit (divBit n d qr bit) := by
  obtain ⟨hdiv, hrem⟩ := h
  have hshift := div_two_pow_succ n bit
  have hbit : n / 2 ^ bit % 2 < 2 := Nat.mod_lt _ (by omega)
  obtain ⟨q, r⟩ := qr
  simp only at hdiv hrem
  by_cases hfits : d ≤ 2 * r + n / 2 ^ bit % 2
  · rw [divBit_of_le hfits]
    have hdistrib : (2 * q + 1) * d = 2 * (q * d) + d := by ring
    refine ⟨?_, ?_⟩
    · simp only [hdistrib]
      omega
    · simp only
      omega
  · rw [divBit_of_lt (Nat.lt_of_not_le hfits)]
    have hdistrib : 2 * q * d = 2 * (q * d) := by ring
    refine ⟨?_, ?_⟩
    · simp only [hdistrib]
      omega
    · simp only
      omega

theorem DividesAbove.quotient_le {n d bit : Nat} {qr : Nat × Nat} (h : DividesAbove n d bit qr) :
    qr.1 ≤ n / 2 ^ bit := by
  obtain ⟨hdiv, hrem⟩ := h
  have hle : qr.1 * 1 ≤ qr.1 * d := Nat.mul_le_mul_left _ (by omega)
  omega

/-- All bits of the dividend are divided: quotient and remainder are those of the division. -/
theorem DividesAbove.result {n d : Nat} {qr : Nat × Nat} (h : DividesAbove n d 0 qr) :
    qr.1 = n / d ∧ qr.2 = n % d := by
  obtain ⟨hdiv, hrem⟩ := h
  rw [Nat.pow_zero, Nat.div_one] at hdiv
  have hpos : 0 < d := by omega
  constructor
  · rw [hdiv, Nat.add_comm, Nat.add_mul_div_right _ _ hpos, Nat.div_eq_of_lt hrem, Nat.zero_add]
  · rw [hdiv, Nat.add_comm, Nat.add_mul_mod_self_right, Nat.mod_eq_of_lt hrem]

end LatencyObservatory.Lib
