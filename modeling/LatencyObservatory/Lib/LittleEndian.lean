import Mathlib.Tactic.Common
import Mathlib.Tactic.Ring

/-!
# Little endian fields

Fixed-width little endian integers in a byte string, and the slice of a byte string that a field
occupies. `ofLe_le` is the round trip; `ofLe_inj` says that two fields of one width hold one value
only when their bytes agree. The `field` lemmas say which fields a concatenation exposes and which
of them a change of one byte can reach.
-/

namespace LatencyObservatory.Lib

/-- The lowest `n` bytes of `v`, least significant first. -/
def le : Nat → Nat → List UInt8
  | 0, _ => []
  | n + 1, v => UInt8.ofNat v :: le n (v / 256)

def ofLe : List UInt8 → Nat
  | [] => 0
  | b :: bs => b.toNat + 256 * ofLe bs

@[simp] theorem le_length (n v : Nat) : (le n v).length = n := by
  induction n generalizing v with
  | zero => rfl
  | succ n ih => rw [le, List.length_cons, ih]

@[simp] theorem ofLe_le (n v : Nat) : ofLe (le n v) = v % 256 ^ n := by
  induction n generalizing v with
  | zero => simp [le, ofLe, Nat.mod_one]
  | succ n ih =>
    have hbyte : (UInt8.ofNat v).toNat = v % 256 := by simp
    rw [le, ofLe, ih, hbyte, Nat.pow_succ', Nat.mod_mul]

theorem ofLe_inj {xs ys : List UInt8} (hlen : xs.length = ys.length) (h : ofLe xs = ofLe ys) : xs = ys := by
  induction xs generalizing ys with
  | nil => exact (List.length_eq_zero_iff.mp hlen.symm).symm
  | cons x xs ih =>
    cases ys with
    | nil => simp at hlen
    | cons y ys =>
      simp only [ofLe] at h
      have hx := x.toNat_lt
      have hy := y.toNat_lt
      have hhead : x.toNat = y.toNat := by omega
      have htail : ofLe xs = ofLe ys := by omega
      rw [UInt8.toNat_inj.mp hhead, ih (by simpa using hlen) htail]

/-- The `n` bytes at offset `off`. -/
def field (bytes : List UInt8) (off n : Nat) : List UInt8 :=
  (bytes.drop off).take n

theorem field_append {pre mid post : List UInt8} {off n : Nat} (hoff : pre.length = off)
    (hn : mid.length = n) : field (pre ++ (mid ++ post)) off n = mid := by
  subst hoff hn
  rw [field, List.drop_left, List.take_left]

theorem field_first {mid post : List UInt8} {n : Nat} (hn : mid.length = n) : field (mid ++ post) 0 n = mid := by
  subst hn
  rw [field, List.drop_zero, List.take_left]

theorem field_last {pre mid : List UInt8} {off n : Nat} (hoff : pre.length = off) (hn : mid.length = n) :
    field (pre ++ mid) off n = mid := by
  subst hoff hn
  rw [field, List.drop_left, List.take_length]

theorem field_append_left {xs ys : List UInt8} {off n : Nat} (h : off + n ≤ xs.length) :
    field (xs ++ ys) off n = field xs off n := by
  rw [field, field, List.drop_append_of_le_length (by omega), List.take_append_of_le_length]
  rw [List.length_drop]
  omega

theorem field_length {bytes : List UInt8} {off n : Nat} (h : off + n ≤ bytes.length) :
    (field bytes off n).length = n := by
  rw [field, List.length_take, List.length_drop]
  omega

theorem field_set_of_lt {bytes : List UInt8} {pos off n : Nat} {b : UInt8} (h : pos < off) :
    field (bytes.set pos b) off n = field bytes off n := by
  rw [field, field, List.drop_set_of_lt h]

theorem field_set_of_ge {bytes : List UInt8} {pos off n : Nat} {b : UInt8} (h : off + n ≤ pos) :
    field (bytes.set pos b) off n = field bytes off n := by
  rw [field, field, List.drop_set, if_neg (by omega), List.take_set, List.set_eq_of_length_le]
  rw [List.length_take, List.length_drop]
  omega

theorem field_set {bytes : List UInt8} {pos off n : Nat} {b : UInt8} (h : off ≤ pos) :
    field (bytes.set pos b) off n = (field bytes off n).set (pos - off) b := by
  rw [field, field, List.drop_set, if_neg (by omega), List.take_set]

theorem field_set_ne {bytes : List UInt8} {pos off n : Nat} {b : UInt8} (hoff : off ≤ pos)
    (hn : pos < off + n) (hlen : off + n ≤ bytes.length) (hb : bytes[pos]? ≠ some b) :
    field (bytes.set pos b) off n ≠ field bytes off n := by
  intro h
  have hget : (field (bytes.set pos b) off n)[pos - off]? = some b := by
    rw [field_set hoff, List.getElem?_set_self (by rw [field_length hlen]; omega)]
  rw [h, field, List.getElem?_take_of_lt (by omega), List.getElem?_drop] at hget
  rw [show off + (pos - off) = pos by omega] at hget
  exact hb hget

theorem ofLe_field_set_ne {bytes : List UInt8} {pos off n : Nat} {b : UInt8} (hoff : off ≤ pos)
    (hn : pos < off + n) (hlen : off + n ≤ bytes.length) (hb : bytes[pos]? ≠ some b) :
    ofLe (field (bytes.set pos b) off n) ≠ ofLe (field bytes off n) := by
  intro h
  refine field_set_ne hoff hn hlen hb (ofLe_inj ?_ h)
  rw [field_length hlen, field_length (by rw [List.length_set]; exact hlen)]

end LatencyObservatory.Lib
