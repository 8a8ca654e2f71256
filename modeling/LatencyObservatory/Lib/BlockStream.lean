import Mathlib.Data.List.Basic
import Mathlib.Tactic.Common

/-!
# Blocks of a stream

A sequence is consumed block by block, and what does not fill a block is left over. A stream that arrives in pieces is
consumed the same way if the rest of one piece is put in front of the next: where the pieces are cut makes no
difference.
-/

namespace LatencyObservatory.Lib

variable {σ β : Type} (size : Nat) (step : σ → List β → σ)

/-- So many blocks are consumed; the state and the rest of the data. -/
def foldBlocks : Nat → σ → List β → σ × List β
  | 0, s, data => (s, data)
  | n + 1, s, data => foldBlocks n (step s (data.take size)) (data.drop size)

/-- All whole blocks are consumed. -/
def consume (s : σ) (data : List β) : σ × List β :=
  foldBlocks size step (data.length / size) s data

variable {size step}

theorem consume_of_lt {s : σ} {data : List β} (h : data.length < size) : consume size step s data = (s, data) := by
  rw [consume, Nat.div_eq_of_lt h, foldBlocks]

theorem consume_of_le {s : σ} {data : List β} (hsize : 0 < size) (h : size ≤ data.length) :
    consume size step s data = consume size step (step s (data.take size)) (data.drop size) := by
  have hblocks : data.length / size = (data.drop size).length / size + 1 := by
    rw [List.length_drop, ← Nat.add_div_right _ hsize, Nat.sub_add_cancel h]
  rw [consume, hblocks, foldBlocks, consume]

theorem consume_block {s : σ} {block : List β} (hsize : 0 < size) (h : block.length = size) :
    consume size step s block = (step s block, []) := by
  rw [consume_of_le hsize (by omega), List.take_of_length_le (by omega), List.drop_of_length_le (by omega)]
  exact consume_of_lt hsize

theorem consume_append (hsize : 0 < size) (s : σ) (xs ys : List β) :
    consume size step s (xs ++ ys) =
      consume size step (consume size step s xs).1 ((consume size step s xs).2 ++ ys) := by
  induction hlength : xs.length using Nat.strongRecOn generalizing s xs with
  | ind n ih =>
    subst hlength
    rcases Nat.lt_or_ge xs.length size with hshort | hlong
    · rw [consume_of_lt hshort]
    · have hless : (xs.drop size).length < xs.length := by
        rw [List.length_drop]
        omega
      have happend : size ≤ (xs ++ ys).length := by
        rw [List.length_append]
        omega
      rw [consume_of_le hsize happend, consume_of_le hsize hlong, List.take_append_of_le_length hlong,
        List.drop_append_of_le_length hlong]
      exact ih _ hless _ _ rfl

theorem consume_rest_length (hsize : 0 < size) (s : σ) (data : List β) :
    (consume size step s data).2.length = data.length % size := by
  induction hlength : data.length using Nat.strongRecOn generalizing s data with
  | ind n ih =>
    subst hlength
    rcases Nat.lt_or_ge data.length size with hshort | hlong
    · rw [consume_of_lt hshort, Nat.mod_eq_of_lt hshort]
    · have hless : (data.drop size).length < data.length := by
        rw [List.length_drop]
        omega
      rw [consume_of_le hsize hlong, ih _ hless _ _ rfl, List.length_drop]
      exact (Nat.mod_eq_sub_mod hlong).symm

end LatencyObservatory.Lib
