import Mathlib.Tactic.Common

/-!
# Folding checksums

A checksum that folds one step over the bytes detects every change of a single byte as soon as its
step loses neither the register nor the byte: the changed byte separates the two registers, and the
bytes after it keep them apart.
-/

namespace LatencyObservatory.Lib

variable {σ β : Type} {step : σ → β → σ}

theorem foldl_injective (hstate : ∀ b, Function.Injective fun s => step s b) (xs : List β) :
    Function.Injective fun s => xs.foldl step s := by
  induction xs with
  | nil => exact fun _ _ h => h
  | cons x xs ih => exact fun s t h => hstate x (ih h)

theorem foldl_set_ne (hstate : ∀ b, Function.Injective fun s => step s b)
    (hbyte : ∀ s, Function.Injective (step s)) {xs : List β} {pos : Nat} {b : β} (hpos : pos < xs.length)
    (hb : xs[pos]? ≠ some b) (s : σ) : (xs.set pos b).foldl step s ≠ xs.foldl step s := by
  induction xs generalizing pos s with
  | nil => simp at hpos
  | cons x xs ih =>
    cases pos with
    | zero =>
      intro h
      rw [List.set_cons_zero, List.foldl_cons, List.foldl_cons] at h
      have hstep : step s b = step s x := foldl_injective hstate xs h
      rw [hbyte s hstep] at hb
      exact hb rfl
    | succ pos =>
      rw [List.set_cons_succ, List.foldl_cons, List.foldl_cons]
      exact ih (by simpa using hpos) (by simpa using hb) _

end LatencyObservatory.Lib
