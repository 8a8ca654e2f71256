import Mathlib.Data.Finset.Card
import Mathlib.Data.List.Nodup

/-!
# Distinct elements up to a cap

A list of distinct elements that takes no more than `cap` of them, with a flag that says whether one did
not fit. As long as all that is added stays inside a set of at most `cap` elements, the list it starts
from makes no difference to what is added.
-/

namespace LatencyObservatory.Lib

variable {α : Type} [DecidableEq α] (cap : Nat)

/-- Adds one element: known ones change nothing, and one too many only sets the flag. -/
def addCapped (s : List α × Bool) (x : α) : List α × Bool :=
  if x ∈ s.1 then s
  else if s.1.length ≥ cap then (s.1, true)
  else (s.1 ++ [x], s.2)

def addAll (s : List α × Bool) (xs : List α) : List α × Bool :=
  xs.foldl (addCapped cap) s

variable {cap}

theorem addAll_cons (s : List α × Bool) (x : α) (xs : List α) :
    addAll cap s (x :: xs) = addAll cap (addCapped cap s x) xs := rfl

theorem addCapped_kept (s : List α × Bool) (x : α) : s.1 <+: (addCapped cap s x).1 := by
  unfold addCapped
  split_ifs
  · exact List.prefix_rfl
  · exact List.prefix_rfl
  · exact List.prefix_append _ _

theorem addAll_kept (s : List α × Bool) (xs : List α) : s.1 <+: (addAll cap s xs).1 := by
  induction xs generalizing s with
  | nil => exact List.prefix_rfl
  | cons x xs ih => exact (addCapped_kept s x).trans (ih _)

theorem addCapped_nodup {s : List α × Bool} (h : s.1.Nodup) (x : α) : (addCapped cap s x).1.Nodup := by
  unfold addCapped
  split_ifs with hmem
  · exact h
  · exact h
  · exact h.append (List.nodup_singleton x) (by simpa using hmem)

theorem addCapped_length {s : List α × Bool} (h : s.1.length ≤ cap) (x : α) :
    (addCapped cap s x).1.length ≤ cap := by
  unfold addCapped
  split_ifs
  · exact h
  · exact h
  · rw [List.length_append, List.length_singleton]
    omega

theorem addAll_length {s : List α × Bool} (h : s.1.length ≤ cap) (xs : List α) :
    (addAll cap s xs).1.length ≤ cap := by
  induction xs generalizing s with
  | nil => exact h
  | cons x xs ih => exact ih (addCapped_length h x)

theorem addAll_of_fits {s : List α × Bool} {xs : List α} (hnodup : (s.1 ++ xs).Nodup)
    (hfits : (s.1 ++ xs).length ≤ cap) : addAll cap s xs = (s.1 ++ xs, s.2) := by
  induction xs generalizing s with
  | nil => simp [addAll]
  | cons x xs ih =>
    have hnew : x ∉ s.1 := by
      intro hmem
      exact (List.nodup_append.mp hnodup).2.2 x hmem x List.mem_cons_self rfl
    have hroom : ¬ s.1.length ≥ cap := by
      rw [List.length_append, List.length_cons] at hfits
      omega
    have hadd : addCapped cap s x = (s.1 ++ [x], s.2) := by
      unfold addCapped
      rw [if_neg hnew, if_neg hroom]
    rw [addAll_cons, hadd, ih (by simpa using hnodup) (by simpa using hfits), List.append_assoc]
    rfl

theorem addAll_within {s : List α × Bool} {xs : List α} (hfits : s.1.length + xs.length ≤ cap) :
    (addAll cap s xs).1.length ≤ s.1.length + xs.length ∧ (addAll cap s xs).2 = s.2 := by
  induction xs generalizing s with
  | nil => exact ⟨Nat.le_refl _, rfl⟩
  | cons x xs ih =>
    rw [List.length_cons] at hfits ⊢
    have hroom : ¬s.1.length ≥ cap := by omega
    have hadd : (addCapped cap s x).1.length ≤ s.1.length + 1 ∧ (addCapped cap s x).2 = s.2 := by
      unfold addCapped
      rw [if_neg hroom]
      split_ifs
      · exact ⟨Nat.le_succ _, rfl⟩
      · rw [List.length_append]
        exact ⟨Nat.le_refl _, rfl⟩
    obtain ⟨hlength, hflag⟩ := @ih (addCapped cap s x) (by omega)
    rw [addAll_cons]
    exact ⟨by omega, hflag.trans hadd.2⟩

/-! ### Adding to a larger list

Two lists take the same elements: `p`, and one that starts from `base`. -/

section Extends

variable {K : Finset α} {base : List α} {flag : Bool}

/-- One element, inside `K`, is new to the larger list only if it is new to the smaller one. -/
theorem addCapped_extends (hK : K.card ≤ cap) {p : List α × Bool} (hp : p.1.Nodup) (hbase : base.Nodup)
    (hbaseK : ∀ a ∈ base, a ∈ K) (x : α) (hpK : ∀ a ∈ (addCapped cap p x).1, a ∈ K) :
    addCapped cap (base ++ p.1.filter (· ∉ base), flag || p.2) x =
      (base ++ (addCapped cap p x).1.filter (· ∉ base), flag || (addCapped cap p x).2) := by
  have hmem : ∀ a, a ∈ base ++ p.1.filter (· ∉ base) ↔ a ∈ base ∨ a ∈ p.1 := by
    intro a
    by_cases ha : a ∈ base <;> simp [ha]
  have hnodup : (base ++ p.1.filter (· ∉ base)).Nodup := by
    refine hbase.append (hp.filter _) ?_
    intro a ha hfilter
    simp [ha] at hfilter
  have hold : ∀ a ∈ p.1, a ∈ K := fun a ha => hpK a ((addCapped_kept p x).subset ha)
  by_cases hknown : x ∈ p.1
  · have hp' : addCapped cap p x = p := if_pos hknown
    rw [hp']
    exact if_pos ((hmem x).mpr (Or.inr hknown))
  · by_cases hfull : p.1.length ≥ cap
    · -- The smaller list holds all of `K`, so the larger one is full as well and does not know `x`.
      have hp' : addCapped cap p x = (p.1, true) := by
        unfold addCapped
        rw [if_neg hknown, if_pos hfull]
      have hsame : p.1.toFinset = K := by
        apply Finset.eq_of_subset_of_card_le
        · intro a ha
          exact hold a (List.mem_toFinset.mp ha)
        · rw [List.toFinset_card_of_nodup hp]
          omega
      have houtside : x ∉ base ++ p.1.filter (· ∉ base) := by
        rw [hmem]
        rintro (hx | hx)
        · exact hknown (List.mem_toFinset.mp (hsame ▸ hbaseK x hx))
        · exact hknown hx
      have hlarge : (base ++ p.1.filter (· ∉ base)).length ≥ cap := by
        have hsub : p.1 ⊆ base ++ p.1.filter (· ∉ base) := fun a ha => (hmem a).mpr (Or.inr ha)
        have := (hp.subperm hsub).length_le
        omega
      rw [hp']
      unfold addCapped
      rw [if_neg houtside, if_pos hlarge, Bool.or_true]
    · have hp' : addCapped cap p x = (p.1 ++ [x], p.2) := by
        unfold addCapped
        rw [if_neg hknown, if_neg hfull]
      rw [hp'] at hpK ⊢
      have hxK : x ∈ K := hpK x (by simp)
      by_cases hx : x ∈ base
      · have hstay : (p.1 ++ [x]).filter (· ∉ base) = p.1.filter (· ∉ base) := by simp [hx]
        rw [hstay]
        exact if_pos ((hmem x).mpr (Or.inl hx))
      · -- There is room: the larger list lies in `K` and misses `x`.
        have houtside : x ∉ base ++ p.1.filter (· ∉ base) := by
          rw [hmem]
          rintro (h | h)
          · exact hx h
          · exact hknown h
        have hroom : ¬ (base ++ p.1.filter (· ∉ base)).length ≥ cap := by
          have hsub : (base ++ p.1.filter (· ∉ base)).toFinset ⊂ K := by
            rw [Finset.ssubset_iff_of_subset]
            · exact ⟨x, hxK, fun h => houtside (List.mem_toFinset.mp h)⟩
            · intro a ha
              rcases (hmem a).mp (List.mem_toFinset.mp ha) with h | h
              · exact hbaseK a h
              · exact hold a h
          have hcard := Finset.card_lt_card hsub
          rw [List.toFinset_card_of_nodup hnodup] at hcard
          omega
        have hgrown : (p.1 ++ [x]).filter (· ∉ base) = p.1.filter (· ∉ base) ++ [x] := by simp [hx]
        unfold addCapped
        rw [if_neg houtside, if_neg hroom, hgrown, List.append_assoc]

/-- As long as all stays inside `K`, the larger list gets what the smaller one gets and it lacks. -/
theorem addAll_extends (hK : K.card ≤ cap) {p : List α × Bool} (hp : p.1.Nodup) (hbase : base.Nodup)
    (hbaseK : ∀ a ∈ base, a ∈ K) {xs : List α} (hpK : ∀ a ∈ (addAll cap p xs).1, a ∈ K) :
    addAll cap (base ++ p.1.filter (· ∉ base), flag || p.2) xs =
      (base ++ (addAll cap p xs).1.filter (· ∉ base), flag || (addAll cap p xs).2) := by
  induction xs generalizing p with
  | nil => rfl
  | cons x xs ih =>
    have hstep : ∀ a ∈ (addCapped cap p x).1, a ∈ K :=
      fun a ha => hpK a ((addAll_kept (addCapped cap p x) xs).subset ha)
    rw [addAll_cons, addCapped_extends hK hp hbase hbaseK x hstep]
    exact ih (addCapped_nodup hp x) hpK

end Extends

end LatencyObservatory.Lib
