import Mathlib.Algebra.BigOperators.Group.Multiset.Basic
import Mathlib.Algebra.BigOperators.Ring.List
import Mathlib.Algebra.Order.BigOperators.Group.List
import Mathlib.Data.Finset.Max
import Mathlib.Tactic.Linarith

/-!
# Shares of a whole

A whole is the sum of its parts, a share is the floor of a scaled quotient, and a running total may leave out the
parts that do not fit on top of it. What the shares and means of a whole say then depends on how much was left out.
-/

namespace LatencyObservatory.Lib

/-! ### Floored quotients -/

/-- Taking something off the dividend keeps the quotient as long as it comes off the remainder. -/
theorem ediv_sub_eq_iff {c k : Int} (hc : 0 < c) (hk : 0 ≤ k) (t : Int) : (t - k) / c = t / c ↔ k ≤ t % c := by
  have hfloor := Int.emod_add_mul_ediv t c
  have hless := Int.emod_lt_of_pos t hc
  rw [Int.ediv_eq_iff_of_pos hc, Int.mul_comm]
  constructor
  · rintro ⟨hlow, -⟩
    linarith
  · intro hrest
    constructor <;> linarith

/-- The difference of two floored means exceeds the floored mean of the difference by at most one. -/
theorem ediv_sub_ediv_cases {c : Int} (hc : 0 < c) (a b : Int) :
    a / c - b / c - (a - b) / c = 0 ∨ a / c - b / c - (a - b) / c = 1 := by
  have hfloor := Int.emod_add_mul_ediv a c
  have hfloor' := Int.emod_add_mul_ediv b c
  have hless := Int.emod_lt_of_pos a hc
  have hless' := Int.emod_lt_of_pos b hc
  have hnonneg := Int.emod_nonneg a hc.ne'
  have hnonneg' := Int.emod_nonneg b hc.ne'
  by_cases hborrow : b % c ≤ a % c
  · left
    have hquotient : (a - b) / c = a / c - b / c := by
      rw [Int.ediv_eq_iff_of_pos hc]
      constructor <;> nlinarith
    omega
  · right
    have hquotient : (a - b) / c = a / c - b / c - 1 := by
      rw [Int.ediv_eq_iff_of_pos hc]
      constructor <;> nlinarith
    omega

/-- A quotient survives a smaller divisor exactly when what the divisor lost fits beside the remainder. -/
theorem ediv_sub_right_eq_iff {x t k : Int} (hx : 0 ≤ x) (hk : 0 ≤ k) (hrest : 0 < t - k) :
    x / (t - k) = x / t ↔ x / t * k + x % t < t - k := by
  have ht : 0 < t := by omega
  have hfloor := Int.emod_add_mul_ediv x t
  have hquotient := Int.ediv_nonneg hx ht.le
  have hnonneg := Int.emod_nonneg x ht.ne'
  rw [Int.ediv_eq_iff_of_pos hrest]
  constructor
  · rintro ⟨-, hhigh⟩
    nlinarith
  · intro hfits
    constructor <;> nlinarith

theorem sum_ediv_bounds {d : Int} (hd : 0 < d) (values : List Int) :
    d * (values.map (· / d)).sum ≤ values.sum ∧
      values.sum ≤ d * (values.map (· / d)).sum + (d - 1) * values.length := by
  induction values with
  | nil => simp
  | cons value rest ih =>
    have hfloor := Int.emod_add_mul_ediv value d
    have hless := Int.emod_lt_of_pos value hd
    have hnonneg := Int.emod_nonneg value hd.ne'
    obtain ⟨hlow, hhigh⟩ := ih
    simp only [List.map_cons, List.sum_cons, List.length_cons, Nat.cast_add, Nat.cast_one]
    constructor <;> nlinarith

/-! ### The shares of the parts -/

section Parts

variable {scale : Int} {parts : List Int}

theorem sum_shares_bounds (h : 0 < parts.sum) :
    (parts.map fun part => scale * part / parts.sum).sum ≤ scale ∧
      scale < (parts.map fun part => scale * part / parts.sum).sum + parts.length := by
  obtain ⟨hlow, hhigh⟩ := sum_ediv_bounds h (parts.map (scale * ·))
  have hsum : (parts.map (scale * ·)).sum = scale * parts.sum := by
    rw [List.sum_map_mul_left, List.map_id']
  rw [hsum, List.map_map] at hlow hhigh
  rw [List.length_map] at hhigh
  have hlength : 0 < (parts.length : Int) := by
    cases parts with
    | nil => simp at h
    | cons part rest => simp only [List.length_cons]; omega
  have hsame : (parts.map ((· / parts.sum) ∘ fun part => scale * part)) =
      parts.map fun part => scale * part / parts.sum := rfl
  rw [hsame] at hlow hhigh
  constructor
  · exact le_of_mul_le_mul_left (by linarith) h
  · apply lt_of_mul_lt_mul_left _ h.le
    nlinarith

theorem exists_largest_part (h : 0 < parts.sum) :
    ∃ largest ∈ parts, (∀ part ∈ parts, part ≤ largest) ∧ parts.sum ≤ parts.length * largest := by
  have hnonempty : parts.toFinset.Nonempty := by
    cases parts with
    | nil => simp at h
    | cons part rest => exact ⟨part, by simp⟩
  obtain ⟨largest, hmem, hmax⟩ := parts.toFinset.exists_max_image id hnonempty
  have hall : ∀ part ∈ parts, part ≤ largest := fun part hpart => hmax part (List.mem_toFinset.mpr hpart)
  refine ⟨largest, List.mem_toFinset.mp hmem, hall, ?_⟩
  have hsum := List.sum_le_card_nsmul parts largest hall
  rw [nsmul_eq_mul] at hsum
  exact hsum

end Parts

/-! ### Parts that do not fit -/

section LeftOut

variable {M : Type} [AddCommMonoid M] (fits : M → M → Bool)

/-- The running total over the parts that fit on top of it. -/
def keepFitting : M → List M → M
  | total, [] => total
  | total, part :: rest => if fits total part then keepFitting (total + part) rest else keepFitting total rest

/-- What the running total leaves out. -/
def leftOut : M → List M → M
  | _, [] => 0
  | total, part :: rest => if fits total part then leftOut (total + part) rest else part + leftOut total rest

theorem keepFitting_add_leftOut (total : M) (parts : List M) :
    keepFitting fits total parts + leftOut fits total parts = total + parts.sum := by
  induction parts generalizing total with
  | nil => simp [keepFitting, leftOut]
  | cons part rest ih =>
    unfold keepFitting leftOut
    rw [List.sum_cons]
    split_ifs
    · rw [ih, add_assoc]
    · rw [add_left_comm, ih, add_left_comm]

end LeftOut

theorem leftOut_nonneg {fits : Int → Int → Bool} {parts : List Int} (h : ∀ part ∈ parts, 0 ≤ part) (total : Int) :
    0 ≤ leftOut fits total parts := by
  induction parts generalizing total with
  | nil => exact le_rfl
  | cons part rest ih =>
    rw [List.forall_mem_cons] at h
    unfold leftOut
    split_ifs
    · exact ih h.2 _
    · exact add_nonneg h.1 (ih h.2 _)

/-- Nothing is left out of a whole below a bound if its parts fit wherever they stay below the bound. -/
theorem leftOut_eq_zero {fits : Int → Int → Bool} {bound : Int} {parts : List Int}
    (hfits : ∀ total, ∀ part ∈ parts, total + part < bound → fits total part = true)
    (h : ∀ part ∈ parts, 0 ≤ part) {total : Int} (htotal : 0 ≤ total) (hbound : total + parts.sum < bound) :
    leftOut fits total parts = 0 := by
  induction parts generalizing total with
  | nil => rfl
  | cons part rest ih =>
    rw [List.forall_mem_cons] at h
    rw [List.sum_cons] at hbound
    have hrest := List.sum_nonneg h.2
    unfold leftOut
    rw [if_pos (hfits total part List.mem_cons_self (by omega))]
    apply ih _ h.2 (add_nonneg htotal h.1) (by omega)
    intro total other hother
    exact hfits total other (List.mem_cons_of_mem _ hother)

theorem sum_map_sum_comm {α β : Type} (rows : List α) (columns : List β) (f : α → β → Int) :
    (rows.map fun row => (columns.map (f row)).sum).sum =
      (columns.map fun column => (rows.map (f · column)).sum).sum := by
  have hsum := @Multiset.sum_map_sum_map _ _ _ _ (rows : Multiset α) (columns : Multiset β) f
  simpa using hsum

end LatencyObservatory.Lib
