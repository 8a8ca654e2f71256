import Mathlib.Data.List.Basic
import Mathlib.Tactic.Common

/-!
# Listings with a limit

A loop that lists what it keeps of a sequence and tests its limit before it looks at the next item. It lists the
first of what is kept, and its flag says that some item was not looked at: that need not be one to keep, so a
listing that is exactly full is flagged unless the sequence ends with its last entry.
-/

namespace LatencyObservatory.Lib

variable {α β : Type} (limit : Nat) (keep : α → Bool) (entry : α → β)

/-- The listing so far, and whether an item was left out unseen. -/
def listUpTo (listed : List β) : List α → List β × Bool
  | [] => (listed, false)
  | a :: rest =>
    if listed.length ≥ limit then (listed, true)
    else if keep a then listUpTo (listed ++ [entry a]) rest
    else listUpTo listed rest

/-- The sequence goes on after the last item that is kept. -/
def EndsUnkept (items : List α) : Prop :=
  ∃ last, items.getLast? = some last ∧ keep last = false

variable {limit keep entry}

@[simp] theorem listUpTo_nil (listed : List β) : listUpTo limit keep entry listed [] = (listed, false) := rfl

theorem listUpTo_cons (listed : List β) (a : α) (rest : List α) :
    listUpTo limit keep entry listed (a :: rest) =
      if listed.length ≥ limit then (listed, true)
      else if keep a then listUpTo limit keep entry (listed ++ [entry a]) rest
      else listUpTo limit keep entry listed rest := rfl

theorem listUpTo_cons_full {listed : List β} (h : listed.length ≥ limit) (a : α) (rest : List α) :
    listUpTo limit keep entry listed (a :: rest) = (listed, true) := by
  rw [listUpTo_cons, if_pos h]

theorem listUpTo_cons_keep {listed : List β} (h : listed.length < limit) {a : α} (ha : keep a = true) (rest : List α) :
    listUpTo limit keep entry listed (a :: rest) = listUpTo limit keep entry (listed ++ [entry a]) rest := by
  rw [listUpTo_cons, if_neg (by omega), if_pos ha]

theorem listUpTo_cons_skip {listed : List β} (h : listed.length < limit) {a : α} (ha : keep a = false) (rest : List α) :
    listUpTo limit keep entry listed (a :: rest) = listUpTo limit keep entry listed rest := by
  rw [listUpTo_cons, if_neg (by omega), if_neg (by rw [ha]; exact Bool.false_ne_true)]

theorem listUpTo_listed (items : List α) {listed : List β} (h : listed.length ≤ limit) :
    (listUpTo limit keep entry listed items).1 =
      listed ++ ((items.filter keep).take (limit - listed.length)).map entry := by
  induction items generalizing listed with
  | nil => simp
  | cons a rest ih =>
    rcases Nat.lt_or_ge listed.length limit with hroom | hfull
    · cases ha : keep a with
      | true =>
        have hnext : (listed ++ [entry a]).length ≤ limit := by
          rw [List.length_append, List.length_singleton]
          omega
        have hroom' : limit - listed.length = limit - (listed ++ [entry a]).length + 1 := by
          rw [List.length_append, List.length_singleton]
          omega
        rw [listUpTo_cons_keep hroom ha, ih hnext, List.filter_cons_of_pos ha, hroom',
          List.take_succ_cons, List.map_cons, List.append_assoc]
        rfl
      | false =>
        rw [listUpTo_cons_skip hroom ha, ih h, List.filter_cons_of_neg (by rw [ha]; exact Bool.false_ne_true)]
    · rw [listUpTo_cons_full hfull, Nat.sub_eq_zero_of_le hfull, List.take_zero, List.map_nil, List.append_nil]

theorem endsUnkept_cons_of_ne_nil {a : α} {rest : List α} (h : rest ≠ []) :
    EndsUnkept keep (a :: rest) ↔ EndsUnkept keep rest := by
  unfold EndsUnkept
  rw [List.getLast?_cons_of_ne_nil h]

theorem endsUnkept_cons_of_keep {a : α} (ha : keep a = true) (rest : List α) :
    EndsUnkept keep (a :: rest) ↔ EndsUnkept keep rest := by
  cases rest with
  | nil => simp [EndsUnkept, ha]
  | cons b rest => exact endsUnkept_cons_of_ne_nil (List.cons_ne_nil b rest)

theorem endsUnkept_of_filter_eq_nil {items : List α} (hne : items ≠ []) (h : items.filter keep = []) :
    EndsUnkept keep items := by
  refine ⟨items.getLast hne, List.getLast?_eq_getLast_of_ne_nil hne, ?_⟩
  have hlast := List.filter_eq_nil_iff.mp h (items.getLast hne) (List.getLast_mem hne)
  simpa using hlast

/-- When the flag is set: more is kept than fits, or what is kept fits exactly and the sequence goes on. -/
theorem listUpTo_flag_iff (items : List α) {listed : List β} (h : listed.length ≤ limit) :
    (listUpTo limit keep entry listed items).2 = true ↔
      limit - listed.length < (items.filter keep).length ∨
        (limit - listed.length = (items.filter keep).length ∧ EndsUnkept keep items) := by
  induction items generalizing listed with
  | nil => simp [EndsUnkept]
  | cons a rest ih =>
    rcases Nat.lt_or_ge listed.length limit with hroom | hfull
    · cases ha : keep a with
      | true =>
        have hnext : (listed ++ [entry a]).length ≤ limit := by
          rw [List.length_append, List.length_singleton]
          omega
        rw [listUpTo_cons_keep hroom ha, ih hnext, List.filter_cons_of_pos ha,
          endsUnkept_cons_of_keep ha, List.length_cons, List.length_append, List.length_singleton]
        have hless : limit - (listed.length + 1) < (rest.filter keep).length ↔
            limit - listed.length < (rest.filter keep).length + 1 := by omega
        have hequal : limit - (listed.length + 1) = (rest.filter keep).length ↔
            limit - listed.length = (rest.filter keep).length + 1 := by omega
        rw [hless, hequal]
      | false =>
        rw [listUpTo_cons_skip hroom ha, ih h, List.filter_cons_of_neg (by rw [ha]; exact Bool.false_ne_true)]
        by_cases hrest : rest = []
        · -- Nothing is kept, and there was room for something.
          rw [hrest, List.filter_nil, List.length_nil]
          omega
        · rw [endsUnkept_cons_of_ne_nil hrest]
    · rw [listUpTo_cons_full hfull, Nat.sub_eq_zero_of_le hfull]
      refine iff_of_true rfl ?_
      by_cases hnone : (a :: rest).filter keep = []
      · right
        exact ⟨by rw [hnone]; rfl, endsUnkept_of_filter_eq_nil (List.cons_ne_nil a rest) hnone⟩
      · left
        exact List.length_pos_of_ne_nil hnone

/-! ### Outputs that count what they leave out -/

/-- An output under construction: what was taken, and what was kept but came after the limit. -/
structure Output (γ : Type) where
  out : γ
  taken : Nat := 0
  skipped : Nat := 0
  truncated : Bool := false

/-- One item: the limit is tested only for an item that is kept. -/
def outputStep {γ : Type} (limit : Nat) (keep : α → Bool) (write : γ → α → γ) (s : Output γ) (a : α) : Output γ :=
  if !keep a then s
  else if s.taken ≥ limit then { s with skipped := s.skipped + 1, truncated := true }
  else { s with out := write s.out a, taken := s.taken + 1 }

/-- The first of what is kept is written, the rest is counted, and the flag says that there is a rest. -/
theorem foldl_outputStep {γ : Type} (write : γ → α → γ) (items : List α) (s : Output γ) :
    items.foldl (outputStep limit keep write) s =
      { out := ((items.filter keep).take (limit - s.taken)).foldl write s.out
        taken := s.taken + min (limit - s.taken) (items.filter keep).length
        skipped := s.skipped + ((items.filter keep).length - (limit - s.taken))
        truncated := s.truncated || decide (limit - s.taken < (items.filter keep).length) } := by
  induction items generalizing s with
  | nil => simp
  | cons a rest ih =>
    rw [List.foldl_cons, ih]
    unfold outputStep
    cases ha : keep a with
    | false => simp [List.filter_cons_of_neg, ha]
    | true =>
      rw [List.filter_cons_of_pos ha, List.length_cons, Bool.not_true, if_neg Bool.false_ne_true]
      by_cases hfull : s.taken ≥ limit
      · rw [if_pos hfull, Nat.sub_eq_zero_of_le hfull]
        simp only [List.take_zero, Nat.zero_min, Nat.sub_zero, Nat.zero_lt_succ, decide_true, Bool.or_true, Bool.true_or,
          List.foldl_nil, Nat.add_zero]
        congr 1
        omega
      · have hroom : limit - s.taken = limit - (s.taken + 1) + 1 := by omega
        rw [if_neg hfull, hroom, List.take_succ_cons, List.foldl_cons]
        simp only [Nat.add_lt_add_iff_right, Nat.add_sub_add_right]
        congr 1
        omega

end LatencyObservatory.Lib
