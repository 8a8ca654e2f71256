import Mathlib.Data.List.Sort

/-!
# Sorting forgets the order

Under a total order a list has one sorted form, so sorting two permutations of one list gives the same
result, and a set that is kept sorted while elements are added one by one does not depend on the order
they arrive in. The sorted form lists the order statistics, which are fixed by how many elements lie on
either side.
-/

namespace LatencyObservatory.Lib

variable {α : Type} {r : α → α → Prop} [DecidableRel r]

/-- Adds an element to a sorted set. -/
def insertSorted [DecidableEq α] (r : α → α → Prop) [DecidableRel r] (l : List α) (a : α) : List α :=
  if a ∈ l then l else (l ++ [a]).insertionSort r

theorem mem_insertSorted [DecidableEq α] {l : List α} {a b : α} :
    b ∈ insertSorted r l a ↔ b ∈ l ∨ b = a := by
  unfold insertSorted
  split_ifs with ha
  · constructor
    · exact Or.inl
    · rintro (hb | rfl)
      · exact hb
      · exact ha
  · rw [List.mem_insertionSort, List.mem_append, List.mem_singleton]

section TotalOrder

variable [Std.Total r] [IsTrans α r] [Std.Antisymm r]

theorem insertionSort_eq_of_perm {l₁ l₂ : List α} (h : l₁.Perm l₂) : l₁.insertionSort r = l₂.insertionSort r := by
  apply List.Perm.eq_of_pairwise' (List.pairwise_insertionSort r l₁) (List.pairwise_insertionSort r l₂)
  calc (l₁.insertionSort r).Perm l₁ := List.perm_insertionSort r l₁
    _ |>.Perm l₂ := h
    _ |>.Perm (l₂.insertionSort r) := (List.perm_insertionSort r l₂).symm

theorem insertSorted_comm [DecidableEq α] (l : List α) (a b : α) :
    insertSorted r (insertSorted r l a) b = insertSorted r (insertSorted r l b) a := by
  by_cases ha : a ∈ l
  · have hl : insertSorted r l a = l := if_pos ha
    have hb : insertSorted r (insertSorted r l b) a = insertSorted r l b := if_pos (mem_insertSorted.mpr (Or.inl ha))
    rw [hl, hb]
  · by_cases hb : b ∈ l
    · have hl : insertSorted r l b = l := if_pos hb
      have hab : insertSorted r (insertSorted r l a) b = insertSorted r l a :=
        if_pos (mem_insertSorted.mpr (Or.inl hb))
      rw [hl, hab]
    · by_cases hab : a = b
      · rw [hab]
      · -- Both orders sort the same elements.
        have hsplit : ∀ x y, x ∉ l → y ∉ l → x ≠ y → insertSorted r (insertSorted r l x) y =
            ((l ++ [x]).insertionSort r ++ [y]).insertionSort r := by
          intro x y hx hy hxy
          have hfirst : insertSorted r l x = (l ++ [x]).insertionSort r := if_neg hx
          rw [← hfirst]
          refine if_neg fun hmem => ?_
          rcases mem_insertSorted.mp hmem with h | h
          · exact hy h
          · exact hxy h.symm
        rw [hsplit a b ha hb hab, hsplit b a hb ha (Ne.symm hab)]
        apply insertionSort_eq_of_perm
        have hswap : ∀ x y, ((l ++ [x]).insertionSort r ++ [y]).Perm (l ++ [x, y]) := by
          intro x y
          have hsorted := (List.perm_insertionSort r (l ++ [x])).append_right [y]
          simpa using hsorted
        exact (hswap a b).trans (((List.Perm.swap b a []).append_left l).trans (hswap b a).symm)

end TotalOrder

/-! ### Order statistics -/

/-- The element is the `k`-th smallest: fewer than `k` lie below it, and at least `k` not above it. -/
def IsNth (r : α → α → Prop) [DecidableRel r] (l : List α) (k : Nat) (x : α) : Prop :=
  l.countP (fun y => ¬r x y) < k ∧ k ≤ l.countP fun y => r y x

/-- What stands at a position of the sorted list is the order statistic of that position. -/
theorem isNth_of_sorted [Std.Total r] [IsTrans α r] {l : List α} {k : Nat} {x : α} (h : (l.insertionSort r)[k]? = some x) :
    IsNth r l (k + 1) x := by
  have hsorted := List.pairwise_insertionSort r l
  have hperm := List.perm_insertionSort r l
  obtain ⟨hlt, hx⟩ := List.getElem?_eq_some_iff.mp h
  unfold IsNth
  rw [← hperm.countP_eq, ← hperm.countP_eq]
  generalize l.insertionSort r = sorted at *
  have hsplit : sorted = sorted.take k ++ x :: sorted.drop (k + 1) := by
    rw [← hx, ← List.drop_eq_getElem_cons hlt, List.take_append_drop]
  rw [hsplit, List.pairwise_append, List.pairwise_cons] at hsorted
  obtain ⟨-, ⟨habove, -⟩, hbelow⟩ := hsorted
  have hlength : (sorted.take k).length = k := List.length_take_of_le hlt.le
  rw [hsplit]
  constructor
  · -- Nothing from the position on lies below its element.
    have hrest : (x :: sorted.drop (k + 1)).countP (fun y => ¬r x y) = 0 := by
      rw [List.countP_eq_zero]
      intro y hy
      rcases List.mem_cons.mp hy with rfl | hy
      · simpa using refl_of r y
      · simpa using habove y hy
    rw [List.countP_append, hrest]
    have hle : (sorted.take k).countP (fun y => ¬r x y) ≤ (sorted.take k).length := List.countP_le_length
    omega
  · have hfirst : (sorted.take k).countP (fun y => r y x) = (sorted.take k).length := by
      rw [List.countP_eq_length]
      intro y hy
      simpa using hbelow y hy x List.mem_cons_self
    rw [List.countP_append, hfirst, hlength, List.countP_cons_of_pos (by simpa using refl_of r x)]
    omega

theorem IsNth.mono [IsTrans α r] {l : List α} {j k : Nat} {x y : α} (hx : IsNth r l j x) (hy : IsNth r l k y) (hjk : j ≤ k) :
    r x y := by
  by_contra hnot
  have hle : l.countP (fun z => r z y) ≤ l.countP (fun z => ¬r x z) := by
    apply List.countP_mono_left
    intro z _ hz
    rw [decide_eq_true_eq] at hz ⊢
    exact fun hxz => hnot (IsTrans.trans x z y hxz hz)
  have hfew := hx.1
  have hmany := hy.2
  omega

theorem IsNth.unique [IsTrans α r] [Std.Antisymm r] {l : List α} {k : Nat} {x y : α} (hx : IsNth r l k x) (hy : IsNth r l k y) : x = y :=
  antisymm (hx.mono hy (Nat.le_refl k)) (hy.mono hx (Nat.le_refl k))

theorem countP_not_above [DecidableEq α] [Std.Antisymm r] (l : List α) (x : α) :
    l.countP (fun y => r y x) ≤ l.countP (fun y => ¬r x y) + l.count x := by
  induction l with
  | nil => simp
  | cons y rest ih =>
    have hstep : (if r y x then 1 else 0) ≤ (if ¬r x y then 1 else 0) + if y = x then 1 else 0 := by
      by_cases hyx : r y x
      · by_cases hxy : r x y
        · rw [if_pos hyx, if_pos (antisymm hyx hxy)]
          omega
        · rw [if_pos hyx, if_pos hxy]
          omega
      · rw [if_neg hyx]
        exact Nat.zero_le _
    rw [List.countP_cons, List.countP_cons, List.count_cons]
    simp only [decide_eq_true_eq, beq_iff_eq]
    omega

theorem IsNth.rank_unique [DecidableEq α] [Std.Antisymm r] {l : List α} (hl : l.Nodup) {j k : Nat} {x : α}
    (hj : IsNth r l j x) (hk : IsNth r l k x) : j = k := by
  have honce : l.count x ≤ 1 := List.nodup_iff_count_le_one.mp hl x
  have hbound := @countP_not_above α r _ _ _ l x
  obtain ⟨hj₁, hj₂⟩ := hj
  obtain ⟨hk₁, hk₂⟩ := hk
  omega

theorem head?_insertionSort_iff [Std.Total r] [IsTrans α r] [Std.Antisymm r] {l : List α} {x : α} :
    (l.insertionSort r).head? = some x ↔ x ∈ l ∧ ∀ y ∈ l, r x y := by
  have hleast : ∀ z, (l.insertionSort r).head? = some z → z ∈ l ∧ ∀ y ∈ l, r z y := by
    intro z hz
    obtain ⟨rest, hrest⟩ := List.head?_eq_some_iff.mp hz
    have hsorted := List.pairwise_insertionSort r l
    have hmem : ∀ y, y ∈ l ↔ y = z ∨ y ∈ rest := by
      intro y
      rw [← List.mem_insertionSort r, hrest, List.mem_cons]
    rw [hrest, List.pairwise_cons] at hsorted
    refine ⟨(hmem z).mpr (Or.inl rfl), ?_⟩
    intro y hy
    rcases (hmem y).mp hy with rfl | hy
    · exact refl_of r y
    · exact hsorted.1 y hy
  refine ⟨hleast x, ?_⟩
  rintro ⟨hx, hmin⟩
  cases hhead : (l.insertionSort r).head? with
  | none =>
    rw [List.head?_eq_none_iff] at hhead
    rw [← List.mem_insertionSort r, hhead] at hx
    cases hx
  | some z =>
    obtain ⟨hz, hzmin⟩ := hleast z hhead
    rw [antisymm (hzmin x hx) (hmin z hz)]

theorem getLast?_insertionSort_iff [Std.Total r] [IsTrans α r] [Std.Antisymm r] {l : List α} {x : α} :
    (l.insertionSort r).getLast? = some x ↔ x ∈ l ∧ ∀ y ∈ l, r y x := by
  have hgreatest : ∀ z, (l.insertionSort r).getLast? = some z → z ∈ l ∧ ∀ y ∈ l, r y z := by
    intro z hz
    obtain ⟨front, hfront⟩ := List.getLast?_eq_some_iff.mp hz
    have hsorted := List.pairwise_insertionSort r l
    have hmem : ∀ y, y ∈ l ↔ y ∈ front ∨ y = z := by
      intro y
      rw [← List.mem_insertionSort r, hfront, List.mem_append, List.mem_singleton]
    rw [hfront, List.pairwise_append] at hsorted
    refine ⟨(hmem z).mpr (Or.inr rfl), ?_⟩
    intro y hy
    rcases (hmem y).mp hy with hy | rfl
    · exact hsorted.2.2 y hy z (List.mem_singleton_self z)
    · exact refl_of r y
  refine ⟨hgreatest x, ?_⟩
  rintro ⟨hx, hmax⟩
  cases hlast : (l.insertionSort r).getLast? with
  | none =>
    rw [List.getLast?_eq_none_iff] at hlast
    rw [← List.mem_insertionSort r, hlast] at hx
    cases hx
  | some z =>
    obtain ⟨hz, hzmax⟩ := hgreatest z hlast
    rw [antisymm (hmax z hz) (hzmax x hx)]

end LatencyObservatory.Lib
