import Mathlib.Data.List.Perm.Basic

/-!
# Bracketings

A bracketing is a binary tree over the operands of an operation. Under an associative and commutative operation
its value depends on the operands only, not on how they are ordered or bracketed.
-/

namespace LatencyObservatory.Lib

inductive Bracketing (α : Type) where
  | leaf (a : α)
  | node (left right : Bracketing α)

namespace Bracketing

variable {α β : Type}

def leaves : Bracketing α → List α
  | leaf a => [a]
  | node left right => left.leaves ++ right.leaves

def fold (op : α → α → α) : Bracketing α → α
  | leaf a => a
  | node left right => op (left.fold op) (right.fold op)

def map (f : α → β) : Bracketing α → Bracketing β
  | leaf a => leaf (f a)
  | node left right => node (left.map f) (right.map f)

theorem leaves_length_pos (t : Bracketing α) : 0 < t.leaves.length := by
  induction t with
  | leaf a => exact Nat.zero_lt_one
  | node left right ihl ihr =>
    rw [leaves, List.length_append]
    omega

theorem eq_leaf_of_perm {t : Bracketing α} {a : α} (h : t.leaves.Perm [a]) : t = leaf a := by
  cases t with
  | leaf b => rw [List.singleton_perm_singleton.mp h]
  | node left right =>
    have hlength := h.length_eq
    have hleft := left.leaves_length_pos
    have hright := right.leaves_length_pos
    rw [leaves, List.length_append, List.length_singleton] at hlength
    omega

theorem leaves_map (f : α → β) (t : Bracketing α) : (t.map f).leaves = t.leaves.map f := by
  induction t with
  | leaf a => rfl
  | node left right ihl ihr => rw [map, leaves, leaves, ihl, ihr, List.map_append]

theorem fold_map {f : α → β} {op : α → α → α} {op' : β → β → β} (h : ∀ a b, f (op a b) = op' (f a) (f b))
    (t : Bracketing α) : f (t.fold op) = (t.map f).fold op' := by
  induction t with
  | leaf a => rfl
  | node left right ihl ihr => rw [fold, h, ihl, ihr, map, fold]

section Commutative

variable {op : α → α → α} [Std.Associative op] [Std.Commutative op]

omit [Std.Commutative op] in
theorem fold_eq_foldl (t : Bracketing α) : ∃ first rest, t.leaves = first :: rest ∧ t.fold op = rest.foldl op first := by
  induction t with
  | leaf a => exact ⟨a, [], rfl, rfl⟩
  | node left right ihl ihr =>
    obtain ⟨a, restl, hl, hfoldl⟩ := ihl
    obtain ⟨b, restr, hr, hfoldr⟩ := ihr
    refine ⟨a, restl ++ b :: restr, ?_, ?_⟩
    · rw [leaves, hl, hr, List.cons_append]
    · rw [fold, hfoldl, hfoldr, List.foldl_append, List.foldl_cons, List.foldl_assoc]

theorem foldl_eq_of_perm_cons {a b : α} {l m : List α} (h : (a :: l).Perm (b :: m)) : l.foldl op a = m.foldl op b := by
  rcases List.mem_cons.mp (h.subset List.mem_cons_self) with rfl | hmem
  · exact h.cons_inv.foldl_op_eq
  · -- The first operand of one side stands somewhere in the rest of the other.
    obtain ⟨front, back, rfl⟩ := List.append_of_mem hmem
    have hswap : (b :: (front ++ a :: back)).Perm (a :: b :: (front ++ back)) :=
      (List.perm_middle.cons b).trans (List.Perm.swap a b _)
    have hrest : l.Perm (b :: (front ++ back)) := (h.trans hswap).cons_inv
    have hcomm : op a b = op b a := Std.Commutative.comm a b
    calc l.foldl op a = (b :: (front ++ back)).foldl op a := hrest.foldl_op_eq
      _ = (front ++ back).foldl op (op b a) := by rw [List.foldl_cons, hcomm]
      _ = (a :: (front ++ back)).foldl op b := (List.foldl_cons ..).symm
      _ = (front ++ a :: back).foldl op b := List.perm_middle.symm.foldl_op_eq

theorem fold_eq_of_perm {t t' : Bracketing α} (h : t.leaves.Perm t'.leaves) : t.fold op = t'.fold op := by
  obtain ⟨a, l, hleaves, hfold⟩ := @fold_eq_foldl _ op _ t
  obtain ⟨b, m, hleaves', hfold'⟩ := @fold_eq_foldl _ op _ t'
  rw [hleaves, hleaves'] at h
  rw [hfold, hfold', foldl_eq_of_perm_cons h]

end Commutative

end Bracketing

end LatencyObservatory.Lib
