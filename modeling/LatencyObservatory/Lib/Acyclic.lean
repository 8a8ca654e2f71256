import Mathlib.Order.WellFoundedSet
import Mathlib.Logic.Relation

/-!
# Acyclic relations under redirection

A relation changes at one node: its outgoing edges are replaced by a single one. If the relation was acyclic, it
stays so exactly when the old edges do not lead from the new target back to the node, for every cycle of the new
relation runs through the node, and the part of it outside the node is old. An acyclic relation on a finite nonempty
set leaves some element without a predecessor in it.
-/

namespace LatencyObservatory.Lib

open Relation

variable {α : Type}

def Acyclic (r : α → α → Prop) : Prop :=
  ∀ a, ¬ TransGen r a a

/-- `r'` is `r` with the outgoing edges of `x` replaced by one to `target`. -/
structure Redirected (r r' : α → α → Prop) (x target : α) : Prop where
  others : ∀ a b, a ≠ x → (r' a b ↔ r a b)
  edge : ∀ b, r' x b ↔ b = target

section Redirection

variable {r r' : α → α → Prop} {x target a b : α}

theorem reaches_of_agree (h : ∀ a b, a ≠ x → r a b → r' a b) (hr : ReflTransGen r a x) : ReflTransGen r' a x := by
  induction hr using ReflTransGen.head_induction_on with
  | refl => exact .refl
  | @head a b hab _ ih =>
    by_cases ha : a = x
    · subst ha
      exact .refl
    · exact .head (h a b ha hab) ih

theorem Redirected.reaches_iff (h : Redirected r r' x target) : ReflTransGen r' a x ↔ ReflTransGen r a x :=
  ⟨reaches_of_agree fun a b ha => (h.others a b ha).mp, reaches_of_agree fun a b ha => (h.others a b ha).mpr⟩

theorem Redirected.path_cases (h : Redirected r r' x target) (hr : TransGen r' a b) :
    TransGen r a b ∨ ReflTransGen r' a x ∧ TransGen r' x b := by
  induction hr with
  | @single b hab =>
    by_cases ha : a = x
    · subst ha
      exact Or.inr ⟨.refl, .single hab⟩
    · exact Or.inl (.single ((h.others a b ha).mp hab))
  | @tail c d hac hcd ih =>
    by_cases hc : c = x
    · subst hc
      exact Or.inr ⟨hac.to_reflTransGen, .single hcd⟩
    · rcases ih with hold | ⟨hto, hfrom⟩
      · exact Or.inl (hold.tail ((h.others c d hc).mp hcd))
      · exact Or.inr ⟨hto, hfrom.tail hcd⟩

theorem Redirected.acyclic_iff (h : Redirected r r' x target) (hr : Acyclic r) :
    Acyclic r' ↔ ¬ ReflTransGen r target x := by
  have hedge : r' x target := (h.edge target).mpr rfl
  constructor
  · intro hacyclic hback
    exact hacyclic x (TransGen.head' hedge (h.reaches_iff.mpr hback))
  · intro hback a hcycle
    have hx : TransGen r' x x := by
      rcases h.path_cases hcycle with hold | ⟨hto, hfrom⟩
      · exact absurd hold (hr a)
      · exact hfrom.trans_left hto
    obtain ⟨b, hxb, hbx⟩ := TransGen.head'_iff.mp hx
    rw [(h.edge b).mp hxb] at hbx
    exact hback (h.reaches_iff.mp hbx)

end Redirection

/-- On a finite nonempty set an acyclic relation leaves an element without a predecessor. -/
theorem Acyclic.exists_source {r : α → α → Prop} (hr : Acyclic r) {s : Set α} (hfinite : s.Finite)
    (hnonempty : s.Nonempty) : ∃ a ∈ s, ∀ b ∈ s, ¬ r b a := by
  have hirrefl : Std.Irrefl (TransGen r) := ⟨hr⟩
  have horder : IsStrictOrder α (TransGen r) := { }
  have hwf : s.WellFoundedOn (TransGen r) := hfinite.wellFoundedOn
  obtain ⟨⟨a, ha⟩, -, hmin⟩ := WellFounded.has_min hwf Set.univ ⟨⟨_, hnonempty.some_mem⟩, trivial⟩
  refine ⟨a, ha, fun b hb hba => ?_⟩
  exact hmin ⟨b, hb⟩ trivial (.single hba)

end LatencyObservatory.Lib
