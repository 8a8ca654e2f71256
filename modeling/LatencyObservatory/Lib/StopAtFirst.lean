import Mathlib.Data.List.Infix
import Mathlib.Tactic.Common

/-!
# Recovery that stops at the first damaged part

A log in several parts is recovered part by part: each part yields the entries that were intact and
says whether the whole part was. Recovery keeps what the first damaged part yielded and reads nothing
after it.
-/

namespace LatencyObservatory.Lib

variable {α : Type}

/-- The entries recovered, and whether every part was intact. -/
def recover : List (List α × Bool) → List α × Bool
  | [] => ([], true)
  | (xs, true) :: parts => (xs ++ (recover parts).1, (recover parts).2)
  | (xs, false) :: _ => (xs, false)

theorem recover_cons (p : List α × Bool) (parts : List (List α × Bool)) :
    recover (p :: parts) = if p.2 then (p.1 ++ (recover parts).1, (recover parts).2) else (p.1, false) := by
  obtain ⟨xs, b⟩ := p
  cases b <;> rfl

theorem recover_append {parts : List (List α × Bool)} (h : ∀ p ∈ parts, p.2 = true)
    (rest : List (List α × Bool)) :
    recover (parts ++ rest) = (parts.flatMap Prod.fst ++ (recover rest).1, (recover rest).2) := by
  induction parts with
  | nil => simp
  | cons p parts ih =>
    rw [List.cons_append, recover_cons, if_pos (h p List.mem_cons_self),
      ih fun q hq => h q (List.mem_cons_of_mem _ hq), List.flatMap_cons, List.append_assoc]

theorem recover_intact {parts : List (List α × Bool)} (h : ∀ p ∈ parts, p.2 = true) :
    recover parts = (parts.flatMap Prod.fst, true) := by
  have := recover_append h []
  simpa [recover] using this

theorem recover_append_of_damaged {parts : List (List α × Bool)} (h : ∃ p ∈ parts, p.2 = false)
    (rest : List (List α × Bool)) : recover (parts ++ rest) = recover parts ∧ (recover parts).2 = false := by
  induction parts with
  | nil => simp at h
  | cons p parts ih =>
    rw [List.cons_append, recover_cons, recover_cons p parts]
    by_cases hp : p.2 = true
    · obtain ⟨q, hq, hdamaged⟩ := h
      have hq' : q ∈ parts := by
        rcases List.mem_cons.mp hq with rfl | hq
        · rw [hp] at hdamaged
          exact absurd hdamaged (by decide)
        · exact hq
      obtain ⟨heq, hfalse⟩ := ih ⟨q, hq', hdamaged⟩
      rw [if_pos hp, if_pos hp, heq]
      exact ⟨rfl, hfalse⟩
    · rw [if_neg hp, if_neg hp]
      exact ⟨rfl, rfl⟩

theorem recover_snd_iff {parts : List (List α × Bool)} :
    (recover parts).2 = true ↔ ∀ p ∈ parts, p.2 = true := by
  constructor
  · intro h p hp
    by_contra hne
    have := (recover_append_of_damaged ⟨p, hp, by simpa using hne⟩ []).2
    rw [this] at h
    exact absurd h (by decide)
  · intro h
    rw [recover_intact h]

theorem recover_isPrefix (parts : List (List α × Bool)) : (recover parts).1 <+: parts.flatMap Prod.fst := by
  induction parts with
  | nil => simp [recover]
  | cons p parts ih =>
    rw [recover_cons, List.flatMap_cons]
    split
    · exact (List.prefix_append_right_inj p.1).mpr ih
    · exact List.prefix_append _ _

theorem recover_prefix_append (parts rest : List (List α × Bool)) :
    (recover parts).1 <+: (recover (parts ++ rest)).1 := by
  by_cases hall : ∀ p ∈ parts, p.2 = true
  · rw [recover_intact hall, recover_append hall]
    exact List.prefix_append _ _
  · have hdamaged : ∃ p ∈ parts, p.2 = false := by simpa using hall
    rw [(recover_append_of_damaged hdamaged rest).1]

theorem recover_damaged (before after : List (List α × Bool)) {xs ys : List α} (h : xs <+: ys) :
    (recover (before ++ (xs, false) :: after)).1 <+: before.flatMap Prod.fst ++ ys ∧
      (recover (before ++ (xs, false) :: after)).2 = false := by
  by_cases hbefore : ∀ p ∈ before, p.2 = true
  · rw [recover_append hbefore]
    exact ⟨(List.prefix_append_right_inj _).mpr h, rfl⟩
  · have hdamaged : ∃ p ∈ before, p.2 = false := by simpa using hbefore
    obtain ⟨heq, hfalse⟩ := recover_append_of_damaged hdamaged ((xs, false) :: after)
    rw [heq]
    exact ⟨(recover_isPrefix before).trans (List.prefix_append _ _), hfalse⟩

/-! ## One part of a list -/

theorem exists_split {l : List α} {k : Nat} {a : α} (h : l[k]? = some a) :
    ∃ xs ys, l = xs ++ a :: ys ∧ xs.length = k := by
  obtain ⟨hk, rfl⟩ := List.getElem?_eq_some_iff.mp h
  refine ⟨l.take k, l.drop (k + 1), ?_, ?_⟩
  · rw [List.cons_getElem_drop_succ, List.take_append_drop]
  · rw [List.length_take]
    omega

theorem modify_append_cons (xs ys : List α) (a : α) (f : α → α) :
    (xs ++ a :: ys).modify xs.length f = xs ++ f a :: ys := by
  induction xs with
  | nil => rfl
  | cons x xs ih => simpa using ih

end LatencyObservatory.Lib
