import Mathlib.Data.List.Basic
import Mathlib.Tactic.Common

/-!
# Self-delimiting codes

A code is self-delimiting if what is written after a code word never makes it read as another one. Such codes can be
written one after the other without losing anything, so a text of many fields is injective as soon as each field
ends with a mark that its contents do not contain.
-/

namespace LatencyObservatory.Lib

variable {α β : Type}

/-- Whatever follows, a code word is read back. -/
def SelfDelimiting (code : α → List β) : Prop :=
  ∀ (a b : α) (xs ys : List β), code a ++ xs = code b ++ ys → a = b ∧ xs = ys

namespace SelfDelimiting

variable {code : α → List β}

theorem append_inj_iff (h : SelfDelimiting code) (a b : α) (xs ys : List β) :
    code a ++ xs = code b ++ ys ↔ a = b ∧ xs = ys := by
  constructor
  · exact h a b xs ys
  · rintro ⟨rfl, rfl⟩
    rfl

theorem injective (h : SelfDelimiting code) : Function.Injective code := by
  intro a b hab
  exact (h a b [] [] (by rw [List.append_nil, List.append_nil, hab])).1

theorem prepend (h : SelfDelimiting code) (label : List β) : SelfDelimiting fun a => label ++ code a := by
  intro a b xs ys hab
  simp only [List.append_assoc, List.append_cancel_left_eq] at hab
  exact h a b xs ys hab

end SelfDelimiting

/-! ### Marks -/

theorem split_at_mark {mark : β → Prop} {u v xs ys : List β} (hu : ∀ c ∈ u, ¬mark c) (hv : ∀ c ∈ v, ¬mark c) {m m' : β}
    (hm : mark m) (hm' : mark m') (h : u ++ m :: xs = v ++ m' :: ys) : u = v ∧ m = m' ∧ xs = ys := by
  induction u generalizing v with
  | nil =>
    cases v with
    | nil => exact ⟨rfl, (List.cons.inj h).1, (List.cons.inj h).2⟩
    | cons c v =>
      rw [(List.cons.inj h).1] at hm
      exact absurd hm (hv c List.mem_cons_self)
  | cons c u ih =>
    cases v with
    | nil =>
      rw [← (List.cons.inj h).1] at hm'
      exact absurd hm' (hu c List.mem_cons_self)
    | cons c' v =>
      rw [List.forall_mem_cons] at hu hv
      obtain ⟨hfirst, hrest⟩ := List.cons.inj h
      obtain ⟨hcontents, hmark⟩ := ih hu.2 hv.2 hrest
      exact ⟨by rw [hfirst, hcontents], hmark⟩

theorem selfDelimiting_terminated {body : α → List β} (hbody : Function.Injective body) {stop : β}
    (hstop : ∀ a, stop ∉ body a) : SelfDelimiting fun a => body a ++ [stop] := by
  intro a b xs ys hab
  have hfree : ∀ a, ∀ c ∈ body a, ¬c = stop := by
    rintro a c hc rfl
    exact hstop a hc
  simp only [List.append_assoc, List.singleton_append] at hab
  obtain ⟨hcontents, -, hrest⟩ := split_at_mark (hfree a) (hfree b) rfl rfl hab
  exact ⟨hbody hcontents, hrest⟩

section Separated

variable {body : α → List β} {sep stop : β}

/-- The fields after the first, each behind a separator, and the mark at the end. -/
def laterFields (body : α → List β) (sep stop : β) (items : List α) : List β :=
  items.flatMap (fun a => sep :: body a) ++ [stop]

theorem laterFields_starts (items : List α) (xs : List β) :
    ∃ m rest, (m = sep ∨ m = stop) ∧ laterFields body sep stop items ++ xs = m :: rest := by
  cases items with
  | nil => exact ⟨stop, xs, Or.inr rfl, rfl⟩
  | cons a items =>
    refine ⟨sep, body a ++ (items.flatMap (fun a => sep :: body a) ++ [stop] ++ xs), Or.inl rfl, ?_⟩
    simp only [laterFields, List.flatMap_cons, List.cons_append, List.append_assoc]

theorem intersperse_flatten (a : α) (items : List α) :
    (((a :: items).map body).intersperse [sep]).flatten = body a ++ items.flatMap fun b => sep :: body b := by
  induction items generalizing a with
  | nil => simp
  | cons b items ih =>
    have hrest := ih b
    rw [List.map_cons] at hrest
    rw [List.map_cons, List.map_cons, List.intersperse_cons_cons, List.flatten_cons, List.flatten_cons, hrest,
      List.flatMap_cons]
    rfl

variable (hbody : Function.Injective body) (hsep : ∀ a, sep ∉ body a) (hstop : ∀ a, stop ∉ body a)

include hbody hsep hstop

theorem split_first {a b : α} {items others : List α} {xs ys : List β}
    (h : body a ++ (laterFields body sep stop items ++ xs) = body b ++ (laterFields body sep stop others ++ ys)) :
    a = b ∧ laterFields body sep stop items ++ xs = laterFields body sep stop others ++ ys := by
  have hfree : ∀ a, ∀ c ∈ body a, ¬(c = sep ∨ c = stop) := by
    rintro a c hc (rfl | rfl)
    · exact hsep a hc
    · exact hstop a hc
  obtain ⟨m, rest, hm, hleft⟩ := @laterFields_starts _ _ body sep stop items xs
  obtain ⟨m', rest', hm', hright⟩ := @laterFields_starts _ _ body sep stop others ys
  rw [hleft, hright] at h ⊢
  obtain ⟨hcontents, hmark, hrest⟩ := split_at_mark (hfree a) (hfree b) hm hm' h
  exact ⟨hbody hcontents, by rw [hmark, hrest]⟩

theorem selfDelimiting_laterFields (hmarks : sep ≠ stop) : SelfDelimiting (laterFields body sep stop) := by
  intro items
  induction items with
  | nil =>
    intro others xs ys h
    cases others with
    | nil => exact ⟨rfl, List.append_cancel_left h⟩
    | cons b others => exact absurd (List.cons.inj h).1.symm hmarks
  | cons a items ih =>
    intro others xs ys h
    cases others with
    | nil => exact absurd (List.cons.inj h).1 hmarks
    | cons b others =>
      have hfields : body a ++ (laterFields body sep stop items ++ xs) =
          body b ++ (laterFields body sep stop others ++ ys) := by
        simp only [laterFields, List.flatMap_cons, List.cons_append, List.append_assoc, List.cons.injEq, true_and] at h ⊢
        exact h
      obtain ⟨hfirst, hrest⟩ := split_first hbody hsep hstop hfields
      obtain ⟨hitems, hxs⟩ := ih others xs ys hrest
      exact ⟨by rw [hfirst, hitems], hxs⟩

/-- A list of fields with separators between them and a mark at the end; a field is not empty. -/
theorem selfDelimiting_separated (hmarks : sep ≠ stop) (hsome : ∀ a, body a ≠ []) :
    SelfDelimiting fun items : List α => ((items.map body).intersperse [sep]).flatten ++ [stop] := by
  have hempty : ∀ (a : α) (xs ys : List β), stop :: xs ≠ body a ++ ys := by
    intro a xs ys h
    obtain ⟨c, rest, hc⟩ := List.exists_cons_of_ne_nil (hsome a)
    apply hstop a
    rw [hc] at h ⊢
    rw [(List.cons.inj h).1]
    exact List.mem_cons_self
  have hcons : ∀ (a : α) (items : List α) (xs : List β),
      ((((a :: items).map body).intersperse [sep]).flatten ++ [stop]) ++ xs =
        body a ++ (laterFields body sep stop items ++ xs) := by
    intro a items xs
    rw [intersperse_flatten, laterFields]
    simp only [List.append_assoc]
  intro items others xs ys h
  cases items with
  | nil =>
    cases others with
    | nil => exact ⟨rfl, List.append_cancel_left h⟩
    | cons b others =>
      simp only [hcons] at h
      exact absurd h (hempty b _ _)
  | cons a items =>
    cases others with
    | nil =>
      simp only [hcons] at h
      exact absurd h.symm (hempty a _ _)
    | cons b others =>
      simp only [hcons] at h
      obtain ⟨hfirst, hrest⟩ := split_first hbody hsep hstop h
      obtain ⟨hitems, hxs⟩ := selfDelimiting_laterFields hbody hsep hstop hmarks items others xs ys hrest
      exact ⟨by rw [hfirst, hitems], hxs⟩

end Separated

end LatencyObservatory.Lib
