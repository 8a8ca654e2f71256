import Mathlib.Data.List.Pairwise
import Mathlib.Tactic.Common
import Std.Data.ExtTreeMap.Lemmas
import Std.Data.ExtTreeSet.Lemmas

/-!
# Tables from their entries

A table that is listed entry by entry and filled again from that list is the same table, whichever of the two ways of
filling it is used: keys of a listing are distinct, so that it does not matter who wins a key twice listed. A set that
is filled from a list has the members of the list.
-/

namespace LatencyObservatory.Lib

section Tables

variable {α β : Type} [Ord α] [Std.TransOrd α]

/-- A way of putting an entry in that agrees with insertion where the key is new. -/
def PutsNew (put : Std.ExtTreeMap α β compare → α → β → Std.ExtTreeMap α β compare) : Prop :=
  ∀ table key value, table[key]? = none →
    ∀ other, (put table key value)[other]? = if compare key other = .eq then some value else table[other]?

theorem insert_putsNew : PutsNew fun (table : Std.ExtTreeMap α β compare) key value => table.insert key value := by
  intro table key value _ other
  rw [Std.ExtTreeMap.getElem?_insert]

theorem insertIfNew_putsNew :
    PutsNew fun (table : Std.ExtTreeMap α β compare) key value => table.insertIfNew key value := by
  intro table key value hnew other
  have habsent : key ∉ table := by
    rw [← Std.ExtTreeMap.isSome_getElem?_iff_mem, hnew]
    exact Bool.false_ne_true
  rw [Std.ExtTreeMap.getElem?_insertIfNew]
  simp only [habsent, not_false_eq_true, and_true]

variable [Std.LawfulEqOrd α] {put : Std.ExtTreeMap α β compare → α → β → Std.ExtTreeMap α β compare}

theorem getElem?_foldl_put (hput : PutsNew put) {entries : List (α × β)} {table : Std.ExtTreeMap α β compare}
    (hdistinct : entries.Pairwise fun a b => a.1 ≠ b.1) (hnew : ∀ entry ∈ entries, table[entry.1]? = none) {key : α}
    {value : β} :
    (entries.foldl (fun table entry => put table entry.1 entry.2) table)[key]? = some value ↔
      table[key]? = some value ∨ (key, value) ∈ entries := by
  induction entries generalizing table with
  | nil => simp
  | cons entry rest ih =>
    rw [List.pairwise_cons] at hdistinct
    rw [List.forall_mem_cons] at hnew
    have hlookup := hput table entry.1 entry.2 hnew.1
    have hstillNew : ∀ other ∈ rest, (put table entry.1 entry.2)[other.1]? = none := by
      intro other hother
      rw [hlookup, if_neg fun heq => hdistinct.1 other hother (Std.LawfulEqOrd.compare_eq_iff_eq.mp heq)]
      exact hnew.2 other hother
    rw [List.foldl_cons, ih hdistinct.2 hstillNew, hlookup, List.mem_cons, ← or_assoc]
    apply or_congr_left
    by_cases hkey : entry.1 = key
    · subst hkey
      rw [if_pos (Std.LawfulEqOrd.compare_eq_iff_eq.mpr rfl), hnew.1]
      simp [Prod.ext_iff, eq_comm]
    · rw [if_neg fun heq => hkey (Std.LawfulEqOrd.compare_eq_iff_eq.mp heq)]
      simp [Prod.ext_iff, Ne.symm hkey]

theorem foldl_put_toList (hput : PutsNew put) (table : Std.ExtTreeMap α β compare) :
    table.toList.foldl (fun table entry => put table entry.1 entry.2) ∅ = table := by
  have hdistinct : table.toList.Pairwise fun a b => a.1 ≠ b.1 := by
    refine table.distinct_keys_toList.imp fun hne heq => hne ?_
    exact Std.LawfulEqOrd.compare_eq_iff_eq.mpr heq
  apply Std.ExtTreeMap.ext_getElem?
  intro key
  apply Option.ext
  intro value
  rw [getElem?_foldl_put hput hdistinct (fun _ _ => Std.ExtTreeMap.getElem?_empty),
    Std.ExtTreeMap.mem_toList_iff_getElem?_eq_some]
  simp

theorem getElem?_foldl_insert {entries : List (α × β)} {table : Std.ExtTreeMap α β compare}
    (hdistinct : entries.Pairwise fun a b => a.1 ≠ b.1) {key : α} {value : β} :
    (entries.foldl (fun table entry => table.insert entry.1 entry.2) table)[key]? = some value ↔
      (key, value) ∈ entries ∨ (∀ entry ∈ entries, entry.1 ≠ key) ∧ table[key]? = some value := by
  induction entries generalizing table with
  | nil => simp
  | cons entry rest ih =>
    rw [List.pairwise_cons] at hdistinct
    rw [List.foldl_cons, ih hdistinct.2, Std.ExtTreeMap.getElem?_insert, List.mem_cons, List.forall_mem_cons]
    by_cases hkey : entry.1 = key
    · subst hkey
      have hrest : ∀ other ∈ rest, other.1 ≠ entry.1 := fun other hother => (hdistinct.1 other hother).symm
      rw [if_pos (Std.LawfulEqOrd.compare_eq_iff_eq.mpr rfl)]
      constructor
      · rintro (hmem | ⟨-, hvalue⟩)
        · exact Or.inl (Or.inr hmem)
        · cases hvalue
          exact Or.inl (Or.inl rfl)
      · rintro ((hmem | hmem) | ⟨⟨hne, -⟩, -⟩)
        · rw [← hmem]
          exact Or.inr ⟨hrest, rfl⟩
        · exact Or.inl hmem
        · exact absurd rfl hne
    · rw [if_neg fun heq => hkey (Std.LawfulEqOrd.compare_eq_iff_eq.mp heq)]
      have hother : (key, value) ≠ entry := fun heq => hkey (congrArg Prod.fst heq).symm
      simp only [hother, false_or, ne_eq, hkey, not_false_eq_true, true_and]

theorem foldl_insert_toList {table base : Std.ExtTreeMap α β compare}
    (h : ∀ key : α, base[key]?.isSome = true → table[key]?.isSome = true) :
    table.toList.foldl (fun table entry => table.insert entry.1 entry.2) base = table := by
  have hdistinct : table.toList.Pairwise fun a b => a.1 ≠ b.1 := by
    refine table.distinct_keys_toList.imp fun hne heq => hne ?_
    exact Std.LawfulEqOrd.compare_eq_iff_eq.mpr heq
  apply Std.ExtTreeMap.ext_getElem?
  intro key
  apply Option.ext
  intro value
  rw [getElem?_foldl_insert hdistinct, Std.ExtTreeMap.mem_toList_iff_getElem?_eq_some]
  constructor
  · rintro (hvalue | ⟨hnone, hbase⟩)
    · exact hvalue
    · obtain ⟨found, hfound⟩ := Option.isSome_iff_exists.mp (h key (by rw [hbase]; rfl))
      exact absurd rfl (hnone (key, found) (Std.ExtTreeMap.mem_toList_iff_getElem?_eq_some.mpr hfound))
  · exact Or.inl

end Tables

section Sets

variable {α : Type} [Ord α] [Std.TransOrd α] [Std.LawfulEqOrd α]

theorem mem_foldl_insert {items : List α} {set : Std.ExtTreeSet α compare} {item : α} :
    item ∈ items.foldl (fun set item => set.insert item) set ↔ item ∈ set ∨ item ∈ items := by
  induction items generalizing set with
  | nil => simp
  | cons first rest ih =>
    rw [List.foldl_cons, ih, Std.ExtTreeSet.mem_insert, Std.LawfulEqOrd.compare_eq_iff_eq, List.mem_cons, eq_comm,
      or_comm (a := item = first), or_assoc]

theorem foldl_insert_eq {items : List α} {set : Std.ExtTreeSet α compare} (h : ∀ item, item ∈ set ↔ item ∈ items) :
    items.foldl (fun set item => set.insert item) ∅ = set := by
  apply Std.ExtTreeSet.ext_mem
  intro item
  rw [mem_foldl_insert, h]
  simp

end Sets

end LatencyObservatory.Lib
