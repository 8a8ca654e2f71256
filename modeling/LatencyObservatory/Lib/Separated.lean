import Mathlib.Data.List.Basic
import Mathlib.Tactic.Common

/-!
# Separated and terminated sequences

Pieces joined by a separator, lines ended by one, and tables of both: the pieces are found again as long as none of
them contains its separator.
-/

namespace LatencyObservatory.Lib

variable {α : Type} (separator ender : α)

theorem intercalate_cons (first : List α) (rest : List (List α)) :
    [separator].intercalate (first :: rest) = first ++ rest.flatMap fun piece => separator :: piece := by
  induction rest generalizing first with
  | nil => rw [List.intercalate_singleton, List.flatMap_nil, List.append_nil]
  | cons second rest ih =>
    rw [List.intercalate_cons_cons, ih, List.flatMap_cons, List.append_assoc, List.singleton_append, List.cons_append]

theorem intercalate_ended (lines : List (List α)) :
    [ender].intercalate (lines ++ [[]]) = lines.flatMap fun line => line ++ [ender] := by
  induction lines with
  | nil => exact List.intercalate_singleton
  | cons line rest ih =>
    have hne : rest ++ [[]] ≠ [] := List.append_ne_nil_of_right_ne_nil rest (List.cons_ne_nil [] [])
    rw [List.cons_append, List.intercalate_cons_of_ne_nil hne, ih, List.flatMap_cons]

section Table

variable [BEq α] [LawfulBEq α]

/-- The pieces of each line. -/
def table (text : List α) : List (List (List α)) :=
  (text.splitOn ender).map fun line => line.splitOn separator

theorem table_lines {rows : List (List (List α))} (hsome : ∀ row ∈ rows, row ≠ [])
    (hfields : ∀ row ∈ rows, ∀ field ∈ row, separator ∉ field ∧ ender ∉ field) (hdiffer : separator ≠ ender) :
    table separator ender (rows.flatMap fun row => [separator].intercalate row ++ [ender]) = rows ++ [[[]]] := by
  have hjoined : ∀ row ∈ rows, ender ∉ [separator].intercalate row := by
    intro row hrow hmem
    obtain ⟨first, rest, rfl⟩ := List.exists_cons_of_ne_nil (hsome row hrow)
    rw [intercalate_cons, List.mem_append, List.mem_flatMap] at hmem
    rcases hmem with hfirst | ⟨piece, hpiece, hin⟩
    · exact (hfields _ hrow first List.mem_cons_self).2 hfirst
    · rcases List.mem_cons.mp hin with heq | hin
      · exact hdiffer heq.symm
      · exact (hfields _ hrow piece (List.mem_cons_of_mem _ hpiece)).2 hin
  have hlines : (rows.flatMap fun row => [separator].intercalate row ++ [ender]) =
      [ender].intercalate (rows.map [separator].intercalate ++ [[]]) := by
    rw [intercalate_ended, List.flatMap_map]
  have hsplit : ([ender].intercalate (rows.map [separator].intercalate ++ [[]])).splitOn ender =
      rows.map [separator].intercalate ++ [[]] := by
    apply List.splitOn_intercalate
    · intro line hline
      rcases List.mem_append.mp hline with hrow | hlast
      · obtain ⟨fields, hfields', rfl⟩ := List.mem_map.mp hrow
        exact hjoined fields hfields'
      · rw [List.mem_singleton.mp hlast]
        exact List.not_mem_nil
    · simp
  rw [table, hlines, hsplit, List.map_append, List.map_map]
  congr 1
  rw [List.map_congr_left (g := id), List.map_id]
  intro row hrow
  exact List.splitOn_intercalate separator (fun field hfield => (hfields row hrow field hfield).1) (hsome row hrow)

end Table

end LatencyObservatory.Lib
