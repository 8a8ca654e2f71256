import LatencyObservatory.Core.JsonFields

/-!
# How long a compact text can be

The length of a compact text depends on what has to be escaped. This bound needs to know the lengths of the strings only,
an escape being at most six bytes long.
-/

namespace LatencyObservatory.Core

open JsonValue JsonGrammar

namespace JsonValue

mutual

/-- At least the length of the compact text. -/
def size : JsonValue → Nat
  | .null => 4
  | .bool _ => 5
  | .number value => (decimalInt value).length
  | .string text => 6 * text.length + 2
  | .array items => itemsSize items + 2
  | .object members => membersSize members + 2

def itemsSize : List JsonValue → Nat
  | [] => 0
  | item :: items => item.size + 1 + itemsSize items

def membersSize : List (Bytes × JsonValue) → Nat
  | [] => 0
  | (name, value) :: members => 6 * name.length + value.size + 4 + membersSize members

end

end JsonValue

theorem escapeByte_length_le (c : UInt8) : (escapeByte c).length ≤ 6 := by
  unfold escapeByte
  split_ifs <;> simp

theorem quoted_length_le (s : Bytes) : (quoted s).length ≤ 6 * s.length + 2 := by
  have hescaped : (s.flatMap escapeByte).length ≤ 6 * s.length := by
    induction s with
    | nil => exact Nat.le_refl 0
    | cons c s ih =>
      have hfirst := escapeByte_length_le c
      rw [List.flatMap_cons, List.length_append, List.length_cons]
      omega
  rw [quoted_eq, List.length_cons, List.length_append, List.length_singleton]
  omega

theorem comma_length_le (first : Bool) : (comma first).length ≤ 1 := by
  cases first <;> simp [comma]

mutual

theorem render_length_le : ∀ (value : JsonValue) (depth : Nat), (render false depth value).length ≤ value.size
  | .null, _ => by
    rw [render, size]
    decide
  | .bool value, _ => by
    rw [render, size]
    cases value <;> decide
  | .number value, _ => by
    rw [render, size]
  | .string chars, _ => by
    rw [render, size]
    exact quoted_length_le chars
  | .array items, depth => by
    have hitems := renderItems_length_le items (depth + 1) true
    have hline : (if items.isEmpty then [] else newLine false depth).length = 0 := by
      split_ifs <;> rfl
    rw [render, size, List.length_cons, List.length_append, List.length_append, hline, List.length_singleton]
    omega
  | .object members, depth => by
    have hmembers := renderMembers_length_le members (depth + 1) true
    have hline : (if members.isEmpty then [] else newLine false depth).length = 0 := by
      split_ifs <;> rfl
    rw [render, size, List.length_cons, List.length_append, List.length_append, hline, List.length_singleton]
    omega

theorem renderItems_length_le : ∀ (items : List JsonValue) (depth : Nat) (first : Bool),
    (renderItems false depth first items).length ≤ itemsSize items
  | [], _, _ => Nat.le_refl 0
  | item :: items, depth, first => by
    have hcomma := comma_length_le first
    have hitem := render_length_le item depth
    have hmore := renderItems_length_le items depth false
    have hline : (newLine false depth).length = 0 := rfl
    rw [renderItems, itemsSize, List.length_append, List.length_append, List.length_append, hline]
    omega

theorem renderMembers_length_le : ∀ (members : List (Bytes × JsonValue)) (depth : Nat) (first : Bool),
    (renderMembers false depth first members).length ≤ membersSize members
  | [], _, _ => Nat.le_refl 0
  | (name, value) :: members, depth, first => by
    have hcomma := comma_length_le first
    have hname := quoted_length_le name
    have hvalue := render_length_le value depth
    have hmore := renderMembers_length_le members depth false
    have hline : (newLine false depth).length = 0 := rfl
    rw [renderMembers, membersSize, List.length_append, List.length_append, List.length_append, hline,
      List.length_cons, if_neg Bool.false_ne_true, List.nil_append, List.length_append]
    omega

end

theorem JsonValue.write_length_le (value : JsonValue) : (value.write false).length ≤ value.size := by
  rw [write_eq]
  exact render_length_le value 0

end LatencyObservatory.Core
