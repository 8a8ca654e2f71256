import LatencyObservatory.Core.Evidence
import LatencyObservatory.Core.JsonRoundTrip

/-!
# Codecs and trees

A `write_json` function writes a tree, and its text is parsed back to that tree. What a decoder then requires of an
object is found in its members: one lemma for each `json_require` and `json_optional` function, for the hexadecimal
identities and for the name tables.
-/

namespace LatencyObservatory.Core

open JsonValue

/-! ### Writing -/

/-- The calls of a writer write the tree. -/
def Writes (write : JsonWriter → JsonWriter) (value : JsonValue) : Prop :=
  ∀ w, write w = w.writeValue value

theorem Writes.parse {write : JsonWriter → JsonWriter} {value : JsonValue} (h : Writes write value)
    (hwellFormed : value.WellFormed) {maxDepth : Nat} (hnesting : value.nesting ≤ maxDepth) (pretty : Bool) :
    parseJson (write { pretty := pretty }).out maxDepth = .ok value := by
  rw [h]
  exact parse_written hwellFormed hnesting pretty

namespace JsonWriter

theorem valueUint_eq (w : JsonWriter) (n : Nat) : w.valueUint n = w.writeValue (.number n) := by
  show w.beforeValue.append (decimal n) = w.beforeValue.append (decimalInt n)
  rw [decimalInt, if_neg (by omega), Int.natAbs_natCast]

theorem fieldUint_eq (w : JsonWriter) (name : String) (n : Nat) :
    w.fieldUint name n = (w.key name).writeValue (.number n) :=
  (w.key name).valueUint_eq n

theorem foldl_writes {α : Type} {write : JsonWriter → α → JsonWriter} {json : α → JsonValue}
    (h : ∀ w a, write w a = w.writeValue (json a)) (items : List α) (w : JsonWriter) :
    items.foldl write w = w.writeItems (items.map json) := by
  induction items generalizing w with
  | nil => rw [List.foldl_nil, List.map_nil, writeItems]
  | cons a items ih => rw [List.foldl_cons, List.map_cons, writeItems, ih, h]

end JsonWriter

namespace JsonValue

/-- An optional number is written as null when it is absent. -/
def ofOption : Option Int → JsonValue
  | some value => .number value
  | none => .null

end JsonValue

theorem JsonWriter.fieldOptionalInt_eq (w : JsonWriter) (name : String) (value : Option Int) :
    w.fieldOptionalInt name value = (w.key name).writeValue (ofOption value) := by
  cases value <;> rfl

/-! ### Trees -/

namespace JsonValue

theorem itemsWellFormed_map {α : Type} {json : α → JsonValue} {items : List α} :
    ItemsWellFormed (items.map json) ↔ ∀ a ∈ items, (json a).WellFormed := by
  induction items with
  | nil => simp [ItemsWellFormed]
  | cons a items ih => rw [List.map_cons, ItemsWellFormed, ih, List.forall_mem_cons]

theorem itemsNesting_map_le {α : Type} {json : α → JsonValue} {items : List α} {n : Nat}
    (h : ∀ a ∈ items, (json a).nesting ≤ n) : itemsNesting (items.map json) ≤ n + 1 := by
  induction items with
  | nil => simp [itemsNesting]
  | cons a items ih =>
    rw [List.forall_mem_cons] at h
    have hrest := ih h.2
    have hfirst := h.1
    rw [List.map_cons, itemsNesting]
    omega

theorem ofOption_wellFormed {value : Option Int} (h : ∀ n ∈ value, Representable n) : (ofOption value).WellFormed := by
  cases value with
  | none => trivial
  | some n => exact h n rfl

theorem ofOption_nesting (value : Option Int) : (ofOption value).nesting = 0 := by
  cases value <;> rfl

/-! ### Reading -/

section Reading

variable {members : List (Bytes × JsonValue)} {name : String}

theorem require_eq {value : JsonValue} (h : (object members).find name = some value) :
    (object members).require name = .ok value := by
  unfold require
  rw [h]
  rfl

theorem requireString_eq {s : Bytes} (h : (object members).find name = some (.string s)) :
    (object members).requireString name = .ok s := by
  unfold requireString
  rw [require_eq h]
  rfl

theorem requireInt_eq {n : Int} (h : (object members).find name = some (.number n)) :
    (object members).requireInt name = .ok n := by
  unfold requireInt
  rw [require_eq h]
  rfl

theorem requireUint_eq {n : Nat} (h : (object members).find name = some (.number n)) :
    (object members).requireUint name = .ok n := by
  unfold requireUint
  rw [require_eq h]
  show (number n).asUint64 = .ok n
  have hsigned : ¬(n : Int) < 0 := by omega
  simp [asUint64, asInt64, bind, Except.bind, hsigned]

theorem requireBool_eq {value : Bool} (h : (object members).find name = some (.bool value)) :
    (object members).requireBool name = .ok value := by
  unfold requireBool
  rw [require_eq h]
  rfl

theorem requireObject_eq {others : List (Bytes × JsonValue)} (h : (object members).find name = some (.object others)) :
    (object members).requireObject name = .ok (.object others) := by
  unfold requireObject
  rw [require_eq h]
  rfl

theorem requireArray_eq {items : List JsonValue} (h : (object members).find name = some (.array items)) :
    (object members).requireArray name = .ok items := by
  unfold requireArray
  rw [require_eq h]
  rfl

theorem optionalInt_eq {value : Option Int} (h : (object members).find name = some (ofOption value)) :
    (object members).optionalInt name = .ok value := by
  unfold optionalInt
  rw [h]
  cases value <;> rfl

end Reading

end JsonValue

/-! ### Identities and names -/

theorem parseHexDigits_hexFixed (width n value : Nat) :
    StrongId.parseHexDigits (hexFixed width n) value = some (value * 16 ^ width + n % 16 ^ width) := by
  induction width generalizing value with
  | zero => simp [hexFixed, StrongId.parseHexDigits, Nat.mod_one]
  | succ width ih =>
    have hdigit := (hexValue_iff _ _).mpr (hexDigit_derives (Nat.mod_lt (n / 16 ^ width) (show 0 < 16 by decide)))
    rw [hexFixed_succ, StrongId.parseHexDigits, hdigit]
    simp only [ih]
    rw [Nat.pow_succ, Nat.mod_mul]
    congr 1
    ring

theorem StrongId.parseHex_toHex {tag : Tag} (id : StrongId tag) : StrongId.parseHex id.toHex = .ok id := by
  obtain ⟨value⟩ := id
  unfold StrongId.parseHex StrongId.toHex
  rw [if_neg (by simp), parseHexDigits_hexFixed, Nat.zero_mul, Nat.zero_add,
    Nat.mod_eq_of_lt (show value.toNat < 16 ^ 16 from value.toNat_lt)]
  simp only [UInt64.ofNat_toNat]

theorem parseNamed_nameOf {α : Type} [DecidableEq α] {table : List (α × Bytes)} (hnames : (table.map Prod.snd).Nodup)
    {value : α} (hvalue : value ∈ table.map Prod.fst) (fallback : Bytes) :
    parseNamed table (nameOf table fallback value) = some value := by
  unfold nameOf parseNamed
  cases hrow : table.find? fun row => row.1 = value with
  | none =>
    exfalso
    rw [List.find?_eq_none] at hrow
    obtain ⟨row, hmem, hfirst⟩ := List.mem_map.mp hvalue
    exact hrow row hmem (by simpa using hfirst)
  | some row =>
    have hmem := List.mem_of_find?_eq_some hrow
    have hfirst : row.1 = value := by simpa using List.find?_some hrow
    have hfound : table.find? (fun other => other.2 = row.2) = some row := by
      cases hother : table.find? fun other => other.2 = row.2 with
      | none =>
        rw [List.find?_eq_none] at hother
        exact absurd (by simp) (hother row hmem)
      | some other =>
        have hname : other.2 = row.2 := by simpa using List.find?_some hother
        rw [List.inj_on_of_nodup_map hnames (List.mem_of_find?_eq_some hother) hmem hname]
    simp only [hfound, Option.map_some, hfirst]

end LatencyObservatory.Core
