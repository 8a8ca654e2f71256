import LatencyObservatory.Core.JsonPadding

/-!
# The text of a JSON tree

A tree is written with the calls of `JsonWriter`, and the state that the writer keeps puts its text at the end of
what is already there. The text is derived by the grammar of the RFC, so that the parser reads the tree back.
-/

namespace LatencyObservatory.Core

open JsonValue JsonGrammar

/-! ### Writing a tree -/

namespace JsonWriter

mutual

/-- The calls that write a tree. -/
def writeValue (w : JsonWriter) : JsonValue → JsonWriter
  | .null => w.valueNull
  | .bool value => w.valueBool value
  | .number value => w.valueInt value
  | .string text => w.valueString text
  | .array items => (writeItems w.beginArray items).endArray
  | .object members => (writeMembers w.beginObject members).endObject

def writeItems (w : JsonWriter) : List JsonValue → JsonWriter
  | [] => w
  | item :: items => writeItems (writeValue w item) items

def writeMembers (w : JsonWriter) : List (Bytes × JsonValue) → JsonWriter
  | [] => w
  | (name, value) :: members => writeMembers (writeValue (w.keyBytes name) value) members

end

end JsonWriter

/-- The text of a tree, in the compact or the pretty mode. -/
def JsonValue.write (pretty : Bool) (value : JsonValue) : Bytes :=
  (JsonWriter.writeValue { pretty := pretty } value).out

/-! ### The text -/

/-- What the pretty mode puts in front of a value, and of the bracket behind the last one. -/
def newLine (pretty : Bool) (depth : Nat) : Bytes :=
  if pretty then 10 :: List.replicate (depth * 2) 32 else []

def comma (first : Bool) : Bytes :=
  if first then [] else [44]

mutual

/-- The text of a tree inside of `depth` open containers. -/
def render (pretty : Bool) (depth : Nat) : JsonValue → Bytes
  | .null => text "null"
  | .bool value => text (if value then "true" else "false")
  | .number value => decimalInt value
  | .string text => quoted text
  | .array items =>
    91 :: (renderItems pretty (depth + 1) true items ++ ((if items.isEmpty then [] else newLine pretty depth) ++ [93]))
  | .object members =>
    123 :: (renderMembers pretty (depth + 1) true members ++
      ((if members.isEmpty then [] else newLine pretty depth) ++ [125]))

def renderItems (pretty : Bool) (depth : Nat) (first : Bool) : List JsonValue → Bytes
  | [] => []
  | item :: items =>
    comma first ++ (newLine pretty depth ++ (render pretty depth item ++ renderItems pretty depth false items))

def renderMembers (pretty : Bool) (depth : Nat) (first : Bool) : List (Bytes × JsonValue) → Bytes
  | [] => []
  | (name, value) :: members =>
    comma first ++ (newLine pretty depth ++ (quoted name ++ 58 :: ((if pretty then [32] else []) ++
      (render pretty depth value ++ renderMembers pretty depth false members))))

end

/-! ### The state of the writer -/

namespace JsonWriter

@[simp] theorem append_append (w : JsonWriter) (bytes more : Bytes) :
    (w.append bytes).append more = w.append (bytes ++ more) := by
  simp [append]

@[simp] theorem append_out (w : JsonWriter) (bytes : Bytes) : (w.append bytes).out = w.out ++ bytes := rfl
@[simp] theorem append_pretty (w : JsonWriter) (bytes : Bytes) : (w.append bytes).pretty = w.pretty := rfl

@[simp] theorem append_stackIsObject (w : JsonWriter) (bytes : Bytes) :
    (w.append bytes).stackIsObject = w.stackIsObject := rfl

@[simp] theorem append_stackFirst (w : JsonWriter) (bytes : Bytes) : (w.append bytes).stackFirst = w.stackFirst := rfl

@[simp] theorem append_valuePending (w : JsonWriter) (bytes : Bytes) :
    (w.append bytes).valuePending = w.valuePending := rfl

theorem append_nil (w : JsonWriter) : w.append [] = w := by
  simp [append]

theorem indent_eq (w : JsonWriter) (depth : Nat) : w.indent depth = w.append (newLine w.pretty depth) := by
  unfold indent newLine
  cases w.pretty
  · exact w.append_nil.symm
  · rfl

theorem separate_eq {w : JsonWriter} {first : Bool} {firsts : List Bool} (h : w.stackFirst = first :: firsts) :
    w.separate = { w with stackFirst := false :: firsts }.append (comma first ++ newLine w.pretty w.stackIsObject.length) := by
  unfold separate writeIndent
  rw [h]
  simp only [indent_eq, append_append]
  rfl

theorem close_eq (w : JsonWriter) (first : Bool) (firsts objects : List Bool) (object : Bool) (bracket : UInt8)
    (hfirst : w.stackFirst = first :: firsts) (hobject : w.stackIsObject = object :: objects) :
    w.close bracket = { w with stackFirst := firsts, stackIsObject := objects }.append
      ((if first then [] else newLine w.pretty objects.length) ++ [bracket]) := by
  unfold close
  rw [hfirst, hobject]
  cases first
  · simp only [List.headD_cons, indent_eq, List.length_cons, Nat.add_sub_cancel]
    simp [append, hfirst, hobject]
  · simp [append, hfirst, hobject]

theorem separate_valuePending (w : JsonWriter) : w.separate.valuePending = w.valuePending := by
  unfold separate
  cases w.stackFirst with
  | nil => rfl
  | cons first firsts =>
    simp only [writeIndent, indent_eq]
    rfl

theorem beforeValue_valuePending (w : JsonWriter) : w.beforeValue.valuePending = false := by
  unfold beforeValue
  split_ifs with hpending
  · rfl
  · rw [separate_valuePending]
    exact Bool.eq_false_iff.mpr hpending

theorem beforeValue_eq {w : JsonWriter} {first : Bool} {firsts : List Bool} (hfirst : w.stackFirst = first :: firsts)
    (hpending : w.valuePending = false) : w.beforeValue =
      { w with stackFirst := false :: firsts }.append (comma first ++ newLine w.pretty w.stackIsObject.length) := by
  unfold beforeValue
  rw [if_neg (Bool.eq_false_iff.mp hpending), separate_eq hfirst]

theorem beforeValue_keyBytes {w : JsonWriter} {first : Bool} {firsts : List Bool}
    (hfirst : w.stackFirst = first :: firsts) (hpending : w.valuePending = false) (name : Bytes) :
    (w.keyBytes name).beforeValue = { w with stackFirst := false :: firsts }.append
      (comma first ++ newLine w.pretty w.stackIsObject.length ++ (quoted name ++ 58 :: (if w.pretty then [32] else []))) := by
  unfold keyBytes beforeValue
  rw [if_pos rfl, separate_eq hfirst]
  cases w.pretty
  · simp [append, hpending]
  · simp [append, hpending]

mutual

theorem writeValue_eq (w : JsonWriter) : ∀ value : JsonValue,
    w.writeValue value = w.beforeValue.append (render w.beforeValue.pretty w.beforeValue.stackIsObject.length value)
  | .null => rfl
  | .bool _ => rfl
  | .number _ => rfl
  | .string _ => rfl
  | .array items => by
    have hitems := writeItems_eq w.beginArray true w.beforeValue.stackFirst rfl w.beforeValue_valuePending items
    rw [writeValue, hitems, endArray]
    rw [close_eq _ (true && items.isEmpty) w.beforeValue.stackFirst w.beforeValue.stackIsObject false 93 rfl rfl]
    rw [render]
    simp [append, beginArray, begin]
  | .object members => by
    have hmembers := writeMembers_eq w.beginObject true w.beforeValue.stackFirst rfl w.beforeValue_valuePending members
    rw [writeValue, hmembers, endObject]
    rw [close_eq _ (true && members.isEmpty) w.beforeValue.stackFirst w.beforeValue.stackIsObject true 125 rfl rfl]
    rw [render]
    simp [append, beginObject, begin]

theorem writeItems_eq (w : JsonWriter) (first : Bool) (firsts : List Bool) (hfirst : w.stackFirst = first :: firsts)
    (hpending : w.valuePending = false) : ∀ items : List JsonValue,
    w.writeItems items = { w with stackFirst := (first && items.isEmpty) :: firsts }.append
      (renderItems w.pretty w.stackIsObject.length first items)
  | [] => by
    rw [writeItems, renderItems, append_nil, List.isEmpty_nil, Bool.and_true, ← hfirst]
  | item :: items => by
    have hitem := writeValue_eq w item
    rw [beforeValue_eq hfirst hpending] at hitem
    rw [writeItems, hitem, writeItems_eq _ false firsts (by rfl) (by exact hpending) items]
    simp [append, renderItems]

theorem writeMembers_eq (w : JsonWriter) (first : Bool) (firsts : List Bool) (hfirst : w.stackFirst = first :: firsts)
    (hpending : w.valuePending = false) : ∀ members : List (Bytes × JsonValue),
    w.writeMembers members = { w with stackFirst := (first && members.isEmpty) :: firsts }.append
      (renderMembers w.pretty w.stackIsObject.length first members)
  | [] => by
    rw [writeMembers, renderMembers, append_nil, List.isEmpty_nil, Bool.and_true, ← hfirst]
  | (name, value) :: members => by
    have hvalue := writeValue_eq (w.keyBytes name) value
    rw [beforeValue_keyBytes hfirst hpending] at hvalue
    rw [writeMembers, hvalue, writeMembers_eq _ false firsts (by rfl) (by exact hpending) members]
    simp [append, renderMembers]

end

end JsonWriter

theorem write_eq (pretty : Bool) (value : JsonValue) : value.write pretty = render pretty 0 value := by
  unfold JsonValue.write
  rw [JsonWriter.writeValue_eq]
  rfl

end LatencyObservatory.Core
