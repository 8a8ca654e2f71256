import LatencyObservatory.Core.Checked
import LatencyObservatory.Core.Json
import Mathlib.Tactic.Common

/-!
# The grammar of JSON

The productions of RFC 8259 over bytes, with the value that a text denotes. Bytes above `0x7F` are opaque string
bytes, and what a number literal is is a parameter of the grammar. The depth index is how many levels a value may
still open.
-/

namespace LatencyObservatory.Core

namespace JsonGrammar

/-- `ws = *( %x20 / %x09 / %x0A / %x0D )` -/
def Whitespace (gap : Bytes) : Prop :=
  ∀ c ∈ gap, c = 32 ∨ c = 9 ∨ c = 10 ∨ c = 13

/-! ### Strings -/

inductive HexDigit : UInt8 → Nat → Prop
  | digit {d : Nat} (h : d < 10) : HexDigit (UInt8.ofNat (48 + d)) d
  | lower {d : Nat} (h : d < 6) : HexDigit (UInt8.ofNat (97 + d)) (10 + d)
  | upper {d : Nat} (h : d < 6) : HexDigit (UInt8.ofNat (65 + d)) (10 + d)

/-- `4HEXDIG` -/
inductive Hex4 : Bytes → Nat → Prop
  | digits {a b c d : UInt8} {i j k l : Nat} (ha : HexDigit a i) (hb : HexDigit b j) (hc : HexDigit c k)
    (hd : HexDigit d l) : Hex4 [a, b, c, d] (((i * 16 + j) * 16 + k) * 16 + l)

def HighSurrogate (code : Nat) : Prop := 0xD800 ≤ code ∧ code ≤ 0xDBFF

def LowSurrogate (code : Nat) : Prop := 0xDC00 ≤ code ∧ code ≤ 0xDFFF

instance (code : Nat) : Decidable (HighSurrogate code) := inferInstanceAs (Decidable (_ ∧ _))
instance (code : Nat) : Decidable (LowSurrogate code) := inferInstanceAs (Decidable (_ ∧ _))

/-- The code point of a surrogate pair. -/
def pairCode (high low : Nat) : Nat :=
  0x10000 + (high - 0xD800) * 0x400 + (low - 0xDC00)

/-- The bytes of a code point. -/
def utf8 (code : Nat) : Bytes :=
  String.utf8EncodeChar (Char.ofNat code)

/-- The letter of a short escape and the byte that it stands for. -/
def shortEscapes : List (UInt8 × UInt8) :=
  [(34, 34), (92, 92), (47, 47), (98, 8), (102, 12), (110, 10), (114, 13), (116, 9)]

/-- The inside of a string and the bytes that it denotes. -/
inductive Chars : Bytes → Bytes → Prop
  | nil : Chars [] []
  | unescaped {c : UInt8} {source chars : Bytes} (hcontrol : ¬c < 32) (hquote : c ≠ 34) (hescape : c ≠ 92)
    (hrest : Chars source chars) : Chars (c :: source) (c :: chars)
  | short {letter c : UInt8} {source chars : Bytes} (hescape : (letter, c) ∈ shortEscapes)
    (hrest : Chars source chars) : Chars (92 :: letter :: source) (c :: chars)
  | unicode {digits source chars : Bytes} {code : Nat} (hdigits : Hex4 digits code) (hhigh : ¬HighSurrogate code)
    (hlow : ¬LowSurrogate code) (hrest : Chars source chars) :
    Chars (92 :: 117 :: (digits ++ source)) (utf8 code ++ chars)
  | pair {digits digits' source chars : Bytes} {high low : Nat} (hdigits : Hex4 digits high)
    (hhigh : HighSurrogate high) (hdigits' : Hex4 digits' low) (hlow : LowSurrogate low)
    (hrest : Chars source chars) :
    Chars (92 :: 117 :: (digits ++ 92 :: 117 :: (digits' ++ source)))
      (utf8 (pairCode high low) ++ chars)

/-! ### Numbers -/

/-- `1*DIGIT` -/
def Digits (digits : Bytes) : Prop :=
  digits ≠ [] ∧ ∀ c ∈ digits, isDigit c = true

/-- `int = zero / ( digit1-9 *DIGIT )` -/
def WholeNumber (digits : Bytes) : Prop :=
  Digits digits ∧ (digits.head? = some 48 → digits = [48])

def digitsValue (digits : Bytes) : Nat :=
  digits.foldl (fun value c => value * 10 + (c.toNat - 48)) 0

/-- An optional minus sign before digits of some form. -/
inductive Signed (form : Bytes → Prop) : Bytes → Int → Prop
  | plus {digits : Bytes} (hdigits : form digits) : Signed form digits (digitsValue digits)
  | minus {digits : Bytes} (hdigits : form digits) : Signed form (45 :: digits) (-(digitsValue digits : Int))

/-- An integer literal within the signed 64-bit range. -/
def Integer (literal : Bytes) (value : Int) : Prop :=
  Signed WholeNumber literal value ∧ Representable value

/-- An integer literal of at most twenty bytes that may be padded with zeros. -/
def PaddedInteger (literal : Bytes) (value : Int) : Prop :=
  Signed Digits literal value ∧ Representable value ∧ literal.length ≤ 20

/-! ### Values -/

/-- What a production derives: a value, or the inside of an array or an object that is not empty. -/
inductive Phrase where
  | value (value : JsonValue)
  | items (items : List JsonValue)
  | members (members : List (Bytes × JsonValue))

inductive Derives (number : Bytes → Int → Prop) : Nat → Phrase → Bytes → Prop
  | null {room : Nat} : Derives number room (.value .null) (text "null")
  | bool {room : Nat} {value : Bool} :
    Derives number room (.value (.bool value)) (text (if value then "true" else "false"))
  | number {room : Nat} {literal : Bytes} {value : Int} (hnumber : number literal value) :
    Derives number room (.value (.number value)) literal
  | string {room : Nat} {source chars : Bytes} (hchars : Chars source chars) :
    Derives number room (.value (.string chars)) (34 :: (source ++ [34]))
  | emptyArray {room : Nat} {gap : Bytes} (hgap : Whitespace gap) :
    Derives number room (.value (.array [])) (91 :: (gap ++ [93]))
  | array {room : Nat} {body : Bytes} {items : List JsonValue} (hitems : Derives number room (.items items) body) :
    Derives number (room + 1) (.value (.array items)) (91 :: (body ++ [93]))
  | emptyObject {room : Nat} {gap : Bytes} (hgap : Whitespace gap) :
    Derives number room (.value (.object [])) (123 :: (gap ++ [125]))
  | object {room : Nat} {body : Bytes} {members : List (Bytes × JsonValue)}
    (hmembers : Derives number room (.members members) body) (hdistinct : (members.map Prod.fst).Nodup) :
    Derives number (room + 1) (.value (.object members)) (123 :: (body ++ [125]))
  | lastItem {room : Nat} {before body after : Bytes} {value : JsonValue} (hbefore : Whitespace before)
    (hvalue : Derives number room (.value value) body) (hafter : Whitespace after) :
    Derives number room (.items [value]) (before ++ (body ++ after))
  | item {room : Nat} {before body after rest : Bytes} {value : JsonValue} {items : List JsonValue}
    (hbefore : Whitespace before) (hvalue : Derives number room (.value value) body) (hafter : Whitespace after)
    (hrest : Derives number room (.items items) rest) :
    Derives number room (.items (value :: items)) (before ++ (body ++ (after ++ 44 :: rest)))
  | lastMember {room : Nat} {before source name gap before' body after : Bytes} {value : JsonValue}
    (hbefore : Whitespace before) (hname : Chars source name) (hgap : Whitespace gap) (hbefore' : Whitespace before')
    (hvalue : Derives number room (.value value) body) (hafter : Whitespace after) :
    Derives number room (.members [(name, value)])
      (before ++ 34 :: (source ++ 34 :: (gap ++ 58 :: (before' ++ (body ++ after)))))
  | member {room : Nat} {before source name gap before' body after rest : Bytes} {value : JsonValue}
    {members : List (Bytes × JsonValue)} (hbefore : Whitespace before) (hname : Chars source name)
    (hgap : Whitespace gap) (hbefore' : Whitespace before') (hvalue : Derives number room (.value value) body)
    (hafter : Whitespace after) (hrest : Derives number room (.members members) rest) :
    Derives number room (.members ((name, value) :: members))
      (before ++ 34 :: (source ++ 34 :: (gap ++ 58 :: (before' ++ (body ++ (after ++ 44 :: rest))))))

theorem Whitespace.append {gap gap' : Bytes} (h : Whitespace gap) (h' : Whitespace gap') : Whitespace (gap ++ gap') := by
  intro c hc
  rcases List.mem_append.mp hc with hmem | hmem
  · exact h c hmem
  · exact h' c hmem

section Gap

variable {number : Bytes → Int → Prop} {room : Nat} {gap body : Bytes}

theorem Derives.gap_append_items {items : List JsonValue} (h : Derives number room (.items items) body)
    (hgap : Whitespace gap) : Derives number room (.items items) (gap ++ body) := by
  cases h with
  | lastItem hbefore hvalue hafter =>
    rw [← List.append_assoc]
    exact .lastItem (hgap.append hbefore) hvalue hafter
  | item hbefore hvalue hafter hrest =>
    rw [← List.append_assoc]
    exact .item (hgap.append hbefore) hvalue hafter hrest

theorem Derives.gap_append_members {members : List (Bytes × JsonValue)} (h : Derives number room (.members members) body)
    (hgap : Whitespace gap) : Derives number room (.members members) (gap ++ body) := by
  cases h with
  | lastMember hbefore hname hcolon hbefore' hvalue hafter =>
    rw [← List.append_assoc]
    exact .lastMember (hgap.append hbefore) hname hcolon hbefore' hvalue hafter
  | member hbefore hname hcolon hbefore' hvalue hafter hrest =>
    rw [← List.append_assoc]
    exact .member (hgap.append hbefore) hname hcolon hbefore' hvalue hafter hrest

end Gap

/-- `JSON-text = ws value ws`, with every value nested at most `maxDepth` deep. -/
def Document (number : Bytes → Int → Prop) (maxDepth : Nat) (doc : Bytes) (value : JsonValue) : Prop :=
  ∃ before body after, doc = before ++ (body ++ after) ∧ Whitespace before ∧ Whitespace after ∧
    Derives number maxDepth (.value value) body

end JsonGrammar

end LatencyObservatory.Core
