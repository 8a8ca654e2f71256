import LatencyObservatory.Core.Ids

/-!
# JSON

The canonical writer and the parser of `core/json.cpp`. The writer is the state machine of the source:
a stack of open containers and the comma and pending-key flags. The parser reads a document from its
unread bytes; `position_` is what `doc` has and `rest` has not. Every round of its loops consumes a
byte, so a fuel of two rounds per byte never runs out.
-/

namespace LatencyObservatory.Core

/-- A parsed value. A number is always integral and within the signed 64-bit range. -/
inductive JsonValue where
  | null
  | bool (value : Bool)
  | number (value : Int)
  | string (text : Bytes)
  | array (items : List JsonValue)
  | object (members : List (Bytes × JsonValue))

instance : Inhabited JsonValue := ⟨.null⟩

/-! ### Accessors -/

namespace JsonValue

def isNull : JsonValue → Bool
  | .null => true
  | _ => false

def isObject : JsonValue → Bool
  | .object _ => true
  | _ => false

def isArray : JsonValue → Bool
  | .array _ => true
  | _ => false

def asBool : JsonValue → Except Error Bool
  | .bool value => .ok value
  | _ => .error ⟨.invalidArgument, "JSON value is not a boolean", []⟩

def asInt64 : JsonValue → Except Error Int
  | .number value => .ok value
  | _ => .error ⟨.invalidArgument, "JSON value is not a number", []⟩

def asUint64 (v : JsonValue) : Except Error Nat := do
  let value ← v.asInt64
  if value < 0 then .error ⟨.invalidArgument, "JSON number is negative where an unsigned value is required", []⟩
  else .ok value.toNat

def asString : JsonValue → Except Error Bytes
  | .string text => .ok text
  | _ => .error ⟨.invalidArgument, "JSON value is not a string", []⟩

def asArray : JsonValue → Except Error (List JsonValue)
  | .array items => .ok items
  | _ => .error ⟨.invalidArgument, "JSON value is not an array", []⟩

/-- The first member of a name. -/
def lookup (name : Bytes) : List (Bytes × JsonValue) → Option JsonValue
  | [] => none
  | member :: members => if member.1 = name then some member.2 else lookup name members

def find (v : JsonValue) (name : String) : Option JsonValue :=
  match v with
  | .object members => lookup (text name) members
  | _ => none

def require (v : JsonValue) (name : String) : Except Error JsonValue :=
  if !v.isObject then .error ⟨.invalidArgument, "JSON value is not an object", []⟩
  else match v.find name with
    | some value => .ok value
    | none => .error ⟨.notFound, "required JSON field is missing", text name⟩

def requireString (v : JsonValue) (name : String) : Except Error Bytes :=
  v.require name >>= asString

def requireInt (v : JsonValue) (name : String) : Except Error Int :=
  v.require name >>= asInt64

def requireUint (v : JsonValue) (name : String) : Except Error Nat :=
  v.require name >>= asUint64

def requireBool (v : JsonValue) (name : String) : Except Error Bool :=
  v.require name >>= asBool

def requireObject (v : JsonValue) (name : String) : Except Error JsonValue := do
  let value ← v.require name
  if !value.isObject then .error ⟨.invalidArgument, "JSON field is not an object", text name⟩ else .ok value

/-- `json_require_array`, with the `as_array` that follows it everywhere. -/
def requireArray (v : JsonValue) (name : String) : Except Error (List JsonValue) := do
  let value ← v.require name
  if !value.isArray then .error ⟨.invalidArgument, "JSON field is not an array", text name⟩ else value.asArray

/-- `json_optional_int`: an absent or null member is no value. -/
def optionalInt (v : JsonValue) (name : String) : Except Error (Option Int) :=
  match v.find name with
  | none => .ok none
  | some value => if value.isNull then .ok none else value.asInt64.map some

end JsonValue

/-! ### Writer -/

structure JsonWriter where
  out : Bytes := []
  pretty : Bool := false
  stackIsObject : List Bool := []
  stackFirst : List Bool := []
  valuePending : Bool := false
deriving DecidableEq, Repr

/-- How `escape` writes one byte. -/
def escapeByte (c : UInt8) : Bytes :=
  if c = 34 then [92, 34]
  else if c = 92 then [92, 92]
  else if c = 8 then [92, 98]
  else if c = 12 then [92, 102]
  else if c = 10 then [92, 110]
  else if c = 13 then [92, 114]
  else if c = 9 then [92, 116]
  else if c < 32 then [92, 117, 48, 48, hexDigit (c.toNat / 16), hexDigit (c.toNat % 16)]
  else [c]

def quoted (s : Bytes) : Bytes :=
  34 :: s.flatMap escapeByte ++ [34]

namespace JsonWriter

def append (w : JsonWriter) (bytes : Bytes) : JsonWriter :=
  { w with out := w.out ++ bytes }

/-- A new line, indented for `depth` open containers. -/
def indent (w : JsonWriter) (depth : Nat) : JsonWriter :=
  if w.pretty then w.append (10 :: List.replicate (depth * 2) 32) else w

def writeIndent (w : JsonWriter) : JsonWriter :=
  w.indent w.stackIsObject.length

/-- The comma that separates a value or key from the one before it in the open container. -/
def separate (w : JsonWriter) : JsonWriter :=
  match w.stackFirst with
  | [] => w
  | first :: rest => ({ w with stackFirst := false :: rest }.append (if first then [] else [44])).writeIndent

def beforeValue (w : JsonWriter) : JsonWriter :=
  if w.valuePending then { w with valuePending := false } else w.separate

/-- `begin_object` and `begin_array`. -/
def begin (w : JsonWriter) (isObject : Bool) (bracket : UInt8) : JsonWriter :=
  let w := w.beforeValue.append [bracket]
  { w with stackIsObject := isObject :: w.stackIsObject, stackFirst := true :: w.stackFirst }

/-- `end_object` and `end_array`. -/
def close (w : JsonWriter) (bracket : UInt8) : JsonWriter :=
  let wasEmpty := w.stackFirst.headD true
  let w := if wasEmpty then w else w.indent (w.stackIsObject.length - 1)
  let w := w.append [bracket]
  { w with stackIsObject := w.stackIsObject.tail, stackFirst := w.stackFirst.tail }

def beginObject (w : JsonWriter) : JsonWriter := w.begin true 123
def endObject (w : JsonWriter) : JsonWriter := w.close 125
def beginArray (w : JsonWriter) : JsonWriter := w.begin false 91
def endArray (w : JsonWriter) : JsonWriter := w.close 93

def keyBytes (w : JsonWriter) (name : Bytes) : JsonWriter :=
  let w := w.separate.append (quoted name ++ [58])
  { (if w.pretty then w.append [32] else w) with valuePending := true }

def key (w : JsonWriter) (name : String) : JsonWriter :=
  w.keyBytes (text name)

def valueString (w : JsonWriter) (s : Bytes) : JsonWriter := w.beforeValue.append (quoted s)
def valueInt (w : JsonWriter) (value : Int) : JsonWriter := w.beforeValue.append (decimalInt value)
def valueUint (w : JsonWriter) (value : Nat) : JsonWriter := w.beforeValue.append (decimal value)
def valueNull (w : JsonWriter) : JsonWriter := w.beforeValue.append (text "null")

def valueBool (w : JsonWriter) (value : Bool) : JsonWriter :=
  w.beforeValue.append (text (if value then "true" else "false"))

def fieldString (w : JsonWriter) (name : String) (value : Bytes) : JsonWriter := (w.key name).valueString value
def fieldInt (w : JsonWriter) (name : String) (value : Int) : JsonWriter := (w.key name).valueInt value
def fieldUint (w : JsonWriter) (name : String) (value : Nat) : JsonWriter := (w.key name).valueUint value
def fieldBool (w : JsonWriter) (name : String) (value : Bool) : JsonWriter := (w.key name).valueBool value
def fieldArray (w : JsonWriter) (name : String) : JsonWriter := (w.key name).beginArray

def fieldOptionalInt (w : JsonWriter) (name : String) (value : Option Int) : JsonWriter :=
  match value with
  | some value => (w.key name).valueInt value
  | none => (w.key name).valueNull

end JsonWriter

/-- `encode_with`: the text of one value in compact mode. -/
def encodeWith (write : JsonWriter → JsonWriter) : Bytes :=
  (write {}).out

/-! ### Parser -/

def isWs (c : UInt8) : Bool :=
  c == 32 || c == 9 || c == 10 || c == 13

def skipWs (rest : Bytes) : Bytes :=
  rest.dropWhile isWs

def isDigit (c : UInt8) : Bool :=
  48 ≤ c && c ≤ 57

def appendUtf8 (codePoint : Nat) : Bytes :=
  let byte (n : Nat) : UInt8 := UInt8.ofNat n
  if codePoint ≤ 0x7F then [byte codePoint]
  else if codePoint ≤ 0x7FF then [byte (0xC0 + codePoint / 64), byte (0x80 + codePoint % 64)]
  else if codePoint ≤ 0xFFFF then
    [byte (0xE0 + codePoint / 4096), byte (0x80 + codePoint / 64 % 64), byte (0x80 + codePoint % 64)]
  else
    [byte (0xF0 + codePoint / 262144), byte (0x80 + codePoint / 4096 % 64),
      byte (0x80 + codePoint / 64 % 64), byte (0x80 + codePoint % 64)]

/-- `parse_hex4`. -/
def parseHex4 (rest : Bytes) : Option Nat :=
  if rest.length < 4 then none else StrongId.parseHexDigits (rest.take 4) 0

section Parser

variable (doc : Bytes)

/-- `context`: the position and what stands around it. -/
def parseContext (rest : Bytes) : Bytes :=
  let position := doc.length - rest.length
  text "offset " ++ decimal position ++ text " near '" ++ (doc.drop (position - 16)).take 24 ++ text "'"

def parseFailure (message : String) (rest : Bytes) : Error :=
  ⟨.parseError, message, parseContext doc rest⟩

def parseLiteral (literal : String) (value : JsonValue) (rest : Bytes) : Except Error (JsonValue × Bytes) :=
  if rest.take (text literal).length ≠ text literal then .error (parseFailure doc "invalid JSON literal" rest)
  else .ok (value, rest.drop (text literal).length)

/-- The second half of a surrogate pair, with the high half already read. -/
def parseLowSurrogate (high : Nat) (rest : Bytes) : Except Error (Bytes × Bytes) :=
  match rest with
  | 92 :: 117 :: rest =>
    match parseHex4 rest with
    | none => .error (parseFailure doc "invalid surrogate pair in JSON string" rest)
    | some low =>
      if low < 0xDC00 ∨ low > 0xDFFF then
        .error (parseFailure doc "invalid low surrogate in JSON string" (rest.drop 4))
      else .ok (appendUtf8 (0x10000 + (high - 0xD800) * 1024 + (low - 0xDC00)), rest.drop 4)
  | rest => .error (parseFailure doc "unpaired high surrogate in JSON string" rest)

/-- A `\u` escape, entered after the `u`. -/
def parseUnicode (rest : Bytes) : Except Error (Bytes × Bytes) :=
  match parseHex4 rest with
  | none => .error (parseFailure doc "invalid \\u escape in JSON string" rest)
  | some codePoint =>
    if 0xD800 ≤ codePoint ∧ codePoint ≤ 0xDBFF then parseLowSurrogate doc codePoint (rest.drop 4)
    else if 0xDC00 ≤ codePoint ∧ codePoint ≤ 0xDFFF then
      .error (parseFailure doc "unpaired low surrogate in JSON string" (rest.drop 4))
    else .ok (appendUtf8 codePoint, rest.drop 4)

/-- One escape, entered after the backslash: the bytes it stands for. -/
def parseEscape (rest : Bytes) : Except Error (Bytes × Bytes) :=
  match rest with
  | [] => .error (parseFailure doc "unterminated escape in JSON string" [])
  | c :: rest =>
    if c = 34 then .ok ([34], rest)
    else if c = 92 then .ok ([92], rest)
    else if c = 47 then .ok ([47], rest)
    else if c = 98 then .ok ([8], rest)
    else if c = 102 then .ok ([12], rest)
    else if c = 110 then .ok ([10], rest)
    else if c = 114 then .ok ([13], rest)
    else if c = 116 then .ok ([9], rest)
    else if c = 117 then parseUnicode doc rest
    else .error (parseFailure doc "unknown escape sequence in JSON string" rest)

/-- The loop of `parse_string`, entered after the opening quote. -/
def parseChars : Nat → Bytes → Except Error (Bytes × Bytes)
  | 0, rest => .error (parseFailure doc "unterminated string in JSON document" rest)
  | _ + 1, [] => .error (parseFailure doc "unterminated string in JSON document" [])
  | fuel + 1, c :: rest =>
    if c = 34 then .ok ([], rest)
    else if c < 32 then .error (parseFailure doc "control character in JSON string" (c :: rest))
    else if c ≠ 92 then (parseChars fuel rest).map fun parsed => (c :: parsed.1, parsed.2)
    else match parseEscape doc rest with
      | .error e => .error e
      | .ok (bytes, rest) => (parseChars fuel rest).map fun parsed => (bytes ++ parsed.1, parsed.2)

def parseString (rest : Bytes) : Except Error (Bytes × Bytes) :=
  parseChars doc (rest.length + 1) rest

/-- A run of digits that must not be empty. -/
def parseDigitRun (message : String) (rest : Bytes) : Except Error Bytes :=
  if rest.takeWhile isDigit = [] then .error (parseFailure doc message rest) else .ok (rest.dropWhile isDigit)

/-- The fraction of a number, if it has one: whether it has none, and the bytes after it. -/
def parseFraction (rest : Bytes) : Except Error (Bool × Bytes) :=
  match rest with
  | 46 :: rest => (parseDigitRun doc "number fraction has no digits" rest).map fun rest => (false, rest)
  | rest => .ok (true, rest)

def parseExponent (rest : Bytes) : Except Error (Bool × Bytes) :=
  match rest with
  | [] => .ok (true, [])
  | c :: rest =>
    if c = 101 ∨ c = 69 then
      let digits := match rest with
        | [] => []
        | sign :: rest => if sign = 43 ∨ sign = 45 then rest else sign :: rest
      (parseDigitRun doc "number exponent has no digits" digits).map fun rest => (false, rest)
    else .ok (true, c :: rest)

/-- `parse_number`: anything but an exact 64-bit integer is refused, never rounded. -/
def parseNumber (rest : Bytes) : Except Error (JsonValue × Bytes) := do
  let unsigned := match rest with
    | 45 :: rest => rest
    | rest => rest
  let afterDigits ← parseDigitRun doc "number has no digits" unsigned
  let (noFraction, afterFraction) ← parseFraction doc afterDigits
  let (noExponent, after) ← parseExponent doc afterFraction
  let literal := rest.take (rest.length - after.length)
  let refused := Except.error ⟨.outOfRange, "JSON number is not an exact 64-bit integer", literal⟩
  if noFraction && noExponent && literal.length ≤ 20 then
    match parseI64 literal with
    | some value => .ok (.number value, after)
    | none => refused
  else refused

variable (maxDepth : Nat)

mutual

/-- `parse_value`, with `parse_object` and `parse_array` up to their loops. -/
def parseValue : Nat → Nat → Bytes → Except Error (JsonValue × Bytes)
  | 0, _, rest => .error (parseFailure doc "unexpected end of JSON document" rest)
  | fuel + 1, depth, rest =>
    if depth > maxDepth then .error ⟨.outOfRange, "JSON nesting exceeds the configured depth limit", []⟩
    else match rest with
      | [] => .error (parseFailure doc "unexpected end of JSON document" [])
      | c :: tail =>
        if c = 123 then
          match skipWs tail with
          | 125 :: rest => .ok (.object [], rest)
          | rest => parseMembers fuel depth [] rest
        else if c = 91 then
          match skipWs tail with
          | 93 :: rest => .ok (.array [], rest)
          | rest => parseItems fuel depth [] rest
        else if c = 34 then (parseString doc tail).map fun parsed => (.string parsed.1, parsed.2)
        else if c = 116 then parseLiteral doc "true" (.bool true) (c :: tail)
        else if c = 102 then parseLiteral doc "false" (.bool false) (c :: tail)
        else if c = 110 then parseLiteral doc "null" .null (c :: tail)
        else if c = 45 ∨ isDigit c then parseNumber doc (c :: tail)
        else .error (parseFailure doc "unexpected character in JSON document" (c :: tail))

/-- The member loop of `parse_object`; `members` are those already read. -/
def parseMembers : Nat → Nat → List (Bytes × JsonValue) → Bytes → Except Error (JsonValue × Bytes)
  | 0, _, _, rest => .error (parseFailure doc "unterminated object in JSON document" rest)
  | fuel + 1, depth, members, rest =>
    match skipWs rest with
    | 34 :: tail =>
      match parseString doc tail with
      | .error e => .error e
      | .ok (name, rest) =>
        if (JsonValue.lookup name members).isSome then
          .error ⟨.parseError, "duplicate object key in JSON document", name⟩
        else match skipWs rest with
          | 58 :: tail =>
            match parseValue fuel (depth + 1) (skipWs tail) with
            | .error e => .error e
            | .ok (value, rest) =>
              match skipWs rest with
              | [] => .error (parseFailure doc "unterminated object in JSON document" [])
              | c :: tail =>
                if c = 44 then parseMembers fuel depth (members ++ [(name, value)]) tail
                else if c = 125 then .ok (.object (members ++ [(name, value)]), tail)
                else .error (parseFailure doc "expected ',' or '\x7d' in JSON object" (c :: tail))
          | rest => .error (parseFailure doc "expected ':' after an object key" rest)
    | rest => .error (parseFailure doc "expected an object key" rest)

/-- The item loop of `parse_array`. -/
def parseItems : Nat → Nat → List JsonValue → Bytes → Except Error (JsonValue × Bytes)
  | 0, _, _, rest => .error (parseFailure doc "unterminated array in JSON document" rest)
  | fuel + 1, depth, items, rest =>
    match parseValue fuel (depth + 1) (skipWs rest) with
    | .error e => .error e
    | .ok (value, rest) =>
      match skipWs rest with
      | [] => .error (parseFailure doc "unterminated array in JSON document" [])
      | c :: tail =>
        if c = 44 then parseItems fuel depth (items ++ [value]) tail
        else if c = 93 then .ok (.array (items ++ [value]), tail)
        else .error (parseFailure doc "expected ',' or ']' in JSON array" (c :: tail))

end

end Parser

/-- `parse_json`. -/
def parseJson (doc : Bytes) (maxDepth : Nat) : Except Error JsonValue := do
  let (value, rest) ← parseValue doc maxDepth (2 * doc.length + 2) 0 (skipWs doc)
  if skipWs rest ≠ [] then
    .error (parseFailure doc "trailing content after the JSON document" (skipWs rest))
  else .ok value

end LatencyObservatory.Core
