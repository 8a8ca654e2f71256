import LatencyObservatory.Core.Error
import LatencyObservatory.Core.Digest

/-!
# Identities

Typed identities are 64-bit values, zero meaning "no identity"; a definition's identity is the
FNV-1a hash of its canonical name. Sequences, revisions and hop indices are the ordered quantities
of the fences.
-/

namespace LatencyObservatory.Core

/-! ### Names -/

structure Name where
  str : Bytes
deriving DecidableEq, Repr

namespace Name

def maxLength : Nat := 128

def isNameStart (c : UInt8) : Bool :=
  (97 ≤ c && c ≤ 122) || (65 ≤ c && c ≤ 90) || (48 ≤ c && c ≤ 57) || c == 95

def isNameChar (c : UInt8) : Bool :=
  isNameStart c || c == 46 || c == 45 || c == 58 || c == 47 || c == 64 || c == 43

/-- `Name::parse`: the only way a name enters from outside text. -/
def parse (input : Bytes) : Except Error Name :=
  match input with
  | [] => .error ⟨.invalidArgument, "name must not be empty", []⟩
  | first :: _ =>
    if input.length > maxLength then
      .error ⟨.outOfRange, "name exceeds the maximum length", input.take 32⟩
    else if !isNameStart first then
      .error ⟨.invalidArgument, "name must start with an alphanumeric or underscore", input⟩
    else if !input.all isNameChar then
      .error ⟨.invalidArgument, "name contains a character outside the allowed set", input⟩
    else .ok ⟨input⟩

end Name

/-! ### Typed identities -/

/-- The phantom tags of `StrongId`. -/
inductive Tag where
  | source
  | path
  | hop
  | link
  | queue
  | endpoint
  | generation
  | clockDomain
  | epoch
  | incarnation
  | baseline
  | measurement
  | session
deriving DecidableEq, Repr

structure StrongId (tag : Tag) where
  value : UInt64
deriving DecidableEq, Repr

abbrev SourceId := StrongId .source
abbrev PathId := StrongId .path
abbrev HopId := StrongId .hop
abbrev LinkId := StrongId .link
abbrev QueueId := StrongId .queue
abbrev EndpointId := StrongId .endpoint
abbrev GenerationId := StrongId .generation
abbrev ClockDomainId := StrongId .clockDomain
abbrev EpochId := StrongId .epoch
abbrev IncarnationId := StrongId .incarnation
abbrev BaselineId := StrongId .baseline
abbrev MeasurementId := StrongId .measurement

namespace StrongId

variable {tag : Tag}

/-- The default constructed identity: "no identity". -/
def none : StrongId tag := ⟨0⟩

instance : Inhabited (StrongId tag) := ⟨none⟩
instance : LawfulBEq (StrongId tag) := inferInstance

def valid (id : StrongId tag) : Bool :=
  id.value != 0

/-- Content addressing: zero is reserved for "invalid". -/
def deriveFrom (canonical : Bytes) : StrongId tag :=
  let hash := fnv1a64 canonical
  ⟨if hash = 0 then 1 else hash⟩

theorem deriveFrom_valid (canonical : Bytes) : (deriveFrom canonical : StrongId tag).valid := by
  unfold deriveFrom valid
  by_cases h : fnv1a64 canonical = 0 <;> simp [h]

def toHex (id : StrongId tag) : Bytes :=
  hexFixed 16 id.value.toNat

/-- The value of one hexadecimal character, either case. -/
def hexValue (c : UInt8) : Option Nat :=
  if 48 ≤ c && c ≤ 57 then some (c.toNat - 48)
  else if 97 ≤ c && c ≤ 102 then some (c.toNat - 97 + 10)
  else if 65 ≤ c && c ≤ 70 then some (c.toNat - 65 + 10)
  else .none

/-- The digit loop of `parse_hex`. -/
def parseHexDigits : Bytes → Nat → Option Nat
  | [], value => some value
  | c :: rest, value =>
    match hexValue c with
    | some digit => parseHexDigits rest (value * 16 + digit)
    | .none => .none

/-- `StrongId::parse_hex`: all zero text decodes to the invalid identity. -/
def parseHex (input : Bytes) : Except Error (StrongId tag) :=
  if input.length ≠ 16 then
    .error ⟨.parseError, "identity hex text must be exactly 16 characters", []⟩
  else match parseHexDigits input 0 with
    | some value => .ok ⟨UInt64.ofNat value⟩
    | .none => .error ⟨.parseError, "identity hex text contains a non-hex character", []⟩

instance : Ord (StrongId tag) := ⟨fun a b => compare a.value b.value⟩

instance : Std.TransOrd (StrongId tag) where
  eq_swap := by
    intro a b
    exact @Std.OrientedCmp.eq_swap UInt64 compare _ a.value b.value
  isLE_trans := by
    intro a b c hab hbc
    exact @Std.TransCmp.isLE_trans UInt64 compare _ a.value b.value c.value hab hbc

instance : Std.LawfulEqOrd (StrongId tag) where
  compare_self := by
    intro a
    exact @Std.ReflCmp.compare_self UInt64 compare _ a.value
  eq_of_compare := by
    intro a b h
    obtain ⟨x⟩ := a
    obtain ⟨y⟩ := b
    have hxy : x = y := @Std.LawfulEqCmp.eq_of_compare UInt64 compare _ x y h
    rw [hxy]

end StrongId

/-! ### Ordered quantities -/

/-- A source's position in its own stream. -/
abbrev Sequence := UInt64

structure Revision where
  value : UInt32
deriving DecidableEq, Repr

namespace Revision

instance : Inhabited Revision := ⟨⟨0⟩⟩

def first : Revision := ⟨1⟩

def valid (revision : Revision) : Bool :=
  revision.value != 0

end Revision

/-- A hop's position; every constructor of the source checks the bound. -/
structure HopIndex where
  value : UInt32
  lt_maxExclusive : value.toNat < 4096
deriving DecidableEq, Repr

namespace HopIndex

def maxExclusive : Nat := 4096

instance : Inhabited HopIndex := ⟨⟨0, by decide⟩⟩

def fromValue (value : UInt32) : Except Error HopIndex :=
  if h : value.toNat < maxExclusive then .ok ⟨value, h⟩
  else .error ⟨.outOfRange, "hop index exceeds the supported maximum", decimal value.toNat⟩

end HopIndex

end LatencyObservatory.Core
