import LatencyObservatory.Core.Digest
import LatencyObservatory.Core.Time
import LatencyObservatory.Lib.LittleEndian

/-!
# On disk format

A store directory holds segment files. A segment is a 48 byte header, framed records and a 40 byte
footer; all integers are little endian. The record CRC covers the payload, the header CRC the first
32 bytes and the footer CRC the first 24.
-/

namespace LatencyObservatory.Store
open LatencyObservatory.Core LatencyObservatory.Lib

abbrev formatVersion : Nat := 1
def segmentMagic : Bytes := text "LOBSSEG1"
def segmentFooterMagic : Bytes := text "LOBSEND1"
abbrev segmentHeaderBytes : Nat := 48
abbrev recordHeaderBytes : Nat := 12
abbrev segmentFooterBytes : Nat := 40
abbrev maxRecordPayloadBytes : Nat := 1024 * 1024

inductive RecordType where
  | source
  | endpoint
  | link
  | queue
  | hop
  | generation
  | path
  | clockDomain
  | clockSync
  | measurementCurrent
  | measurementHistorical
  | baseline
  | fenceState
deriving DecidableEq, Repr

namespace RecordType

/-- `kRecordTypes`, in the source's order. -/
def all : List RecordType :=
  [source, endpoint, link, queue, hop, generation, path, clockDomain, clockSync, measurementCurrent,
    measurementHistorical, baseline, fenceState]

/-- The enumerator's value. -/
def code : RecordType → UInt8
  | source => 1
  | endpoint => 2
  | link => 3
  | queue => 4
  | hop => 5
  | generation => 6
  | path => 7
  | clockDomain => 8
  | clockSync => 9
  | measurementCurrent => 10
  | measurementHistorical => 11
  | baseline => 12
  | fenceState => 13

/-- The reader's search for a known type. -/
def ofCode (byte : UInt8) : Option RecordType :=
  all.find? fun type => type.code == byte

@[simp] theorem ofCode_code (type : RecordType) : ofCode type.code = some type := by
  cases type <;> decide

theorem code_of_ofCode {byte : UInt8} {type : RecordType} (h : ofCode byte = some type) : type.code = byte := by
  simpa using List.find?_some h

theorem code_ne_footer (type : RecordType) : type.code ≠ 69 := by
  cases type <;> decide

end RecordType

/-- What a caller appends: a type and a payload. -/
abbrev Entry := RecordType × Bytes

/-! ## Segment header -/

/-- The header bytes that the header CRC covers: magic, format, header size, identifier, creation
time, record count hint and flags. -/
def segmentHeaderPrefix (segmentId : UInt32) (now : Nanos) : Bytes :=
  segmentMagic ++ (le 2 formatVersion ++ (le 2 segmentHeaderBytes ++ (le 4 segmentId.toNat ++
    (le 8 now.toUInt64.toNat ++ (le 4 0 ++ le 4 0)))))

def segmentHeader (segmentId : UInt32) (now : Nanos) : Bytes :=
  segmentHeaderPrefix segmentId now ++
    (le 4 (crc32c (segmentHeaderPrefix segmentId now)).toNat ++ List.replicate 12 0)

@[simp] theorem segmentMagic_length : segmentMagic.length = 8 := by decide

@[simp] theorem segmentFooterMagic_length : segmentFooterMagic.length = 8 := by decide

@[simp] theorem segmentHeaderPrefix_length (segmentId : UInt32) (now : Nanos) :
    (segmentHeaderPrefix segmentId now).length = 32 := by
  simp [segmentHeaderPrefix]

@[simp] theorem segmentHeader_length (segmentId : UInt32) (now : Nanos) :
    (segmentHeader segmentId now).length = 48 := by
  simp [segmentHeader]

/-- The reader's checks of a header it could read in full. -/
def headerValid (header : Bytes) : Bool :=
  field header 0 8 == segmentMagic && ofLe (field header 8 2) == formatVersion &&
    ofLe (field header 10 2) == segmentHeaderBytes &&
    ofLe (field header 32 4) == (crc32c (field header 0 32)).toNat

def headerSegmentId (header : Bytes) : UInt32 :=
  UInt32.ofNat (ofLe (field header 12 4))

/-! ## Record -/

def recordHeader (type : RecordType) (payload : Bytes) : Bytes :=
  le 4 payload.length ++ ([type.code] ++ ([0] ++ (le 2 0 ++ le 4 (crc32c payload).toNat)))

@[simp] theorem recordHeader_length (type : RecordType) (payload : Bytes) :
    (recordHeader type payload).length = 12 := by
  simp [recordHeader]

def frame (entry : Entry) : Bytes :=
  recordHeader entry.1 entry.2 ++ entry.2

@[simp] theorem frame_length (entry : Entry) : (frame entry).length = 12 + entry.2.length := by
  simp [frame]

/-! ## Footer -/

/-- The footer bytes that the footer CRC covers: magic, record count, a reserved word, payload bytes. -/
def segmentFooterPrefix (records : Nat) (payloadBytes : UInt64) : Bytes :=
  segmentFooterMagic ++ (le 4 records ++ (le 4 0 ++ le 8 payloadBytes.toNat))

def segmentFooter (records : Nat) (payloadBytes digest : UInt64) : Bytes :=
  segmentFooterPrefix records payloadBytes ++
    (le 4 (crc32c (segmentFooterPrefix records payloadBytes)).toNat ++ (le 4 0 ++ le 8 digest.toNat))

@[simp] theorem segmentFooterPrefix_length (records : Nat) (payloadBytes : UInt64) :
    (segmentFooterPrefix records payloadBytes).length = 24 := by
  simp [segmentFooterPrefix]

@[simp] theorem segmentFooter_length (records : Nat) (payloadBytes digest : UInt64) :
    (segmentFooter records payloadBytes digest).length = 40 := by
  simp [segmentFooter]

/-- One step of the rolling segment digest. -/
def foldDigest (digest : UInt64) (payload : Bytes) : UInt64 :=
  (digest * fnvPrime) ^^^ fnv1a64 payload

/-! ## File names -/

def segmentFileName (segmentId : UInt32) : Bytes :=
  text "seg-" ++ (hexFixed 8 segmentId.toNat ++ text ".lobs")

/-- The value of one hexadecimal digit of a file name, in either case. -/
def hexValue (c : UInt8) : Option Nat :=
  if 48 ≤ c ∧ c ≤ 57 then some (c.toNat - 48)
  else if 97 ≤ c ∧ c ≤ 102 then some (c.toNat - 97 + 10)
  else if 65 ≤ c ∧ c ≤ 70 then some (c.toNat - 65 + 10)
  else none

/-- The digit loop of `segment_id_from_name`. -/
def hexNumber : Nat → Bytes → Option Nat
  | identifier, [] => some identifier
  | identifier, c :: cs =>
    match hexValue c with
    | some digit => hexNumber (identifier * 16 + digit) cs
    | none => none

def segmentIdFromName (name : Bytes) : Option UInt32 :=
  if name.length ≠ 17 ∨ name.take 4 ≠ text "seg-" ∨ name.drop 12 ≠ text ".lobs" then none
  else
    match hexNumber 0 (field name 4 8) with
    | some identifier => if identifier > 0xFFFFFFFF then none else some (UInt32.ofNat identifier)
    | none => none

theorem hexValue_hexDigit {d : Nat} (h : d < 16) : hexValue (hexDigit d) = some d := by
  have hall : ∀ d < 16, hexValue (hexDigit d) = some d := by decide
  exact hall d h

theorem hexNumber_hexFixed (width n identifier : Nat) :
    hexNumber identifier (hexFixed width n) = some (identifier * 16 ^ width + n % 16 ^ width) := by
  induction width generalizing identifier with
  | zero => simp [hexFixed, hexNumber, Nat.mod_one]
  | succ width ih =>
    rw [hexFixed_succ, hexNumber, hexValue_hexDigit (Nat.mod_lt _ (by decide))]
    simp only [ih]
    rw [Nat.pow_succ, Nat.mod_mul]
    congr 1
    ring

theorem segmentIdFromName_segmentFileName (segmentId : UInt32) :
    segmentIdFromName (segmentFileName segmentId) = some segmentId := by
  have hfield : field (segmentFileName segmentId) 4 8 = hexFixed 8 segmentId.toNat :=
    field_append (by decide) (hexFixed_length _ _)
  have htail : (segmentFileName segmentId).drop 12 = text ".lobs" := by
    rw [segmentFileName, ← List.append_assoc]
    exact List.drop_left' (by rw [List.length_append, hexFixed_length]; rfl)
  have hhead : (segmentFileName segmentId).take 4 = text "seg-" := List.take_left' (by decide)
  have hlen : (segmentFileName segmentId).length = 17 := by
    rw [segmentFileName, List.length_append, List.length_append, hexFixed_length]
    rfl
  have hlt := segmentId.toNat_lt
  rw [segmentIdFromName, if_neg (by simp [hlen, hhead, htail]), hfield, hexNumber_hexFixed]
  simp only [Nat.zero_mul, Nat.zero_add, Nat.reducePow]
  rw [Nat.mod_eq_of_lt hlt, if_neg (by omega), UInt32.ofNat_toNat]

theorem append_lt_append {xs ys : Bytes} (hlen : xs.length = ys.length) (h : xs < ys) (zs : Bytes) :
    xs ++ zs < ys ++ zs := by
  induction h with
  | nil => simp at hlen
  | rel hr => exact List.Lex.rel hr
  | cons _ ih => exact List.Lex.cons (ih (by simpa using hlen))

theorem segmentFileName_lt {a b : UInt32} (h : a < b) : segmentFileName a < segmentFileName b := by
  have hhex : hexFixed 8 a.toNat < hexFixed 8 b.toNat := hexFixed_lt (UInt32.lt_iff_toNat_lt.mp h) b.toNat_lt
  have htail := append_lt_append (by rw [hexFixed_length, hexFixed_length]) hhex (text ".lobs")
  exact List.append_left_lt htail

end LatencyObservatory.Store
