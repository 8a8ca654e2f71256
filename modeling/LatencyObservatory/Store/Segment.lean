import LatencyObservatory.Store.Scan

/-!
# Segments

`Segment` is the abstract content of one segment file: its identifier, its creation time and the
entries appended to it, none larger than a record may be. Its `bytes` are what the writer leaves on
disk; reading them back gives the entries, and accepts the segment as long as its 32-bit record count
can hold their number.
-/

namespace LatencyObservatory.Store
open LatencyObservatory.Core LatencyObservatory.Lib

structure Segment where
  id : UInt32
  createdAt : Nanos
  entries : List Entry
  sized : ∀ entry ∈ entries, entry.2.length ≤ maxRecordPayloadBytes

def frames (entries : List Entry) : Bytes :=
  entries.flatMap frame

/-- The payload bytes of the entries, as the 64-bit counters of writer and reader add them up. -/
def addPayload (payloadBytes : UInt64) (entries : List Entry) : UInt64 :=
  entries.foldl (fun bytes entry => bytes + UInt64.ofNat entry.2.length) payloadBytes

namespace Segment

def header (s : Segment) : Bytes :=
  segmentHeader s.id s.createdAt

/-- What an open segment holds. -/
def body (s : Segment) : Bytes :=
  s.header ++ frames s.entries

def footer (s : Segment) : Bytes :=
  segmentFooter s.entries.length (addPayload 0 s.entries)
    (s.entries.foldl (fun digest entry => foldDigest digest entry.2) fnvOffset)

def bytes (s : Segment) : Bytes :=
  s.body ++ s.footer

def name (s : Segment) : Bytes :=
  segmentFileName s.id

/-- The file of a closed segment. -/
def file (s : Segment) : File :=
  ⟨s.name, s.bytes, s.bytes.length⟩

@[simp] theorem header_length (s : Segment) : s.header.length = 48 := segmentHeader_length _ _

@[simp] theorem footer_length (s : Segment) : s.footer.length = 40 := segmentFooter_length _ _ _

/-- More records than the footer's count can hold. -/
def Overfull (s : Segment) : Prop :=
  2 ^ 32 ≤ s.entries.length

instance (s : Segment) : Decidable s.Overfull := inferInstanceAs (Decidable (_ ≤ _))

theorem bytes_eq (s : Segment) : s.bytes = s.header ++ (frames s.entries ++ s.footer) := by
  rw [bytes, body, List.append_assoc]

end Segment

/-! ## Header checks -/

theorem headerValid_segmentHeader (segmentId : UInt32) (now : Nanos) :
    headerValid (segmentHeader segmentId now) = true := by
  have hpre : field (segmentHeader segmentId now) 0 32 = segmentHeaderPrefix segmentId now :=
    field_first (segmentHeaderPrefix_length _ _)
  have hcrc : field (segmentHeader segmentId now) 32 4 = le 4 (crc32c (segmentHeaderPrefix segmentId now)).toNat :=
    field_append (segmentHeaderPrefix_length _ _) (le_length _ _)
  have hmagic : field (segmentHeader segmentId now) 0 8 = segmentMagic := by
    rw [segmentHeader, field_append_left (by simp)]
    exact field_first segmentMagic_length
  have hformat : field (segmentHeader segmentId now) 8 2 = le 2 formatVersion := by
    rw [segmentHeader, field_append_left (by simp)]
    exact field_append segmentMagic_length (le_length _ _)
  have hsize : field (segmentHeader segmentId now) 10 2 = le 2 segmentHeaderBytes := by
    rw [segmentHeader, field_append_left (by simp), segmentHeaderPrefix, ← List.append_assoc]
    exact field_append (by simp) (le_length _ _)
  have hlt := (crc32c (segmentHeaderPrefix segmentId now)).toNat_lt
  simp only [headerValid, hpre, hcrc, hmagic, hformat, hsize, ofLe_le, BEq.rfl, Bool.true_and]
  rw [show 256 ^ 4 = 2 ^ 32 from rfl, Nat.mod_eq_of_lt hlt]
  simp [segmentHeaderBytes]

theorem Segment.header_valid (s : Segment) : headerValid s.header = true :=
  headerValid_segmentHeader _ _

/-! ## Frames -/

@[simp] theorem frames_nil : frames [] = [] := rfl

@[simp] theorem frames_cons (entry : Entry) (entries : List Entry) :
    frames (entry :: entries) = frame entry ++ frames entries := rfl

@[simp] theorem frames_append (xs ys : List Entry) : frames (xs ++ ys) = frames xs ++ frames ys :=
  List.flatMap_append

theorem length_le_frames_length (entries : List Entry) : entries.length ≤ (frames entries).length := by
  induction entries with
  | nil => simp
  | cons entry entries ih =>
    rw [frames_cons, List.length_append, frame_length, List.length_cons]
    omega

theorem recordHeader_length_field (type : RecordType) (payload : Bytes) :
    field (recordHeader type payload) 0 4 = le 4 payload.length :=
  field_first (le_length _ _)

theorem recordHeader_crc_field (type : RecordType) (payload : Bytes) :
    field (recordHeader type payload) 8 4 = le 4 (crc32c payload).toNat := by
  have hsplit : recordHeader type payload =
      (le 4 payload.length ++ ([type.code] ++ ([0] ++ le 2 0))) ++ le 4 (crc32c payload).toNat := by
    simp [recordHeader]
  rw [hsplit]
  exact field_last (by simp) (le_length _ _)

theorem recordHeader_getElem_four (type : RecordType) (payload : Bytes) :
    (recordHeader type payload)[4]? = some type.code := by
  rw [recordHeader, List.getElem?_append_right (by simp), le_length]
  rfl

theorem magic_ne_of_type {head : Bytes} {type : RecordType} (h : head[4]? = some type.code) :
    field head 0 8 ≠ segmentFooterMagic := by
  intro hmagic
  have hbyte : (field head 0 8)[4]? = some type.code := by
    rw [field, List.drop_zero, List.getElem?_take_of_lt (by decide)]
    exact h
  rw [hmagic] at hbyte
  exact type.code_ne_footer (Option.some.inj hbyte).symm

theorem ofLe_le_of_lt {n v : Nat} (h : v < 256 ^ n) : ofLe (le n v) = v := by
  rw [ofLe_le, Nat.mod_eq_of_lt h]

theorem ofLe_le_crc (data : Bytes) : ofLe (le 4 (crc32c data).toNat) = (crc32c data).toNat :=
  ofLe_le_of_lt (crc32c data).toNat_lt

/-! ## The loop over frames -/

section Loop

variable (name : Bytes) (segmentId : UInt32)

/-- The records read from the frames of `entries`, numbered from `recovered`. -/
def storedFrom (segmentId : UInt32) : Nat → List Entry → List StoredRecord
  | _, [] => []
  | recovered, entry :: entries => ⟨entry.1, entry.2, segmentId, recovered⟩ :: storedFrom segmentId (recovered + 1) entries

@[simp] theorem storedFrom_entries (recovered : Nat) (entries : List Entry) :
    (storedFrom segmentId recovered entries).map StoredRecord.entry = entries := by
  induction entries generalizing recovered with
  | nil => rfl
  | cons entry entries ih => rw [storedFrom, List.map_cons, ih]; rfl

@[simp] theorem storedFrom_length (recovered : Nat) (entries : List Entry) :
    (storedFrom segmentId recovered entries).length = entries.length := by
  rw [← List.length_map StoredRecord.entry, storedFrom_entries]

def SegmentScan.prepend (records : List StoredRecord) (scan : SegmentScan) : SegmentScan :=
  { scan with records := records ++ scan.records }

theorem scanRecords_frame {entry : Entry} (hsize : entry.2.length ≤ maxRecordPayloadBytes) (rest : Bytes)
    (fuel recovered : Nat) (payloadBytes : UInt64) :
    scanRecords name segmentId (fuel + 1) recovered payloadBytes (frame entry ++ rest) =
      (scanRecords name segmentId fuel (recovered + 1) (payloadBytes + UInt64.ofNat entry.2.length) rest).cons
        ⟨entry.1, entry.2, segmentId, recovered⟩ := by
  have hlen : ofLe (field (recordHeader entry.1 entry.2) 0 4) = entry.2.length := by
    rw [recordHeader_length_field, ofLe_le_of_lt]
    have : maxRecordPayloadBytes < 256 ^ 4 := by decide
    omega
  have hcrc : ofLe (field (recordHeader entry.1 entry.2) 8 4) = (crc32c entry.2).toNat := by
    rw [recordHeader_crc_field, ofLe_le_crc]
  have htype : (recordHeader entry.1 entry.2).getD 4 0 = entry.1.code := by
    rw [List.getD_eq_getElem?_getD, recordHeader_getElem_four]
    rfl
  rw [frame, List.append_assoc, scanRecords_head name segmentId (recordHeader_length _ _),
    if_neg (magic_ne_of_type (recordHeader_getElem_four _ _)), hlen, if_neg (by omega),
    readExact_append rfl, hcrc, htype]
  simp only [ne_eq, not_true_eq_false, if_false, RecordType.ofCode_code]

theorem scanRecords_frames {entries : List Entry}
    (hsized : ∀ entry ∈ entries, entry.2.length ≤ maxRecordPayloadBytes) (rest : Bytes) (fuel recovered : Nat)
    (payloadBytes : UInt64) :
    scanRecords name segmentId (entries.length + fuel) recovered payloadBytes (frames entries ++ rest) =
      (scanRecords name segmentId fuel (recovered + entries.length) (addPayload payloadBytes entries) rest).prepend
        (storedFrom segmentId recovered entries) := by
  induction entries generalizing recovered payloadBytes with
  | nil => simp [SegmentScan.prepend, storedFrom, addPayload]
  | cons entry entries ih =>
    have hfuel : (entry :: entries).length + fuel = entries.length + fuel + 1 := by
      rw [List.length_cons]
      omega
    have hcount : recovered + 1 + entries.length = recovered + (entry :: entries).length := by
      rw [List.length_cons]
      omega
    rw [hfuel, frames_cons, List.append_assoc, scanRecords_frame name segmentId (hsized entry List.mem_cons_self),
      ih fun e he => hsized e (List.mem_cons_of_mem _ he), hcount]
    rfl

theorem scanRecords_footerBytes {footer : Bytes} (hlen : footer.length = 40)
    (hmagic : field footer 0 8 = segmentFooterMagic) (rest : Bytes) (fuel recovered : Nat) (payloadBytes : UInt64) :
    scanRecords name segmentId (fuel + 1) recovered payloadBytes (footer ++ rest) =
      if (crc32c (field footer 0 24)).toNat ≠ ofLe (field footer 24 4) then
        { SegmentScan.failed (name ++ text " footer") rest with
          sawFooter := true, footerRecordCount := ofLe (field footer 8 4) }
      else if ofLe (field footer 16 8) ≠ payloadBytes.toNat then
        { SegmentScan.failed (name ++ text " payload byte count") rest with
          sawFooter := true, footerRecordCount := ofLe (field footer 8 4) }
      else { sawFooter := true, footerRecordCount := ofLe (field footer 8 4), rest } := by
  obtain ⟨head, tail, rfl, hhead⟩ : ∃ head tail, footer = head ++ tail ∧ head.length = 12 :=
    ⟨footer.take 12, footer.drop 12, (List.take_append_drop 12 footer).symm, by rw [List.length_take]; omega⟩
  have htail : tail.length = segmentFooterBytes - recordHeaderBytes := by
    rw [List.length_append, hhead] at hlen
    exact Nat.add_left_cancel hlen
  have hcount : field (head ++ tail) 8 4 = field head 8 4 := field_append_left (by omega)
  rw [field_append_left (by omega)] at hmagic
  rw [List.append_assoc, scanRecords_head name segmentId hhead, if_pos hmagic, scanFooter,
    readExact_append htail, hcount]

end Loop

section Footer

variable (records : Nat) (payloadBytes digest : UInt64)

theorem segmentFooter_magic : field (segmentFooter records payloadBytes digest) 0 8 = segmentFooterMagic := by
  rw [segmentFooter, field_append_left (by simp)]
  exact field_first segmentFooterMagic_length

theorem segmentFooter_count : field (segmentFooter records payloadBytes digest) 8 4 = le 4 records := by
  rw [segmentFooter, field_append_left (by simp)]
  exact field_append segmentFooterMagic_length (le_length _ _)

theorem segmentFooter_payloadBytes :
    field (segmentFooter records payloadBytes digest) 16 8 = le 8 payloadBytes.toNat := by
  rw [segmentFooter, field_append_left (by simp)]
  have hsplit : segmentFooterPrefix records payloadBytes =
      (segmentFooterMagic ++ (le 4 records ++ le 4 0)) ++ le 8 payloadBytes.toNat := by
    simp [segmentFooterPrefix]
  rw [hsplit]
  exact field_last (by simp) (le_length _ _)

theorem segmentFooter_covered :
    field (segmentFooter records payloadBytes digest) 0 24 = segmentFooterPrefix records payloadBytes :=
  field_first (segmentFooterPrefix_length _ _)

theorem segmentFooter_crc : field (segmentFooter records payloadBytes digest) 24 4 =
    le 4 (crc32c (segmentFooterPrefix records payloadBytes)).toNat :=
  field_append (segmentFooterPrefix_length _ _) (le_length _ _)

theorem scanRecords_footer (name : Bytes) (segmentId : UInt32) (rest : Bytes) (fuel recovered : Nat) :
    scanRecords name segmentId (fuel + 1) recovered payloadBytes
        (segmentFooter records payloadBytes digest ++ rest) =
      { sawFooter := true, footerRecordCount := records % 2 ^ 32, rest } := by
  rw [scanRecords_footerBytes name segmentId (segmentFooter_length _ _ _) (segmentFooter_magic _ _ _),
    segmentFooter_covered, segmentFooter_crc, segmentFooter_payloadBytes, segmentFooter_count, ofLe_le_crc, ofLe_le 4]
  have hbytes : ofLe (le 8 payloadBytes.toNat) = payloadBytes.toNat := ofLe_le_of_lt payloadBytes.toNat_lt
  simp [hbytes]

end Footer

/-! ## Reading a file -/

theorem fileOutcome_header {name header rest : Bytes} {synced : Nat} (hlen : header.length = 48) :
    fileOutcome ⟨name, header ++ rest, synced⟩ = if headerValid header then
      (scanRecords name (headerSegmentId header) (rest.length + 1) 0 0 rest).outcome else ([], false) := by
  simp only [fileOutcome, readExact_append hlen]

theorem fileOutcome_short {name content : Bytes} {synced : Nat} (h : content.length < 48) :
    fileOutcome ⟨name, content, synced⟩ = ([], false) := by
  simp only [fileOutcome, readExact_short h]

/-- Well-formed frames after a valid header are read first, whatever follows them in the file. -/
theorem fileOutcome_frames {header : Bytes} (hlen : header.length = 48) (hvalid : headerValid header = true)
    (name : Bytes) (synced : Nat) {entries : List Entry}
    (hsized : ∀ entry ∈ entries, entry.2.length ≤ maxRecordPayloadBytes) {rest : Bytes} {fuel : Nat}
    (hfuel : rest.length ≤ fuel) :
    fileOutcome ⟨name, header ++ (frames entries ++ rest), synced⟩ =
      ((scanRecords name (headerSegmentId header) (fuel + 1) entries.length (addPayload 0 entries) rest).prepend
        (storedFrom (headerSegmentId header) 0 entries)).outcome := by
  have hle := length_le_frames_length entries
  have hsplit : (frames entries ++ rest).length + 1 =
      entries.length + ((frames entries).length + rest.length - entries.length + 1) := by
    rw [List.length_append]
    omega
  rw [fileOutcome_header hlen, if_pos hvalid, hsplit, scanRecords_frames _ _ hsized, Nat.zero_add,
    scanRecords_fuel name _
      (show rest.length < (frames entries).length + rest.length - entries.length + 1 by omega)
      (show rest.length < fuel + 1 by omega)]

theorem mod_eq_iff_not_overfull (s : Segment) : s.entries.length % 2 ^ 32 = s.entries.length ↔ ¬s.Overfull := by
  rw [Segment.Overfull]
  constructor
  · intro h
    have := Nat.mod_lt s.entries.length (show 0 < 2 ^ 32 by decide)
    omega
  · intro h
    exact Nat.mod_eq_of_lt (by omega)

/-- All entries were read and the footer was accepted: only the record count can speak against it. -/
theorem prepend_footer_outcome (s : Segment) (segmentId : UInt32) (rest : Bytes) :
    (({ sawFooter := true, footerRecordCount := s.entries.length % 2 ^ 32, rest } : SegmentScan).prepend
      (storedFrom segmentId 0 s.entries)).outcome = (s.entries, decide ¬s.Overfull) := by
  refine Prod.ext (by simp [SegmentScan.outcome, SegmentScan.prepend]) ?_
  simp only [SegmentScan.outcome, SegmentScan.prepend, SegmentScan.countMismatch, List.append_nil,
    storedFrom_length, Bool.false_or, Bool.not_false, Bool.and_true, Bool.true_and, ← mod_eq_iff_not_overfull]
  rw [Bool.eq_iff_iff]
  simp

theorem fileOutcome_intact (s : Segment) {header : Bytes} (hlen : header.length = 48)
    (hvalid : headerValid header = true) (name : Bytes) (synced : Nat) :
    fileOutcome ⟨name, header ++ (frames s.entries ++ s.footer), synced⟩ = (s.entries, decide ¬s.Overfull) := by
  have hout := fileOutcome_frames hlen hvalid name synced s.sized (Nat.le_refl s.footer.length)
  have hscan := scanRecords_footer s.entries.length (addPayload 0 s.entries)
    (s.entries.foldl (fun digest entry => foldDigest digest entry.2) fnvOffset) name (headerSegmentId header) []
    s.footer.length s.entries.length
  rw [List.append_nil, ← Segment.footer] at hscan
  rw [hout, hscan, prepend_footer_outcome]

theorem fileOutcome_bytes (s : Segment) (name : Bytes) (synced : Nat) :
    fileOutcome ⟨name, s.bytes, synced⟩ = (s.entries, decide ¬s.Overfull) := by
  rw [s.bytes_eq]
  exact fileOutcome_intact s s.header_length s.header_valid name synced

end LatencyObservatory.Store
