import LatencyObservatory.Store.Truncation

/-!
# Changed bytes

One byte of one segment file takes another value. The header and footer checksums and the record CRC
notice a change in what they cover, and a change in what nobody reads has no effect. The record type
and the record length lie outside the record CRC: another known type is taken for the written one,
and another length selects other bytes, which the CRC accepts only by collision.
-/

namespace LatencyObservatory.Store
open LatencyObservatory.Core LatencyObservatory.Lib

/-! ## A changed frame -/

/-- A change of byte `q` of an entry's frame that the reader takes for another record. `rest` is what
follows the frame in the file. -/
def FrameAltered (entry : Entry) (q : Nat) (b : UInt8) (rest : Bytes) : Prop :=
  q = 4 ∧ (RecordType.ofCode b).isSome ∨
  q < 4 ∧ ofLe ((le 4 entry.2.length).set q b) ≤ maxRecordPayloadBytes ∧
    ofLe ((le 4 entry.2.length).set q b) ≤ (entry.2 ++ rest).length ∧
    crc32c ((entry.2 ++ rest).take (ofLe ((le 4 entry.2.length).set q b))) = crc32c entry.2

section Frame

variable {entry : Entry} {q : Nat} {b : UInt8}

theorem recordHeader_getElem_five (type : RecordType) (payload : Bytes) :
    (recordHeader type payload)[5]? = some 0 := by
  rw [recordHeader, List.getElem?_append_right (by simp), le_length]
  rfl

theorem set_recordHeader_magic (type : RecordType) (payload : Bytes) (q : Nat) (b : UInt8) :
    field ((recordHeader type payload).set q b) 0 8 ≠ segmentFooterMagic := by
  by_cases hq : q = 4
  · intro hmagic
    have hbyte : (field ((recordHeader type payload).set q b) 0 8)[5]? = some 0 := by
      rw [field, List.drop_zero, List.getElem?_take_of_lt (by decide), List.getElem?_set_ne (by omega)]
      exact recordHeader_getElem_five _ _
    rw [hmagic] at hbyte
    exact absurd hbyte (by decide)
  · refine @magic_ne_of_type _ type ?_
    rw [List.getElem?_set_ne hq]
    exact recordHeader_getElem_four _ _

theorem set_recordHeader_length (type : RecordType) (payload : Bytes) :
    ((recordHeader type payload).set q b).length = 12 := by
  rw [List.length_set, recordHeader_length]

theorem ofLe_le_payload (hsize : entry.2.length ≤ maxRecordPayloadBytes) : ofLe (le 4 entry.2.length) = entry.2.length := by
  refine ofLe_le_of_lt ?_
  have : maxRecordPayloadBytes < 256 ^ 4 := by decide
  omega

theorem set_header_lengthField (type : RecordType) (payload : Bytes) (q : Nat) (b : UInt8) :
    field ((recordHeader type payload).set q b) 0 4 = (le 4 payload.length).set q b := by
  rw [field_set (Nat.zero_le q), recordHeader_length_field, Nat.sub_zero]

theorem getD_set_header (hq : q ≠ 4) : ((recordHeader entry.1 entry.2).set q b).getD 4 0 = entry.1.code := by
  rw [List.getD_eq_getElem?_getD, List.getElem?_set_ne hq, recordHeader_getElem_four]
  rfl

theorem header_getElem?_ne (hq : q < 12) (hb : (frame entry)[q]? ≠ some b) :
    (recordHeader entry.1 entry.2)[q]? ≠ some b := by
  rwa [frame, List.getElem?_append_left (by rw [recordHeader_length]; exact hq)] at hb

variable (name : Bytes) (segmentId : UInt32) (rest : Bytes) (fuel recovered : Nat) (payloadBytes : UInt64)

theorem scanRecords_set_length (hq : q < 4) :
    scanRecords name segmentId (fuel + 1) recovered payloadBytes ((frame entry).set q b ++ rest) =
      if ofLe ((le 4 entry.2.length).set q b) > maxRecordPayloadBytes then
        SegmentScan.failed (name ++ text " record length") (entry.2 ++ rest)
      else
        match readExact (ofLe ((le 4 entry.2.length).set q b)) (entry.2 ++ rest) with
        | (none, rest) => { truncated := true, rest }
        | (some payload, rest) =>
          if (crc32c payload).toNat ≠ (crc32c entry.2).toNat then
            SegmentScan.failed (name ++ text " record crc") rest
          else
            (scanRecords name segmentId fuel (recovered + 1)
              (payloadBytes + UInt64.ofNat (ofLe ((le 4 entry.2.length).set q b))) rest).cons
                ⟨entry.1, payload, segmentId, recovered⟩ := by
  have hcrc : ofLe (field ((recordHeader entry.1 entry.2).set q b) 8 4) = (crc32c entry.2).toNat := by
    rw [field_set_of_lt (by omega), recordHeader_crc_field, ofLe_le_crc]
  rewrite [frame, List.set_append_left _ _ (by rw [recordHeader_length]; omega), List.append_assoc,
    scanRecords_head name segmentId (set_recordHeader_length _ _), if_neg (set_recordHeader_magic _ _ _ _),
    set_header_lengthField, hcrc, getD_set_header (by omega), RecordType.ofCode_code]
  rfl

theorem scanRecords_set_length_safe (hq : q < 4) (hsafe : ¬FrameAltered entry q b rest) :
    (scanRecords name segmentId (fuel + 1) recovered payloadBytes ((frame entry).set q b ++ rest)).truncated = true ∧
      (scanRecords name segmentId (fuel + 1) recovered payloadBytes ((frame entry).set q b ++ rest)).records = [] := by
  rw [scanRecords_set_length name segmentId rest fuel recovered payloadBytes hq]
  by_cases hlong : ofLe ((le 4 entry.2.length).set q b) > maxRecordPayloadBytes
  · rw [if_pos hlong]
    exact ⟨rfl, rfl⟩
  rw [if_neg hlong]
  by_cases hfits : ofLe ((le 4 entry.2.length).set q b) ≤ (entry.2 ++ rest).length
  · have hcrc : (crc32c ((entry.2 ++ rest).take (ofLe ((le 4 entry.2.length).set q b)))).toNat ≠
        (crc32c entry.2).toNat :=
      fun hcollision => hsafe (.inr ⟨hq, by omega, hfits, UInt32.toNat_inj.mp hcollision⟩)
    rw [readExact, if_pos hfits]
    simp only [if_pos hcrc]
    exact ⟨rfl, rfl⟩
  · rw [readExact_short (Nat.lt_of_not_le hfits)]
    exact ⟨rfl, rfl⟩

variable (hsize : entry.2.length ≤ maxRecordPayloadBytes)
include hsize

theorem scanRecords_set_header (hq : 4 ≤ q) (hlt : q < 12) :
    scanRecords name segmentId (fuel + 1) recovered payloadBytes ((frame entry).set q b ++ rest) =
      if (crc32c entry.2).toNat ≠ ofLe (field ((recordHeader entry.1 entry.2).set q b) 8 4) then
        SegmentScan.failed (name ++ text " record crc") rest
      else
        match RecordType.ofCode (((recordHeader entry.1 entry.2).set q b).getD 4 0) with
        | none => SegmentScan.failed (name ++ text " record type") rest
        | some type =>
          (scanRecords name segmentId fuel (recovered + 1) (payloadBytes + UInt64.ofNat entry.2.length) rest).cons
            ⟨type, entry.2, segmentId, recovered⟩ := by
  have hlength : ofLe (field ((recordHeader entry.1 entry.2).set q b) 0 4) = entry.2.length := by
    rw [field_set_of_ge (by omega), recordHeader_length_field, ofLe_le_payload hsize]
  rewrite [frame, List.set_append_left _ _ (by rw [recordHeader_length]; exact hlt), List.append_assoc,
    scanRecords_head name segmentId (set_recordHeader_length _ _), if_neg (set_recordHeader_magic _ _ _ _), hlength,
    if_neg (by omega), readExact_append rfl]
  rfl

theorem scanRecords_set_payload (hq : 12 ≤ q) (hlt : q < (frame entry).length) (hb : (frame entry)[q]? ≠ some b) :
    scanRecords name segmentId (fuel + 1) recovered payloadBytes ((frame entry).set q b ++ rest) =
      SegmentScan.failed (name ++ text " record crc") rest := by
  rw [frame_length] at hlt
  have hbyte : entry.2[q - 12]? ≠ some b := by
    rwa [frame, List.getElem?_append_right (by rw [recordHeader_length]; exact hq), recordHeader_length] at hb
  have hcrc : (crc32c (entry.2.set (q - 12) b)).toNat ≠ (crc32c entry.2).toNat := by
    intro h
    exact crc32c_set_ne (by omega) hbyte (UInt32.toNat_inj.mp h)
  have hlength : ofLe (field (recordHeader entry.1 entry.2) 0 4) = entry.2.length := by
    rw [recordHeader_length_field, ofLe_le_payload hsize]
  rw [frame, List.set_append_right _ _ (by rw [recordHeader_length]; exact hq), recordHeader_length,
    List.append_assoc, scanRecords_head name segmentId (recordHeader_length _ _),
    if_neg (magic_ne_of_type (recordHeader_getElem_four _ _)), hlength, if_neg (by omega),
    readExact_append (List.length_set ..), recordHeader_crc_field, ofLe_le_crc]
  simp only [if_pos hcrc]

/-- A change that is no alteration is either without effect or ends the loop with a truncation. -/
theorem scanRecords_set_frame (hq : q < (frame entry).length) (hb : (frame entry)[q]? ≠ some b)
    (hsafe : ¬FrameAltered entry q b rest) :
    scanRecords name segmentId (fuel + 1) recovered payloadBytes ((frame entry).set q b ++ rest) =
        scanRecords name segmentId (fuel + 1) recovered payloadBytes (frame entry ++ rest) ∨
      (scanRecords name segmentId (fuel + 1) recovered payloadBytes ((frame entry).set q b ++ rest)).truncated = true ∧
        (scanRecords name segmentId (fuel + 1) recovered payloadBytes ((frame entry).set q b ++ rest)).records = [] := by
  by_cases hlength : q < 4
  · exact .inr (scanRecords_set_length_safe name segmentId rest fuel recovered payloadBytes hlength hsafe)
  by_cases hpayload : 12 ≤ q
  · rw [scanRecords_set_payload name segmentId rest fuel recovered payloadBytes hsize hpayload hq hb]
    exact .inr ⟨rfl, rfl⟩
  rw [scanRecords_set_header name segmentId rest fuel recovered payloadBytes hsize (by omega) (by omega)]
  by_cases hcrc : 8 ≤ q
  · -- A change of the stored CRC.
    have hne : (crc32c entry.2).toNat ≠ ofLe (field ((recordHeader entry.1 entry.2).set q b) 8 4) := by
      have := ofLe_field_set_ne (n := 4) hcrc (by omega) (by rw [recordHeader_length])
        (header_getElem?_ne (by omega) hb)
      rw [recordHeader_crc_field, ofLe_le_crc] at this
      exact this.symm
    rw [if_pos hne]
    exact .inr ⟨rfl, rfl⟩
  have hsame : ofLe (field ((recordHeader entry.1 entry.2).set q b) 8 4) = (crc32c entry.2).toNat := by
    rw [field_set_of_lt (by omega), recordHeader_crc_field, ofLe_le_crc]
  rw [hsame, if_neg (by simp)]
  by_cases htype : q = 4
  · -- A change of the type byte to a byte that is no type.
    subst htype
    have hnone : RecordType.ofCode (((recordHeader entry.1 entry.2).set 4 b).getD 4 0) = none := by
      rw [List.getD_eq_getElem?_getD, List.getElem?_set_self (by rw [recordHeader_length]; decide)]
      exact Option.not_isSome_iff_eq_none.mp fun hsome => hsafe (.inl ⟨rfl, hsome⟩)
    rw [hnone]
    exact .inr ⟨rfl, rfl⟩
  · -- Flags and reserved bytes are not read.
    rw [getD_set_header htype, RecordType.ofCode_code, scanRecords_frame name segmentId hsize]
    exact .inl rfl

theorem scanRecords_altered (hb : (frame entry)[q]? ≠ some b) (haltered : FrameAltered entry q b rest) :
    ∃ record scan, StoredRecord.entry record ≠ entry ∧
      scanRecords name segmentId (fuel + 1) recovered payloadBytes ((frame entry).set q b ++ rest) =
        SegmentScan.cons record scan := by
  rcases haltered with ⟨rfl, hsome⟩ | ⟨hq, hmax, hfits, hcollision⟩
  · obtain ⟨type, htype⟩ := Option.isSome_iff_exists.mp hsome
    have hsame : ofLe (field ((recordHeader entry.1 entry.2).set 4 b) 8 4) = (crc32c entry.2).toNat := by
      rw [field_set_of_lt (by omega), recordHeader_crc_field, ofLe_le_crc]
    have hbyte : ((recordHeader entry.1 entry.2).set 4 b).getD 4 0 = b := by
      rw [List.getD_eq_getElem?_getD, List.getElem?_set_self (by rw [recordHeader_length]; decide)]
      rfl
    rw [scanRecords_set_header name segmentId rest fuel recovered payloadBytes hsize (Nat.le_refl 4) (by decide), hsame,
      hbyte, htype, if_neg (by simp)]
    refine ⟨_, _, ?_, rfl⟩
    intro heq
    -- The type read is the one of the new byte, which is not the old one.
    have hcode : type.code = b := RecordType.code_of_ofCode htype
    have hold : (recordHeader entry.1 entry.2)[4]? ≠ some b := header_getElem?_ne (by decide) hb
    rw [recordHeader_getElem_four, ← hcode] at hold
    exact hold (by rw [← heq]; rfl)
  · rw [scanRecords_set_length name segmentId rest fuel recovered payloadBytes hq, if_neg (by omega)]
    simp only [readExact, if_pos hfits, hcollision, ne_eq, not_true_eq_false, if_false]
    refine ⟨_, _, ?_, rfl⟩
    intro heq
    have hlen := congrArg (fun e : Entry => e.2.length) heq
    simp only [StoredRecord.entry, List.length_take, Nat.min_eq_left hfits] at hlen
    -- A changed length field cannot hold the old length.
    have hne := ofLe_field_set_ne (n := 4) (Nat.zero_le q) (by omega) (by rw [recordHeader_length]; decide)
      (header_getElem?_ne (by omega) hb)
    rw [set_header_lengthField, recordHeader_length_field, ofLe_le_payload hsize] at hne
    exact hne hlen

end Frame

/-! ## A changed header or footer -/

section Header

variable (s : Segment) {q : Nat} {b : UInt8}

theorem header_crc_field : ofLe (field s.header 32 4) = (crc32c (field s.header 0 32)).toNat := by
  have hvalid := s.header_valid
  simp only [headerValid, Bool.and_eq_true, beq_iff_eq] at hvalid
  exact hvalid.2

theorem headerValid_set (hq : q < 36) (hb : s.header[q]? ≠ some b) : headerValid (s.header.set q b) = false := by
  have hcrc : ofLe (field (s.header.set q b) 32 4) ≠ (crc32c (field (s.header.set q b) 0 32)).toNat := by
    by_cases hcovered : q < 32
    · rw [field_set_of_lt hcovered, header_crc_field, field_set (Nat.zero_le q), Nat.sub_zero]
      intro h
      refine crc32c_set_ne ?_ ?_ (UInt32.toNat_inj.mp h.symm)
      · rw [field_length (by rw [s.header_length]; decide)]
        exact hcovered
      · rwa [field, List.drop_zero, List.getElem?_take_of_lt hcovered]
    · have hkept : field (s.header.set q b) 0 32 = field s.header 0 32 := field_set_of_ge (by omega)
      rw [hkept, ← header_crc_field]
      exact ofLe_field_set_ne (by omega) (by omega) (by rw [s.header_length]; decide) hb
  rw [headerValid, beq_eq_false_iff_ne.mpr hcrc, Bool.and_false]

theorem headerValid_set_reserved (hq : 36 ≤ q) : headerValid (s.header.set q b) = true := by
  have hvalid := s.header_valid
  rw [headerValid] at hvalid ⊢
  rw [field_set_of_ge (by omega), field_set_of_ge (by omega), field_set_of_ge (by omega), field_set_of_ge (by omega),
    field_set_of_ge (by omega)]
  exact hvalid

end Header

section Footer

variable (records : Nat) (bytes digest : UInt64) {q : Nat} {b : UInt8}

theorem magic_length_large : ∀ q < 4, ∀ b < 256,
    ofLe ((segmentFooterMagic.take 4).set q (UInt8.ofNat b)) > maxRecordPayloadBytes := by
  decide +kernel

theorem set_footer_length_large (q : Nat) (b : UInt8) :
    ofLe (field ((segmentFooter records bytes digest).set q b) 0 4) > maxRecordPayloadBytes := by
  have hmagic : field (segmentFooter records bytes digest) 0 4 = segmentFooterMagic.take 4 := by
    have := congrArg (List.take 4) (segmentFooter_magic records bytes digest)
    rwa [field, List.take_take] at this
  by_cases hq : q < 4
  · have := magic_length_large q hq b.toNat b.toNat_lt
    rw [UInt8.ofNat_toNat] at this
    rwa [field_set (Nat.zero_le q), hmagic, Nat.sub_zero]
  · rw [field_set_of_ge (by omega), hmagic]
    decide

theorem scanRecords_set_footer (name : Bytes) (segmentId : UInt32) (fuel recovered : Nat) (hq : q < 40)
    (hb : (segmentFooter records bytes digest)[q]? ≠ some b) :
    (scanRecords name segmentId (fuel + 1) recovered bytes ((segmentFooter records bytes digest).set q b)) =
        scanRecords name segmentId (fuel + 1) recovered bytes (segmentFooter records bytes digest) ∨
      (scanRecords name segmentId (fuel + 1) recovered bytes
          ((segmentFooter records bytes digest).set q b)).truncated = true ∧
        (scanRecords name segmentId (fuel + 1) recovered bytes
          ((segmentFooter records bytes digest).set q b)).records = [] := by
  set footer := segmentFooter records bytes digest with hfooter
  have hlength : (footer.set q b).length = 40 := by rw [List.length_set, hfooter, segmentFooter_length]
  have hplain : footer.length = 40 := segmentFooter_length _ _ _
  by_cases hmagic : field (footer.set q b) 0 8 = segmentFooterMagic
  · have hscan := scanRecords_footerBytes name segmentId hlength hmagic [] fuel recovered bytes
    have hscan' := scanRecords_footerBytes name segmentId hplain (segmentFooter_magic _ _ _) [] fuel recovered bytes
    rw [List.append_nil] at hscan hscan'
    have hbyte : q < 28 → (crc32c (field (footer.set q b) 0 24)).toNat ≠ ofLe (field (footer.set q b) 24 4) := by
      intro hlt h
      have hvalid : (crc32c (field footer 0 24)).toNat = ofLe (field footer 24 4) := by
        rw [hfooter, segmentFooter_covered, segmentFooter_crc, ofLe_le_crc]
      by_cases hcovered : q < 24
      · rw [field_set_of_lt hcovered, ← hvalid, field_set (Nat.zero_le q), Nat.sub_zero] at h
        refine crc32c_set_ne ?_ ?_ (UInt32.toNat_inj.mp h)
        · rw [field_length (by omega)]
          exact hcovered
        · rwa [field, List.drop_zero, List.getElem?_take_of_lt hcovered]
      · rw [field_set_of_ge (by omega), hvalid] at h
        exact ofLe_field_set_ne (by omega) (by omega) (by omega) hb h.symm
    by_cases hread : q < 28
    · rw [hscan, if_pos (hbyte hread)]
      exact .inr ⟨rfl, rfl⟩
    · -- The reserved word and the digest are not read.
      left
      rw [hscan, hscan', field_set_of_ge (by omega), field_set_of_ge (by omega), field_set_of_ge (by omega),
        field_set_of_ge (by omega)]
  · -- Without the magic the bytes are taken for a record header of impossible length.
    right
    have hsplit : footer.set q b = (footer.set q b).take 12 ++ (footer.set q b).drop 12 :=
      (List.take_append_drop _ _).symm
    have hhead : ((footer.set q b).take 12).length = 12 := by
      rw [List.length_take]
      omega
    have hlarge := set_footer_length_large records bytes digest q b
    rw [← hfooter, hsplit, field_append_left (by omega)] at hlarge
    rw [hsplit, field_append_left (by omega)] at hmagic
    rw [hsplit, scanRecords_head name segmentId hhead, if_neg hmagic, if_pos hlarge]
    exact ⟨rfl, rfl⟩

end Footer

/-! ## A changed file -/

/-- Where the record headers of a segment file start: each length leads to the next one, up to the
footer. -/
def recordOffsets (content : Bytes) : Nat → Nat → List Nat
  | 0, _ => []
  | fuel + 1, off =>
    if field content off 8 = segmentFooterMagic then []
    else off :: recordOffsets content fuel (off + 12 + ofLe (field content off 4))

/-- A change that the reader cannot tell from another record: the type byte of a record becomes
another known type, or its length becomes one whose bytes have the stored CRC. -/
def Altered (content : Bytes) (pos : Nat) (b : UInt8) : Prop :=
  ∃ off ∈ recordOffsets content content.length 48,
    pos = off + 4 ∧ (RecordType.ofCode b).isSome ∨
    off ≤ pos ∧ pos < off + 4 ∧ ofLe (field (content.set pos b) off 4) ≤ maxRecordPayloadBytes ∧
      off + 12 + ofLe (field (content.set pos b) off 4) ≤ content.length ∧
      (crc32c (field content (off + 12) (ofLe (field (content.set pos b) off 4)))).toNat =
        ofLe (field content (off + 8) 4)

instance (content : Bytes) (pos : Nat) (b : UInt8) : Decidable (Altered content pos b) :=
  inferInstanceAs (Decidable (∃ off ∈ _, _))

/-- The offsets at which the frames of `entries` start. -/
def offsetsFrom : Nat → List Entry → List Nat
  | _, [] => []
  | off, entry :: entries => off :: offsetsFrom (off + (frame entry).length) entries

theorem mem_offsetsFrom {entries : List Entry} {start off : Nat} : off ∈ offsetsFrom start entries ↔
    ∃ xs entry ys, entries = xs ++ entry :: ys ∧ off = start + (frames xs).length := by
  induction entries generalizing start with
  | nil => simp [offsetsFrom]
  | cons e entries ih =>
    rw [offsetsFrom, List.mem_cons, ih]
    constructor
    · rintro (rfl | ⟨xs, entry, ys, rfl, rfl⟩)
      · exact ⟨[], e, entries, rfl, rfl⟩
      · exact ⟨e :: xs, entry, ys, rfl, by rw [frames_cons, List.length_append]; omega⟩
    · rintro ⟨xs, entry, ys, hsplit, rfl⟩
      cases xs with
      | nil => exact .inl rfl
      | cons x xs =>
        obtain ⟨rfl, rfl⟩ := List.cons_eq_cons.mp hsplit
        exact .inr ⟨xs, entry, ys, rfl, by rw [frames_cons, List.length_append]; omega⟩

theorem field_drop (content : Bytes) (off m n : Nat) : field content (off + m) n = field (content.drop off) m n := by
  rw [field, field, List.drop_drop]

theorem field_at {content rest : Bytes} {off : Nat} (hrest : content.drop off = rest) (n : Nat) :
    field content off n = field rest 0 n := by
  rw [← hrest, ← field_drop, Nat.add_zero]

theorem recordOffsets_frames {content : Bytes} {entries : List Entry}
    (hsized : ∀ entry ∈ entries, entry.2.length ≤ maxRecordPayloadBytes) {records : Nat} {bytes digest : UInt64}
    {off fuel : Nat} (hrest : content.drop off = frames entries ++ segmentFooter records bytes digest) :
    recordOffsets content (entries.length + (fuel + 1)) off = offsetsFrom off entries := by
  induction entries generalizing off with
  | nil =>
    rw [frames_nil, List.nil_append] at hrest
    rw [List.length_nil, Nat.zero_add, recordOffsets, field_at hrest, if_pos (segmentFooter_magic _ _ _)]
    rfl
  | cons entry entries ih =>
    rw [frames_cons, List.append_assoc] at hrest
    have hmagic : field content off 8 ≠ segmentFooterMagic := by
      rw [field_at hrest, frame, List.append_assoc, field_append_left (by rw [recordHeader_length]; decide)]
      exact magic_ne_of_type (recordHeader_getElem_four _ _)
    have hlength : ofLe (field content off 4) = entry.2.length := by
      rw [field_at hrest, frame, List.append_assoc, field_append_left (by rw [recordHeader_length]; decide),
        recordHeader_length_field, ofLe_le_payload (hsized entry List.mem_cons_self)]
    have hnext : content.drop (off + (frame entry).length) = frames entries ++ segmentFooter records bytes digest := by
      rw [← List.drop_drop, hrest, List.drop_left]
    rw [List.length_cons, Nat.add_right_comm, recordOffsets, if_neg hmagic, hlength, offsetsFrom,
      show off + 12 + entry.2.length = off + (frame entry).length by rw [frame_length]; omega,
      ih (fun e he => hsized e (List.mem_cons_of_mem _ he)) hnext]

theorem recordOffsets_bytes (s : Segment) : recordOffsets s.bytes s.bytes.length 48 = offsetsFrom 48 s.entries := by
  have hrest : s.bytes.drop 48 = frames s.entries ++ s.footer := by
    rw [s.bytes_eq]
    exact List.drop_left' s.header_length
  have hle := length_le_frames_length s.entries
  have hlength := segment_length s
  obtain ⟨fuel, hfuel⟩ : ∃ fuel, s.bytes.length = s.entries.length + (fuel + 1) :=
    ⟨s.bytes.length - s.entries.length - 1, by omega⟩
  rw [hfuel]
  exact recordOffsets_frames s.sized hrest

theorem frames_unique {xs ys xs' ys' : List Entry} {entry entry' : Entry} {q q' : Nat}
    (hsplit : xs ++ entry :: ys = xs' ++ entry' :: ys') (hpos : (frames xs).length + q = (frames xs').length + q')
    (hq : q < (frame entry).length) (hq' : q' < (frame entry').length) : xs = xs' ∧ entry = entry' ∧ ys = ys' := by
  rcases List.append_eq_append_iff.mp hsplit with ⟨zs, hxs, hys⟩ | ⟨zs, hxs, hys⟩
  · cases zs with
    | nil =>
      rw [List.nil_append] at hys
      obtain ⟨rfl, rfl⟩ := List.cons_eq_cons.mp hys
      exact ⟨by rw [hxs, List.append_nil], rfl, rfl⟩
    | cons z zs =>
      obtain ⟨rfl, -⟩ := List.cons_eq_cons.mp hys
      rw [hxs, frames_append, frames_cons, List.length_append, List.length_append] at hpos
      omega
  · cases zs with
    | nil =>
      rw [List.nil_append] at hys
      obtain ⟨rfl, rfl⟩ := List.cons_eq_cons.mp hys
      exact ⟨by rw [hxs, List.append_nil], rfl, rfl⟩
    | cons z zs =>
      obtain ⟨rfl, -⟩ := List.cons_eq_cons.mp hys
      rw [hxs, frames_append, frames_cons, List.length_append, List.length_append] at hpos
      omega

theorem exists_frame {entries : List Entry} {pos : Nat} (hpos : pos < (frames entries).length) :
    ∃ xs entry ys q, entries = xs ++ entry :: ys ∧ pos = (frames xs).length + q ∧ q < (frame entry).length := by
  induction entries generalizing pos with
  | nil => simp at hpos
  | cons e entries ih =>
    by_cases hin : pos < (frame e).length
    · exact ⟨[], e, entries, pos, rfl, by simp, hin⟩
    · rw [frames_cons, List.length_append] at hpos
      obtain ⟨xs, entry, ys, q, rfl, heq, hq⟩ := ih (show pos - (frame e).length < (frames entries).length by omega)
      exact ⟨e :: xs, entry, ys, q, rfl, by rw [frames_cons, List.length_append]; omega, hq⟩

section File

variable {s : Segment} {xs ys : List Entry} {entry : Entry} (hentries : s.entries = xs ++ entry :: ys)
include hentries

theorem bytes_split : s.bytes = s.header ++ (frames xs ++ (frame entry ++ (frames ys ++ s.footer))) := by
  rw [s.bytes_eq, hentries, frames_append, frames_cons, List.append_assoc, List.append_assoc]

theorem drop_bytes : s.bytes.drop (48 + (frames xs).length) = frame entry ++ (frames ys ++ s.footer) := by
  rw [bytes_split hentries, ← List.append_assoc]
  exact List.drop_left' (by rw [List.length_append, s.header_length])

theorem entry_sized : entry.2.length ≤ maxRecordPayloadBytes :=
  s.sized entry (by rw [hentries]; simp)

theorem set_bytes {q : Nat} (hq : q < (frame entry).length) (b : UInt8) :
    s.bytes.set (48 + (frames xs).length + q) b =
      s.header ++ (frames xs ++ ((frame entry).set q b ++ (frames ys ++ s.footer))) := by
  rw [bytes_split hentries, List.set_append_right _ _ (by rw [s.header_length]; omega), s.header_length,
    List.set_append_right _ _ (by omega), List.set_append_left _ _ (by omega)]
  rw [show 48 + (frames xs).length + q - 48 - (frames xs).length = q by omega]

theorem bytes_getElem? {q : Nat} (hq : q < (frame entry).length) :
    s.bytes[48 + (frames xs).length + q]? = (frame entry)[q]? := by
  rw [← List.getElem?_drop, drop_bytes hentries, List.getElem?_append_left hq]

theorem altered_iff {q : Nat} (hq : q < (frame entry).length) (b : UInt8) :
    Altered s.bytes (48 + (frames xs).length + q) b ↔ FrameAltered entry q b (frames ys ++ s.footer) := by
  have hdrop := drop_bytes hentries
  have hfield : field s.bytes (48 + (frames xs).length) 4 = le 4 entry.2.length := by
    rw [field_at hdrop, frame, List.append_assoc, field_append_left (by rw [recordHeader_length]; decide),
      recordHeader_length_field]
  have hset : field (s.bytes.set (48 + (frames xs).length + q) b) (48 + (frames xs).length) 4 =
      (le 4 entry.2.length).set q b := by
    rw [field_set (by omega), hfield, show 48 + (frames xs).length + q - (48 + (frames xs).length) = q by omega]
  have hcrc : ofLe (field s.bytes (48 + (frames xs).length + 8) 4) = (crc32c entry.2).toNat := by
    rw [field_drop, hdrop, frame, List.append_assoc, field_append_left (by rw [recordHeader_length]),
      recordHeader_crc_field, ofLe_le_crc]
  have hpayload : ∀ n, field s.bytes (48 + (frames xs).length + 12) n = (entry.2 ++ (frames ys ++ s.footer)).take n := by
    intro n
    rw [field_drop, hdrop, frame, List.append_assoc, field, List.drop_left' (recordHeader_length _ _)]
  have hlength : s.bytes.length = 48 + (frames xs).length + 12 + (entry.2 ++ (frames ys ++ s.footer)).length := by
    rw [bytes_split hentries]
    simp only [List.length_append, frame_length, s.header_length]
    omega
  rw [Altered, recordOffsets_bytes]
  constructor
  · rintro ⟨off, hoff, hcase⟩
    obtain ⟨xs', entry', ys', hsplit, rfl⟩ := mem_offsetsFrom.mp hoff
    rw [hentries] at hsplit
    -- The altered header is the one of this frame.
    obtain ⟨q', hq', hpos⟩ : ∃ q', q' ≤ 4 ∧ (frames xs).length + q = (frames xs').length + q' := by
      rcases hcase with ⟨hpos, -⟩ | ⟨hle, hlt, -⟩
      · exact ⟨4, Nat.le_refl 4, by omega⟩
      · exact ⟨48 + (frames xs).length + q - (48 + (frames xs').length), by omega, by omega⟩
    obtain ⟨rfl, rfl, rfl⟩ := frames_unique hsplit hpos hq (by rw [frame_length]; omega)
    rcases hcase with ⟨hpos, hsome⟩ | ⟨hle, hlt, hmax, hfits, hcollision⟩
    · exact .inl ⟨by omega, hsome⟩
    · rw [hset, hlength] at hfits
      rw [hset] at hmax
      rw [hset, hcrc, hpayload] at hcollision
      exact .inr ⟨by omega, hmax, by omega, UInt32.toNat_inj.mp hcollision⟩
  · intro haltered
    refine ⟨48 + (frames xs).length, mem_offsetsFrom.mpr ⟨xs, entry, ys, hentries, rfl⟩, ?_⟩
    rcases haltered with ⟨rfl, hsome⟩ | ⟨hq4, hmax, hfits, hcollision⟩
    · exact .inl ⟨rfl, hsome⟩
    · refine .inr ⟨by omega, by omega, by rw [hset]; exact hmax, by rw [hset, hlength]; omega, ?_⟩
      rw [hset, hcrc, hpayload, hcollision]

end File

theorem not_altered_outside {s : Segment} {pos : Nat} (hpos : pos < 48 ∨ 48 + (frames s.entries).length ≤ pos)
    (b : UInt8) : ¬Altered s.bytes pos b := by
  rw [Altered, recordOffsets_bytes]
  rintro ⟨off, hoff, hcase⟩
  obtain ⟨xs, entry, ys, hsplit, rfl⟩ := mem_offsetsFrom.mp hoff
  have hlength : (frames s.entries).length = (frames xs).length + (12 + entry.2.length + (frames ys).length) := by
    rw [hsplit]
    simp only [frames_append, frames_cons, List.length_append, frame_length]
  rcases hcase with ⟨hpos', -⟩ | ⟨hle, hlt, -⟩ <;> omega

theorem SegmentScan.prepend_outcome_of_truncated {scan : SegmentScan} (h : scan.truncated = true)
    (hrecords : scan.records = []) (segmentId : UInt32) (entries : List Entry) :
    (scan.prepend (storedFrom segmentId 0 entries)).outcome = (entries, false) := by
  rw [SegmentScan.outcome_of_truncated (by exact h), SegmentScan.prepend, hrecords, List.append_nil,
    storedFrom_entries]

theorem fileOutcome_set_header (s : Segment) (name : Bytes) (synced : Nat) {pos : Nat} {b : UInt8} (hpos : pos < 48)
    (hb : s.bytes[pos]? ≠ some b) :
    fileOutcome ⟨name, s.bytes.set pos b, synced⟩ = segmentOutcome s ∨
      fileOutcome ⟨name, s.bytes.set pos b, synced⟩ = ([], false) := by
  have hset : s.bytes.set pos b = s.header.set pos b ++ (frames s.entries ++ s.footer) := by
    rw [s.bytes_eq, List.set_append_left _ _ (by rw [s.header_length]; exact hpos)]
  have hlen : (s.header.set pos b).length = 48 := by rw [List.length_set, s.header_length]
  have hbyte : s.header[pos]? ≠ some b := by
    rwa [s.bytes_eq, List.getElem?_append_left (by rw [s.header_length]; exact hpos)] at hb
  rw [hset]
  by_cases hread : pos < 36
  · right
    rw [fileOutcome_header hlen, headerValid_set s hread hbyte]
    rfl
  · exact .inl (fileOutcome_intact s hlen (headerValid_set_reserved s (by omega)) name synced)

theorem fileOutcome_set_footer (s : Segment) (name : Bytes) (synced : Nat) {q : Nat} {b : UInt8} (hq : q < 40)
    (hb : s.footer[q]? ≠ some b) :
    fileOutcome ⟨name, s.header ++ (frames s.entries ++ s.footer.set q b), synced⟩ = segmentOutcome s ∨
      fileOutcome ⟨name, s.header ++ (frames s.entries ++ s.footer.set q b), synced⟩ = (s.entries, false) := by
  have hout := fileOutcome_frames s.header_length s.header_valid name synced s.sized
    (Nat.le_refl (s.footer.set q b).length)
  have hintact := fileOutcome_frames s.header_length s.header_valid name synced s.sized
    (show s.footer.length ≤ (s.footer.set q b).length by rw [List.length_set])
  rw [hout]
  rw [fileOutcome_intact s s.header_length s.header_valid] at hintact
  generalize (s.footer.set q b).length = fuel at hintact ⊢
  rw [Segment.footer] at hintact hb ⊢
  rcases scanRecords_set_footer _ _ _ name (headerSegmentId s.header) fuel s.entries.length hq hb with
    hsame | ⟨htruncated, hrecords⟩
  · rw [hsame, ← hintact]
    exact .inl rfl
  · exact .inr (SegmentScan.prepend_outcome_of_truncated htruncated hrecords _ _)

section Frame

variable {s : Segment} {xs ys : List Entry} {entry : Entry} (hentries : s.entries = xs ++ entry :: ys)
  (name : Bytes) (synced : Nat) {q : Nat} {b : UInt8} (hq : q < (frame entry).length)
  (hb : (frame entry)[q]? ≠ some b)
include hentries hq hb

theorem fileOutcome_set_frame (hsafe : ¬FrameAltered entry q b (frames ys ++ s.footer)) :
    fileOutcome ⟨name, s.bytes.set (48 + (frames xs).length + q) b, synced⟩ = segmentOutcome s ∨
      fileOutcome ⟨name, s.bytes.set (48 + (frames xs).length + q) b, synced⟩ = (xs, false) := by
  have hsized : ∀ e ∈ xs, e.2.length ≤ maxRecordPayloadBytes := fun e he => s.sized e (by rw [hentries]; simp [he])
  have hlength : (frame entry ++ (frames ys ++ s.footer)).length =
      ((frame entry).set q b ++ (frames ys ++ s.footer)).length := by
    simp only [List.length_append, List.length_set]
  have hintact := fileOutcome_frames s.header_length s.header_valid name synced hsized hlength.le
  rw [← bytes_split hentries, fileOutcome_bytes] at hintact
  rw [set_bytes hentries hq, fileOutcome_frames s.header_length s.header_valid name synced hsized (Nat.le_refl _)]
  generalize ((frame entry).set q b ++ (frames ys ++ s.footer)).length = fuel at hintact ⊢
  rcases scanRecords_set_frame name (headerSegmentId s.header) (frames ys ++ s.footer) fuel xs.length
    (addPayload 0 xs) (entry_sized hentries) hq hb hsafe with hsame | ⟨htruncated, hrecords⟩
  · rw [hsame, ← hintact]
    exact .inl rfl
  · exact .inr (SegmentScan.prepend_outcome_of_truncated htruncated hrecords _ _)

theorem fileOutcome_set_altered (haltered : FrameAltered entry q b (frames ys ++ s.footer)) :
    ∃ other tail, other ≠ entry ∧
      (fileOutcome ⟨name, s.bytes.set (48 + (frames xs).length + q) b, synced⟩).1 = xs ++ other :: tail := by
  have hsized : ∀ e ∈ xs, e.2.length ≤ maxRecordPayloadBytes := fun e he => s.sized e (by rw [hentries]; simp [he])
  rw [set_bytes hentries hq, fileOutcome_frames s.header_length s.header_valid name synced hsized (Nat.le_refl _)]
  obtain ⟨record, scan, hne, hscan⟩ := scanRecords_altered name (headerSegmentId s.header) (frames ys ++ s.footer)
    ((frame entry).set q b ++ (frames ys ++ s.footer)).length xs.length (addPayload 0 xs) (entry_sized hentries) hb
    haltered
  refine ⟨record.entry, scan.records.map StoredRecord.entry, hne, ?_⟩
  rw [hscan, SegmentScan.outcome, SegmentScan.prepend, SegmentScan.cons_records, List.map_append, List.map_cons,
    storedFrom_entries]

end Frame

/-- A change that is no alteration leaves the outcome of the file alone or makes it a reported prefix. -/
theorem fileOutcome_set_safe (s : Segment) (name : Bytes) (synced : Nat) {pos : Nat} {b : UInt8}
    (hpos : pos < s.bytes.length) (hb : s.bytes[pos]? ≠ some b) (hsafe : ¬Altered s.bytes pos b) :
    fileOutcome ⟨name, s.bytes.set pos b, synced⟩ = segmentOutcome s ∨
      ∃ entries, entries <+: s.entries ∧ fileOutcome ⟨name, s.bytes.set pos b, synced⟩ = (entries, false) := by
  by_cases hheader : pos < 48
  · exact (fileOutcome_set_header s name synced hheader hb).imp_right fun h => ⟨[], List.nil_prefix, h⟩
  by_cases hfooter : 48 + (frames s.entries).length ≤ pos
  · obtain ⟨q, rfl⟩ := Nat.exists_eq_add_of_le hfooter
    have hset : s.bytes.set (48 + (frames s.entries).length + q) b =
        s.header ++ (frames s.entries ++ s.footer.set q b) := by
      rw [s.bytes_eq, List.set_append_right _ _ (by rw [s.header_length]; omega), s.header_length,
        List.set_append_right _ _ (by omega),
        show 48 + (frames s.entries).length + q - 48 - (frames s.entries).length = q by omega]
    have hbyte : s.footer[q]? ≠ some b := by
      rwa [s.bytes_eq, List.getElem?_append_right (by rw [s.header_length]; omega), s.header_length,
        List.getElem?_append_right (by omega),
        show 48 + (frames s.entries).length + q - 48 - (frames s.entries).length = q by omega] at hb
    rw [segment_length] at hpos
    rw [hset]
    exact (fileOutcome_set_footer s name synced (by omega) hbyte).imp_right fun h => ⟨s.entries, List.prefix_rfl, h⟩
  · obtain ⟨xs, entry, ys, q, hentries, hq, hlt⟩ := exists_frame (show pos - 48 < (frames s.entries).length by omega)
    obtain rfl : pos = 48 + (frames xs).length + q := by omega
    rw [altered_iff hentries hlt] at hsafe
    rw [bytes_getElem? hentries hlt] at hb
    refine (fileOutcome_set_frame hentries name synced hlt hb hsafe).imp_right fun h => ⟨xs, ?_, h⟩
    rw [hentries]
    exact List.prefix_append _ _

/-! ## A changed byte of a store -/

/-- The corruption law: `read_all` returns exactly what was written, or a proper prefix of it with a
report that is not clean. -/
def EvidenceKept (h : History) (d : Directory) : Prop :=
  (readAll d).1.map StoredRecord.entry = h.written ∨
    (readAll d).1.map StoredRecord.entry <+: h.written ∧ (readAll d).1.map StoredRecord.entry ≠ h.written ∧
      (readAll d).2.clean = false

instance (h : History) (d : Directory) : Decidable (EvidenceKept h d) := inferInstanceAs (Decidable (_ ∨ _))

theorem evidenceKept_iff {h : History} {d : Directory} {r : List Entry × Bool} (hr : recovered d = r) :
    EvidenceKept h d ↔ r.1 = h.written ∨ r.1 <+: h.written ∧ r.1 ≠ h.written ∧ r.2 = false := by
  subst hr
  rfl

theorem kept_of_isPrefix {written : List Entry} {r : List Entry × Bool} (hpre : r.1 <+: written)
    (hreported : r.1 ≠ written → r.2 = false) :
    r.1 = written ∨ r.1 <+: written ∧ r.1 ≠ written ∧ r.2 = false := by
  by_cases heq : r.1 = written
  · exact .inl heq
  · exact .inr ⟨hpre, heq, hreported heq⟩

section Store

variable {h : History} {before after : List Segment} {s : Segment} (hw : Written h (before ++ s :: after))
  (hbound : h.directory.files.length < 2 ^ 32) {pos : Nat} {b : UInt8}
include hw hbound

theorem evidenceKept_of_safe (hpos : pos < s.bytes.length) (hb : s.bytes[pos]? ≠ some b)
    (hsafe : ¬Altered s.bytes pos b) : EvidenceKept h (h.directory.damage before.length (·.set pos b)) := by
  rw [evidenceKept_iff (recovered_damage hw hbound _)]
  rcases fileOutcome_set_safe s s.name s.bytes.length hpos hb hsafe with hsame | ⟨entries, hpre, hout⟩
  · -- Without effect: the store is read as it was written.
    rw [hsame, ← List.map_cons, ← List.map_append]
    set parts := (before ++ s :: after).map segmentOutcome with hparts
    have hflat : parts.flatMap Prod.fst = h.written := by rw [hparts, segmentOutcome_entries, hw.written]
    rw [← hflat]
    refine kept_of_isPrefix (recover_isPrefix parts) fun hne => ?_
    by_contra hclean
    have hall := recover_snd_iff.mp (Bool.not_eq_false _ ▸ hclean)
    rw [recover_intact hall] at hne
    exact hne rfl
  · obtain ⟨hpart, hfalse⟩ := recover_damaged (before.map segmentOutcome) (after.map segmentOutcome)
      (hpre.trans (List.prefix_append s.entries (after.flatMap Segment.entries)))
    rw [segmentOutcome_entries] at hpart
    rw [hout]
    refine kept_of_isPrefix ?_ fun _ => hfalse
    rw [hw.written, List.flatMap_append, List.flatMap_cons]
    exact hpart

theorem not_evidenceKept_of_altered (hcount : h.overran = false) (hpos : pos < s.bytes.length)
    (hb : s.bytes[pos]? ≠ some b) (haltered : Altered s.bytes pos b) :
    ¬EvidenceKept h (h.directory.damage before.length (·.set pos b)) := by
  have hin : 48 ≤ pos ∧ pos < 48 + (frames s.entries).length := by
    by_contra hout
    exact not_altered_outside (by omega) b haltered
  obtain ⟨xs, entry, ys, q, hentries, hq, hlt⟩ := exists_frame (show pos - 48 < (frames s.entries).length by omega)
  obtain rfl : pos = 48 + (frames xs).length + q := by omega
  rw [altered_iff hentries hlt] at haltered
  rw [bytes_getElem? hentries hlt] at hb
  obtain ⟨other, tail, hne, hout⟩ := fileOutcome_set_altered hentries s.name s.bytes.length hlt hb haltered
  have hbefore : ∀ p ∈ before.map segmentOutcome, p.2 = true := by
    refine segmentOutcome_accepted.mpr fun ⟨t, ht, hfull⟩ => ?_
    have := hw.overran.mpr ⟨t, List.mem_append_left _ ht, hfull⟩
    rw [hcount] at this
    cases this
  rw [evidenceKept_iff (recovered_damage hw hbound _), recover_append hbefore, recover_cons, segmentOutcome_entries]
  intro hkept
  -- In either case what is recovered is a prefix of what was written, and its altered entry is not.
  have hpre : ∀ r : List Entry × Bool,
      r.1 = h.written ∨ r.1 <+: h.written ∧ r.1 ≠ h.written ∧ r.2 = false → r.1 <+: h.written :=
    fun r hr => hr.elim (fun heq => heq ▸ List.prefix_rfl) fun hr => hr.1
  have hrecovered := hpre _ hkept
  have hstart : before.flatMap Segment.entries ++ (xs ++ [other]) <+: h.written := by
    refine List.IsPrefix.trans ?_ hrecovered
    refine (List.prefix_append_right_inj _).mpr ?_
    split <;> rw [hout] <;> simp
  rw [hw.written, List.flatMap_append, List.flatMap_cons, List.prefix_append_right_inj, hentries, List.append_assoc,
    List.prefix_append_right_inj, List.cons_append, List.cons_prefix_cons] at hstart
  exact hne hstart.1

end Store

/-- Changing one byte of a closed store obeys the law unless it alters a record; there it does not, if
the store was read back cleanly before. -/
theorem corruption_kept_iff (sessions : List WriterSession)
    (hclosed : ∀ session ∈ sessions, session.ending = .close)
    (hbound : (runSessions sessions).directory.files.length < 2 ^ 32 - 1) (k pos : Nat) (b : UInt8) {f : File}
    (hk : (runSessions sessions).directory.files[k]? = some f) (hpos : pos < f.content.length)
    (hb : f.content[pos]? ≠ some b) :
    (¬Altered f.content pos b →
      EvidenceKept (runSessions sessions) ((runSessions sessions).directory.damage k (·.set pos b))) ∧
    ((runSessions sessions).overran = false →
      EvidenceKept (runSessions sessions) ((runSessions sessions).directory.damage k (·.set pos b)) →
      ¬Altered f.content pos b) := by
  obtain ⟨segments, hw⟩ := runSessions_written hclosed hbound
  obtain ⟨before, s, after, rfl, rfl, rfl⟩ := exists_segment hw hk
  refine ⟨evidenceKept_of_safe hw (by omega) hpos hb, fun hcount hkept haltered => ?_⟩
  exact not_evidenceKept_of_altered hw (by omega) hcount hpos hb haltered hkept

theorem corruption_kept_small :
    EvidenceKept (runSessions smallSessions) ((runSessions smallSessions).directory.damage 0 (·.set 60 0)) :=
  (corruption_kept_iff smallSessions (by simp [smallSessions]) (by decide +kernel) 0 60 0
    (List.getElem?_eq_getElem (by decide +kernel)) (by decide +kernel) (by decide +kernel)).1 (by decide +kernel)

theorem corruption_lost_small :
    ¬EvidenceKept (runSessions smallSessions) ((runSessions smallSessions).directory.damage 0 (·.set 52 2)) := by
  decide +kernel

end LatencyObservatory.Store
