import LatencyObservatory.Store.RoundTrip

/-!
# Truncated segments

A segment file cut short yields a prefix of its records and is rejected, whatever part of the format
the cut falls into, with one exception: a cut inside the first record header, between 48 and 59 bytes,
looks like a segment that never received a record and is accepted as empty.
-/

namespace LatencyObservatory.Store
open LatencyObservatory.Core LatencyObservatory.Lib

/-! ## The loop on a cut segment -/

section Cut

variable (name : Bytes) (segmentId : UInt32)

theorem scanRecords_cut_frame {entry : Entry} (hsize : entry.2.length ≤ maxRecordPayloadBytes) {m : Nat}
    (hm : 12 ≤ m) (hlt : m < (frame entry).length) (fuel recovered : Nat) (payloadBytes : UInt64) :
    scanRecords name segmentId (fuel + 1) recovered payloadBytes ((frame entry).take m) =
      { truncated := true, rest := [] } := by
  rw [frame_length] at hlt
  have hcut : (frame entry).take m = recordHeader entry.1 entry.2 ++ entry.2.take (m - 12) := by
    rw [frame, List.take_append, recordHeader_length, List.take_of_length_le (by rw [recordHeader_length]; exact hm)]
  have hlen : ofLe (field (recordHeader entry.1 entry.2) 0 4) = entry.2.length := by
    rw [recordHeader_length_field, ofLe_le_of_lt]
    have : maxRecordPayloadBytes < 256 ^ 4 := by decide
    omega
  rw [hcut, scanRecords_head name segmentId (recordHeader_length _ _),
    if_neg (magic_ne_of_type (recordHeader_getElem_four _ _)), hlen, if_neg (by omega),
    readExact_short (by rw [List.length_take]; omega)]

theorem scanRecords_cut_footer (records : Nat) (bytes digest : UInt64) {m : Nat} (hm : 12 ≤ m) (hlt : m < 40)
    (fuel recovered : Nat) (payloadBytes : UInt64) :
    ∃ count, scanRecords name segmentId (fuel + 1) recovered payloadBytes
      ((segmentFooter records bytes digest).take m) =
        { sawFooter := true, truncated := true, footerRecordCount := count, rest := [] } := by
  have hlength := segmentFooter_length records bytes digest
  have hcut : (segmentFooter records bytes digest).take m =
      (segmentFooter records bytes digest).take 12 ++ ((segmentFooter records bytes digest).take m).drop 12 := by
    have htake : (segmentFooter records bytes digest).take 12 = ((segmentFooter records bytes digest).take m).take 12 := by
      rw [List.take_take, Nat.min_eq_left hm]
    rw [htake, List.take_append_drop]
  have hhead : ((segmentFooter records bytes digest).take 12).length = 12 := by
    rw [List.length_take, hlength]
    rfl
  have hmagic : field ((segmentFooter records bytes digest).take 12) 0 8 = segmentFooterMagic := by
    have := segmentFooter_magic records bytes digest
    rw [← List.take_append_drop 12 (segmentFooter records bytes digest), field_append_left (by omega)] at this
    exact this
  rw [hcut, scanRecords_head name segmentId hhead, if_pos hmagic, scanFooter,
    readExact_short (by rw [List.length_drop, List.length_take, hlength]; change _ < 28; omega)]
  exact ⟨_, rfl⟩

/-- A cut anywhere in the records or the footer yields a prefix of the entries. It is reported unless
it falls inside the very first header. -/
theorem scanRecords_cut {entries : List Entry}
    (hsized : ∀ entry ∈ entries, entry.2.length ≤ maxRecordPayloadBytes) (records : Nat) (bytes digest : UInt64)
    {m : Nat} (hm : m < (frames entries ++ segmentFooter records bytes digest).length) (fuel recovered : Nat)
    (payloadBytes : UInt64) :
    ((scanRecords name segmentId (entries.length + fuel + 1) recovered payloadBytes
        ((frames entries ++ segmentFooter records bytes digest).take m)).records.map StoredRecord.entry <+: entries) ∧
      ((scanRecords name segmentId (entries.length + fuel + 1) recovered payloadBytes
        ((frames entries ++ segmentFooter records bytes digest).take m)).truncated = true ∨ recovered = 0 ∧ m < 12) := by
  by_cases hshort : m < 12
  · rw [scanRecords_short name segmentId (by rw [List.length_take]; omega)]
    refine ⟨List.nil_prefix, ?_⟩
    by_cases hzero : recovered = 0
    · exact .inr ⟨hzero, hshort⟩
    · exact .inl (by simp [hzero])
  induction entries generalizing m recovered payloadBytes with
  | nil =>
    rw [frames_nil, List.nil_append, segmentFooter_length] at hm
    obtain ⟨count, hscan⟩ := scanRecords_cut_footer name segmentId records bytes digest (Nat.le_of_not_lt hshort) hm
      ([].length + fuel) recovered payloadBytes
    rw [frames_nil, List.nil_append, hscan]
    exact ⟨List.nil_prefix, .inl rfl⟩
  | cons entry entries ih =>
    have hsize := hsized entry List.mem_cons_self
    rw [frames_cons, List.append_assoc]
    by_cases hin : m < (frame entry).length
    · rw [List.take_append_of_le_length (by omega),
        scanRecords_cut_frame name segmentId hsize (Nat.le_of_not_lt hshort) hin]
      exact ⟨List.nil_prefix, .inl rfl⟩
    · -- The cut leaves this frame whole; the records after it are no longer the first.
      have hfuel : (entry :: entries).length + fuel + 1 = entries.length + fuel + 1 + 1 := by
        rw [List.length_cons]
        omega
      have hrest : m - (frame entry).length < (frames entries ++ segmentFooter records bytes digest).length := by
        rw [frames_cons, List.append_assoc, List.length_append] at hm
        omega
      rw [List.take_append, List.take_of_length_le (by omega), hfuel, scanRecords_frame name segmentId hsize]
      have hsized' : ∀ e ∈ entries, e.2.length ≤ maxRecordPayloadBytes :=
        fun e he => hsized e (List.mem_cons_of_mem _ he)
      by_cases hnext : m - (frame entry).length < 12
      · rw [scanRecords_short name segmentId (by rw [List.length_take]; omega)]
        exact ⟨by simp [StoredRecord.entry], .inl (by simp)⟩
      · obtain ⟨hpre, hreported⟩ := ih hsized' hrest (recovered + 1)
          (payloadBytes + UInt64.ofNat entry.2.length) hnext
        rw [SegmentScan.cons_records, SegmentScan.cons_truncated, List.map_cons]
        exact ⟨(List.prefix_cons_inj _).mpr hpre, .inl (hreported.resolve_right (by omega))⟩

end Cut

/-! ## A cut file -/

theorem fileOutcome_cut_short (s : Segment) (name : Bytes) (synced : Nat) {keep : Nat} (hkeep : keep < 48) :
    fileOutcome ⟨name, s.bytes.take keep, synced⟩ = ([], false) := by
  refine fileOutcome_short ?_
  rw [List.length_take]
  omega

theorem take_bytes (s : Segment) {keep : Nat} (hkeep : 48 ≤ keep) :
    s.bytes.take keep = s.header ++ (frames s.entries ++ s.footer).take (keep - 48) := by
  rw [s.bytes_eq, List.take_append, s.header_length,
    List.take_of_length_le (by rw [s.header_length]; exact hkeep)]

theorem fileOutcome_cut_head (s : Segment) (name : Bytes) (synced : Nat) {keep : Nat} (hkeep : 48 ≤ keep)
    (hlt : keep < 60) : fileOutcome ⟨name, s.bytes.take keep, synced⟩ = ([], true) := by
  rw [take_bytes s hkeep, fileOutcome_header s.header_length, if_pos s.header_valid,
    scanRecords_short _ _ (by rw [List.length_take]; omega)]
  rfl

theorem fileOutcome_cut (s : Segment) (name : Bytes) (synced : Nat) {keep : Nat} (hkeep : 60 ≤ keep)
    (hlt : keep < s.bytes.length) :
    ∃ entries, entries <+: s.entries ∧ fileOutcome ⟨name, s.bytes.take keep, synced⟩ = (entries, false) := by
  have hrest : keep - 48 < (frames s.entries ++ s.footer).length := by
    rw [s.bytes_eq, List.length_append, s.header_length] at hlt
    omega
  rw [take_bytes s (by omega), fileOutcome_header s.header_length, if_pos s.header_valid]
  generalize headerSegmentId s.header = segmentId
  rw [Segment.footer] at hrest ⊢
  -- More fuel than unread bytes makes no difference, so the loop may be given enough for every entry.
  rw [scanRecords_fuel name segmentId (Nat.lt_succ_self _)
    (Nat.lt_succ_of_le (Nat.le_add_left _ s.entries.length))]
  obtain ⟨hpre, hreported⟩ := scanRecords_cut name segmentId s.sized _ _ _ hrest
    ((frames s.entries ++ segmentFooter _ _ _).take (keep - 48)).length 0 0
  exact ⟨_, hpre, SegmentScan.outcome_of_truncated (hreported.resolve_right (by omega))⟩

theorem segment_length (s : Segment) : s.bytes.length = 88 + (frames s.entries).length := by
  rw [s.bytes_eq, List.length_append, List.length_append, s.header_length, s.footer_length]
  omega

theorem entries_eq_nil_iff (s : Segment) : s.entries = [] ↔ s.bytes.length = 88 := by
  rw [segment_length]
  constructor
  · intro h
    rw [h]
    rfl
  · intro h
    have hle := length_le_frames_length s.entries
    exact List.length_eq_zero_iff.mp (by omega)

/-! ## Truncation of a store -/

/-- The truncation law: `read_all` returns a prefix of what was written, and is not silent when
something is missing. -/
def TruncationDetected (h : History) (d : Directory) : Prop :=
  (readAll d).1.map StoredRecord.entry <+: h.written ∧
    ((readAll d).1.map StoredRecord.entry ≠ h.written → (readAll d).2.clean = false)

instance (h : History) (d : Directory) : Decidable (TruncationDetected h d) := inferInstanceAs (Decidable (_ ∧ _))

theorem truncationDetected_iff {h : History} {d : Directory} {r : List Entry × Bool} (hr : recovered d = r) :
    TruncationDetected h d ↔ r.1 <+: h.written ∧ (r.1 ≠ h.written → r.2 = false) := by
  subst hr
  rfl

theorem detected_of_written {h : History} {before after : List Segment} {s : Segment}
    (hw : Written h (before ++ s :: after)) (hbound : h.directory.files.length < 2 ^ 32) {keep : Nat}
    (hkeep : keep < s.bytes.length) (hcut : s.entries = [] ∨ keep < 48 ∨ 60 ≤ keep) :
    TruncationDetected h (h.directory.damage before.length (·.take keep)) := by
  rw [truncationDetected_iff (recovered_damage hw hbound _), hw.written, List.flatMap_append, List.flatMap_cons]
  have hbefore := segmentOutcome_entries before
  have hreported : ∀ entries, entries <+: s.entries →
      fileOutcome ⟨s.name, s.bytes.take keep, s.bytes.length⟩ = (entries, false) →
      (recover (before.map segmentOutcome ++ fileOutcome ⟨s.name, s.bytes.take keep, s.bytes.length⟩ ::
          after.map segmentOutcome)).1 <+:
        before.flatMap Segment.entries ++ (s.entries ++ after.flatMap Segment.entries) ∧
      (recover (before.map segmentOutcome ++ fileOutcome ⟨s.name, s.bytes.take keep, s.bytes.length⟩ ::
          after.map segmentOutcome)).2 = false := by
    intro entries hpre hout
    rw [hout]
    obtain ⟨hpart, hfalse⟩ := recover_damaged (before.map segmentOutcome) (after.map segmentOutcome)
      (hpre.trans (List.prefix_append s.entries (after.flatMap Segment.entries)))
    rw [hbefore] at hpart
    exact ⟨hpart, hfalse⟩
  by_cases hshort : keep < 48
  · obtain ⟨hpart, hfalse⟩ := hreported [] List.nil_prefix (fileOutcome_cut_short s _ _ hshort)
    exact ⟨hpart, fun _ => hfalse⟩
  by_cases hlate : 60 ≤ keep
  · obtain ⟨entries, hpre, hout⟩ := fileOutcome_cut s s.name s.bytes.length hlate hkeep
    obtain ⟨hpart, hfalse⟩ := hreported entries hpre hout
    exact ⟨hpart, fun _ => hfalse⟩
  -- What is left is an empty segment that passes for an empty segment.
  have hempty : s.entries = [] := hcut.resolve_right (by omega)
  rw [fileOutcome_cut_head s _ _ (by omega) (by omega), hempty]
  set parts := before.map segmentOutcome ++ ([], true) :: after.map segmentOutcome with hparts
  have hflat : parts.flatMap Prod.fst = before.flatMap Segment.entries ++ ([] ++ after.flatMap Segment.entries) := by
    rw [hparts, List.flatMap_append, List.flatMap_cons, hbefore, segmentOutcome_entries]
  rw [← hflat]
  refine ⟨recover_isPrefix parts, fun hne => ?_⟩
  by_contra hclean
  have hall := recover_snd_iff.mp (Bool.not_eq_false _ ▸ hclean)
  rw [recover_intact hall] at hne
  exact hne rfl

theorem silent_of_written {h : History} {before after : List Segment} {s : Segment}
    (hw : Written h (before ++ s :: after)) (hbound : h.directory.files.length < 2 ^ 32)
    (hcount : h.overran = false) {keep : Nat} (hentries : s.entries ≠ []) (hkeep : 48 ≤ keep) (hlt : keep < 60) :
    ¬TruncationDetected h (h.directory.damage before.length (·.take keep)) := by
  rw [truncationDetected_iff (recovered_damage hw hbound _), hw.written, List.flatMap_append, List.flatMap_cons,
    fileOutcome_cut_head s _ _ hkeep hlt]
  have hfull : ¬∃ t ∈ before ++ s :: after, t.Overfull := by
    rw [← hw.overran, hcount]
    decide
  have hall : ∀ p ∈ before.map segmentOutcome ++ ([], true) :: after.map segmentOutcome, p.2 = true := by
    intro p hp
    rcases List.mem_append.mp hp with hp | hp
    · exact segmentOutcome_accepted.mpr (fun ⟨t, ht, h⟩ => hfull ⟨t, List.mem_append_left _ ht, h⟩) p hp
    · rcases List.mem_cons.mp hp with rfl | hp
      · rfl
      · exact segmentOutcome_accepted.mpr
          (fun ⟨t, ht, h⟩ => hfull ⟨t, List.mem_append_right _ (List.mem_cons_of_mem _ ht), h⟩) p hp
  rw [recover_intact hall, List.flatMap_append, List.flatMap_cons, segmentOutcome_entries, segmentOutcome_entries]
  rintro ⟨-, hsilent⟩
  refine absurd (hsilent fun heq => hentries ?_) (by simp)
  have hlengths := congrArg List.length heq
  simp only [List.length_append, List.length_nil] at hlengths
  exact List.length_eq_zero_iff.mp (by omega)

theorem exists_segment {h : History} {segments : List Segment} (hw : Written h segments) {k : Nat} {f : File}
    (hk : h.directory.files[k]? = some f) :
    ∃ before s after, segments = before ++ s :: after ∧ before.length = k ∧ f = s.file := by
  rw [hw.files, List.getElem?_map, Option.map_eq_some_iff] at hk
  obtain ⟨s, hs, rfl⟩ := hk
  obtain ⟨before, after, hsplit, hlength⟩ := exists_split hs
  exact ⟨before, s, after, hsplit, hlength, rfl⟩

/-- Cutting one segment file of a closed store obeys the law unless between 48 and 59 bytes of a
segment with records are kept; there it does not, if the store was read back cleanly before. -/
theorem truncation_detected_iff (sessions : List WriterSession)
    (hclosed : ∀ session ∈ sessions, session.ending = .close)
    (hbound : (runSessions sessions).directory.files.length < 2 ^ 32 - 1) (k keep : Nat) {f : File}
    (hk : (runSessions sessions).directory.files[k]? = some f) (hkeep : keep < f.content.length) :
    (f.content.length = 88 ∨ keep < 48 ∨ 60 ≤ keep →
      TruncationDetected (runSessions sessions) ((runSessions sessions).directory.damage k (·.take keep))) ∧
    ((runSessions sessions).overran = false →
      TruncationDetected (runSessions sessions) ((runSessions sessions).directory.damage k (·.take keep)) →
      f.content.length = 88 ∨ keep < 48 ∨ 60 ≤ keep) := by
  obtain ⟨segments, hw⟩ := runSessions_written hclosed hbound
  obtain ⟨before, s, after, rfl, rfl, rfl⟩ := exists_segment hw hk
  have hempty : s.entries = [] ↔ s.file.content.length = 88 := entries_eq_nil_iff s
  rw [← hempty]
  refine ⟨detected_of_written hw (by omega) hkeep, fun hcount hdetected => ?_⟩
  by_contra hcut
  obtain ⟨hentries, hrange⟩ := not_or.mp hcut
  exact silent_of_written hw (by omega) hcount hentries (by omega) (by omega) hdetected

theorem truncation_detected_small :
    TruncationDetected (runSessions smallSessions) ((runSessions smallSessions).directory.damage 1 (·.take 70)) :=
  (truncation_detected_iff smallSessions (by simp [smallSessions]) (by decide +kernel) 1 70
    (List.getElem?_eq_getElem (by decide +kernel)) (by decide +kernel)).1 (.inr (.inr (by decide)))

theorem truncation_undetected_small :
    ¬TruncationDetected (runSessions smallSessions) ((runSessions smallSessions).directory.damage 0 (·.take 50)) := by
  decide +kernel

end LatencyObservatory.Store
