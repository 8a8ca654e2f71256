import LatencyObservatory.Lib.StopAtFirst
import LatencyObservatory.Store.Reader

/-!
# What the reader makes of a segment

`fileOutcome` is what reading one file contributes: the entries recovered and whether the segment was
accepted. `readAll_outcome` says that `readAll` recovers the files in order and stops at the first one
that is not accepted. The `scanRecords` lemmas follow the loop over well-formed frames up to the point
where the file ends, its footer begins or a frame is damaged.
-/

namespace LatencyObservatory.Store
open LatencyObservatory.Core LatencyObservatory.Lib

/-! ## Reading exactly -/

theorem readExact_append {xs : Bytes} {size : Nat} (h : xs.length = size) (ys : Bytes) :
    readExact size (xs ++ ys) = (some xs, ys) := by
  subst h
  rw [readExact, if_pos (by simp), List.take_left, List.drop_left]

theorem readExact_short {rest : Bytes} {size : Nat} (h : rest.length < size) :
    readExact size rest = (none, []) := by
  rw [readExact, if_neg (by omega)]

theorem readExact_cases (size : Nat) (rest : Bytes) :
    (∃ xs ys, rest = xs ++ ys ∧ xs.length = size ∧ readExact size rest = (some xs, ys)) ∨
      (rest.length < size ∧ readExact size rest = (none, [])) := by
  by_cases h : size ≤ rest.length
  · refine .inl ⟨rest.take size, rest.drop size, (List.take_append_drop _ _).symm, ?_, ?_⟩
    · rw [List.length_take]
      omega
    · rw [readExact, if_pos h]
  · exact .inr ⟨by omega, readExact_short (by omega)⟩

/-! ## One round of the record loop -/

@[simp] theorem SegmentScan.cons_truncated (record : StoredRecord) (scan : SegmentScan) :
    (scan.cons record).truncated = scan.truncated := rfl

@[simp] theorem SegmentScan.cons_records (record : StoredRecord) (scan : SegmentScan) :
    (scan.cons record).records = record :: scan.records := rfl

section Loop

variable (name : Bytes) (segmentId : UInt32)

theorem scanRecords_head {head : Bytes} (hlen : head.length = 12) (rest : Bytes) (fuel recovered : Nat)
    (payloadBytes : UInt64) :
    scanRecords name segmentId (fuel + 1) recovered payloadBytes (head ++ rest) =
      if field head 0 8 = segmentFooterMagic then scanFooter name payloadBytes head rest
      else if ofLe (field head 0 4) > maxRecordPayloadBytes then
        SegmentScan.failed (name ++ text " record length") rest
      else
        match readExact (ofLe (field head 0 4)) rest with
        | (none, rest) => { truncated := true, rest }
        | (some payload, rest) =>
          if (crc32c payload).toNat ≠ ofLe (field head 8 4) then
            SegmentScan.failed (name ++ text " record crc") rest
          else
            match RecordType.ofCode (head.getD 4 0) with
            | none => SegmentScan.failed (name ++ text " record type") rest
            | some type =>
              (scanRecords name segmentId fuel (recovered + 1) (payloadBytes + UInt64.ofNat (ofLe (field head 0 4)))
                rest).cons ⟨type, payload, segmentId, recovered⟩ := by
  rewrite [scanRecords, readExact_append hlen]
  rfl

theorem scanRecords_short {rest : Bytes} (h : rest.length < 12) (fuel recovered : Nat) (payloadBytes : UInt64) :
    scanRecords name segmentId (fuel + 1) recovered payloadBytes rest =
      { truncated := recovered ≠ 0, rest := [] } := by
  rw [scanRecords, readExact_short h]

theorem scanRecords_fuel {fuel fuel' : Nat} {rest : Bytes} (h : rest.length < fuel) (h' : rest.length < fuel')
    (recovered : Nat) (payloadBytes : UInt64) :
    scanRecords name segmentId fuel recovered payloadBytes rest =
      scanRecords name segmentId fuel' recovered payloadBytes rest := by
  induction fuel generalizing fuel' rest recovered payloadBytes with
  | zero => omega
  | succ fuel ih =>
    obtain ⟨fuel', rfl⟩ : ∃ k, fuel' = k + 1 := ⟨fuel' - 1, by omega⟩
    rcases readExact_cases 12 rest with ⟨head, tail, rfl, hlen, -⟩ | ⟨hshort, -⟩
    · rw [scanRecords_head name segmentId hlen, scanRecords_head name segmentId hlen]
      rcases readExact_cases (ofLe (field head 0 4)) tail with ⟨payload, unread, rfl, -, hread⟩ | ⟨-, hread⟩
      · -- The rest of the run meets fewer bytes and can be compared by induction.
        have hlt : unread.length < fuel := by simp at h; omega
        have hlt' : unread.length < fuel' := by simp at h'; omega
        simp only [hread, ih hlt hlt']
      · simp only [hread]
    · rw [scanRecords_short name segmentId hshort, scanRecords_short name segmentId hshort]

theorem scanRecords_notes {fuel recovered : Nat} {payloadBytes : UInt64} {rest : Bytes}
    (h : (scanRecords name segmentId fuel recovered payloadBytes rest).truncated = false) :
    (scanRecords name segmentId fuel recovered payloadBytes rest).notes = [] := by
  induction fuel generalizing recovered payloadBytes rest with
  | zero => rfl
  | succ fuel ih =>
    rcases readExact_cases 12 rest with ⟨head, tail, rfl, hlen, -⟩ | ⟨hshort, -⟩
    · rw [scanRecords_head name segmentId hlen] at h ⊢
      split
      · rename_i hmagic
        rw [if_pos hmagic, scanFooter] at h
        rw [scanFooter]
        grind [SegmentScan.failed]
      · rename_i hmagic
        rw [if_neg hmagic] at h
        grind [SegmentScan.failed, SegmentScan.cons]
    · rw [scanRecords_short name segmentId hshort]

end Loop

/-! ## Files and directories -/

/-- Entries recovered and acceptance, from the loop's result. -/
def SegmentScan.outcome (scan : SegmentScan) : List Entry × Bool :=
  (scan.records.map StoredRecord.entry, !(scan.truncated || scan.countMismatch))

theorem SegmentScan.outcome_of_truncated {scan : SegmentScan} (h : scan.truncated = true) :
    scan.outcome = (scan.records.map StoredRecord.entry, false) := by
  rw [SegmentScan.outcome, h]
  rfl

/-- What reading one segment file contributes. -/
def fileOutcome (file : File) : List Entry × Bool :=
  match readExact segmentHeaderBytes file.content with
  | (none, _) => ([], false)
  | (some header, rest) =>
    if headerValid header then
      (scanRecords file.name (headerSegmentId header) (rest.length + 1) 0 0 rest).outcome
    else ([], false)

namespace Recovery

/-- The entries read so far and whether the report is clean. -/
def view (s : Recovery) : List Entry × Bool :=
  (s.records.map StoredRecord.entry, s.report.clean)

theorem clean_note (report : RecoveryReport) (reason : Reason) : (report.note reason).clean = false := by
  simp [RecoveryReport.note, RecoveryReport.clean]

theorem settle_view {s : Recovery} (hclean : s.report.clean = true) (hstop : s.stop = false) (name : Bytes)
    (size : Nat) {scan : SegmentScan} (hnotes : scan.truncated = false → scan.notes = []) :
    (s.settle name size scan).view = (s.view.1 ++ scan.outcome.1, scan.outcome.2) ∧
      (s.settle name size scan).stop = !scan.outcome.2 := by
  unfold settle
  by_cases hbad : (scan.truncated || scan.countMismatch) = true
  · simp only [hbad, if_true]
    refine ⟨Prod.ext (by simp [view, SegmentScan.outcome]) ?_, by simp [SegmentScan.outcome, hbad]⟩
    simp [view, SegmentScan.outcome, hbad, RecoveryReport.note, RecoveryReport.clean]
  · have htruncated : scan.truncated = false := by simp at hbad; exact hbad.1
    have hcount : scan.countMismatch = false := by simp at hbad; exact hbad.2
    simp only [htruncated, hcount, hnotes htruncated, Bool.or_false, Bool.false_eq_true, if_false,
      List.foldl_nil]
    refine ⟨Prod.ext (by simp [view, SegmentScan.outcome]) ?_, by simp [SegmentScan.outcome, htruncated, hcount, hstop]⟩
    simpa [view, SegmentScan.outcome, htruncated, hcount, RecoveryReport.clean] using hclean

theorem rejectHeader_view (s : Recovery) (reason : Reason) :
    (s.rejectHeader reason).view = (s.view.1, false) ∧ (s.rejectHeader reason).stop = true := by
  simp [rejectHeader, view, clean_note]

theorem readSegment_view {s : Recovery} (hclean : s.report.clean = true) (hstop : s.stop = false) (file : File) :
    (s.readSegment file).view = (s.view.1 ++ (fileOutcome file).1, (fileOutcome file).2) ∧
      (s.readSegment file).stop = !(fileOutcome file).2 := by
  rw [readSegment, if_neg (by simp [hstop]), fileOutcome]
  rcases readExact_cases segmentHeaderBytes file.content with ⟨header, rest, -, -, hread⟩ | ⟨-, hread⟩
  · simp only [hread]
    by_cases hvalid : headerValid header = true
    · simp only [hvalid, Bool.not_true, Bool.false_eq_true, if_false, if_true]
      exact settle_view (s := s.begin) hclean hstop _ _ (scanRecords_notes _ _)
    · simp only [hvalid, Bool.not_false, if_true, Bool.false_eq_true, if_false, List.append_nil]
      exact rejectHeader_view _ _
  · simp only [hread, List.append_nil]
    exact rejectHeader_view _ _

theorem foldl_readSegment_of_stop {s : Recovery} (hstop : s.stop = true) (files : List File) :
    files.foldl readSegment s = s := by
  induction files with
  | nil => rfl
  | cons file files ih => rw [List.foldl_cons, readSegment, if_pos hstop, ih]

theorem foldl_readSegment_view {s : Recovery} (hclean : s.report.clean = true) (hstop : s.stop = false)
    (files : List File) :
    (files.foldl readSegment s).view =
      (s.view.1 ++ (recover (files.map fileOutcome)).1, (recover (files.map fileOutcome)).2) := by
  induction files generalizing s with
  | nil => exact Prod.ext (by simp [recover]) (by simpa [view, recover] using hclean)
  | cons file files ih =>
    obtain ⟨hview, hnext⟩ := readSegment_view hclean hstop file
    rw [List.foldl_cons, List.map_cons, recover_cons]
    cases haccepted : (fileOutcome file).2 with
    | true =>
      have hclean' : (s.readSegment file).report.clean = true := by
        have := congrArg Prod.snd hview
        rw [haccepted] at this
        exact this
      rw [ih hclean' (by rw [hnext, haccepted]; rfl), hview, if_pos rfl, List.append_assoc]
    | false =>
      rw [foldl_readSegment_of_stop (by rw [hnext, haccepted]; rfl), hview, haccepted]
      simp

theorem conclude_view (s : Recovery) :
    (s.conclude.1.map StoredRecord.entry, s.conclude.2.clean) = s.view := by
  unfold conclude
  split <;> rfl

end Recovery

/-- The entries `read_all` returns, and whether its report is clean. -/
def recovered (d : Directory) : List Entry × Bool :=
  ((readAll d).1.map StoredRecord.entry, (readAll d).2.clean)

theorem recovered_eq (d : Directory) : recovered d = recover ((listSegments d).map fileOutcome) := by
  have hfold := Recovery.foldl_readSegment_view (s := {}) rfl rfl (listSegments d)
  rw [recovered, readAll, Recovery.conclude_view, hfold]
  exact Prod.ext (List.nil_append _) rfl

end LatencyObservatory.Store
