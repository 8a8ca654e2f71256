import LatencyObservatory.Core.Evidence
import LatencyObservatory.Store.Directory

/-!
# Store reader

`StoreReader::read_all` over the bytes of each segment file. The record loop consumes a whole record
header per round, so a fuel of one more than the number of unread bytes never runs out.
-/

namespace LatencyObservatory.Store
open LatencyObservatory.Core LatencyObservatory.Lib

structure StoredRecord where
  type : RecordType
  payload : Bytes
  segmentId : UInt32
  sequenceInSegment : Nat
deriving DecidableEq, Repr

def StoredRecord.entry (r : StoredRecord) : Entry :=
  (r.type, r.payload)

structure RecoveryReport where
  segmentsScanned : Nat := 0
  segmentsAccepted : Nat := 0
  segmentsRejected : Nat := 0
  recordsRead : Nat := 0
  recordsDiscarded : Nat := 0
  bytesRead : Nat := 0
  truncated : Bool := false
  manifestCreated : Bool := false
  detail : Bytes := []
  reasons : List Reason := []
deriving DecidableEq, Repr

namespace RecoveryReport

def clean (report : RecoveryReport) : Bool :=
  !report.truncated && report.segmentsRejected == 0 && report.recordsDiscarded == 0

def note (report : RecoveryReport) (reason : Reason) : RecoveryReport :=
  { report with reasons := report.reasons ++ [reason], truncated := true }

end RecoveryReport

/-- `read_exact`: the bytes and what is left unread; a short read leaves nothing. -/
def readExact (size : Nat) (rest : Bytes) : Option Bytes × Bytes :=
  if size ≤ rest.length then (some (rest.take size), rest.drop size) else (none, [])

/-- What the record loop leaves behind: the records it recovered, its local variables, the reasons
it noted and the bytes it did not read. -/
structure SegmentScan where
  records : List StoredRecord := []
  sawFooter : Bool := false
  truncated : Bool := false
  footerRecordCount : Nat := 0
  notes : List Reason := []
  rest : Bytes
deriving DecidableEq, Repr

/-- The loop broke off with a noted integrity failure. -/
def SegmentScan.failed (detail rest : Bytes) : SegmentScan :=
  { truncated := true, notes := [⟨.recordIntegrityFailure, detail⟩], rest }

def SegmentScan.cons (record : StoredRecord) (scan : SegmentScan) : SegmentScan :=
  { scan with records := record :: scan.records }

/-- The footer branch of the loop, entered with the 12 bytes already read. -/
def scanFooter (name : Bytes) (payloadBytes : UInt64) (head rest : Bytes) : SegmentScan :=
  let footerRecordCount := ofLe (field head 8 4)
  match readExact (segmentFooterBytes - recordHeaderBytes) rest with
  | (none, rest) => { sawFooter := true, truncated := true, footerRecordCount, rest }
  | (some tail, rest) =>
    let footer := head ++ tail
    if (crc32c (field footer 0 24)).toNat ≠ ofLe (field footer 24 4) then
      { SegmentScan.failed (name ++ text " footer") rest with sawFooter := true, footerRecordCount }
    else if ofLe (field footer 16 8) ≠ payloadBytes.toNat then
      { SegmentScan.failed (name ++ text " payload byte count") rest with sawFooter := true, footerRecordCount }
    else { sawFooter := true, footerRecordCount, rest }

/-- The record loop; `recovered` counts the records so far. -/
def scanRecords (name : Bytes) (segmentId : UInt32) : Nat → Nat → UInt64 → Bytes → SegmentScan
  | 0, _, _, rest => { rest }
  | fuel + 1, recovered, payloadBytes, rest =>
    match readExact recordHeaderBytes rest with
    | (none, rest) => { truncated := recovered ≠ 0, rest }
    | (some head, rest) =>
      if field head 0 8 = segmentFooterMagic then scanFooter name payloadBytes head rest
      else if ofLe (field head 0 4) > maxRecordPayloadBytes then
        SegmentScan.failed (name ++ text " record length") rest
      else
        match readExact (ofLe (field head 0 4)) rest with
        | (none, rest) => { truncated := true, rest }
        | (some payload, rest) =>
          if (crc32c payload).toNat ≠ ofLe (field head 8 4) then
            SegmentScan.failed (name ++ text " record crc") rest
          else
            match RecordType.ofCode (head.getD 4 0) with
            | none => SegmentScan.failed (name ++ text " record type") rest
            | some type =>
              (scanRecords name segmentId fuel (recovered + 1) (payloadBytes + UInt64.ofNat (ofLe (field head 0 4)))
                rest).cons ⟨type, payload, segmentId, recovered⟩

/-- The count check after the loop: a complete footer has to name the records that were read. -/
def SegmentScan.countMismatch (scan : SegmentScan) : Bool :=
  scan.sawFooter && !scan.truncated && scan.footerRecordCount != scan.records.length

structure Recovery where
  records : List StoredRecord := []
  report : RecoveryReport := {}
  stop : Bool := false
deriving DecidableEq, Repr

namespace Recovery

/-- A segment whose header cannot be used. -/
def rejectHeader (s : Recovery) (reason : Reason) : Recovery :=
  { s with
    report := { s.report with segmentsRejected := s.report.segmentsRejected + 1 }.note reason
    stop := true }

/-- The verdict on a segment whose records were scanned. -/
def settle (s : Recovery) (name : Bytes) (size : Nat) (scan : SegmentScan) : Recovery :=
  let report := scan.notes.foldl RecoveryReport.note { s.report with
    recordsRead := s.report.recordsRead + scan.records.length
    bytesRead := s.report.bytesRead + (size - scan.rest.length) }
  let report := if scan.countMismatch then
      report.note ⟨.recordIntegrityFailure, name ++ text " record count"⟩ else report
  if scan.truncated || scan.countMismatch then
    { records := s.records ++ scan.records
      report := { { report with
            recordsDiscarded := report.recordsDiscarded + 1
            segmentsRejected := report.segmentsRejected + 1 }.note
          ⟨.recoveryConservative, text "reading stopped at the first damaged record in " ++ name⟩ with
        detail := text "truncated at " ++ name }
      stop := true }
  else
    { records := s.records ++ scan.records
      report := { report with segmentsAccepted := report.segmentsAccepted + 1 }
      stop := s.stop }

/-- `++report.segments_scanned`. -/
def begin (s : Recovery) : Recovery :=
  { s with report := { s.report with segmentsScanned := s.report.segmentsScanned + 1 } }

/-- One round of the loop over the segment files. -/
def readSegment (s : Recovery) (file : File) : Recovery :=
  if s.stop then s
  else
    match readExact segmentHeaderBytes file.content with
    | (none, _) => s.begin.rejectHeader ⟨.segmentTruncated, file.name⟩
    | (some header, rest) =>
      if !headerValid header then s.begin.rejectHeader ⟨.recordIntegrityFailure, file.name⟩
      else s.begin.settle file.name file.content.length
        (scanRecords file.name (headerSegmentId header) (rest.length + 1) 0 0 rest)

/-- An unclean report always carries the conservative reason. -/
def conclude (s : Recovery) : List StoredRecord × RecoveryReport :=
  if !s.report.clean && !(s.report.reasons.any fun reason => reason.code == .recoveryConservative) then
    (s.records, { s.report with
      reasons := s.report.reasons ++ [⟨.recoveryConservative, text "conservative recovery applied"⟩] })
  else (s.records, s.report)

end Recovery

def readAll (d : Directory) : List StoredRecord × RecoveryReport :=
  ((listSegments d).foldl Recovery.readSegment {}).conclude

end LatencyObservatory.Store
