import LatencyObservatory.Store.Directory

/-!
# Store writer

`StoreWriter` as explicit state: every operation takes the writer and the directory and returns
both. File operations succeed; what can fail is what the source itself refuses. The segment file is
created by the first append, before any size check, and a rotation closes the old segment before the
store limit is looked at.
-/

namespace LatencyObservatory.Store
open LatencyObservatory.Core LatencyObservatory.Lib

/-- `file` is the name behind the open `FILE*`. Counters that reach the disk have the width they are
written with. -/
structure StoreWriter where
  config : StoreConfig
  file : Option Bytes := none
  segmentId : UInt32 := 0
  segmentBytes : Nat := 0
  segmentRecords : Nat := 0
  segmentPayloadBytes : UInt64 := 0
  segmentDigest : UInt64 := 0
  totalBytes : Nat := 0
  totalRecords : Nat := 0
  closed : Bool := false

/-- `checked_add_u64`. -/
def checkedAddU64 (a b : Nat) : Option Nat :=
  if a + b < 2 ^ 64 then some (a + b) else none

namespace StoreWriter

/-- The identifier after the last segment; the last identifier of all has no successor. -/
def nextSegment (segments : List File) : UInt32 :=
  match segments.getLast? with
  | none => 1
  | some last =>
    match segmentIdFromName last.name with
    | some segmentId => if segmentId < 0xFFFFFFFF then segmentId + 1 else 1
    | none => 1

/-- The manifest is written once; an existing one has to pass the reader's checks. -/
def openManifest (config : StoreConfig) (now : Nanos) (d : Directory) : Except Error Directory :=
  match d.manifest with
  | some _ => (StoreReader.open config d).map fun _ => d
  | none => .ok { d with manifest := some (manifestText now config.policyDigest) }

def openDirectory (config : StoreConfig) (d : Directory) : Except Error Directory :=
  if config.directory = [] then
    .error ⟨.invalidArgument, "store directory must not be empty", []⟩
  else
    match d.kind with
    | .missing =>
      if config.createIfMissing then .ok { d with kind := .directory }
      else .error ⟨.notFound, "store directory does not exist", config.directory⟩
    | .directory => .ok d
    | .other => .error ⟨.invalidArgument, "store path is not a directory", config.directory⟩

def openSegment (w : StoreWriter) (now : Nanos) (d : Directory) : StoreWriter × Directory :=
  let name := segmentFileName w.segmentId
  ({ w with
      file := some name
      segmentBytes := segmentHeaderBytes
      segmentRecords := 0
      segmentPayloadBytes := 0
      segmentDigest := fnvOffset },
    (d.create name).write name (segmentHeader w.segmentId now))

/-- The footer of the open segment. -/
def footer (w : StoreWriter) : Bytes :=
  segmentFooter w.segmentRecords w.segmentPayloadBytes w.segmentDigest

/-- `close_segment` followed by `fclose`. -/
def closeSegment (w : StoreWriter) (d : Directory) : StoreWriter × Directory :=
  match w.file with
  | none => (w, d)
  | some name =>
    ({ w with
        file := none
        segmentBytes := w.segmentBytes + segmentFooterBytes
        totalBytes := w.totalBytes + segmentFooterBytes },
      (d.write name w.footer).flush name)

/-- The segment has records and the next one would exceed the record or the byte limit. -/
def rotates (w : StoreWriter) (recordBytes : Nat) : Bool :=
  w.segmentRecords ≠ 0 && (w.segmentRecords + 1 > w.config.limits.maxSegmentRecords ||
    w.segmentBytes + recordBytes + segmentFooterBytes > w.config.limits.maxSegmentBytes)

def rotate (w : StoreWriter) (now : Nanos) (recordBytes : Nat) (d : Directory) : StoreWriter × Directory :=
  if w.rotates recordBytes then
    let (w, d) := w.closeSegment d
    { w with segmentId := w.segmentId + 1 }.openSegment now d
  else (w, d)

/-- Header and payload go to the open segment, and the counters follow. -/
def writeRecord (w : StoreWriter) (entry : Entry) (d : Directory) : StoreWriter × Directory :=
  match w.file with
  | none => (w, d)
  | some name =>
    ({ w with
        segmentDigest := foldDigest w.segmentDigest entry.2
        segmentRecords := w.segmentRecords + 1
        segmentBytes := w.segmentBytes + (recordHeaderBytes + entry.2.length)
        segmentPayloadBytes := w.segmentPayloadBytes + UInt64.ofNat entry.2.length
        totalBytes := w.totalBytes + (recordHeaderBytes + entry.2.length)
        totalRecords := w.totalRecords + 1 },
      d.write name (frame entry))

def ensureSegment (w : StoreWriter) (now : Nanos) (d : Directory) : StoreWriter × Directory :=
  if w.file.isNone then w.openSegment now d else (w, d)

/-- `append`; `now` is what the clock reads when a segment is created. -/
def append (w : StoreWriter) (now : Nanos) (entry : Entry) (d : Directory) : Status × StoreWriter × Directory :=
  if w.closed then (.error ⟨.invalidArgument, "the writer is closed", []⟩, w, d)
  else
    let (w, d) := w.ensureSegment now d
    let recordBytes := recordHeaderBytes + entry.2.length
    if entry.2.length > maxRecordPayloadBytes then
      (.error ⟨.capacityExceeded, "record payload exceeds the supported maximum", decimal entry.2.length⟩, w, d)
    else if recordBytes + segmentFooterBytes > w.config.limits.maxSegmentBytes then
      (.error ⟨.capacityExceeded, "the record cannot fit inside the configured segment size",
        decimal entry.2.length⟩, w, d)
    else
      let (w, d) := w.rotate now recordBytes d
      match checkedAddU64 w.totalBytes recordBytes with
      | some projected =>
        if projected > w.config.limits.maxStoreBytes then
          (.error ⟨.capacityExceeded, "the store has reached its configured maximum size",
            decimal w.totalBytes⟩, w, d)
        else (.ok (), w.writeRecord entry d)
      | none =>
        (.error ⟨.capacityExceeded, "the store has reached its configured maximum size",
          decimal w.totalBytes⟩, w, d)

def sync (w : StoreWriter) (d : Directory) : Status × StoreWriter × Directory :=
  match w.file with
  | none => (.ok (), w, d)
  | some name => (.ok (), w, d.flush name)

def close (w : StoreWriter) (d : Directory) : Status × StoreWriter × Directory :=
  if w.closed then (.ok (), w, d)
  else
    let (w, d) := w.closeSegment d
    (.ok (), { w with closed := true }, d)

end StoreWriter

/-- `StoreWriter::open`: no segment file is created before the first append. -/
def StoreWriter.open (config : StoreConfig) (now : Nanos) (d : Directory) :
    Except Error (StoreWriter × Directory) := do
  let d ← StoreWriter.openDirectory config d
  let d ← StoreWriter.openManifest config now d
  return ({ config, segmentId := StoreWriter.nextSegment (listSegments d) }, d)

end LatencyObservatory.Store
