import LatencyObservatory.Store.Numbering
import LatencyObservatory.Store.Segment
import LatencyObservatory.Store.Session

/-!
# The log behind a session

`Log` is the abstract state of a running session: the segments it has closed and the one it has open.
It can start a new segment and push an entry. `Holds` ties it to the writer's counters and to the
files of the directory; `append_cases` says once what an append can do, and `append_holds` is its
specification over the log.
-/

namespace LatencyObservatory.Store
open LatencyObservatory.Core LatencyObservatory.Lib

/-- The segment being written, and how much of its file is on stable storage. -/
structure OpenSegment where
  segment : Segment
  synced : Nat

def OpenSegment.file (t : OpenSegment) : File :=
  ⟨t.segment.name, t.segment.body, t.synced⟩

def OpenSegment.push (t : OpenSegment) (entry : Entry) (h : entry.2.length ≤ maxRecordPayloadBytes) : OpenSegment :=
  { t with
    segment := { t.segment with
      entries := t.segment.entries ++ [entry]
      sized := by
        intro e he
        rcases List.mem_append.mp he with he | he
        · exact t.segment.sized e he
        · rw [List.mem_singleton.mp he]
          exact h } }

structure Log where
  closed : List Segment
  tail : Option OpenSegment

namespace Log

def segments (log : Log) : List Segment :=
  log.closed ++ (log.tail.map OpenSegment.segment).toList

def entries (log : Log) : List Entry :=
  log.segments.flatMap Segment.entries

def files (log : Log) : List File :=
  log.closed.map Segment.file ++ (log.tail.map OpenSegment.file).toList

def Overfull (log : Log) : Prop :=
  ∃ s ∈ log.segments, s.Overfull

/-- The entries that a crash cannot take away: those of closed segments and those whose frames are
within the synced part of the open one. -/
def Keeps (log : Log) (durable : List Entry) : Prop :=
  match log.tail with
  | none => durable <+: log.closed.flatMap Segment.entries
  | some t => ∃ es, es <+: t.segment.entries ∧ (es ≠ [] → 48 + (frames es).length ≤ t.synced) ∧
      durable <+: log.closed.flatMap Segment.entries ++ es

/-- Closes the open segment, if there is one, and opens an empty one. -/
def start (log : Log) (id : UInt32) (now : Nanos) : Log :=
  ⟨log.segments, some ⟨⟨id, now, [], by simp⟩, 0⟩⟩

def push (log : Log) (entry : Entry) (h : entry.2.length ≤ maxRecordPayloadBytes) : Log :=
  { log with tail := log.tail.map fun t => t.push entry h }

/-- `sync`: everything written so far is on stable storage. -/
def flush (log : Log) : Log :=
  { log with tail := log.tail.map fun t => { t with synced := t.segment.body.length } }

/-- The log carries the same entries and keeps at least as much. -/
structure Same (log log' : Log) : Prop where
  entries : log'.entries = log.entries
  overfull : log'.Overfull ↔ log.Overfull
  keeps : ∀ durable, log.Keeps durable → log'.Keeps durable

theorem Same.refl (log : Log) : log.Same log :=
  ⟨rfl, Iff.rfl, fun _ h => h⟩

theorem start_entries (log : Log) (id : UInt32) (now : Nanos) : (log.start id now).entries = log.entries := by
  simp [entries, segments, start]

theorem start_overfull (log : Log) (id : UInt32) (now : Nanos) : (log.start id now).Overfull ↔ log.Overfull := by
  simp only [Overfull, start, segments, Option.map_some, Option.toList_some, List.mem_append,
    List.mem_singleton, or_and_right, exists_or, exists_eq_left]
  constructor
  · rintro (h | h)
    · exact h
    · exact absurd h (by simp [Segment.Overfull])
  · exact Or.inl

theorem start_keeps {log : Log} {durable : List Entry} (h : log.Keeps durable) (id : UInt32) (now : Nanos) :
    (log.start id now).Keeps durable := by
  refine ⟨[], List.nil_prefix, fun hne => absurd rfl hne, ?_⟩
  rw [List.append_nil]
  obtain ⟨closed, tail⟩ := log
  cases tail with
  | none =>
    have hdurable : durable <+: closed.flatMap Segment.entries := h
    simpa [start, segments] using hdurable
  | some t =>
    obtain ⟨es, hes, -, hdurable⟩ := h
    have hle : closed.flatMap Segment.entries ++ es <+: closed.flatMap Segment.entries ++ t.segment.entries :=
      (List.prefix_append_right_inj _).mpr hes
    simpa [start, segments] using hdurable.trans hle

theorem start_same (log : Log) (id : UInt32) (now : Nanos) : log.Same (log.start id now) :=
  ⟨start_entries log id now, start_overfull log id now, fun _ h => start_keeps h id now⟩

section Push

variable {log : Log} {t : OpenSegment} (ht : log.tail = some t) (entry : Entry)
  (hsize : entry.2.length ≤ maxRecordPayloadBytes)
include ht

theorem push_entries : (log.push entry hsize).entries = log.entries ++ [entry] := by
  simp [push, entries, segments, ht, OpenSegment.push]

theorem push_overfull :
    (log.push entry hsize).Overfull ↔ log.Overfull ∨ 2 ^ 32 ≤ t.segment.entries.length + 1 := by
  have hpush : (t.push entry hsize).segment.Overfull ↔ 2 ^ 32 ≤ t.segment.entries.length + 1 := by
    simp [Segment.Overfull, OpenSegment.push]
  simp only [Overfull, push, segments, ht, Option.map_some, Option.toList_some, List.mem_append,
    List.mem_singleton, or_and_right, exists_or, exists_eq_left, hpush]
  constructor
  · rintro (h | h)
    · exact .inl (.inl h)
    · exact .inr h
  · rintro ((h | h) | h)
    · exact .inl h
    · exact .inr (by have : 2 ^ 32 ≤ t.segment.entries.length := h; omega)
    · exact .inr h

theorem push_keeps {durable : List Entry} (h : log.Keeps durable) : (log.push entry hsize).Keeps durable := by
  simp only [Keeps, ht] at h
  obtain ⟨es, hes, hsynced, hdurable⟩ := h
  simp only [Keeps, push, ht, Option.map_some]
  exact ⟨es, hes.trans (List.prefix_append _ _), hsynced, hdurable⟩

end Push

theorem flush_keeps (log : Log) : log.flush.Keeps log.entries := by
  obtain ⟨closed, tail⟩ := log
  cases tail with
  | none => simp [Keeps, flush, entries, segments]
  | some t =>
    refine ⟨t.segment.entries, List.prefix_rfl, fun _ => ?_, by simp [flush, entries, segments]⟩
    change 48 + (frames t.segment.entries).length ≤ t.segment.body.length
    rw [Segment.body, List.length_append, Segment.header_length]

@[simp] theorem flush_entries (log : Log) : log.flush.entries = log.entries := by
  obtain ⟨closed, tail⟩ := log
  cases tail <;> rfl

theorem flush_overfull (log : Log) : log.flush.Overfull ↔ log.Overfull := by
  obtain ⟨closed, tail⟩ := log
  cases tail <;> exact Iff.rfl

end Log

/-- The writer and the directory carry the log of a session that began with the files `old`. -/
structure Holds (old : List File) (w : StoreWriter) (d : Directory) (log : Log) : Prop where
  files : d.files = old ++ log.files
  numbered : Numbered d.files
  file : w.file = log.tail.map fun t => t.segment.name
  id : w.segmentId.toNat = (if log.tail.isSome then 0 else 1) + d.files.length
  tailId : ∀ t ∈ log.tail, t.segment.id = w.segmentId
  records : w.segmentRecords = log.tail.elim 0 fun t => t.segment.entries.length
  bytes : ∀ t ∈ log.tail, w.segmentBytes = t.segment.body.length
  payloadBytes : ∀ t ∈ log.tail, w.segmentPayloadBytes = addPayload 0 t.segment.entries
  digest : ∀ t ∈ log.tail,
    w.segmentDigest = t.segment.entries.foldl (fun digest entry => foldDigest digest entry.2) fnvOffset

/-! ## What an append can do -/

/-- The stages of an append: the segment is there, then possibly rotated, then written to. -/
theorem append_cases {w : StoreWriter} (hopen : w.closed = false) (now : Nanos) (entry : Entry) (d : Directory) :
    (∃ e, w.append now entry d = (.error e, w.ensureSegment now d)) ∨
    (entry.2.length ≤ maxRecordPayloadBytes ∧ ∃ e, w.append now entry d = (.error e,
      (w.ensureSegment now d).1.rotate now (recordHeaderBytes + entry.2.length) (w.ensureSegment now d).2)) ∨
    (entry.2.length ≤ maxRecordPayloadBytes ∧ w.append now entry d = (.ok (),
      ((w.ensureSegment now d).1.rotate now (recordHeaderBytes + entry.2.length) (w.ensureSegment now d).2).1.writeRecord
        entry
        ((w.ensureSegment now d).1.rotate now (recordHeaderBytes + entry.2.length) (w.ensureSegment now d).2).2)) := by
  unfold StoreWriter.append
  rw [if_neg (by simp [hopen])]
  simp only []
  by_cases hsize : entry.2.length > maxRecordPayloadBytes
  · rw [if_pos hsize]
    exact .inl ⟨_, rfl⟩
  rw [if_neg hsize]
  split
  · exact .inl ⟨_, rfl⟩
  split
  · split
    · exact .inr (.inl ⟨by omega, _, rfl⟩)
    · exact .inr (.inr ⟨by omega, rfl⟩)
  · exact .inr (.inl ⟨by omega, _, rfl⟩)

/-! ## The stages over the log -/

@[simp] theorem update_length (d : Directory) (name : Bytes) (change : File → File) :
    (d.update name change).files.length = d.files.length := by
  simp [Directory.update]

theorem length_le_create (d : Directory) (name : Bytes) : d.files.length ≤ (d.create name).files.length := by
  unfold Directory.create
  split <;> simp

theorem length_le_openSegment (w : StoreWriter) (now : Nanos) (d : Directory) :
    d.files.length ≤ (w.openSegment now d).2.files.length := by
  simp only [StoreWriter.openSegment, Directory.write, update_length]
  exact length_le_create _ _

theorem closeSegment_length (w : StoreWriter) (d : Directory) :
    (w.closeSegment d).2.files.length = d.files.length := by
  unfold StoreWriter.closeSegment
  cases w.file <;> simp [Directory.write, Directory.flush]

theorem length_le_rotate (w : StoreWriter) (now : Nanos) (recordBytes : Nat) (d : Directory) :
    d.files.length ≤ (w.rotate now recordBytes d).2.files.length := by
  unfold StoreWriter.rotate
  split
  · rw [← closeSegment_length w d]
    exact length_le_openSegment _ _ _
  · exact Nat.le_refl _

theorem openSegment_holds {old : List File} {w : StoreWriter} {d : Directory} {closed : List Segment}
    (hfiles : d.files = old ++ closed.map Segment.file) (hnum : Numbered d.files)
    (hid : w.segmentId.toNat = d.files.length + 1) (now : Nanos)
    (hbound : (w.openSegment now d).2.files.length < 2 ^ 32 - 1) :
    Holds old (w.openSegment now d).1 (w.openSegment now d).2
      ⟨closed, some ⟨⟨w.segmentId, now, [], by simp⟩, 0⟩⟩ := by
  have hname : segmentFileName w.segmentId = nthName (d.files.length + 1) := by
    rw [nthName, ← hid, UInt32.ofNat_toNat]
  have hlen : d.files.length < 2 ^ 32 - 1 := lt_of_le_of_lt (length_le_openSegment w now d) hbound
  have hcreate := create_next hnum (by omega)
  have hcreateNum : Numbered (d.create (nthName (d.files.length + 1))).files := by
    rw [hcreate]
    exact numbered_append.mpr ⟨hnum, rfl⟩
  have hresult : (w.openSegment now d).2.files =
      d.files ++ [⟨nthName (d.files.length + 1), segmentHeader w.segmentId now, 0⟩] := by
    have := update_last hcreate hcreateNum (by rw [hcreate, List.length_append, List.length_singleton]; omega)
      fun f => { f with content := f.content ++ segmentHeader w.segmentId now }
    simpa [StoreWriter.openSegment, Directory.write, hname] using this
  have hsegment : Log.files ⟨closed, some ⟨⟨w.segmentId, now, [], by simp⟩, 0⟩⟩ =
      closed.map Segment.file ++ [⟨nthName (d.files.length + 1), segmentHeader w.segmentId now, 0⟩] := by
    simp [Log.files, OpenSegment.file, Segment.name, Segment.body, Segment.header, hname]
  refine ⟨?_, ?_, rfl, ?_, ?_, rfl, ?_, ?_, ?_⟩
  · rw [hresult, hsegment, hfiles, List.append_assoc]
  · rw [hresult]
    exact numbered_append.mpr ⟨hnum, rfl⟩
  · rw [hresult, List.length_append, List.length_singleton]
    simpa [StoreWriter.openSegment] using hid
  all_goals
    intro t ht
    cases ht
  · rfl
  · simp [StoreWriter.openSegment, Segment.body, segmentHeaderBytes]
  · rfl
  · rfl

theorem closeSegment_files {old : List File} {w : StoreWriter} {d : Directory} {log : Log}
    (h : Holds old w d log) (hbound : d.files.length < 2 ^ 32 - 1) :
    (w.closeSegment d).2.files = old ++ log.segments.map Segment.file ∧ Numbered (w.closeSegment d).2.files := by
  obtain ⟨closed, tail⟩ := log
  have hfile := h.file
  cases tail with
  | none =>
    simp only [Option.map_none] at hfile
    rw [StoreWriter.closeSegment, hfile]
    exact ⟨by rw [h.files]; simp [Log.files, Log.segments], h.numbered⟩
  | some t =>
    simp only [Option.map_some] at hfile
    have hd : d.files = (old ++ closed.map Segment.file) ++ [t.file] := by
      rw [h.files]
      simp [Log.files]
    have hfooter : w.footer = t.segment.footer := by
      rw [StoreWriter.footer, Segment.footer, h.records, h.payloadBytes t rfl, h.digest t rfl]
      rfl
    have hwrite := update_last hd h.numbered (by omega) fun f => { f with content := f.content ++ w.footer }
    have hwriteNum : Numbered (d.write t.segment.name w.footer).files :=
      update_numbered h.numbered _ fun _ => rfl
    have hflush := update_last hwrite hwriteNum (by simp; omega) fun f => { f with synced := f.content.length }
    have hresult : (w.closeSegment d).2.files = old ++ closed.map Segment.file ++ [t.segment.file] := by
      rw [StoreWriter.closeSegment, hfile]
      refine hflush.trans ?_
      rw [hfooter]
      rfl
    refine ⟨by rw [hresult]; simp [Log.segments], ?_⟩
    rw [StoreWriter.closeSegment, hfile]
    exact update_numbered hwriteNum _ fun _ => rfl

theorem ensureSegment_holds {old : List File} {w : StoreWriter} {d : Directory} {log : Log}
    (h : Holds old w d log) (now : Nanos) (hbound : (w.ensureSegment now d).2.files.length < 2 ^ 32 - 1) :
    ∃ log', Holds old (w.ensureSegment now d).1 (w.ensureSegment now d).2 log' ∧ log'.tail.isSome ∧
      (log' = log ∧ (w.ensureSegment now d).1 = w ∨ log.tail = none ∧ log' = log.start w.segmentId now) := by
  cases htail : log.tail with
  | none =>
    have hfile : w.file.isNone = true := by rw [h.file, htail]; rfl
    rw [StoreWriter.ensureSegment, if_pos hfile] at hbound ⊢
    have hfiles : d.files = old ++ log.segments.map Segment.file := by
      rw [h.files]
      simp [Log.files, Log.segments, htail]
    have hid : w.segmentId.toNat = d.files.length + 1 := by
      rw [h.id, htail, Nat.add_comm]
      rfl
    exact ⟨log.start w.segmentId now, openSegment_holds hfiles h.numbered hid now hbound, rfl, .inr ⟨rfl, rfl⟩⟩
  | some t =>
    have hfile : ¬w.file.isNone = true := by rw [h.file, htail]; simp
    rw [StoreWriter.ensureSegment, if_neg hfile]
    exact ⟨log, h, by rw [htail]; rfl, .inl ⟨rfl, rfl⟩⟩

theorem rotate_holds {old : List File} {w : StoreWriter} {d : Directory} {log : Log}
    (h : Holds old w d log) (hsome : log.tail.isSome) (now : Nanos) {recordBytes : Nat}
    (hrotates : w.rotates recordBytes = true)
    (hbound : (w.rotate now recordBytes d).2.files.length < 2 ^ 32 - 1) :
    Holds old (w.rotate now recordBytes d).1 (w.rotate now recordBytes d).2 (log.start (w.segmentId + 1) now) := by
  have hlt : d.files.length < 2 ^ 32 - 1 := lt_of_le_of_lt (length_le_rotate w now recordBytes d) hbound
  rw [StoreWriter.rotate, if_pos hrotates] at hbound ⊢
  obtain ⟨hfiles, hnum⟩ := closeSegment_files h hlt
  have hsegmentId : (w.closeSegment d).1.segmentId = w.segmentId := by
    unfold StoreWriter.closeSegment
    cases w.file <;> rfl
  have hlength := closeSegment_length w d
  have hid : (w.segmentId + 1).toNat = d.files.length + 1 := by
    rw [UInt32.toNat_add, h.id, if_pos hsome, Nat.zero_add]
    exact Nat.mod_eq_of_lt (by change d.files.length + 1 < 2 ^ 32; omega)
  have := openSegment_holds (w := { (w.closeSegment d).1 with segmentId := (w.closeSegment d).1.segmentId + 1 })
    hfiles hnum (by rw [hlength, hsegmentId]; exact hid) now hbound
  simpa only [Log.start, hsegmentId] using this

theorem writeRecord_holds {old : List File} {w : StoreWriter} {d : Directory} {log : Log}
    (h : Holds old w d log) {t : OpenSegment} (ht : log.tail = some t) {entry : Entry}
    (hsize : entry.2.length ≤ maxRecordPayloadBytes) (hbound : d.files.length < 2 ^ 32 - 1) :
    Holds old (w.writeRecord entry d).1 (w.writeRecord entry d).2 (log.push entry hsize) := by
  have hfile : w.file = some t.segment.name := by rw [h.file, ht]; rfl
  have hd : d.files = (old ++ log.closed.map Segment.file) ++ [t.file] := by
    rw [h.files]
    simp [Log.files, ht]
  have hwrite : (d.write t.segment.name (frame entry)).files =
      old ++ log.closed.map Segment.file ++ [(t.push entry hsize).file] := by
    refine (update_last hd h.numbered (by omega) fun f => { f with content := f.content ++ frame entry }).trans ?_
    simp [OpenSegment.file, OpenSegment.push, Segment.name, Segment.body, Segment.header]
  have hpush : (log.push entry hsize).tail = some (t.push entry hsize) := by
    rw [Log.push, ht]
    rfl
  rw [StoreWriter.writeRecord, hfile]
  refine ⟨?_, update_numbered h.numbered _ fun _ => rfl, ?_, ?_, ?_, ?_, ?_, ?_, ?_⟩
  · rw [hwrite, Log.files, hpush]
    simp [Log.push]
  · rw [hpush]
    rfl
  · have hid : w.segmentId.toNat = 0 + (d.write t.segment.name (frame entry)).files.length := by
      rw [Directory.write, update_length, h.id, ht]
      rfl
    rw [hpush]
    exact hid
  · intro u hu
    rw [hpush] at hu
    cases hu
    exact h.tailId t (by rw [ht]; rfl)
  · rw [hpush]
    have := h.records
    rw [ht] at this
    simp only [Option.elim_some] at this ⊢
    simp [this, OpenSegment.push]
  · intro u hu
    rw [hpush] at hu
    cases hu
    change w.segmentBytes + (recordHeaderBytes + entry.2.length) = _
    rw [h.bytes t (by rw [ht]; rfl)]
    simp [OpenSegment.push, Segment.body, Segment.header, recordHeaderBytes]
    omega
  · intro u hu
    rw [hpush] at hu
    cases hu
    change w.segmentPayloadBytes + UInt64.ofNat entry.2.length = _
    rw [h.payloadBytes t (by rw [ht]; rfl)]
    simp [addPayload, OpenSegment.push]
  · intro u hu
    rw [hpush] at hu
    cases hu
    change foldDigest w.segmentDigest entry.2 = _
    rw [h.digest t (by rw [ht]; rfl)]
    simp [OpenSegment.push]

/-- Before the record is written there is an open segment; it is full exactly when `overruns` says so. -/
theorem prepare_holds {old : List File} {w : StoreWriter} {d : Directory} {log : Log} (h : Holds old w d log)
    (now : Nanos) (recordBytes : Nat)
    (hbound : ((w.ensureSegment now d).1.rotate now recordBytes (w.ensureSegment now d).2).2.files.length < 2 ^ 32 - 1) :
    ∃ log' t, Holds old ((w.ensureSegment now d).1.rotate now recordBytes (w.ensureSegment now d).2).1
        ((w.ensureSegment now d).1.rotate now recordBytes (w.ensureSegment now d).2).2 log' ∧
      log'.tail = some t ∧ log.Same log' ∧
      (2 ^ 32 ≤ t.segment.entries.length + 1 ↔ w.overruns recordBytes = true) := by
  obtain ⟨log₁, h₁, hsome, hstage⟩ :=
    ensureSegment_holds h now (lt_of_le_of_lt (length_le_rotate _ now recordBytes _) hbound)
  obtain ⟨t, ht⟩ := Option.isSome_iff_exists.mp hsome
  have hrecords : (w.ensureSegment now d).1.segmentRecords = t.segment.entries.length := by
    rw [h₁.records, ht]
    rfl
  rcases hstage with ⟨rfl, hw⟩ | ⟨hnone, rfl⟩
  · rw [hw] at hrecords hbound h₁ ⊢
    cases hrotates : w.rotates recordBytes with
    | true =>
      -- The rotated segment is empty, and an append that rotates does not overrun.
      have h₂ := rotate_holds h₁ hsome now hrotates hbound
      exact ⟨_, _, h₂, rfl, Log.start_same _ _ _, by simp [StoreWriter.overruns, hrotates]⟩
    | false =>
      have hstay : ∀ d', w.rotate now recordBytes d' = (w, d') := by
        intro d'
        rw [StoreWriter.rotate, if_neg (by simp [hrotates])]
      rw [hstay]
      exact ⟨_, t, h₁, ht, .refl _, by simp [StoreWriter.overruns, hrotates, hrecords]⟩
  · -- A segment that was just created holds nothing yet.
    have hzero : w.segmentRecords = 0 := by
      rw [h.records, hnone]
      rfl
    have hempty : t.segment.entries = [] := by
      cases ht
      rfl
    have hstay : (w.ensureSegment now d).1.rotates recordBytes = false := by
      simp [StoreWriter.rotates, hrecords, hempty]
    rw [StoreWriter.rotate, if_neg (by simp [hstay])]
    exact ⟨_, t, h₁, ht, Log.start_same _ _ _, by simp [StoreWriter.overruns, hzero, hempty]⟩

theorem append_holds {old : List File} {w : StoreWriter} {d : Directory} {log : Log} (h : Holds old w d log)
    (hopen : w.closed = false) (now : Nanos) (entry : Entry)
    (hbound : (w.append now entry d).2.2.files.length < 2 ^ 32 - 1) :
    (∃ e w' d' log', w.append now entry d = (.error e, w', d') ∧ Holds old w' d' log' ∧ log.Same log') ∨
    (∃ w' d' log', w.append now entry d = (.ok (), w', d') ∧ Holds old w' d' log' ∧
      log'.entries = log.entries ++ [entry] ∧
      (log'.Overfull ↔ log.Overfull ∨ w.overruns (recordHeaderBytes + entry.2.length) = true) ∧
      ∀ durable, log.Keeps durable → log'.Keeps durable) := by
  rcases append_cases hopen now entry d with ⟨e, happend⟩ | ⟨hsize, e, happend⟩ | ⟨hsize, happend⟩
  · rw [happend] at hbound ⊢
    obtain ⟨log₁, h₁, -, hstage⟩ := ensureSegment_holds h now hbound
    refine .inl ⟨e, _, _, log₁, rfl, h₁, ?_⟩
    rcases hstage with ⟨rfl, -⟩ | ⟨-, rfl⟩
    · exact .refl _
    · exact Log.start_same _ _ _
  · rw [happend] at hbound ⊢
    obtain ⟨log₁, t, h₁, -, hsame, -⟩ := prepare_holds h now _ hbound
    exact .inl ⟨e, _, _, log₁, rfl, h₁, hsame⟩
  · rw [happend] at hbound ⊢
    have hprepared : ((w.ensureSegment now d).1.rotate now (recordHeaderBytes + entry.2.length)
        (w.ensureSegment now d).2).2.files.length < 2 ^ 32 - 1 := by
      refine lt_of_le_of_lt (Nat.le_of_eq ?_) hbound
      simp only [StoreWriter.writeRecord]
      split <;> simp [Directory.write]
    obtain ⟨log₁, t, h₁, ht, hsame, hfull⟩ := prepare_holds h now _ hprepared
    refine .inr ⟨_, _, log₁.push entry hsize, rfl, writeRecord_holds h₁ ht hsize hprepared, ?_, ?_, ?_⟩
    · rw [Log.push_entries ht, hsame.entries]
    · rw [Log.push_overfull ht, hfull, hsame.overfull]
    · exact fun durable hkeeps => Log.push_keeps ht entry hsize (hsame.keeps durable hkeeps)

end LatencyObservatory.Store
