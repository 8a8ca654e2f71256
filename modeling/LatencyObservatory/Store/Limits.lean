import LatencyObservatory.Lib.Steps
import LatencyObservatory.Store.Acceptance
import LatencyObservatory.Store.Session
import LatencyObservatory.Store.Truncation

/-!
# Size limits of a store

The writer keeps three running totals, and none of them is the size on disk. The test of a single record against the
segment limit leaves out the header of the segment, and the test against the store limit leaves out all segment
headers, the footer of the open segment and everything that earlier sessions have written. `Room` is what an append
needs so that these bytes fit as well. Where every append of a run finds room, all limits hold all along it.
-/

namespace LatencyObservatory.Store
open LatencyObservatory.Core LatencyObservatory.Lib

/-- The bytes of all segment files. -/
def storeBytes (d : Directory) : Nat :=
  ((listSegments d).map fun f => f.content.length).sum

/-- The files on disk keep the limits, their records being those that the reader finds. -/
structure WithinLimits (limits : Limits) (d : Directory) : Prop where
  records : ∀ f ∈ listSegments d, (fileOutcome f).1.length ≤ limits.maxSegmentRecords
  bytes : ∀ f ∈ listSegments d, f.content.length ≤ limits.maxSegmentBytes
  total : storeBytes d ≤ limits.maxStoreBytes

/-! ## What an append needs -/

def recordBytes (entry : Entry) : Nat :=
  recordHeaderBytes + entry.2.length

namespace StoreWriter

/-- The bytes that an append writes, and those of the footer that the open segment still gets. -/
def spends (w : StoreWriter) (entry : Entry) : Nat :=
  (if w.file.isNone then segmentHeaderBytes else 0) +
    (if fits w.config.limits entry.2.length && w.turns (recordBytes entry) then
      segmentFooterBytes + segmentHeaderBytes else 0) +
    (if w.takes entry.2.length then recordBytes entry else 0) + segmentFooterBytes

/-- A record that is taken fits a segment of its own with header and footer, and the store has room for all that
is written. -/
structure Room (w : StoreWriter) (d : Directory) (entry : Entry) : Prop where
  segment : w.takes entry.2.length = true →
    segmentHeaderBytes + recordBytes entry + segmentFooterBytes ≤ w.config.limits.maxSegmentBytes
  store : storeBytes d + w.spends entry ≤ w.config.limits.maxStoreBytes

end StoreWriter

/-- An operation that finds room if it is an append. -/
def Live.Allowed (s : Live) (op : WriterOp) : Prop :=
  ∀ now entry, op = .append now entry → s.writer.Room s.directory entry

/-- Every append of the session finds room. -/
def WriterSession.Roomy (session : WriterSession) (d : Directory) : Prop :=
  ∀ w d', StoreWriter.open session.config session.openedAt d = .ok (w, d') →
    ∀ p ∈ steps Live.step { writer := w, directory := d' } session.ops, p.1.Allowed p.2

/-! ## Bytes of a directory -/

def Directory.bytes (d : Directory) : Nat :=
  (d.files.map fun f => f.content.length).sum

theorem storeBytes_eq {d : Directory} (h : ∀ f ∈ d.files, (segmentIdFromName f.name).isSome = true) :
    storeBytes d = d.bytes := by
  unfold storeBytes listSegments Directory.bytes
  rw [List.filter_eq_self.mpr h]
  exact ((List.perm_insertionSort _ d.files).map _).sum_eq

theorem mem_listSegments {d : Directory} {f : File} (h : f ∈ listSegments d) : f ∈ d.files := by
  unfold listSegments at h
  rw [List.mem_insertionSort] at h
  exact (List.mem_filter.mp h).1

theorem mem_update {d : Directory} {name : Bytes} {change : File → File} {f : File} :
    f ∈ (d.update name change).files ↔ ∃ g ∈ d.files, (if g.name = name then change g else g) = f :=
  List.mem_map

theorem update_bytes {d : Directory} (hnames : (d.files.map File.name).Nodup) (name : Bytes) {change : File → File}
    {k : Nat} (h : ∀ f, (change f).content.length ≤ f.content.length + k) :
    (d.update name change).bytes ≤ d.bytes + k := by
  obtain ⟨kind, manifest, files⟩ := d
  unfold Directory.update Directory.bytes
  simp only at hnames ⊢
  induction files with
  | nil => simp
  | cons f files ih =>
    rw [List.map_cons, List.nodup_cons] at hnames
    simp only [List.map_cons, List.sum_cons]
    by_cases hname : f.name = name
    · have hrest : files.map (fun g => if g.name = name then change g else g) = files := by
        refine (List.map_congr_left fun g hg => ?_).trans (List.map_id files)
        rw [if_neg, id]
        intro hsame
        exact hnames.1 (List.mem_map.mpr ⟨g, hg, hsame.trans hname.symm⟩)
      have hchange := h f
      rw [if_pos hname, hrest]
      omega
    · have hrest := ih hnames.2
      rw [if_neg hname]
      omega

theorem update_names {d : Directory} {name : Bytes} {change : File → File}
    (h : ∀ f, f.name = name → (change f).name = name) :
    (d.update name change).files.map File.name = d.files.map File.name := by
  rw [Directory.update, List.map_map]
  refine List.map_congr_left fun f _ => ?_
  simp only [Function.comp_apply]
  by_cases hname : f.name = name
  · rw [if_pos hname, h f hname, hname]
  · rw [if_neg hname]

theorem write_names (d : Directory) (name bytes : Bytes) :
    (d.write name bytes).files.map File.name = d.files.map File.name :=
  update_names fun _ hname => hname

theorem write_bytes {d : Directory} (hnames : (d.files.map File.name).Nodup) (name bytes : Bytes) :
    (d.write name bytes).bytes ≤ d.bytes + bytes.length :=
  update_bytes hnames name fun f => (List.length_append : (f.content ++ bytes).length = _).le

theorem mem_write {d : Directory} {name bytes : Bytes} {f : File} (h : f ∈ (d.write name bytes).files) :
    (∃ g ∈ d.files, g.name = name ∧ f.name = name ∧ f.content = g.content ++ bytes) ∨
      f ∈ d.files ∧ f.name ≠ name := by
  obtain ⟨g, hg, rfl⟩ := mem_update.mp h
  by_cases hname : g.name = name
  · rw [if_pos hname]
    exact Or.inl ⟨g, hg, hname, hname, rfl⟩
  · rw [if_neg hname]
    exact Or.inr ⟨hg, hname⟩

theorem create_names {d : Directory} (hnames : (d.files.map File.name).Nodup) (name : Bytes) :
    ((d.create name).files.map File.name).Nodup := by
  unfold Directory.create
  by_cases hany : (d.files.any fun f => f.name == name) = true
  · have hsame : ((d.update name fun _ => ⟨name, [], 0⟩).files.map File.name) = d.files.map File.name :=
      update_names fun _ _ => rfl
    rw [if_pos hany, hsame]
    exact hnames
  · rw [if_neg hany, List.map_append, List.map_singleton]
    refine List.Nodup.append hnames (List.nodup_singleton _) (List.disjoint_singleton.mpr ?_)
    intro hmem
    obtain ⟨f, hf, hname⟩ := List.mem_map.mp hmem
    exact hany (List.any_eq_true.mpr ⟨f, hf, by simpa using hname⟩)

theorem create_bytes {d : Directory} (hnames : (d.files.map File.name).Nodup) (name : Bytes) :
    (d.create name).bytes ≤ d.bytes := by
  unfold Directory.create
  split
  · exact @update_bytes _ hnames name (fun _ => ⟨name, [], 0⟩) 0 fun _ => Nat.zero_le _
  · simp [Directory.bytes]

theorem mem_create {d : Directory} {name : Bytes} {f : File} (h : f ∈ (d.create name).files) :
    f = ⟨name, [], 0⟩ ∨ (f ∈ d.files ∧ f.name ≠ name) := by
  unfold Directory.create at h
  split at h
  · obtain ⟨g, hg, rfl⟩ := mem_update.mp h
    by_cases hname : g.name = name
    · rw [if_pos hname]
      exact Or.inl rfl
    · rw [if_neg hname]
      exact Or.inr ⟨hg, hname⟩
  · rename_i hany
    rcases List.mem_append.mp h with hf | hf
    · refine Or.inr ⟨hf, fun hname => hany (List.any_eq_true.mpr ⟨f, hf, by simpa using hname⟩)⟩
    · exact Or.inl (List.mem_singleton.mp hf)

/-! ## Segments within the limits -/

/-- A segment within the limits. -/
structure Segment.Small (limits : Limits) (s : Segment) : Prop where
  records : s.entries.length ≤ limits.maxSegmentRecords
  bytes : s.bytes.length ≤ limits.maxSegmentBytes

/-- The file is what is left of such a segment. -/
def LeftOf (limits : Limits) (f : File) : Prop :=
  ∃ (s : Segment) (keep : Nat), s.Small limits ∧ f.content = s.bytes.take keep

theorem fileOutcome_isPrefix (s : Segment) (name : Bytes) (synced keep : Nat) :
    (fileOutcome ⟨name, s.bytes.take keep, synced⟩).1 <+: s.entries := by
  by_cases hshort : keep < 48
  · rw [fileOutcome_cut_short s name synced hshort]
    exact List.nil_prefix
  · by_cases hhead : keep < 60
    · rw [fileOutcome_cut_head s name synced (by omega) hhead]
      exact List.nil_prefix
    · by_cases hcut : keep < s.bytes.length
      · obtain ⟨entries, hprefix, houtcome⟩ := fileOutcome_cut s name synced (by omega) hcut
        rw [houtcome]
        exact hprefix
      · rw [List.take_of_length_le (by omega), fileOutcome_bytes]

theorem LeftOf.records {limits : Limits} {f : File} (h : LeftOf limits f) :
    (fileOutcome f).1.length ≤ limits.maxSegmentRecords := by
  obtain ⟨s, keep, hsmall, hcontent⟩ := h
  have hfile : f = ⟨f.name, s.bytes.take keep, f.synced⟩ := by rw [← hcontent]
  rw [hfile]
  exact (fileOutcome_isPrefix s _ _ _).length_le.trans hsmall.records

theorem LeftOf.bytes {limits : Limits} {f : File} (h : LeftOf limits f) :
    f.content.length ≤ limits.maxSegmentBytes := by
  obtain ⟨s, keep, hsmall, hcontent⟩ := h
  rw [hcontent, List.length_take]
  exact (Nat.min_le_right _ _).trans hsmall.bytes

/-- The writer's counters are those of the segment it has open. -/
structure Behind (limits : Limits) (w : StoreWriter) (s : Segment) : Prop where
  small : s.Small limits
  records : w.segmentRecords = s.entries.length
  bytes : w.segmentBytes = s.body.length
  payloadBytes : w.segmentPayloadBytes = addPayload 0 s.entries
  digest : w.segmentDigest = s.entries.foldl (fun digest entry => foldDigest digest entry.2) fnvOffset

theorem Behind.footer {limits : Limits} {w : StoreWriter} {s : Segment} (h : Behind limits w s) :
    w.footer = s.footer := by
  rw [StoreWriter.footer, Segment.footer, h.records, h.payloadBytes, h.digest]

/-- The files of a directory between two sessions. -/
structure Settled (limits : Limits) (d : Directory) : Prop where
  names : (d.files.map File.name).Nodup
  segments : ∀ f ∈ d.files, (segmentIdFromName f.name).isSome = true
  left : ∀ f ∈ d.files, LeftOf limits f

/-- The files of a directory that a writer works on. -/
structure Tidy (limits : Limits) (w : StoreWriter) (d : Directory) : Prop where
  allowed : w.config.limits = limits
  names : (d.files.map File.name).Nodup
  segments : ∀ f ∈ d.files, (segmentIdFromName f.name).isSome = true
  left : ∀ f ∈ d.files, w.file ≠ some f.name → LeftOf limits f
  current : ∀ f ∈ d.files, w.file = some f.name → ∃ s, Behind limits w s ∧ f.content = s.body
  fresh : w.file.isSome = true → w.segmentRecords = 0 → w.segmentBytes = segmentHeaderBytes

theorem Tidy.settled {limits : Limits} {w : StoreWriter} {d : Directory} (h : Tidy limits w d) :
    Settled limits d := by
  refine ⟨h.names, h.segments, fun f hf => ?_⟩
  by_cases hfile : w.file = some f.name
  · obtain ⟨s, hbehind, hcontent⟩ := h.current f hf hfile
    exact ⟨s, s.body.length, hbehind.small, by rw [hcontent, Segment.bytes, List.take_left]⟩
  · exact h.left f hf hfile

theorem LeftOf.take {limits : Limits} {f f' : File} (h : LeftOf limits f) {k : Nat}
    (hcontent : f'.content = f.content.take k) : LeftOf limits f' := by
  obtain ⟨s, keep, hsmall, hleft⟩ := h
  exact ⟨s, min k keep, hsmall, by rw [hcontent, hleft, List.take_take]⟩

theorem Settled.update {limits : Limits} {d : Directory} (h : Settled limits d) (name : Bytes) {change : File → File}
    (hname : ∀ f, (change f).name = f.name) (hcontent : ∀ f, ∃ k, (change f).content = f.content.take k) :
    Settled limits (d.update name change) ∧ (d.update name change).bytes ≤ d.bytes := by
  have hcases : ∀ f ∈ (d.update name change).files, ∃ g ∈ d.files, f.name = g.name ∧
      ∃ k, f.content = g.content.take k := by
    intro f hf
    obtain ⟨g, hg, rfl⟩ := mem_update.mp hf
    refine ⟨g, hg, ?_⟩
    split
    · exact ⟨hname g, hcontent g⟩
    · exact ⟨rfl, g.content.length, List.take_length.symm⟩
  refine ⟨⟨?_, fun f hf => ?_, fun f hf => ?_⟩, update_bytes (k := 0) h.names name fun f => ?_⟩
  · rw [update_names fun f hf => (hname f).trans hf]
    exact h.names
  · obtain ⟨g, hg, hsame, -⟩ := hcases f hf
    rw [hsame]
    exact h.segments g hg
  · obtain ⟨g, hg, -, k, hk⟩ := hcases f hf
    exact (h.left g hg).take hk
  · obtain ⟨k, hk⟩ := hcontent f
    rw [hk, List.length_take]
    exact Nat.min_le_right _ _

theorem Settled.flush {limits : Limits} {d : Directory} (h : Settled limits d) (name : Bytes) :
    Settled limits (d.flush name) ∧ (d.flush name).bytes ≤ d.bytes :=
  h.update name (fun _ => rfl) fun f => ⟨f.content.length, List.take_length.symm⟩

theorem Settled.withinLimits {limits : Limits} {d : Directory} (h : Settled limits d)
    (htotal : d.bytes ≤ limits.maxStoreBytes) : WithinLimits limits d where
  records f hf := (h.left f (mem_listSegments hf)).records
  bytes f hf := (h.left f (mem_listSegments hf)).bytes
  total := (storeBytes_eq h.segments).trans_le htotal

/-! ## The stages of an append -/

section Stages

variable {limits : Limits} {w : StoreWriter} {d : Directory}

theorem openSegment_tidy (h : Tidy limits w d) (hfile : w.file = none) (now : Nanos)
    (hsmall : segmentHeaderBytes + segmentFooterBytes ≤ limits.maxSegmentBytes) :
    Tidy limits (w.openSegment now d).1 (w.openSegment now d).2 ∧
      (w.openSegment now d).2.bytes ≤ d.bytes + segmentHeaderBytes := by
  have hcreated := create_names h.names (segmentFileName w.segmentId)
  have hwritten : ∀ f ∈ (w.openSegment now d).2.files, f.name = segmentFileName w.segmentId ∧
      f.content = segmentHeader w.segmentId now ∨ f ∈ d.files ∧ f.name ≠ segmentFileName w.segmentId := by
    intro f hf
    rcases mem_write hf with ⟨g, hg, hgname, hname, hcontent⟩ | ⟨hg, hname⟩
    · left
      rcases mem_create hg with rfl | ⟨-, hother⟩
      · exact ⟨hname, hcontent⟩
      · exact absurd hgname hother
    · right
      rcases mem_create hg with rfl | ⟨hold, -⟩
      · exact absurd rfl hname
      · exact ⟨hold, hname⟩
  have hbytes : (w.openSegment now d).2.bytes ≤ (d.create (segmentFileName w.segmentId)).bytes + segmentHeaderBytes := by
    refine (write_bytes hcreated _ _).trans ?_
    rw [segmentHeader_length]
  refine ⟨⟨h.allowed, ?_, ?_, ?_, ?_, fun _ _ => rfl⟩,
    hbytes.trans (Nat.add_le_add_right (create_bytes h.names _) _)⟩
  · show (((d.create (segmentFileName w.segmentId)).write _ _).files.map File.name).Nodup
    rw [write_names]
    exact hcreated
  · intro f hf
    rcases hwritten f hf with ⟨hname, -⟩ | ⟨hold, -⟩
    · rw [hname, segmentIdFromName_segmentFileName]
      rfl
    · exact h.segments f hold
  · intro f hf hother
    rcases hwritten f hf with ⟨hname, -⟩ | ⟨hold, -⟩
    · exact absurd (congrArg some hname.symm) hother
    · exact h.left f hold (by rw [hfile]; simp)
  · intro f hf hcurrent
    rcases hwritten f hf with ⟨-, hcontent⟩ | ⟨-, hname⟩
    · refine ⟨⟨w.segmentId, now, [], List.forall_mem_nil _⟩, ⟨⟨Nat.zero_le _, ?_⟩, rfl, ?_, rfl, rfl⟩, ?_⟩
      · rw [segment_length]
        exact hsmall
      · show 48 = _
        rw [Segment.body, List.length_append, Segment.header_length]
        rfl
      · rw [hcontent, Segment.body, frames_nil, List.append_nil]
        rfl
    · exact absurd (Option.some.inj hcurrent).symm hname

theorem footer_settled (h : Tidy limits w d) {name : Bytes} (hfile : w.file = some name) :
    Settled limits (d.write name w.footer) ∧ (d.write name w.footer).bytes ≤ d.bytes + segmentFooterBytes := by
  refine ⟨⟨?_, fun f hf => ?_, fun f hf => ?_⟩, ?_⟩
  · rw [write_names]
    exact h.names
  · rcases mem_write hf with ⟨g, hg, hgname, hname, -⟩ | ⟨hold, -⟩
    · rw [hname, ← hgname]
      exact h.segments g hg
    · exact h.segments f hold
  · rcases mem_write hf with ⟨g, hg, hgname, -, hcontent⟩ | ⟨hold, hother⟩
    · obtain ⟨s, hbehind, hbody⟩ := h.current g hg (by rw [hfile, hgname])
      refine ⟨s, s.bytes.length, hbehind.small, ?_⟩
      rw [hcontent, hbody, hbehind.footer, List.take_length, Segment.bytes]
    · refine h.left f hold ?_
      rw [hfile]
      exact fun hsame => hother (Option.some.inj hsame).symm
  · refine (write_bytes h.names name w.footer).trans ?_
    rw [StoreWriter.footer, segmentFooter_length]

theorem closeSegment_tidy (h : Tidy limits w d) :
    Tidy limits (w.closeSegment d).1 (w.closeSegment d).2 ∧ (w.closeSegment d).1.file = none ∧
      (w.closeSegment d).2.bytes ≤ d.bytes + if w.file.isSome then segmentFooterBytes else 0 := by
  cases hfile : w.file with
  | none =>
    rw [StoreWriter.closeSegment, hfile]
    exact ⟨h, hfile, Nat.le_refl _⟩
  | some name =>
    obtain ⟨hwritten, hfooter⟩ := footer_settled h hfile
    obtain ⟨hflushed, hbytes⟩ := hwritten.flush name
    rw [StoreWriter.closeSegment, hfile]
    refine ⟨⟨h.allowed, hflushed.names, hflushed.segments, fun f hf _ => hflushed.left f hf, ?_, ?_⟩, rfl,
      hbytes.trans hfooter⟩
    · exact fun _ _ hcurrent => absurd hcurrent (Option.some_ne_none _).symm
    · exact fun hsome => absurd hsome Bool.false_ne_true

theorem writeRecord_open {name : Bytes} (hfile : w.file = some name) (entry : Entry) (d : Directory) :
    w.writeRecord entry d = ({ w with
        segmentDigest := foldDigest w.segmentDigest entry.2
        segmentRecords := w.segmentRecords + 1
        segmentBytes := w.segmentBytes + recordBytes entry
        segmentPayloadBytes := w.segmentPayloadBytes + UInt64.ofNat entry.2.length
        totalBytes := w.totalBytes + recordBytes entry
        totalRecords := w.totalRecords + 1 }, d.write name (frame entry)) := by
  rw [StoreWriter.writeRecord, hfile]
  rfl

theorem Behind.push {s : Segment} (h : Behind limits w s) {entry : Entry}
    (hsized : entry.2.length ≤ maxRecordPayloadBytes) (hrecords : w.segmentRecords + 1 ≤ limits.maxSegmentRecords)
    (hbytes : w.segmentBytes + recordBytes entry + segmentFooterBytes ≤ limits.maxSegmentBytes) {name : Bytes}
    (hfile : w.file = some name) (d : Directory) :
    ∃ s', Behind limits (w.writeRecord entry d).1 s' ∧ s'.body = s.body ++ frame entry := by
  have hall : ∀ e ∈ s.entries ++ [entry], e.2.length ≤ maxRecordPayloadBytes :=
    List.forall_mem_append.mpr ⟨s.sized, List.forall_mem_singleton.mpr hsized⟩
  have hframes : frames (s.entries ++ [entry]) = frames s.entries ++ frame entry := by
    rw [frames_append, frames_cons, frames_nil, List.append_nil]
  have hframe : (frame entry).length = recordBytes entry := frame_length entry
  have hcount : (s.entries ++ [entry]).length = w.segmentRecords + 1 := by
    rw [List.length_append, List.length_singleton, h.records]
  have hnow := h.bytes
  have hpushed : (⟨s.id, s.createdAt, s.entries ++ [entry], hall⟩ : Segment).body = s.body ++ frame entry := by
    rw [Segment.body, hframes, ← List.append_assoc]
    rfl
  rw [writeRecord_open hfile]
  refine ⟨⟨s.id, s.createdAt, s.entries ++ [entry], hall⟩, ⟨⟨hcount.trans_le hrecords, ?_⟩, hcount.symm, ?_, ?_, ?_⟩,
    hpushed⟩
  · rw [Segment.bytes, List.length_append, Segment.footer_length, hpushed, List.length_append, hframe, ← hnow]
    exact hbytes
  · rw [hpushed, List.length_append, hframe, ← hnow]
  · rw [addPayload, List.foldl_append]
    exact congrArg (· + UInt64.ofNat entry.2.length) h.payloadBytes
  · rw [List.foldl_append, ← h.digest]
    rfl

theorem writeRecord_tidy (h : Tidy limits w d) {name : Bytes} (hfile : w.file = some name) {entry : Entry}
    (hsized : entry.2.length ≤ maxRecordPayloadBytes) (hrecords : w.segmentRecords + 1 ≤ limits.maxSegmentRecords)
    (hbytes : w.segmentBytes + recordBytes entry + segmentFooterBytes ≤ limits.maxSegmentBytes) :
    Tidy limits (w.writeRecord entry d).1 (w.writeRecord entry d).2 ∧
      (w.writeRecord entry d).1.file = some name ∧
      (w.writeRecord entry d).2.bytes ≤ d.bytes + recordBytes entry := by
  have hdirectory : (w.writeRecord entry d).2 = d.write name (frame entry) := by rw [writeRecord_open hfile]
  have hopen : (w.writeRecord entry d).1.file = some name := by
    rw [writeRecord_open hfile]
    exact hfile
  refine ⟨⟨?_, ?_, ?_, ?_, ?_, ?_⟩, hopen, ?_⟩
  · rw [writeRecord_open hfile]
    exact h.allowed
  · rw [hdirectory, write_names]
    exact h.names
  · rw [hdirectory]
    intro f hf
    rcases mem_write hf with ⟨g, hg, hgname, hname, -⟩ | ⟨hold, -⟩
    · rw [hname, ← hgname]
      exact h.segments g hg
    · exact h.segments f hold
  · rw [hdirectory, hopen]
    intro f hf hother
    rcases mem_write hf with ⟨g, -, -, hname, -⟩ | ⟨hold, -⟩
    · exact absurd (congrArg some hname.symm) hother
    · exact h.left f hold (by rw [hfile]; exact hother)
  · intro f hf hcurrent
    rw [hdirectory] at hf
    rw [hopen] at hcurrent
    rcases mem_write hf with ⟨g, hg, hgname, -, hcontent⟩ | ⟨-, hother⟩
    · obtain ⟨s, hbehind, hbody⟩ := h.current g hg (by rw [hfile, hgname])
      obtain ⟨s', hbehind', hbody'⟩ := hbehind.push hsized hrecords hbytes hfile d
      exact ⟨s', hbehind', by rw [hcontent, hbody, hbody']⟩
    · exact absurd (Option.some.inj hcurrent).symm hother
  · rw [writeRecord_open hfile]
    exact fun _ hrecords => absurd hrecords (Nat.succ_ne_zero _)
  · rw [hdirectory]
    refine (write_bytes h.names name (frame entry)).trans ?_
    rw [frame_length]
    exact Nat.le_refl _

/-- What is behind an append: the segment is there, then possibly rotated, then written to. -/
theorem append_stages (hopen : w.closed = false) (now : Nanos) (entry : Entry) (d : Directory) :
    (w.append now entry d).2 =
      if StoreWriter.fits w.config.limits entry.2.length then
        if w.takes entry.2.length then
          ((w.ensureSegment now d).1.rotate now (recordBytes entry) (w.ensureSegment now d).2).1.writeRecord entry
            ((w.ensureSegment now d).1.rotate now (recordBytes entry) (w.ensureSegment now d).2).2
        else (w.ensureSegment now d).1.rotate now (recordBytes entry) (w.ensureSegment now d).2
      else w.ensureSegment now d := by
  obtain ⟨htotal, hconfig⟩ := w.rotate_totalBytes now (recordBytes entry) d
  have hsize : recordHeaderBytes + entry.2.length = recordBytes entry := rfl
  unfold StoreWriter.append StoreWriter.takes StoreWriter.fits
  rw [hopen, if_neg Bool.false_ne_true, Bool.not_false, Bool.true_and]
  simp only [w.ensureSegment_config, hsize]
  by_cases hlong : entry.2.length > maxRecordPayloadBytes
  · rw [if_pos hlong, decide_eq_false (Nat.not_le.mpr hlong)]
    rfl
  rw [if_neg hlong, decide_eq_true (Nat.not_lt.mp hlong)]
  by_cases hwide : recordBytes entry + segmentFooterBytes > w.config.limits.maxSegmentBytes
  · rw [if_pos hwide, decide_eq_false (Nat.not_le.mpr hwide)]
    rfl
  rw [if_neg hwide, decide_eq_true (Nat.not_lt.mp hwide), htotal, hconfig]
  unfold checkedAddU64
  by_cases hover : w.bytesBefore (recordBytes entry) + recordBytes entry < 2 ^ 64
  · rw [if_pos hover, decide_eq_true hover]
    dsimp only
    by_cases hfull : w.bytesBefore (recordBytes entry) + recordBytes entry > w.config.limits.maxStoreBytes
    · rw [if_pos hfull, decide_eq_false (Nat.not_le.mpr hfull)]
      rfl
    · rw [if_neg hfull, decide_eq_true (Nat.not_lt.mp hfull)]
      rfl
  · rw [if_neg hover, decide_eq_false hover]
    rfl

end Stages

end LatencyObservatory.Store
