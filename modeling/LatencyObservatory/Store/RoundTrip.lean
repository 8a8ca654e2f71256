import LatencyObservatory.Store.History

/-!
# Store round trip

What closed sessions wrote is read back, cleanly and in order, exactly as long as no segment reached
`2 ^ 32` records: the footer records the count in 32 bits and the reader compares it with the number
of records it read. The record and byte limits of a configuration do not exclude such a segment.
-/

namespace LatencyObservatory.Store
open LatencyObservatory.Core LatencyObservatory.Lib

/-- The outcome of a complete segment. -/
def segmentOutcome (s : Segment) : List Entry × Bool :=
  (s.entries, decide ¬s.Overfull)

theorem fileOutcome_file (s : Segment) : fileOutcome s.file = segmentOutcome s :=
  fileOutcome_bytes s _ _

theorem recovered_written {h : History} {segments : List Segment} (hw : Written h segments)
    (hbound : h.directory.files.length < 2 ^ 32) :
    recovered h.directory = recover (segments.map segmentOutcome) := by
  rw [recovered_eq, listSegments_of_numbered hw.numbered hbound, hw.files, List.map_map]
  refine congrArg recover (List.map_congr_left fun s _ => ?_)
  rw [Function.comp_apply, fileOutcome_file]

theorem segmentOutcome_accepted {segments : List Segment} :
    (∀ p ∈ segments.map segmentOutcome, p.2 = true) ↔ ¬∃ s ∈ segments, s.Overfull := by
  simp [segmentOutcome]

theorem segmentOutcome_entries (segments : List Segment) :
    (segments.map segmentOutcome).flatMap Prod.fst = segments.flatMap Segment.entries := by
  rw [List.flatMap_map]
  rfl

/-- Something outside the store changed the bytes of file `k`. -/
def Directory.damage (d : Directory) (k : Nat) (change : Bytes → Bytes) : Directory :=
  { d with files := d.files.modify k fun f => { f with content := change f.content } }

theorem recovered_damage {h : History} {before after : List Segment} {s : Segment}
    (hw : Written h (before ++ s :: after)) (hbound : h.directory.files.length < 2 ^ 32) (change : Bytes → Bytes) :
    recovered (h.directory.damage before.length change) =
      recover (before.map segmentOutcome ++ fileOutcome ⟨s.name, change s.bytes, s.bytes.length⟩ ::
        after.map segmentOutcome) := by
  have hfiles : (h.directory.damage before.length change).files =
      before.map Segment.file ++ ⟨s.name, change s.bytes, s.bytes.length⟩ :: after.map Segment.file := by
    rw [Directory.damage, hw.files, List.map_append, List.map_cons]
    have := modify_append_cons (before.map Segment.file) (after.map Segment.file) s.file
      fun f => { f with content := change f.content }
    rw [List.length_map] at this
    exact this
  have hnum : Numbered (h.directory.damage before.length change).files := by
    refine numbered_of_names ?_ hw.numbered
    rw [hfiles, hw.files]
    simp [Segment.file]
  have hlength : (h.directory.damage before.length change).files.length < 2 ^ 32 := by
    rw [Directory.damage, List.length_modify]
    exact hbound
  have hkept : ∀ segments : List Segment,
      (segments.map Segment.file).map fileOutcome = segments.map segmentOutcome := by
    intro segments
    rw [List.map_map]
    refine List.map_congr_left fun s _ => ?_
    rw [Function.comp_apply, fileOutcome_file]
  rw [recovered_eq, listSegments_of_numbered hnum hlength, hfiles, List.map_append, List.map_cons, hkept, hkept]

/-- `read_all` returns what was written, with a clean report. -/
def RoundTrips (h : History) : Prop :=
  (readAll h.directory).1.map StoredRecord.entry = h.written ∧ (readAll h.directory).2.clean = true

instance (h : History) : Decidable (RoundTrips h) := inferInstanceAs (Decidable (_ ∧ _))

theorem roundTrips_of_written {h : History} {segments : List Segment} (hw : Written h segments)
    (hbound : h.directory.files.length < 2 ^ 32) : RoundTrips h ↔ h.overran = false := by
  have hrecovered := recovered_written hw hbound
  have hsame : (readAll h.directory).1.map StoredRecord.entry = (recover (segments.map segmentOutcome)).1 :=
    congrArg Prod.fst hrecovered
  have hclean : (readAll h.directory).2.clean = (recover (segments.map segmentOutcome)).2 :=
    congrArg Prod.snd hrecovered
  rw [RoundTrips, hsame, hclean, hw.written]
  constructor
  · rintro ⟨-, hall⟩
    rw [recover_snd_iff, segmentOutcome_accepted, ← hw.overran] at hall
    simpa using hall
  · intro hnone
    have hall : ∀ p ∈ segments.map segmentOutcome, p.2 = true := by
      rw [segmentOutcome_accepted, ← hw.overran, hnone]
      decide
    rw [recover_intact hall, segmentOutcome_entries]
    exact ⟨rfl, rfl⟩

/-- Closed sessions round trip exactly when no append overran its segment. -/
theorem closed_sessions_roundTrip_iff (sessions : List WriterSession)
    (hclosed : ∀ session ∈ sessions, session.ending = .close)
    (hbound : (runSessions sessions).directory.files.length < 2 ^ 32 - 1) :
    ((readAll (runSessions sessions).directory).1.map StoredRecord.entry = (runSessions sessions).written ∧
      (readAll (runSessions sessions).directory).2.clean = true) ↔ (runSessions sessions).overran = false := by
  obtain ⟨segments, hw⟩ := runSessions_written hclosed hbound
  exact roundTrips_of_written hw (by omega)

/-- A store whose segments hold two records each. -/
def smallConfig : StoreConfig where
  directory := text "store"
  limits := { maxSegmentRecords := 2 }
  policyDigest := text "digest"

/-- Two sessions; the first one rotates, and the second writes the footer magic as a payload. -/
def smallSessions : List WriterSession :=
  [⟨smallConfig, 10, [.append 11 (.source, text "a"), .append 12 (.hop, text "bc"), .append 13 (.path, [])], .close⟩,
    ⟨smallConfig, 20, [.append 21 (.clockSync, text "LOBSEND1"), .sync], .close⟩]

theorem small_sessions_roundTrip :
    (runSessions smallSessions).written =
        [(.source, text "a"), (.hop, text "bc"), (.path, []), (.clockSync, text "LOBSEND1")] ∧
      (readAll (runSessions smallSessions).directory).1.map StoredRecord.entry = (runSessions smallSessions).written ∧
      (readAll (runSessions smallSessions).directory).2.clean = true :=
  ⟨by decide +kernel, (closed_sessions_roundTrip_iff smallSessions (by simp [smallSessions]) (by decide +kernel)).mpr
    (by decide +kernel)⟩

/-! ## A segment of `2 ^ 32` records -/

/-- Limits that admit `2 ^ 32` empty records in one segment. -/
def wideConfig : StoreConfig where
  directory := text "store"
  limits := { maxSegmentRecords := 2 ^ 32, maxSegmentBytes := 2 ^ 40, maxStoreBytes := 2 ^ 40 }
  policyDigest := []

def emptyAppend : WriterOp :=
  .append 0 (.source, [])

/-- The writer after `n` empty appends. -/
structure Filling (n : Nat) (w : StoreWriter) (d : Directory) : Prop where
  config : w.config = wideConfig
  isOpen : w.closed = false
  records : w.segmentRecords = n
  total : w.totalBytes = 12 * n
  segment : w.file = none ∧ n = 0 ∧ d.files = [] ∨
    w.file.isSome ∧ w.segmentBytes = 48 + 12 * n ∧ d.files.length = 1

theorem filling_stays {n : Nat} {w : StoreWriter} {d : Directory} (h : Filling n w d) (hn : n < 2 ^ 32) :
    w.rotates recordHeaderBytes = false := by
  rcases h.segment with ⟨-, rfl, -⟩ | ⟨-, hbytes, -⟩
  · simp [StoreWriter.rotates, h.records]
  · have hrecords : ¬n + 1 > 2 ^ 32 := by omega
    have hfits : ¬48 + 12 * n + 12 + 40 > 2 ^ 40 := by omega
    simp only [StoreWriter.rotates, h.records, hbytes, h.config, wideConfig, recordHeaderBytes, segmentFooterBytes]
    simp only [hrecords, hfits, decide_false, Bool.or_self, Bool.and_false]

theorem filling_ensure {n : Nat} {w : StoreWriter} {d : Directory} (h : Filling n w d) (now : Nanos) :
    Filling n (w.ensureSegment now d).1 (w.ensureSegment now d).2 ∧ (w.ensureSegment now d).1.file.isSome := by
  rcases h.segment with ⟨hfile, rfl, hfiles⟩ | hrunning
  · rw [StoreWriter.ensureSegment, if_pos (by rw [hfile]; rfl)]
    refine ⟨⟨h.config, h.isOpen, rfl, h.total, .inr ⟨rfl, rfl, ?_⟩⟩, rfl⟩
    simp only [StoreWriter.openSegment, Directory.write, update_length, Directory.create, hfiles]
    rfl
  · rw [StoreWriter.ensureSegment, if_neg (by simpa using Option.isSome_iff_ne_none.mp hrunning.1)]
    exact ⟨h, hrunning.1⟩

theorem filling_append {n : Nat} {w : StoreWriter} {d : Directory} (h : Filling n w d) (hn : n < 2 ^ 32) :
    ∃ w' d', w.append 0 (.source, []) d = (.ok (), w', d') ∧ Filling (n + 1) w' d' := by
  obtain ⟨h₁, hfile⟩ := filling_ensure h 0
  obtain ⟨name, hname⟩ := Option.isSome_iff_exists.mp hfile
  have hstays := filling_stays h₁ hn
  have hprojected : checkedAddU64 (w.ensureSegment 0 d).1.totalBytes recordHeaderBytes = some (12 * n + 12) := by
    rw [checkedAddU64, h₁.total, if_pos (by change 12 * n + 12 < 2 ^ 64; omega)]
  have hfits : ¬12 * n + 12 > 2 ^ 40 := by omega
  have happend : w.append 0 (.source, []) d =
      (.ok (), (w.ensureSegment 0 d).1.writeRecord (.source, []) (w.ensureSegment 0 d).2) := by
    rw [StoreWriter.append, if_neg (by simp [h.isOpen])]
    simp only [List.length_nil, Nat.add_zero, StoreWriter.rotate, hstays, Bool.false_eq_true, if_false, hprojected,
      h₁.config, wideConfig, hfits]
    rw [if_neg (by decide), if_neg (by decide)]
  have hlength := writeRecord_length (w.ensureSegment 0 d).1 (.source, []) (w.ensureSegment 0 d).2
  refine ⟨_, _, happend, ?_⟩
  rcases h₁.segment with ⟨hnone, -⟩ | ⟨-, hbytes, hfiles⟩
  · rw [hnone] at hname
    cases hname
  rw [hfiles] at hlength
  simp only [StoreWriter.writeRecord, hname] at hlength ⊢
  refine ⟨h₁.config, h₁.isOpen, ?_, ?_, .inr ⟨rfl, ?_, hlength⟩⟩
  · simp only [h₁.records]
  · simp only [h₁.total, List.length_nil, recordHeaderBytes]
    omega
  · simp only [hbytes, List.length_nil, recordHeaderBytes]
    omega

theorem filling_run {w : StoreWriter} {d : Directory} (h : Filling 0 w d) {n : Nat} (hn : n ≤ 2 ^ 32) :
    Filling n ((List.replicate n emptyAppend).foldl Live.step { writer := w, directory := d }).writer
        ((List.replicate n emptyAppend).foldl Live.step { writer := w, directory := d }).directory ∧
      ((List.replicate n emptyAppend).foldl Live.step { writer := w, directory := d }).overran =
        decide (2 ^ 32 ≤ n) := by
  induction n with
  | zero => exact ⟨h, rfl⟩
  | succ n ih =>
    rw [List.replicate_succ', List.foldl_append, List.foldl_cons, List.foldl_nil]
    set s := (List.replicate n emptyAppend).foldl Live.step { writer := w, directory := d } with hs
    obtain ⟨hfilling, hoverran⟩ := ih (by omega)
    obtain ⟨w', d', happend, hnext⟩ := filling_append hfilling (by omega)
    have hstays := filling_stays hfilling (by omega)
    have hbefore : s.overran = false := by
      rw [hoverran, decide_eq_false]
      omega
    have hrecords := hfilling.records
    simp only [emptyAppend, Live.step, happend]
    refine ⟨hnext, ?_⟩
    simp only [hbefore, StoreWriter.overruns, List.length_nil, Nat.add_zero, hstays, hrecords, Bool.not_false,
      Bool.true_and, Bool.false_or]

/-- A closed session of `n` empty appends. -/
def emptySession (n : Nat) : WriterSession :=
  ⟨wideConfig, 0, List.replicate n emptyAppend, .close⟩

theorem runSessions_emptySession {n : Nat} (hn : n ≤ 2 ^ 32) :
    (runSessions [emptySession n]).directory.files.length ≤ 1 ∧
      (runSessions [emptySession n]).overran = decide (2 ^ 32 ≤ n) := by
  obtain ⟨w, d, hopen, hfresh⟩ : ∃ w d, StoreWriter.open wideConfig 0 Directory.empty = .ok (w, d) ∧ Filling 0 w d :=
    ⟨_, _, rfl, rfl, rfl, rfl, rfl, .inl ⟨rfl, rfl, rfl⟩⟩
  obtain ⟨hfilling, hoverran⟩ := filling_run hfresh hn
  have hrun : runSessions [emptySession n] = History.session {} (emptySession n) := rfl
  rw [hrun, History.session, emptySession, hopen]
  simp only [WriterSession.run, close_length, Bool.false_or]
  refine ⟨?_, hoverran⟩
  rcases hfilling.segment with ⟨-, -, hfiles⟩ | ⟨-, -, hfiles⟩
  · rw [hfiles]
    decide
  · exact hfiles.le

theorem overrun_not_roundTrip :
    (∀ session ∈ [emptySession (2 ^ 32)], session.ending = .close) ∧
      (runSessions [emptySession (2 ^ 32)]).directory.files.length < 2 ^ 32 - 1 ∧
      ¬((readAll (runSessions [emptySession (2 ^ 32)]).directory).1.map StoredRecord.entry =
          (runSessions [emptySession (2 ^ 32)]).written ∧
        (readAll (runSessions [emptySession (2 ^ 32)]).directory).2.clean = true) := by
  have hclosed : ∀ session ∈ [emptySession (2 ^ 32)], session.ending = .close := by
    intro session hsession
    rw [List.mem_singleton.mp hsession]
    rfl
  obtain ⟨hlength, hoverran⟩ := runSessions_emptySession (Nat.le_refl (2 ^ 32))
  have hbound : (runSessions [emptySession (2 ^ 32)]).directory.files.length < 2 ^ 32 - 1 :=
    lt_of_le_of_lt hlength (by decide)
  obtain ⟨segments, hw⟩ := runSessions_written hclosed hbound
  refine ⟨hclosed, hbound, fun hround => ?_⟩
  have hnone := (roundTrips_of_written hw (lt_of_le_of_lt hlength (by decide))).mp hround
  rw [hoverran, decide_eq_true (Nat.le_refl _)] at hnone
  cases hnone

end LatencyObservatory.Store
