import LatencyObservatory.Lib.Steps
import LatencyObservatory.Store.Log

/-!
# Histories of sessions

What one session does to the directory, from any numbered directory: it adds complete segment files
and, when it crashes, whatever is left of the one it had open. `Written` describes the directories
that closed sessions leave behind.
-/

namespace LatencyObservatory.Store
open LatencyObservatory.Core LatencyObservatory.Lib

/-- A running session and the log it has written so far. -/
structure Live.Inv (old : List File) (s : Live) (log : Log) : Prop where
  holds : Holds old s.writer s.directory log
  isOpen : s.writer.closed = false
  appended : s.appended = log.entries
  durable : log.Keeps s.durable
  overran : s.overran = true ↔ log.Overfull

/-! ## One operation -/

theorem ensureSegment_closed (w : StoreWriter) (now : Nanos) (d : Directory) :
    (w.ensureSegment now d).1.closed = w.closed := by
  unfold StoreWriter.ensureSegment
  split <;> rfl

theorem rotate_closed (w : StoreWriter) (now : Nanos) (recordBytes : Nat) (d : Directory) :
    (w.rotate now recordBytes d).1.closed = w.closed := by
  unfold StoreWriter.rotate StoreWriter.closeSegment
  split
  · cases w.file <;> rfl
  · rfl

theorem writeRecord_closed (w : StoreWriter) (entry : Entry) (d : Directory) :
    (w.writeRecord entry d).1.closed = w.closed := by
  unfold StoreWriter.writeRecord
  cases w.file <;> rfl

theorem append_closed {w : StoreWriter} (hopen : w.closed = false) (now : Nanos) (entry : Entry) (d : Directory) :
    (w.append now entry d).2.1.closed = false := by
  rcases append_cases hopen now entry d with ⟨e, happend⟩ | ⟨-, e, happend⟩ | ⟨-, happend⟩
  · rw [happend, ← hopen]
    exact ensureSegment_closed _ _ _
  · rw [happend, ← hopen]
    exact (rotate_closed _ _ _ _).trans (ensureSegment_closed _ _ _)
  · rw [happend, ← hopen]
    exact (writeRecord_closed _ _ _).trans ((rotate_closed _ _ _ _).trans (ensureSegment_closed _ _ _))

theorem length_le_ensureSegment (w : StoreWriter) (now : Nanos) (d : Directory) :
    d.files.length ≤ (w.ensureSegment now d).2.files.length := by
  unfold StoreWriter.ensureSegment
  split
  · exact length_le_openSegment _ _ _
  · exact Nat.le_refl _

theorem writeRecord_length (w : StoreWriter) (entry : Entry) (d : Directory) :
    (w.writeRecord entry d).2.files.length = d.files.length := by
  unfold StoreWriter.writeRecord
  cases w.file <;> simp [Directory.write]

theorem length_le_append (w : StoreWriter) (now : Nanos) (entry : Entry) (d : Directory) :
    d.files.length ≤ (w.append now entry d).2.2.files.length := by
  have hensure := length_le_ensureSegment w now d
  have hrotate := length_le_rotate (w.ensureSegment now d).1 now (recordHeaderBytes + entry.2.length)
    (w.ensureSegment now d).2
  cases hclosed : w.closed with
  | true =>
    rw [StoreWriter.append, if_pos hclosed]
  | false =>
    rcases append_cases hclosed now entry d with ⟨e, happend⟩ | ⟨-, e, happend⟩ | ⟨-, happend⟩
    · rw [happend]
      exact hensure
    · rw [happend]
      exact hensure.trans hrotate
    · rw [happend]
      exact (hensure.trans hrotate).trans (Nat.le_of_eq (writeRecord_length _ _ _).symm)

theorem sync_length (w : StoreWriter) (d : Directory) : (w.sync d).2.2.files.length = d.files.length := by
  unfold StoreWriter.sync
  cases w.file <;> simp [Directory.flush]

theorem Live.length_le_step (s : Live) (op : WriterOp) : s.directory.files.length ≤ (s.step op).directory.files.length := by
  cases op with
  | append now entry =>
    have hle := length_le_append s.writer now entry s.directory
    rw [Live.step]
    rcases happend : s.writer.append now entry s.directory with ⟨status, w, d⟩
    rw [happend] at hle
    cases status <;> exact hle
  | sync =>
    have hle := (sync_length s.writer s.directory).ge
    rw [Live.step]
    rcases hsync : s.writer.sync s.directory with ⟨status, w, d⟩
    rw [hsync] at hle
    cases status <;> exact hle

theorem sync_holds {old : List File} {w : StoreWriter} {d : Directory} {log : Log} (h : Holds old w d log)
    (hbound : d.files.length < 2 ^ 32 - 1) :
    ∃ d', w.sync d = (.ok (), w, d') ∧ Holds old w d' log.flush := by
  obtain ⟨closed, tail⟩ := log
  have hfile := h.file
  cases tail with
  | none =>
    simp only [Option.map_none] at hfile
    exact ⟨d, by rw [StoreWriter.sync, hfile], h⟩
  | some t =>
    simp only [Option.map_some] at hfile
    have hd : d.files = (old ++ closed.map Segment.file) ++ [t.file] := by
      rw [h.files]
      simp [Log.files]
    have hflush := update_last hd h.numbered (by omega) fun f => { f with synced := f.content.length }
    refine ⟨d.flush t.segment.name, by rw [StoreWriter.sync, hfile], ?_, update_numbered h.numbered _ fun _ => rfl,
      h.file, ?_, ?_, h.records, ?_, ?_, ?_⟩
    · refine hflush.trans ?_
      simp [Log.files, Log.flush, OpenSegment.file]
    · rw [Directory.flush, update_length]
      exact h.id
    all_goals
      intro u hu
      cases hu
    · exact h.tailId t rfl
    · exact h.bytes t rfl
    · exact h.payloadBytes t rfl
    · exact h.digest t rfl

theorem Live.step_inv {old : List File} {s : Live} {log : Log} (h : s.Inv old log) (op : WriterOp)
    (hbound : (s.step op).directory.files.length < 2 ^ 32 - 1) : ∃ log', (s.step op).Inv old log' := by
  have hlt : s.directory.files.length < 2 ^ 32 - 1 := lt_of_le_of_lt (s.length_le_step op) hbound
  cases op with
  | append now entry =>
    have hclosed := append_closed h.isOpen now entry s.directory
    have happendBound : (s.writer.append now entry s.directory).2.2.files.length < 2 ^ 32 - 1 := by
      rw [Live.step] at hbound
      rcases happend : s.writer.append now entry s.directory with ⟨status, w, d⟩
      rw [happend] at hbound
      cases status <;> exact hbound
    rcases append_holds h.holds h.isOpen now entry happendBound with
      ⟨e, w, d, log', happend, hholds, hsame⟩ | ⟨w, d, log', happend, hholds, hentries, hfull, hkeeps⟩
    · rw [happend] at hclosed
      refine ⟨log', ?_⟩
      simp only [Live.step, happend]
      exact ⟨hholds, hclosed, h.appended.trans hsame.entries.symm, hsame.keeps _ h.durable,
        h.overran.trans hsame.overfull.symm⟩
    · rw [happend] at hclosed
      refine ⟨log', ?_⟩
      simp only [Live.step, happend]
      refine ⟨hholds, hclosed, by rw [hentries, h.appended], hkeeps _ h.durable, ?_⟩
      rw [hfull, ← h.overran, Bool.or_eq_true]
  | sync =>
    obtain ⟨d, hsync, hholds⟩ := sync_holds h.holds hlt
    refine ⟨log.flush, ?_⟩
    simp only [Live.step, hsync]
    refine ⟨hholds, h.isOpen, by rw [Log.flush_entries, h.appended], ?_, by rw [Log.flush_overfull, h.overran]⟩
    rw [h.appended]
    exact log.flush_keeps

/-! ## One session -/

theorem open_spec {config : StoreConfig} {now : Nanos} {d d' : Directory} {w : StoreWriter}
    (hopen : StoreWriter.open config now d = .ok (w, d')) :
    d'.files = d.files ∧ w = { config, segmentId := StoreWriter.nextSegment (listSegments d') } := by
  simp only [StoreWriter.open, bind, Except.bind, pure, Except.pure] at hopen
  split at hopen
  · cases hopen
  rename_i d₁ hdirectory
  split at hopen
  · cases hopen
  rename_i d₂ hmanifest
  obtain ⟨rfl, rfl⟩ := Prod.mk.inj (Except.ok.inj hopen)
  refine ⟨?_, rfl⟩
  have h₁ : d₁.files = d.files := by
    unfold StoreWriter.openDirectory at hdirectory
    grind
  have h₂ : d₂.files = d₁.files := by
    unfold StoreWriter.openManifest at hmanifest
    cases hm : d₁.manifest with
    | none =>
      simp only [hm] at hmanifest
      cases hmanifest
      rfl
    | some _ =>
      simp only [hm, Except.map] at hmanifest
      split at hmanifest <;> cases hmanifest
      rfl
  rw [h₂, h₁]

theorem open_inv {config : StoreConfig} {now : Nanos} {d d' : Directory} {w : StoreWriter}
    (hopen : StoreWriter.open config now d = .ok (w, d')) (hnum : Numbered d.files)
    (hbound : d.files.length < 2 ^ 32 - 1) :
    Live.Inv d.files { writer := w, directory := d' } ⟨[], none⟩ := by
  obtain ⟨hfiles, rfl⟩ := open_spec hopen
  have hlist : listSegments d' = d.files := by
    rw [listSegments_of_numbered (by rw [hfiles]; exact hnum) (by rw [hfiles]; omega), hfiles]
  have hid : (StoreWriter.nextSegment (listSegments d')).toNat = 1 + d'.files.length := by
    rw [hlist, hfiles, nextSegment_of_numbered hnum hbound, Nat.add_comm]
  refine ⟨⟨by simp [hfiles, Log.files], by rw [hfiles]; exact hnum, rfl, hid, ?_, rfl, ?_, ?_, ?_⟩, rfl, rfl,
    List.nil_prefix, by simp [Log.Overfull, Log.segments]⟩
  all_goals
    intro t ht
    cases ht

theorem Live.length_le_foldl (s : Live) (ops : List WriterOp) :
    s.directory.files.length ≤ (ops.foldl Live.step s).directory.files.length := by
  induction ops generalizing s with
  | nil => exact Nat.le_refl _
  | cons op ops ih => exact (s.length_le_step op).trans (ih _)

theorem run_inv {old : List File} {s : Live} {log : Log} (h : s.Inv old log) (ops : List WriterOp)
    (hbound : (ops.foldl Live.step s).directory.files.length < 2 ^ 32 - 1) :
    ∃ log', (ops.foldl Live.step s).Inv old log' := by
  induction ops generalizing s log with
  | nil => exact ⟨log, h⟩
  | cons op ops ih =>
    have hstep : (s.step op).directory.files.length < 2 ^ 32 - 1 :=
      lt_of_le_of_lt ((s.step op).length_le_foldl ops) hbound
    obtain ⟨log', h'⟩ := Live.step_inv h op hstep
    exact ih h' hbound

theorem close_directory {w : StoreWriter} (hopen : w.closed = false) (d : Directory) :
    (w.close d).2.2 = (w.closeSegment d).2 := by
  rw [StoreWriter.close, if_neg (by simp [hopen])]

theorem crashDirectory_length (w : StoreWriter) (d : Directory) (closing : Bool) (keep : Nat) :
    (crashDirectory w d closing keep).files.length = d.files.length := by
  unfold crashDirectory
  cases w.file with
  | none => rfl
  | some name => cases closing <;> simp [Directory.write]

theorem close_length (w : StoreWriter) (d : Directory) : (w.close d).2.2.files.length = d.files.length := by
  cases hclosed : w.closed with
  | true => rw [StoreWriter.close, if_pos hclosed]
  | false => rw [close_directory hclosed, closeSegment_length]

theorem session_cases (h : History) (session : WriterSession) :
    h.session session = h ∨ ∃ w d, StoreWriter.open session.config session.openedAt h.directory = .ok (w, d) ∧
      d.files = h.directory.files ∧
      (h.session session).directory.files.length = (session.run w d).directory.files.length := by
  unfold History.session
  split
  · exact .inl rfl
  · rename_i w d hopen
    refine .inr ⟨w, d, hopen, (open_spec hopen).1, ?_⟩
    cases session.ending with
    | close => exact close_length _ _
    | crash closing keep => exact crashDirectory_length _ _ _ _

theorem length_le_session (h : History) (session : WriterSession) :
    h.directory.files.length ≤ (h.session session).directory.files.length := by
  rcases session_cases h session with hsame | ⟨w, d, -, hfiles, hlength⟩
  · rw [hsame]
  · rw [hlength, ← hfiles]
    exact Live.length_le_foldl { writer := w, directory := d } session.ops

theorem length_le_foldl_session (h : History) (sessions : List WriterSession) :
    h.directory.files.length ≤ (sessions.foldl History.session h).directory.files.length := by
  induction sessions generalizing h with
  | nil => exact Nat.le_refl _
  | cons session sessions ih => exact (length_le_session h session).trans (ih _)

theorem session_inv {h : History} {session : WriterSession} {w : StoreWriter} {d : Directory}
    (hopen : StoreWriter.open session.config session.openedAt h.directory = .ok (w, d))
    (hnum : Numbered h.directory.files) (hbound : (h.session session).directory.files.length < 2 ^ 32 - 1) :
    ∃ log, (session.run w d).Inv h.directory.files log ∧
      (session.run w d).directory.files.length < 2 ^ 32 - 1 := by
  have hle := length_le_session h session
  have hrun : (session.run w d).directory.files.length < 2 ^ 32 - 1 := by
    refine lt_of_le_of_lt (Nat.le_of_eq ?_) hbound
    unfold History.session
    rw [hopen]
    cases session.ending with
    | close => exact (close_length _ _).symm
    | crash closing keep => exact (crashDirectory_length _ _ _ _).symm
  obtain ⟨log, hlog⟩ := run_inv (open_inv hopen hnum (by omega)) session.ops hrun
  exact ⟨log, hlog, hrun⟩

/-! ## Closed sessions -/

/-- The store holds exactly these complete segments, and they carry what was written. -/
structure Written (h : History) (segments : List Segment) : Prop where
  files : h.directory.files = segments.map Segment.file
  numbered : Numbered h.directory.files
  written : h.written = segments.flatMap Segment.entries
  overran : h.overran = true ↔ ∃ s ∈ segments, s.Overfull

theorem written_empty : Written {} [] :=
  ⟨rfl, numbered_nil, rfl, by simp⟩

theorem session_written {h : History} {segments : List Segment} (hw : Written h segments) {session : WriterSession}
    (hclosed : session.ending = .close) (hbound : (h.session session).directory.files.length < 2 ^ 32 - 1) :
    ∃ segments', Written (h.session session) segments' := by
  cases hopen : StoreWriter.open session.config session.openedAt h.directory with
  | error e =>
    refine ⟨segments, ?_⟩
    rw [History.session, hopen]
    exact hw
  | ok r =>
    obtain ⟨w, d⟩ := r
    obtain ⟨log, hlog, hrun⟩ := session_inv hopen hw.numbered hbound
    obtain ⟨hfiles, hnum⟩ := closeSegment_files hlog.holds hrun
    refine ⟨segments ++ log.segments, ?_⟩
    simp only [History.session, hopen, hclosed]
    refine ⟨?_, ?_, ?_, ?_⟩
    · rw [close_directory hlog.isOpen, hfiles, hw.files, List.map_append]
    · rw [close_directory hlog.isOpen]
      exact hnum
    · rw [hw.written, hlog.appended, List.flatMap_append]
      rfl
    · rw [Bool.or_eq_true, hw.overran, hlog.overran, Log.Overfull]
      simp only [List.mem_append, or_and_right, exists_or]

theorem foldl_session_written {h : History} {segments : List Segment} (hw : Written h segments)
    {sessions : List WriterSession} (hclosed : ∀ session ∈ sessions, session.ending = .close)
    (hbound : (sessions.foldl History.session h).directory.files.length < 2 ^ 32 - 1) :
    ∃ segments', Written (sessions.foldl History.session h) segments' := by
  induction sessions generalizing h segments with
  | nil => exact ⟨segments, hw⟩
  | cons session sessions ih =>
    have hle := length_le_foldl_session (h.session session) sessions
    obtain ⟨segments', hw'⟩ := session_written hw (hclosed session List.mem_cons_self) (lt_of_le_of_lt hle hbound)
    exact ih hw' (fun s hs => hclosed s (List.mem_cons_of_mem _ hs)) hbound

theorem runSessions_written {sessions : List WriterSession} (hclosed : ∀ session ∈ sessions, session.ending = .close)
    (hbound : (runSessions sessions).directory.files.length < 2 ^ 32 - 1) :
    ∃ segments, Written (runSessions sessions) segments :=
  foldl_session_written written_empty hclosed hbound

end LatencyObservatory.Store
