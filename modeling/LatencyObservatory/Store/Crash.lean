import LatencyObservatory.Store.Truncation

/-!
# Crashes

A crash keeps at least the synced bytes of the open segment, so the records synced there are still
read. What follows in later sessions is read only if the reader gets past the file the crash left:
it does when that file has a complete footer or ends before its first record header does, and stops
there for good otherwise.
-/

namespace LatencyObservatory.Store
open LatencyObservatory.Core LatencyObservatory.Lib

/-- The session leaves no segment file that stops the reader: it closes, or its crash leaves between
48 and 59 bytes of the open segment, or all of it including the footer. -/
def Passable (h : History) (session : WriterSession) : Prop :=
  match StoreWriter.open session.config session.openedAt h.directory, session.ending with
  | .ok (w, d), .crash closing keep =>
    ∀ f ∈ (crashDirectory (session.run w d).writer (session.run w d).directory closing keep).files,
      (session.run w d).writer.file = some f.name →
      48 ≤ f.content.length ∧ (f.content.length < 60 ∨
        f.content.length = (session.run w d).writer.segmentBytes + segmentFooterBytes)
  | _, _ => True

/-! ## What a crash leaves -/

theorem fileOutcome_take (s : Segment) (name : Bytes) (synced : Nat) {entries : List Entry}
    (hentries : entries <+: s.entries) {kept : Nat} (hkept : 48 + (frames entries).length ≤ kept) :
    entries <+: (fileOutcome ⟨name, s.bytes.take kept, synced⟩).1 := by
  obtain ⟨more, hmore⟩ := hentries
  have hsized : ∀ e ∈ entries, e.2.length ≤ maxRecordPayloadBytes :=
    fun e he => s.sized e (by rw [← hmore]; exact List.mem_append_left _ he)
  have htake : s.bytes.take kept = s.header ++ (frames entries ++
      (frames more ++ s.footer).take (kept - 48 - (frames entries).length)) := by
    rw [take_bytes s (by omega), ← hmore, frames_append, List.append_assoc, List.take_append,
      List.take_of_length_le (by omega)]
  rw [htake, fileOutcome_frames s.header_length s.header_valid name synced hsized (Nat.le_refl _),
    SegmentScan.outcome, SegmentScan.prepend, List.map_append, storedFrom_entries]
  exact List.prefix_append _ _

theorem crash_files {old : List File} {s : Live} {log : Log} (h : s.Inv old log)
    (hbound : s.directory.files.length < 2 ^ 32 - 1) (closing : Bool) (keep : Nat) :
    (log.tail = none ∧ crashDirectory s.writer s.directory closing keep = s.directory) ∨
    ∃ t kept, log.tail = some t ∧
      (crashDirectory s.writer s.directory closing keep).files =
        old ++ log.closed.map Segment.file ++ [⟨t.segment.name, t.segment.bytes.take kept, t.synced⟩] ∧
      (∀ es, es <+: t.segment.entries → 48 + (frames es).length ≤ t.synced → 48 + (frames es).length ≤ kept) := by
  cases htail : log.tail with
  | none =>
    have hfile : s.writer.file = none := by rw [h.holds.file, htail]; rfl
    exact .inl ⟨rfl, by rw [crashDirectory, hfile]⟩
  | some t =>
    have hfile : s.writer.file = some t.segment.name := by rw [h.holds.file, htail]; rfl
    have hd : s.directory.files = (old ++ log.closed.map Segment.file) ++ [t.file] := by
      rw [h.holds.files]
      simp [Log.files, htail]
    have hfooter : s.writer.footer = t.segment.footer := by
      rw [StoreWriter.footer, Segment.footer, h.holds.records, h.holds.payloadBytes t (by rw [htail]; rfl),
        h.holds.digest t (by rw [htail]; rfl), htail]
      rfl
    have hbody : ∀ es, es <+: t.segment.entries → 48 + (frames es).length ≤ t.segment.body.length := by
      rintro es ⟨more, hmore⟩
      rw [Segment.body, ← hmore, frames_append, List.length_append, List.length_append, Segment.header_length]
      omega
    cases closing with
    | false =>
      refine .inr ⟨t, min (max t.synced keep) t.segment.body.length, rfl, ?_, ?_⟩
      · rw [crashDirectory, hfile]
        refine (update_last hd h.holds.numbered (by omega) _).trans ?_
        simp only [OpenSegment.file, Segment.bytes]
        rw [List.take_append_of_le_length (Nat.min_le_right _ _), ← List.take_eq_take_min]
      · intro es hes hsynced
        have := hbody es hes
        omega
    | true =>
      have hwrite := update_last hd h.holds.numbered (by omega)
        fun f => { f with content := f.content ++ s.writer.footer }
      have hnum : Numbered (s.directory.update t.file.name
          fun f => { f with content := f.content ++ s.writer.footer }).files :=
        update_numbered h.holds.numbered _ fun _ => rfl
      refine .inr ⟨t, max t.synced keep, rfl, ?_, ?_⟩
      · rw [crashDirectory, hfile]
        refine (update_last hwrite hnum (by rw [update_length]; omega) _).trans ?_
        simp only [OpenSegment.file, Segment.bytes, hfooter]
      · intro es _ hsynced
        omega

/-! ## What a session adds -/

/-- The files a session adds, as the reader sees them. -/
structure Added (h h' : History) (passable : Prop) (new : List File) : Prop where
  files : h'.directory.files = h.directory.files ++ new
  numbered : Numbered h'.directory.files
  durable : ∃ durable, h'.durable = h.durable ++ durable ∧ durable <+: (recover (new.map fileOutcome)).1
  accepted : passable → ∀ f ∈ new, (fileOutcome f).2 = true

theorem closed_accepted {segments : List Segment} (h : ¬∃ s ∈ segments, s.Overfull) :
    ∀ p ∈ (segments.map Segment.file).map fileOutcome, p.2 = true := by
  intro p hp
  rw [List.map_map] at hp
  obtain ⟨s, hs, rfl⟩ := List.mem_map.mp hp
  rw [Function.comp_apply, fileOutcome_file, segmentOutcome, decide_eq_true_eq]
  exact fun hfull => h ⟨s, hs, hfull⟩

theorem closed_entries (segments : List Segment) :
    ((segments.map Segment.file).map fileOutcome).flatMap Prod.fst = segments.flatMap Segment.entries := by
  rw [List.map_map, List.flatMap_map]
  refine congrArg (fun g => segments.flatMap g) (funext fun s => ?_)
  rw [Function.comp_apply, fileOutcome_file, segmentOutcome]

theorem recover_single (p : List Entry × Bool) : (recover [p]).1 = p.1 := by
  obtain ⟨xs, accepted⟩ := p
  cases accepted <;> simp [recover]

theorem left_accepted {s : Segment} (hfull : ¬s.Overfull) (name : Bytes) (synced : Nat) {kept : Nat}
    (hmin : 48 ≤ (s.bytes.take kept).length)
    (hleft : (s.bytes.take kept).length < 60 ∨ (s.bytes.take kept).length = s.body.length + segmentFooterBytes) :
    (fileOutcome ⟨name, s.bytes.take kept, synced⟩).2 = true := by
  have hlength := segment_length s
  rw [List.length_take] at hmin hleft
  rcases hleft with hshort | hwhole
  · rw [fileOutcome_cut_head s name synced (by omega) (by omega)]
  · have hbytes : s.bytes.length = s.body.length + 40 := by rw [Segment.bytes, List.length_append, s.footer_length]
    have hall : s.bytes.length ≤ kept := by
      change min kept s.bytes.length = s.body.length + 40 at hwhole
      omega
    rw [List.take_of_length_le hall, fileOutcome_bytes, decide_eq_true_eq]
    exact hfull

section Session

variable {h : History} {session : WriterSession} {w : StoreWriter} {d : Directory} {log : Log}
  (hopen : StoreWriter.open session.config session.openedAt h.directory = .ok (w, d))
  (hlog : (session.run w d).Inv h.directory.files log)
  (hrun : (session.run w d).directory.files.length < 2 ^ 32 - 1) (hfull : ¬log.Overfull)
include hopen hlog hrun hfull

theorem closed_session_added (hending : session.ending = .close) :
    Added h (h.session session) (Passable h session) (log.segments.map Segment.file) := by
  obtain ⟨hfiles, hnum⟩ := closeSegment_files hlog.holds hrun
  have hall := closed_accepted hfull
  refine ⟨?_, ?_, ⟨log.entries, ?_, ?_⟩, fun _ f hf => hall _ (List.mem_map_of_mem hf)⟩
  · simp only [History.session, hopen, hending]
    rw [close_directory hlog.isOpen, hfiles]
  · simp only [History.session, hopen, hending]
    rw [close_directory hlog.isOpen]
    exact hnum
  · simp only [History.session, hopen, hending, hlog.appended]
  · rw [recover_intact hall, closed_entries]
    exact List.prefix_rfl

theorem crashed_session_added {closing : Bool} {keep : Nat} (hending : session.ending = .crash closing keep) :
    ∃ new, Added h (h.session session) (Passable h session) new := by
  have hclosed : ¬∃ s ∈ log.closed, s.Overfull :=
    fun ⟨s, hs, hover⟩ => hfull ⟨s, List.mem_append_left _ hs, hover⟩
  have hall := closed_accepted hclosed
  have hdirectory : (h.session session).directory =
      crashDirectory (session.run w d).writer (session.run w d).directory closing keep := by
    simp only [History.session, hopen, hending]
  have hdurable : (h.session session).durable = h.durable ++ (session.run w d).durable := by
    simp only [History.session, hopen, hending]
  have hkeeps := hlog.durable
  rcases crash_files hlog hrun closing keep with ⟨htail, hsame⟩ | ⟨t, kept, htail, hfiles, hkept⟩
  · -- No segment was open: nothing is lost.
    simp only [Log.Keeps, htail] at hkeeps
    refine ⟨log.closed.map Segment.file, ?_, ?_, ⟨_, hdurable, ?_⟩, fun _ f hf => hall _ (List.mem_map_of_mem hf)⟩
    · rw [hdirectory, hsame, hlog.holds.files]
      simp [Log.files, htail]
    · rw [hdirectory, hsame]
      exact hlog.holds.numbered
    · rw [recover_intact hall, closed_entries]
      exact hkeeps
  · simp only [Log.Keeps, htail] at hkeeps
    obtain ⟨es, hes, hsynced, hpre⟩ := hkeeps
    have htailFull : ¬t.segment.Overfull :=
      fun hover => hfull ⟨t.segment, List.mem_append_right _ (by rw [htail]; simp), hover⟩
    have hread : es <+: (fileOutcome ⟨t.segment.name, t.segment.bytes.take kept, t.synced⟩).1 := by
      by_cases hempty : es = []
      · rw [hempty]
        exact List.nil_prefix
      · exact fileOutcome_take t.segment _ _ hes (hkept es hes (hsynced hempty))
    refine ⟨log.closed.map Segment.file ++ [⟨t.segment.name, t.segment.bytes.take kept, t.synced⟩], ?_, ?_,
      ⟨_, hdurable, ?_⟩, fun hpassable f hf => ?_⟩
    · rw [hdirectory, hfiles, List.append_assoc]
    · rw [hdirectory]
      refine numbered_of_names ?_ hlog.holds.numbered
      rw [hfiles, hlog.holds.files]
      simp [Log.files, htail, OpenSegment.file]
    · rw [List.map_append, List.map_singleton, recover_append hall, closed_entries, recover_single]
      exact hpre.trans ((List.prefix_append_right_inj _).mpr hread)
    · rcases List.mem_append.mp hf with hf | hf
      · exact hall _ (List.mem_map_of_mem hf)
      · obtain rfl := List.mem_singleton.mp hf
        simp only [Passable, hopen, hending] at hpassable
        obtain ⟨hmin, hleft⟩ := hpassable ⟨t.segment.name, t.segment.bytes.take kept, t.synced⟩
          (by rw [hfiles]; simp) (by rw [hlog.holds.file, htail]; rfl)
        rw [hlog.holds.bytes t (by rw [htail]; rfl)] at hleft
        exact left_accepted htailFull _ _ hmin hleft

end Session

theorem session_added {h : History} (hnum : Numbered h.directory.files) (session : WriterSession)
    (hbound : (h.session session).directory.files.length < 2 ^ 32 - 1)
    (hcount : (h.session session).overran = false) :
    ∃ new, Added h (h.session session) (Passable h session) new := by
  cases hopen : StoreWriter.open session.config session.openedAt h.directory with
  | error e =>
    have hsame : h.session session = h := by rw [History.session, hopen]
    refine ⟨[], ?_, ?_, ⟨[], ?_, List.nil_prefix⟩, fun _ f hf => absurd hf (by simp)⟩
    · rw [hsame, List.append_nil]
    · rw [hsame]
      exact hnum
    · rw [hsame, List.append_nil]
  | ok r =>
    obtain ⟨w, d⟩ := r
    obtain ⟨log, hlog, hrun⟩ := session_inv hopen hnum hbound
    have hfull : ¬log.Overfull := by
      intro hfull
      rw [History.session, hopen] at hcount
      cases hending : session.ending <;>
        simp only [hending, hlog.overran.mpr hfull, Bool.or_true, Bool.true_eq_false] at hcount
    cases hending : session.ending with
    | close => exact ⟨_, closed_session_added hopen hlog hrun hfull hending⟩
    | crash closing keep => exact crashed_session_added hopen hlog hrun hfull hending

/-! ## Sequences of sessions -/

theorem overran_of_foldl {h : History} {sessions : List WriterSession}
    (hcount : (sessions.foldl History.session h).overran = false) : h.overran = false := by
  induction sessions generalizing h with
  | nil => exact hcount
  | cons session sessions ih =>
    have hstep := ih hcount
    unfold History.session at hstep
    split at hstep
    · exact hstep
    · cases hending : session.ending <;> simp only [hending, Bool.or_eq_false_iff] at hstep <;> exact hstep.1

theorem foldl_session_files {h : History} (hnum : Numbered h.directory.files) (sessions : List WriterSession)
    (hbound : (sessions.foldl History.session h).directory.files.length < 2 ^ 32 - 1)
    (hcount : (sessions.foldl History.session h).overran = false) :
    ∃ new, (sessions.foldl History.session h).directory.files = h.directory.files ++ new ∧
      Numbered (sessions.foldl History.session h).directory.files := by
  induction sessions generalizing h with
  | nil => exact ⟨[], (List.append_nil _).symm, hnum⟩
  | cons session sessions ih =>
    have hle := length_le_foldl_session (h.session session) sessions
    obtain ⟨new, hadded⟩ := session_added hnum session (lt_of_le_of_lt hle hbound) (overran_of_foldl hcount)
    obtain ⟨more, hfiles, hnum'⟩ := ih hadded.numbered hbound hcount
    refine ⟨new ++ more, ?_, hnum'⟩
    rw [List.foldl_cons, hfiles, hadded.files, List.append_assoc]

/-- The reader gets through the whole store and meets everything durable on its way. -/
structure Readable (h : History) : Prop where
  numbered : Numbered h.directory.files
  accepted : ∀ p ∈ h.directory.files.map fileOutcome, p.2 = true
  durable : h.durable.Sublist ((h.directory.files.map fileOutcome).flatMap Prod.fst)

theorem readable_empty : Readable {} :=
  ⟨numbered_nil, fun _ hp => absurd hp List.not_mem_nil, List.Sublist.refl _⟩

theorem session_durable {h : History} (hr : Readable h) {session : WriterSession} {passable : Prop} {new : List File}
    (hadded : Added h (h.session session) passable new) :
    (h.session session).durable.Sublist
      (recover ((h.session session).directory.files.map fileOutcome)).1 := by
  obtain ⟨durable, hdurable, hpre⟩ := hadded.durable
  rw [hadded.files, List.map_append, recover_append hr.accepted, hdurable]
  exact hr.durable.append hpre.sublist

theorem session_readable {h : History} (hr : Readable h) {session : WriterSession} {new : List File}
    (hadded : Added h (h.session session) (Passable h session) new) (hpassable : Passable h session) :
    Readable (h.session session) := by
  have hall : ∀ p ∈ (h.session session).directory.files.map fileOutcome, p.2 = true := by
    intro p hp
    rw [hadded.files, List.map_append] at hp
    rcases List.mem_append.mp hp with hp | hp
    · exact hr.accepted p hp
    · obtain ⟨f, hf, rfl⟩ := List.mem_map.mp hp
      exact hadded.accepted hpassable f hf
  have hdurable := session_durable hr hadded
  rw [recover_intact hall] at hdurable
  exact ⟨hadded.numbered, hall, hdurable⟩

theorem foldl_session_readable {h : History} (hr : Readable h) {sessions : List WriterSession}
    (hpassable : ∀ p ∈ steps History.session h sessions, Passable p.1 p.2)
    (hbound : (sessions.foldl History.session h).directory.files.length < 2 ^ 32 - 1)
    (hcount : (sessions.foldl History.session h).overran = false) :
    Readable (sessions.foldl History.session h) := by
  induction sessions generalizing h with
  | nil => exact hr
  | cons session sessions ih =>
    have hle := length_le_foldl_session (h.session session) sessions
    obtain ⟨new, hadded⟩ := session_added hr.numbered session (lt_of_le_of_lt hle hbound) (overran_of_foldl hcount)
    exact ih (session_readable hr hadded (hpassable _ List.mem_cons_self))
      (fun p hp => hpassable p (List.mem_cons_of_mem _ hp)) hbound hcount

theorem passable_of_close (h : History) {session : WriterSession} (hending : session.ending = .close) :
    Passable h session := by
  unfold Passable
  rw [hending]
  split
  · rename_i heq
    cases heq
  · trivial

/-- What is durable at the end of a session is returned, in write order, after any later sessions, if
the sessions before it were passable. -/
theorem durable_returned (earlier later : List WriterSession) (session : WriterSession)
    (hpassable : ∀ p ∈ steps History.session {} earlier, Passable p.1 p.2)
    (hbound : (runSessions (earlier ++ session :: later)).directory.files.length < 2 ^ 32 - 1)
    (hcount : (runSessions (earlier ++ session :: later)).overran = false) :
    (runSessions (earlier ++ [session])).durable.Sublist
      ((readAll (runSessions (earlier ++ session :: later)).directory).1.map StoredRecord.entry) := by
  have hsplit : runSessions (earlier ++ session :: later) =
      later.foldl History.session ((runSessions earlier).session session) := by
    rw [runSessions, List.foldl_append, List.foldl_cons]
    rfl
  have hlast : runSessions (earlier ++ [session]) = (runSessions earlier).session session := by
    rw [runSessions, List.foldl_append, List.foldl_cons]
    rfl
  rw [hsplit] at hbound hcount ⊢
  rw [hlast]
  have hboundLast := lt_of_le_of_lt (length_le_foldl_session _ later) hbound
  have hcountLast := overran_of_foldl hcount
  have hearlier : Readable (runSessions earlier) := by
    refine foldl_session_readable readable_empty hpassable ?_ ?_
    · exact lt_of_le_of_lt (length_le_session _ session) hboundLast
    · exact @overran_of_foldl _ [session] hcountLast
  obtain ⟨new, hadded⟩ := session_added hearlier.numbered session hboundLast hcountLast
  obtain ⟨more, hfiles, hnum⟩ := foldl_session_files hadded.numbered later hbound hcount
  have hreturned := congrArg Prod.fst
    (recovered_eq (later.foldl History.session ((runSessions earlier).session session)).directory)
  rw [listSegments_of_numbered hnum (by omega), hfiles, List.map_append] at hreturned
  have hkept := (session_durable hearlier hadded).trans (recover_prefix_append _ (more.map fileOutcome)).sublist
  rw [← hreturned] at hkept
  exact hkept

/-- A session that syncs one record and crashes in the middle of the next. -/
def crashSession (keep : Nat) : WriterSession :=
  ⟨smallConfig, 10, [.append 11 (.source, text "a"), .sync, .append 12 (.hop, text "bc")], .crash false keep⟩

theorem durable_returned_small :
    (runSessions (smallSessions ++ [crashSession 70])).durable = (runSessions smallSessions).written ++
        [(.source, text "a")] ∧
      (runSessions (smallSessions ++ [crashSession 70])).durable.Sublist
        ((readAll (runSessions (smallSessions ++ [crashSession 70, crashSession 0])).directory).1.map
          StoredRecord.entry) :=
  ⟨by decide +kernel, durable_returned smallSessions [crashSession 0] (crashSession 70)
    (fun p hp => passable_of_close p.1 (show p.2.ending = .close by
      have hmem := mem_of_mem_steps hp
      simp only [smallSessions, List.mem_cons, List.not_mem_nil, or_false] at hmem
      rcases hmem with h | h <;> rw [h]))
    (by decide +kernel) (by decide +kernel)⟩

/-- A record appended and closed after an earlier crash. -/
def afterCrash : List WriterSession :=
  [crashSession 70, ⟨smallConfig, 20, [.append 21 (.path, text "x")], .close⟩]

theorem durable_lost_after_crash :
    ¬(runSessions afterCrash).durable.Sublist ((readAll (runSessions afterCrash).directory).1.map StoredRecord.entry) := by
  decide +kernel

end LatencyObservatory.Store
