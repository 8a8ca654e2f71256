import LatencyObservatory.Store.Limits

/-!
# Runs within the limits

Every stage of an append writes no more than `spends` says, and a session that finds room for all its appends stays
within the limits, together with the footer that its open segment still gets. Whether a session closes or crashes, the
next one meets files within the limits.
-/

namespace LatencyObservatory.Store
open LatencyObservatory.Core LatencyObservatory.Lib

/-! ## One append -/

section Append

variable {limits : Limits} {w : StoreWriter} {d : Directory}

theorem ensureSegment_tidy (h : Tidy limits w d) (now : Nanos)
    (hsmall : segmentHeaderBytes + segmentFooterBytes ≤ limits.maxSegmentBytes) :
    Tidy limits (w.ensureSegment now d).1 (w.ensureSegment now d).2 ∧ (w.ensureSegment now d).1.file.isSome = true ∧
      (w.ensureSegment now d).2.bytes ≤ d.bytes + if w.file.isNone then segmentHeaderBytes else 0 := by
  unfold StoreWriter.ensureSegment
  cases hfile : w.file with
  | none =>
    obtain ⟨htidy, hbytes⟩ := openSegment_tidy h hfile now hsmall
    exact ⟨htidy, rfl, hbytes⟩
  | some name => exact ⟨h, by simp [hfile], Nat.le_refl _⟩

theorem rotate_tidy (h : Tidy limits w d) (hsome : w.file.isSome = true) (now : Nanos) (bytes : Nat)
    (hsmall : segmentHeaderBytes + segmentFooterBytes ≤ limits.maxSegmentBytes) :
    Tidy limits (w.rotate now bytes d).1 (w.rotate now bytes d).2 ∧ (w.rotate now bytes d).1.file.isSome = true ∧
      (w.rotate now bytes d).2.bytes ≤
        d.bytes + if w.rotates bytes then segmentFooterBytes + segmentHeaderBytes else 0 := by
  unfold StoreWriter.rotate
  cases hrotates : w.rotates bytes with
  | false => exact ⟨h, hsome, Nat.le_refl _⟩
  | true =>
    obtain ⟨hclosed, hfile, hfooter⟩ := closeSegment_tidy h
    rw [if_pos hsome] at hfooter
    have hnext : Tidy limits { (w.closeSegment d).1 with segmentId := (w.closeSegment d).1.segmentId + 1 }
        (w.closeSegment d).2 :=
      ⟨hclosed.allowed, hclosed.names, hclosed.segments, hclosed.left,
        fun f _ hcurrent => absurd (hfile.symm.trans hcurrent) (Option.some_ne_none f.name).symm, hclosed.fresh⟩
    obtain ⟨htidy, hheader⟩ := openSegment_tidy hnext hfile now hsmall
    refine ⟨htidy, rfl, hheader.trans ?_⟩
    rw [if_pos rfl]
    omega

theorem rotate_fits (h : Tidy limits w d) (hsome : w.file.isSome = true) (now : Nanos) {bytes : Nat}
    (hrecords : 1 ≤ limits.maxSegmentRecords)
    (hbytes : segmentHeaderBytes + bytes + segmentFooterBytes ≤ limits.maxSegmentBytes) :
    (w.rotate now bytes d).1.segmentRecords + 1 ≤ limits.maxSegmentRecords ∧
      (w.rotate now bytes d).1.segmentBytes + bytes + segmentFooterBytes ≤ limits.maxSegmentBytes := by
  unfold StoreWriter.rotate
  cases hrotates : w.rotates bytes with
  | true => exact ⟨hrecords, hbytes⟩
  | false =>
    rw [if_neg Bool.false_ne_true]
    by_cases hempty : w.segmentRecords = 0
    · rw [hempty, h.fresh hsome hempty]
      exact ⟨hrecords, hbytes⟩
    · rw [StoreWriter.rotates, decide_eq_true hempty, Bool.true_and, Bool.or_eq_false_iff, decide_eq_false_iff_not,
        decide_eq_false_iff_not, h.allowed] at hrotates
      exact ⟨Nat.not_lt.mp hrotates.1, Nat.not_lt.mp hrotates.2⟩

/-- A writer whose files keep the limits, the store limit also with the footer to come. -/
structure Sized (limits : Limits) (w : StoreWriter) (d : Directory) : Prop extends Tidy limits w d where
  isOpen : w.closed = false
  total : d.bytes + (if w.file.isSome then segmentFooterBytes else 0) ≤ limits.maxStoreBytes

theorem append_sized (h : Sized limits w d) {entry : Entry} (hroom : w.Room d entry) (now : Nanos)
    (hrecords : 1 ≤ limits.maxSegmentRecords)
    (hsmall : segmentHeaderBytes + segmentFooterBytes ≤ limits.maxSegmentBytes) :
    Sized limits (w.append now entry d).2.1 (w.append now entry d).2.2 := by
  have hspends := hroom.store
  have hisOpen := append_closed h.isOpen now entry d
  have hstages := append_stages h.isOpen now entry d
  obtain ⟨hensured, hopened, hheader⟩ := ensureSegment_tidy h.toTidy now hsmall
  obtain ⟨hrotated, hstillOpen, hturned⟩ := rotate_tidy hensured hopened now (recordBytes entry) hsmall
  rw [w.ensureSegment_rotates] at hturned
  rw [storeBytes_eq h.segments, h.allowed, StoreWriter.spends, h.allowed] at hspends
  rw [h.allowed] at hstages
  cases hfits : StoreWriter.fits limits entry.2.length with
  | false =>
    rw [hfits, if_neg Bool.false_ne_true] at hstages
    rw [hstages] at hisOpen ⊢
    refine ⟨hensured, hisOpen, ?_⟩
    rw [if_pos hopened]
    omega
  | true =>
    rw [hfits, if_pos rfl] at hstages
    rw [hfits, Bool.true_and] at hspends
    cases htakes : w.takes entry.2.length with
    | false =>
      rw [htakes, if_neg Bool.false_ne_true] at hstages
      rw [hstages] at hisOpen ⊢
      refine ⟨hrotated, hisOpen, ?_⟩
      rw [if_pos hstillOpen]
      omega
    | true =>
      obtain ⟨name, hname⟩ := Option.isSome_iff_exists.mp hstillOpen
      have hsized : entry.2.length ≤ maxRecordPayloadBytes := by
        rw [StoreWriter.fits, Bool.and_eq_true, decide_eq_true_eq] at hfits
        exact hfits.1
      have hsegment := hroom.segment htakes
      rw [h.allowed] at hsegment
      obtain ⟨hfew, hfit⟩ := rotate_fits hensured hopened now hrecords hsegment
      obtain ⟨hwritten, hkept, hrecord⟩ := writeRecord_tidy hrotated hname hsized hfew hfit
      rw [htakes, if_pos rfl] at hstages hspends
      rw [hstages] at hisOpen ⊢
      refine ⟨hwritten, hisOpen, ?_⟩
      rw [hkept, if_pos (by rfl)]
      omega

end Append

/-! ## One session -/

section Session

variable {limits : Limits}

theorem sync_sized {w : StoreWriter} {d : Directory} (h : Sized limits w d) :
    Sized limits (w.sync d).2.1 (w.sync d).2.2 := by
  unfold StoreWriter.sync
  cases hfile : w.file with
  | none => exact h
  | some name =>
    have hnames : (d.flush name).files.map File.name = d.files.map File.name := update_names fun _ hname => hname
    have hcases : ∀ f ∈ (d.flush name).files, ∃ g ∈ d.files, f.name = g.name ∧ f.content = g.content := by
      intro f hf
      obtain ⟨g, hg, rfl⟩ := mem_update.mp hf
      refine ⟨g, hg, ?_⟩
      split <;> exact ⟨rfl, rfl⟩
    have htotal := h.total
    have hbytes := (h.toTidy.settled.flush name).2
    refine ⟨⟨h.allowed, ?_, ?_, ?_, ?_, h.fresh⟩, h.isOpen, (Nat.add_le_add_right hbytes _).trans htotal⟩
    · rw [hnames]
      exact h.names
    · intro f hf
      obtain ⟨g, hg, hname, -⟩ := hcases f hf
      rw [hname]
      exact h.segments g hg
    · intro f hf hother
      obtain ⟨g, hg, hname, hcontent⟩ := hcases f hf
      rw [hname] at hother
      obtain ⟨s, keep, hsmall, hleft⟩ := h.left g hg hother
      exact ⟨s, keep, hsmall, hcontent.trans hleft⟩
    · intro f hf hcurrent
      obtain ⟨g, hg, hname, hcontent⟩ := hcases f hf
      rw [hname] at hcurrent
      obtain ⟨s, hbehind, hbody⟩ := h.current g hg hcurrent
      exact ⟨s, hbehind, hcontent.trans hbody⟩

theorem Live.step_sized {s : Live} (h : Sized limits s.writer s.directory) {op : WriterOp} (hallowed : s.Allowed op)
    (hrecords : 1 ≤ limits.maxSegmentRecords)
    (hsmall : segmentHeaderBytes + segmentFooterBytes ≤ limits.maxSegmentBytes) :
    Sized limits (s.step op).writer (s.step op).directory := by
  cases op with
  | append now entry =>
    have hsized := append_sized h (hallowed now entry rfl) now hrecords hsmall
    rw [Live.step]
    rcases happend : s.writer.append now entry s.directory with ⟨status, w, d⟩
    rw [happend] at hsized
    cases status <;> exact hsized
  | sync =>
    have hsized := sync_sized h
    rw [Live.step]
    rcases hsync : s.writer.sync s.directory with ⟨status, w, d⟩
    rw [hsync] at hsized
    cases status <;> exact hsized

theorem crash_settled {w : StoreWriter} {d : Directory} (h : Sized limits w d) (closing : Bool) (keep : Nat) :
    Settled limits (crashDirectory w d closing keep) ∧
      (crashDirectory w d closing keep).bytes ≤ limits.maxStoreBytes := by
  have htotal := h.total
  unfold crashDirectory
  cases hfile : w.file with
  | none => exact ⟨h.toTidy.settled, (Nat.le_add_right _ _).trans htotal⟩
  | some name =>
    rw [hfile, Option.isSome_some, if_pos rfl] at htotal
    have hbefore : Settled limits (if closing then d.write name w.footer else d) ∧
        (if closing then d.write name w.footer else d).bytes ≤ limits.maxStoreBytes := by
      cases closing with
      | true =>
        obtain ⟨hsettled, hbytes⟩ := footer_settled h.toTidy hfile
        exact ⟨hsettled, hbytes.trans htotal⟩
      | false => exact ⟨h.toTidy.settled, (Nat.le_add_right _ _).trans htotal⟩
    obtain ⟨hcut, hbytes⟩ := @Settled.update limits _ hbefore.1 name
      (fun f => { f with content := f.content.take (max f.synced keep) }) (fun _ => rfl) fun f => ⟨_, rfl⟩
    exact ⟨hcut, hbytes.trans hbefore.2⟩

theorem open_sized {config : StoreConfig} {now : Nanos} {d d' : Directory} {w : StoreWriter}
    (hopen : StoreWriter.open config now d = .ok (w, d')) (hlimits : config.limits = limits)
    (hsettled : Settled limits d) (htotal : d.bytes ≤ limits.maxStoreBytes) : Sized limits w d' := by
  obtain ⟨hfiles, rfl⟩ := open_spec hopen
  have hbytes : d'.bytes = d.bytes := by rw [Directory.bytes, Directory.bytes, hfiles]
  refine ⟨⟨hlimits, ?_, ?_, ?_, fun _ _ hcurrent => absurd hcurrent (Option.some_ne_none _).symm,
    fun hsome => absurd hsome Bool.false_ne_true⟩, rfl, hbytes.trans_le htotal⟩
  · rw [hfiles]
    exact hsettled.names
  · rw [hfiles]
    exact hsettled.segments
  · rw [hfiles]
    exact fun f hf _ => hsettled.left f hf

theorem run_sized {h : History} {session : WriterSession} (hlimits : session.config.limits = limits)
    (hsettled : Settled limits h.directory) (htotal : h.directory.bytes ≤ limits.maxStoreBytes)
    (hroomy : session.Roomy h.directory) (hrecords : 1 ≤ limits.maxSegmentRecords)
    (hsmall : segmentHeaderBytes + segmentFooterBytes ≤ limits.maxSegmentBytes) (n : Nat) {w : StoreWriter}
    {d : Directory} (hopen : StoreWriter.open session.config session.openedAt h.directory = .ok (w, d)) :
    Sized limits ((session.ops.take n).foldl Live.step { writer := w, directory := d }).writer
      ((session.ops.take n).foldl Live.step { writer := w, directory := d }).directory := by
  refine @foldl_inv_of_allowed _ _ _ (fun s : Live => Sized limits s.writer s.directory) Live.Allowed
    (fun s op hallowed hsized => Live.step_sized hsized hallowed hrecords hsmall) _
    (open_sized hopen hlimits hsettled htotal) _ fun p hp => hroomy w d hopen p ?_
  rw [← List.take_append_drop n session.ops, steps_append]
  exact List.mem_append_left _ hp

theorem session_settled {h : History} {session : WriterSession} (hlimits : session.config.limits = limits)
    (hsettled : Settled limits h.directory) (htotal : h.directory.bytes ≤ limits.maxStoreBytes)
    (hroomy : session.Roomy h.directory) (hrecords : 1 ≤ limits.maxSegmentRecords)
    (hsmall : segmentHeaderBytes + segmentFooterBytes ≤ limits.maxSegmentBytes) :
    Settled limits (h.session session).directory ∧ (h.session session).directory.bytes ≤ limits.maxStoreBytes := by
  cases hopen : StoreWriter.open session.config session.openedAt h.directory with
  | error e =>
    rw [History.session, hopen]
    exact ⟨hsettled, htotal⟩
  | ok opened =>
    obtain ⟨w, d⟩ := opened
    have hsized := run_sized hlimits hsettled htotal hroomy hrecords hsmall session.ops.length hopen
    rw [List.take_length] at hsized
    rw [History.session, hopen]
    cases session.ending with
    | close =>
      obtain ⟨hclosed, -, hbytes⟩ := closeSegment_tidy hsized.toTidy
      have hdirectory := close_directory hsized.isOpen (session.run w d).directory
      show Settled limits ((session.run w d).writer.close (session.run w d).directory).2.2 ∧
        ((session.run w d).writer.close (session.run w d).directory).2.2.bytes ≤ limits.maxStoreBytes
      unfold WriterSession.run at hdirectory ⊢
      rw [hdirectory]
      exact ⟨hclosed.settled, hbytes.trans hsized.total⟩
    | crash closing keep => exact crash_settled hsized closing keep

end Session

/-! ## Runs -/

theorem validate_segments {limits : Limits} (h : limits.validate = .ok ()) :
    1 ≤ limits.maxSegmentRecords ∧ 4096 ≤ limits.maxSegmentBytes := by
  simp only [Limits.validate, Status.bind_eq_ok_iff, require_eq_ok_iff, ge_iff_le, Bool.and_eq_true,
    decide_eq_true_eq] at h
  omega

/-- **Runs within the limits.** In every run of sessions on one directory, with valid limits and whatever is appended
and however the sessions end: where every append finds room, every directory that is reached, within a session and
after it, keeps the limits. -/
theorem store_limits_hold {limits : Limits} (hvalid : limits.validate = .ok ()) {sessions : List WriterSession}
    (hlimits : ∀ session ∈ sessions, session.config.limits = limits)
    (hroomy : ∀ p ∈ steps History.session {} sessions, p.2.Roomy p.1.directory) :
    ∀ p ∈ steps History.session {} sessions,
      (∀ n w d, StoreWriter.open p.2.config p.2.openedAt p.1.directory = .ok (w, d) →
        WithinLimits limits ((p.2.ops.take n).foldl Live.step { writer := w, directory := d }).directory) ∧
      WithinLimits limits (p.1.session p.2).directory := by
  obtain ⟨hrecords, hbytes⟩ := validate_segments hvalid
  have hsmall : segmentHeaderBytes + segmentFooterBytes ≤ limits.maxSegmentBytes := Nat.le_trans (by decide) hbytes
  have hempty : Settled limits ({} : History).directory :=
    ⟨List.nodup_nil, List.forall_mem_nil _, List.forall_mem_nil _⟩
  intro p hp
  obtain ⟨n, hn⟩ := List.getElem?_of_mem hp
  obtain ⟨hsession, hstate⟩ := steps_getElem? hn
  have hsame := hlimits p.2 (List.mem_of_getElem? hsession)
  have hbefore : Settled limits p.1.directory ∧ p.1.directory.bytes ≤ limits.maxStoreBytes := by
    rw [hstate]
    refine @foldl_inv_of_allowed _ _ _
      (fun h : History => Settled limits h.directory ∧ h.directory.bytes ≤ limits.maxStoreBytes)
      (fun h session => session.config.limits = limits ∧ session.Roomy h.directory)
      (fun h session hallowed hsettled =>
        session_settled hallowed.1 hsettled.1 hsettled.2 hallowed.2 hrecords hsmall)
      _ ⟨hempty, Nat.zero_le _⟩ _ fun q hq => ?_
    have hmem : q ∈ steps History.session {} sessions := by
      rw [← List.take_append_drop n sessions, steps_append]
      exact List.mem_append_left _ hq
    exact ⟨hlimits q.2 (mem_of_mem_steps hmem), hroomy q hmem⟩
  constructor
  · intro m w d hopen
    have hsized := run_sized hsame hbefore.1 hbefore.2 (hroomy p hp) hrecords hsmall m hopen
    exact hsized.toTidy.settled.withinLimits ((Nat.le_add_right _ _).trans hsized.total)
  · obtain ⟨hsettled, htotal⟩ := session_settled hsame hbefore.1 hbefore.2 (hroomy p hp) hrecords hsmall
    exact hsettled.withinLimits htotal

/-! ### Room -/

instance (w : StoreWriter) (d : Directory) (entry : Entry) : Decidable (w.Room d entry) :=
  decidable_of_iff ((w.takes entry.2.length = true →
      segmentHeaderBytes + recordBytes entry + segmentFooterBytes ≤ w.config.limits.maxSegmentBytes) ∧
      storeBytes d + w.spends entry ≤ w.config.limits.maxStoreBytes)
    ⟨fun h => ⟨h.1, h.2⟩, fun h => ⟨h.segment, h.store⟩⟩

instance (s : Live) : (op : WriterOp) → Decidable (s.Allowed op)
  | .append now entry => decidable_of_iff (s.writer.Room s.directory entry)
      ⟨fun h _ _ hop => by cases hop; exact h, fun h => h now entry rfl⟩
  | .sync => isTrue fun _ _ hop => nomatch hop

theorem roomy_of_all {session : WriterSession} {d : Directory}
    (h : ((StoreWriter.open session.config session.openedAt d).toOption.all fun opened =>
      (steps Live.step { writer := opened.1, directory := opened.2 } session.ops).all
        fun p => decide (p.1.Allowed p.2)) = true) : session.Roomy d := by
  intro w d' hopen p hp
  rw [hopen] at h
  exact of_decide_eq_true (List.all_eq_true.mp h p hp)

/-- As small as the limits may be. -/
def smallLimits : Limits := { maxSegmentBytes := 4096, maxStoreBytes := 4096 }

/-- A session that appends records of these sizes and closes. -/
def sizedSession (sizes : List Nat) : WriterSession :=
  { config := { directory := text "store", limits := smallLimits, policyDigest := [] }
    openedAt := 0
    ops := sizes.map fun size => .append 0 (.source, List.replicate size 0)
    ending := .close }

/-- Two sessions with room for their records. -/
theorem small_records_within :
    WithinLimits smallLimits (runSessions [sizedSession [100, 1000], sizedSession [1000]]).directory := by
  have hroomy : ∀ p ∈ steps History.session {} [sizedSession [100, 1000], sizedSession [1000]],
      p.2.Roomy p.1.directory := by
    refine List.forall_mem_cons.mpr ⟨roomy_of_all (by decide +kernel), List.forall_mem_singleton.mpr ?_⟩
    exact roomy_of_all (by decide +kernel)
  have hsame : ∀ session ∈ [sizedSession [100, 1000], sizedSession [1000]], session.config.limits = smallLimits :=
    List.forall_mem_cons.mpr ⟨rfl, List.forall_mem_singleton.mpr rfl⟩
  have hall := store_limits_hold (show smallLimits.validate = .ok () by decide) hsame hroomy
  have hlast : (History.session {} (sizedSession [100, 1000]), sizedSession [1000]) ∈
      steps History.session {} [sizedSession [100, 1000], sizedSession [1000]] :=
    List.mem_cons_of_mem _ List.mem_cons_self
  unfold runSessions
  rw [List.foldl_cons, List.foldl_cons, List.foldl_nil]
  exact (hall _ hlast).2

/-- One record that fits a segment only without its header; two sessions whose files fit the store only one at a
time. -/
theorem limits_exceeded :
    smallLimits.validate = .ok () ∧
      ¬ WithinLimits smallLimits (runSessions [sizedSession [4044]]).directory ∧
      ¬ WithinLimits smallLimits (runSessions [sizedSession [2000], sizedSession [2000]]).directory := by
  refine ⟨by decide, fun h => ?_, fun h => ?_⟩
  · have htotal := h.total
    revert htotal
    decide +kernel
  · have htotal := h.total
    revert htotal
    decide +kernel

end LatencyObservatory.Store
