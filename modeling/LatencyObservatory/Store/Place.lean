import LatencyObservatory.Store.Manifest
import LatencyObservatory.Store.RoundTrip

/-!
# A store stays open

No session touches the manifest that the first one wrote. A store path that writers have used can therefore be opened
again, by the reader and by the next writer, however the sessions ended.
-/

namespace LatencyObservatory.Store
open LatencyObservatory.Core LatencyObservatory.Lib

/-- What is at the store path besides the segment files. -/
def Directory.place (d : Directory) : PathKind × Option Bytes :=
  (d.kind, d.manifest)

@[simp] theorem update_place (d : Directory) (name : Bytes) (change : File → File) :
    (d.update name change).place = d.place := rfl

@[simp] theorem write_place (d : Directory) (name bytes : Bytes) : (d.write name bytes).place = d.place := rfl

@[simp] theorem flush_place (d : Directory) (name : Bytes) : (d.flush name).place = d.place := rfl

@[simp] theorem create_place (d : Directory) (name : Bytes) : (d.create name).place = d.place := by
  unfold Directory.create
  split_ifs <;> rfl

/-! ### Writing -/

@[simp] theorem openSegment_place (w : StoreWriter) (now : Nanos) (d : Directory) :
    (w.openSegment now d).2.place = d.place := by
  simp only [StoreWriter.openSegment, write_place, create_place]

@[simp] theorem closeSegment_place (w : StoreWriter) (d : Directory) : (w.closeSegment d).2.place = d.place := by
  unfold StoreWriter.closeSegment
  cases w.file with
  | none => rfl
  | some name => simp only [flush_place, write_place]

@[simp] theorem ensureSegment_place (w : StoreWriter) (now : Nanos) (d : Directory) :
    (w.ensureSegment now d).2.place = d.place := by
  unfold StoreWriter.ensureSegment
  split_ifs
  · exact openSegment_place w now d
  · rfl

@[simp] theorem rotate_place (w : StoreWriter) (now : Nanos) (recordBytes : Nat) (d : Directory) :
    (w.rotate now recordBytes d).2.place = d.place := by
  unfold StoreWriter.rotate
  split_ifs
  · simp only [openSegment_place, closeSegment_place]
  · rfl

@[simp] theorem writeRecord_place (w : StoreWriter) (entry : Entry) (d : Directory) :
    (w.writeRecord entry d).2.place = d.place := by
  unfold StoreWriter.writeRecord
  cases w.file with
  | none => rfl
  | some name => simp only [write_place]

theorem append_place (w : StoreWriter) (now : Nanos) (entry : Entry) (d : Directory) :
    (w.append now entry d).2.2.place = d.place := by
  cases hclosed : w.closed with
  | true => rw [StoreWriter.append, if_pos hclosed]
  | false =>
    rcases append_cases hclosed now entry d with ⟨e, happend⟩ | ⟨-, e, happend⟩ | ⟨-, happend⟩
    · rw [happend]
      exact ensureSegment_place w now d
    · rw [happend]
      simp only [rotate_place, ensureSegment_place]
    · rw [happend]
      simp only [writeRecord_place, rotate_place, ensureSegment_place]

theorem sync_place (w : StoreWriter) (d : Directory) : (w.sync d).2.2.place = d.place := by
  unfold StoreWriter.sync
  cases w.file <;> rfl

theorem close_place (w : StoreWriter) (d : Directory) : (w.close d).2.2.place = d.place := by
  cases hclosed : w.closed with
  | true => rw [StoreWriter.close, if_pos hclosed]
  | false =>
    rw [close_directory hclosed]
    exact closeSegment_place w d

theorem crash_place (w : StoreWriter) (d : Directory) (closing : Bool) (keep : Nat) :
    (crashDirectory w d closing keep).place = d.place := by
  unfold crashDirectory
  cases w.file with
  | none => rfl
  | some name => cases closing <;> rfl

theorem Live.step_place (s : Live) (op : WriterOp) : (s.step op).directory.place = s.directory.place := by
  cases op with
  | append now entry =>
    have hplace := append_place s.writer now entry s.directory
    rw [Live.step]
    rcases happend : s.writer.append now entry s.directory with ⟨status, w, d⟩
    rw [happend] at hplace
    cases status <;> exact hplace
  | sync =>
    have hplace := sync_place s.writer s.directory
    rw [Live.step]
    rcases hsync : s.writer.sync s.directory with ⟨status, w, d⟩
    rw [hsync] at hplace
    cases status <;> exact hplace

theorem Live.foldl_place (s : Live) (ops : List WriterOp) :
    (ops.foldl Live.step s).directory.place = s.directory.place := by
  induction ops generalizing s with
  | nil => rfl
  | cons op ops ih => exact (ih _).trans (s.step_place op)

/-! ### Opening -/

/-- A store path before the first session or after any. -/
def Directory.Kept (d : Directory) : Prop :=
  (d.manifest = none ∧ d.kind ≠ .other) ∨
    ∃ created digest, PlainDigest digest ∧ d.place = (.directory, some (manifestText created digest))

theorem kept_empty : Directory.empty.Kept :=
  Or.inl ⟨rfl, by decide⟩

theorem Directory.Kept.of_place {d d' : Directory} (h : d.Kept) (hplace : d'.place = d.place) : d'.Kept := by
  obtain ⟨hkind, hmanifest⟩ := Prod.mk.inj hplace
  unfold Kept
  rw [hplace, hmanifest, hkind]
  exact h

theorem Directory.Kept.open {d : Directory} (h : d.Kept) {config : StoreConfig} (hdirectory : config.directory ≠ [])
    (hcreate : config.createIfMissing = true) (now : Nanos) :
    ∃ w d', StoreWriter.open config now d = .ok (w, d') := by
  obtain ⟨kind, manifest, files⟩ := d
  rcases h with ⟨hmanifest, hkind⟩ | ⟨created, digest, hplain, hplace⟩
  · dsimp only at hmanifest hkind
    subst hmanifest
    let made : Directory := ⟨.directory, some (manifestText now config.policyDigest), files⟩
    refine ⟨{ config, segmentId := StoreWriter.nextSegment (listSegments made) }, made, ?_⟩
    unfold StoreWriter.open StoreWriter.openDirectory
    rw [if_neg hdirectory]
    cases kind with
    | missing =>
      dsimp only
      rw [if_pos hcreate]
      rfl
    | directory => rfl
    | other => exact absurd rfl hkind
  · obtain ⟨rfl, rfl⟩ := Prod.mk.inj hplace
    have hread := readManifest_manifestText config created hplain
    have hopen : StoreWriter.openManifest config now ⟨.directory, some (manifestText created digest), files⟩ =
        .ok ⟨.directory, some (manifestText created digest), files⟩ := by
      unfold StoreWriter.openManifest StoreReader.open
      dsimp only
      rw [if_neg hdirectory, hread]
      rfl
    let found : Directory := ⟨.directory, some (manifestText created digest), files⟩
    refine ⟨{ config, segmentId := StoreWriter.nextSegment (listSegments found) }, found, ?_⟩
    unfold StoreWriter.open StoreWriter.openDirectory
    rw [if_neg hdirectory]
    exact bind_eq_ok_iff.mpr ⟨_, rfl, bind_eq_ok_iff.mpr ⟨_, hopen, rfl⟩⟩

theorem Directory.Kept.read {d : Directory} (h : d.Kept) (hmanifest : d.manifest.isSome = true) {config : StoreConfig}
    (hdirectory : config.directory ≠ []) :
    ∃ digest, PlainDigest digest ∧ StoreReader.open config d = .ok ⟨config, digest, formatVersion⟩ := by
  rcases h with ⟨hnone, -⟩ | ⟨created, digest, hplain, hplace⟩
  · rw [hnone] at hmanifest
    cases hmanifest
  · refine ⟨digest, hplain, ?_⟩
    unfold StoreReader.open
    rw [if_neg hdirectory, show d.manifest = _ from congrArg Prod.snd hplace]
    exact readManifest_manifestText config created hplain

theorem openDirectory_spec {d d' : Directory} {config : StoreConfig}
    (h : StoreWriter.openDirectory config d = .ok d') : d' = ⟨.directory, d.manifest, d.files⟩ := by
  obtain ⟨kind, manifest, files⟩ := d
  unfold StoreWriter.openDirectory at h
  cases kind with
  | missing =>
    dsimp only at h
    split_ifs at h
    cases h
    rfl
  | directory =>
    dsimp only at h
    split_ifs at h
    cases h
    rfl
  | other =>
    dsimp only at h
    split_ifs at h

theorem open_place {d d' : Directory} {config : StoreConfig} {now : Nanos} {w : StoreWriter}
    (hopen : StoreWriter.open config now d = .ok (w, d')) :
    d'.kind = .directory ∧ ((d.manifest = none ∧ d'.manifest = some (manifestText now config.policyDigest)) ∨
      (d.manifest.isSome = true ∧ d'.manifest = d.manifest)) := by
  obtain ⟨kind, manifest, files⟩ := d
  unfold StoreWriter.open at hopen
  obtain ⟨d₁, hfirst, hopen⟩ := bind_eq_ok_iff.mp hopen
  obtain ⟨d₂, hsecond, hopen⟩ := bind_eq_ok_iff.mp hopen
  cases hopen
  obtain rfl := openDirectory_spec hfirst
  unfold StoreWriter.openManifest at hsecond
  cases manifest with
  | none =>
    cases hsecond
    exact ⟨rfl, Or.inl ⟨rfl, rfl⟩⟩
  | some manifest =>
    dsimp only at hsecond
    cases hread : StoreReader.open config ⟨.directory, some manifest, files⟩ with
    | error e =>
      rw [hread] at hsecond
      cases hsecond
    | ok reader =>
      rw [hread] at hsecond
      cases hsecond
      exact ⟨rfl, Or.inr ⟨rfl, rfl⟩⟩

theorem open_kept {d d' : Directory} (h : d.Kept) {config : StoreConfig} (hdigest : PlainDigest config.policyDigest)
    {now : Nanos} {w : StoreWriter} (hopen : StoreWriter.open config now d = .ok (w, d')) :
    d'.Kept ∧ d'.manifest.isSome = true := by
  obtain ⟨hkind, hmanifest⟩ := open_place hopen
  rcases hmanifest with ⟨-, hnew⟩ | ⟨hsome, hsame⟩
  · exact ⟨Or.inr ⟨now, _, hdigest, Prod.ext hkind hnew⟩, by rw [hnew]; rfl⟩
  · rw [← hsame] at hsome
    rcases h with ⟨hnone, -⟩ | ⟨created, digest, hplain, hplace⟩
    · rw [hsame, hnone] at hsome
      cases hsome
    · exact ⟨Or.inr ⟨created, digest, hplain, Prod.ext hkind (hsame.trans (congrArg Prod.snd hplace))⟩, hsome⟩

theorem session_kept {h : History} (hkept : h.directory.Kept) {session : WriterSession}
    (hdigest : PlainDigest session.config.policyDigest) : (h.session session).directory.Kept := by
  unfold History.session
  split
  · exact hkept
  · rename_i w d hopen
    have hopened := (open_kept hkept hdigest hopen).1
    have hrun : (session.run w d).directory.Kept := hopened.of_place (Live.foldl_place _ _)
    cases session.ending with
    | close => exact hrun.of_place (close_place _ _)
    | crash closing keep => exact hrun.of_place (crash_place _ _ _ _)

theorem foldl_session_kept {h : History} (hkept : h.directory.Kept) {sessions : List WriterSession}
    (hdigests : ∀ session ∈ sessions, PlainDigest session.config.policyDigest) :
    (sessions.foldl History.session h).directory.Kept := by
  induction sessions generalizing h with
  | nil => exact hkept
  | cons session sessions ih =>
    rw [List.forall_mem_cons] at hdigests
    exact ih (session_kept hkept hdigests.1) hdigests.2

/-- Whatever sessions a store path has seen, and however they ended, the next writer opens it, and the reader does
after that. -/
theorem store_stays_open {sessions : List WriterSession}
    (hdigests : ∀ session ∈ sessions, PlainDigest session.config.policyDigest) {config : StoreConfig}
    (hdirectory : config.directory ≠ []) (hcreate : config.createIfMissing = true)
    (hdigest : PlainDigest config.policyDigest) (now : Nanos) :
    ∃ w d, StoreWriter.open config now (runSessions sessions).directory = .ok (w, d) ∧
      d.files = (runSessions sessions).directory.files ∧
      ∀ (ops : List WriterOp) (ending : Ending) (reading : StoreConfig), reading.directory ≠ [] →
        ∃ digest, StoreReader.open reading
          ((runSessions (sessions ++ [⟨config, now, ops, ending⟩])).directory) =
            .ok ⟨reading, digest, formatVersion⟩ := by
  have hkept : (runSessions sessions).directory.Kept := foldl_session_kept kept_empty hdigests
  obtain ⟨w, d, hopen⟩ := hkept.open hdirectory hcreate now
  refine ⟨w, d, hopen, (open_spec hopen).1, fun ops ending reading hreading => ?_⟩
  have hlast : runSessions (sessions ++ [⟨config, now, ops, ending⟩]) =
      (runSessions sessions).session ⟨config, now, ops, ending⟩ := by
    unfold runSessions
    rw [List.foldl_append]
    rfl
  have hafter : ((runSessions sessions).session ⟨config, now, ops, ending⟩).directory.place = d.place := by
    unfold History.session
    dsimp only
    rw [hopen]
    cases ending with
    | close => exact (close_place _ _).trans (Live.foldl_place _ _)
    | crash closing keep => exact (crash_place _ _ _ _).trans (Live.foldl_place _ _)
  obtain ⟨hopened, hmanifest⟩ := open_kept hkept hdigest hopen
  rw [hlast]
  obtain ⟨digest, -, hread⟩ := (hopened.of_place hafter).read
    ((congrArg Option.isSome (congrArg Prod.snd hafter)).trans hmanifest) hreading
  exact ⟨digest, hread⟩

/-- A manifest without its integrity check, as a crash within `open` can leave one, is never replaced. -/
theorem unchecked_manifest_locks {d : Directory} {manifest : Bytes} (h : d.manifest = some manifest)
    (hcut : splitLast (text "crc32c=") manifest = none) (config : StoreConfig) (now : Nanos) (w : StoreWriter)
    (d' : Directory) : StoreWriter.open config now d ≠ .ok (w, d') := by
  intro hopen
  obtain ⟨error, hrefused⟩ : ∃ error, readManifest config manifest = .error error := by
    unfold readManifest
    rw [hcut]
    split_ifs <;> exact ⟨_, rfl⟩
  unfold StoreWriter.open at hopen
  obtain ⟨made, hmade, hopen⟩ := bind_eq_ok_iff.mp hopen
  obtain ⟨checked, hchecked, -⟩ := bind_eq_ok_iff.mp hopen
  have hsame : made.manifest = some manifest := by
    rw [openDirectory_spec hmade]
    exact h
  unfold StoreWriter.openManifest StoreReader.open at hchecked
  rw [hsame] at hchecked
  dsimp only at hchecked
  split_ifs at hchecked
  · cases hchecked
  · rw [hrefused] at hchecked
    cases hchecked

/-- A session that crashes in the header of its segment does not lock the store. -/
theorem small_store_stays_open :
    ∃ w d, StoreWriter.open smallConfig 30 (runSessions [⟨smallConfig, 10, [.append 11 (.source, text "a")],
          .crash false 7⟩]).directory = .ok (w, d) ∧
      ∀ (ops : List WriterOp) (ending : Ending) (reading : StoreConfig), reading.directory ≠ [] →
        ∃ digest, StoreReader.open reading
          ((runSessions ([⟨smallConfig, 10, [.append 11 (.source, text "a")], .crash false 7⟩] ++
            [⟨smallConfig, 30, ops, ending⟩])).directory) = .ok ⟨reading, digest, formatVersion⟩ := by
  have hplain : PlainDigest smallConfig.policyDigest := ⟨by decide, by decide⟩
  obtain ⟨w, d, hopen, -, hread⟩ := @store_stays_open
    [⟨smallConfig, 10, [.append 11 (.source, text "a")], .crash false 7⟩]
    (by rw [List.forall_mem_singleton]; exact hplain) smallConfig (by decide) rfl hplain 30
  exact ⟨w, d, hopen, hread⟩

end LatencyObservatory.Store
