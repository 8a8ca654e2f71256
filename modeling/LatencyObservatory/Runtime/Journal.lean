import LatencyObservatory.Runtime.Documents
import LatencyObservatory.Store.Crash

/-!
# A run of the engine is a writer session

Every call performs a piece of the writer session behind the engine, so what the store guarantees for sessions holds
for runs. A call that succeeds has appended its records, and with durable writes they survive any later crash, also
one in the middle of the next call.
-/

namespace LatencyObservatory.Store
open LatencyObservatory.Core LatencyObservatory.Lib

/-! ### Live sessions -/

/-- What a session knows to be durable was appended before. -/
def Live.Ordered (s : Live) : Prop :=
  s.durable <+: s.appended

/-- What a later state of a session keeps of an earlier one. -/
structure Live.Extends (before after : Live) : Prop where
  appended : before.appended <+: after.appended
  durable : before.durable <+: after.durable

theorem Live.step_extends {s : Live} (h : s.Ordered) (op : WriterOp) : s.Extends (s.step op) ∧ (s.step op).Ordered := by
  cases op with
  | append now entry =>
    simp only [Live.step]
    split
    · exact ⟨⟨List.prefix_append _ _, List.prefix_rfl⟩, h.trans (List.prefix_append _ _)⟩
    · exact ⟨⟨List.prefix_rfl, List.prefix_rfl⟩, h⟩
  | sync =>
    simp only [Live.step]
    split
    · exact ⟨⟨List.prefix_rfl, h⟩, List.prefix_rfl⟩
    · exact ⟨⟨List.prefix_rfl, List.prefix_rfl⟩, h⟩

theorem Live.foldl_extends {s : Live} (h : s.Ordered) (ops : List WriterOp) :
    s.Extends (ops.foldl Live.step s) ∧ (ops.foldl Live.step s).Ordered := by
  induction ops generalizing s with
  | nil => exact ⟨⟨List.prefix_rfl, List.prefix_rfl⟩, h⟩
  | cons op ops ih =>
    obtain ⟨hfirst, hordered⟩ := step_extends h op
    obtain ⟨hrest, hlast⟩ := ih hordered
    exact ⟨⟨hfirst.appended.trans hrest.appended, hfirst.durable.trans hrest.durable⟩, hlast⟩

theorem Live.step_append_ok {s : Live} {now : Nanos} {entry : Entry} {w : StoreWriter} {d : Directory}
    (h : s.writer.append now entry s.directory = (.ok (), w, d)) :
    (s.step (.append now entry)).writer = w ∧ (s.step (.append now entry)).directory = d ∧
      (s.step (.append now entry)).appended = s.appended ++ [entry] := by
  simp only [Live.step, h, and_self]

theorem Live.step_append_error {s : Live} {now : Nanos} {entry : Entry} {e : Error} {w : StoreWriter} {d : Directory}
    (h : s.writer.append now entry s.directory = (.error e, w, d)) :
    (s.step (.append now entry)).writer = w ∧ (s.step (.append now entry)).directory = d := by
  simp only [Live.step, h, and_self]

theorem Live.step_sync (s : Live) :
    (s.step .sync).writer = (s.writer.sync s.directory).2.1 ∧
      (s.step .sync).directory = (s.writer.sync s.directory).2.2 ∧ (s.step .sync).appended = s.appended ∧
        (s.step .sync).durable = s.appended ∧ (s.writer.sync s.directory).1 = .ok () := by
  unfold Live.step StoreWriter.sync
  cases s.writer.file <;> exact ⟨rfl, rfl, rfl, rfl, rfl⟩

/-- What a later state of a session has gained: these records, in at most one new file for each. -/
structure Live.Gains (before after : Live) (entries : List Entry) : Prop where
  appended : after.appended = before.appended ++ entries
  files : after.directory.files.length ≤ before.directory.files.length + entries.length

theorem Live.Gains.refl (s : Live) : s.Gains s [] :=
  ⟨(List.append_nil _).symm, Nat.le_refl _⟩

theorem Live.Gains.trans {before between after : Live} {first second : List Entry} (h : before.Gains between first)
    (h' : between.Gains after second) : before.Gains after (first ++ second) where
  appended := by rw [h'.appended, h.appended, List.append_assoc]
  files := by
    have hfirst := h.files
    have hsecond := h'.files
    rw [List.length_append]
    omega

theorem Live.append_gains {s : Live} {now : Nanos} {entry : Entry} {w : StoreWriter} {d : Directory}
    (h : s.writer.append now entry s.directory = (.ok (), w, d)) : s.Gains (s.step (.append now entry)) [entry] := by
  obtain ⟨-, hdirectory, happended⟩ := step_append_ok h
  refine ⟨happended, ?_⟩
  have hfiles := append_length_le s.writer now entry s.directory
  rw [hdirectory]
  rw [h] at hfiles
  exact hfiles

theorem Live.sync_gains (s : Live) : s.Gains (s.step .sync) [] := by
  obtain ⟨-, hdirectory, happended, -, -⟩ := s.step_sync
  refine ⟨happended.trans (List.append_nil _).symm, ?_⟩
  rw [hdirectory]
  unfold StoreWriter.sync
  split
  · exact Nat.le_refl _
  · exact Nat.le_of_eq (update_length _ _ _)

/-! ### Reading after a session -/

/-- What is durable at the end of a session is read back, if the sessions before it left the store readable. -/
theorem session_returned {h : History} (hreadable : Readable h) {session : WriterSession}
    (hbound : (h.session session).directory.files.length < 2 ^ 32 - 1) (hcount : (h.session session).overran = false) :
    (h.session session).durable.Sublist ((readAll (h.session session).directory).1.map StoredRecord.entry) := by
  obtain ⟨new, hadded⟩ := session_added hreadable.numbered session hbound hcount
  have hreturned := congrArg Prod.fst (recovered_eq (h.session session).directory)
  rw [listSegments_of_numbered hadded.numbered (by omega)] at hreturned
  have hkept := session_durable hreadable hadded
  rw [← hreturned] at hkept
  exact hkept

end LatencyObservatory.Store

namespace LatencyObservatory.Runtime

open LatencyObservatory.Core LatencyObservatory.Model LatencyObservatory.Ingest LatencyObservatory.Stats
open LatencyObservatory.Baselines LatencyObservatory.Store

/-! ### Pieces of a session -/

/-- The engine runs, and writes through the writer of this session. -/
structure System.Backed (s : System) (live : Live) : Prop where
  writer : s.engine.writer = some live.writer
  directory : s.directory = live.directory
  running : s.engine.shutDown = false

/-- A part of a call is a piece of the session behind it. If it succeeds it appended these records, and everything is
durable if it syncs. -/
def Journaled (s : System) (result : Status × System) (entries : List Entry) (syncs : Bool) : Prop :=
  ∀ live, s.Backed live → ∃ ops : List WriterOp, result.2.Backed (ops.foldl Live.step live) ∧
    (result.1 = .ok () → live.Gains (ops.foldl Live.step live) entries ∧
      (syncs = true → (ops.foldl Live.step live).durable = (ops.foldl Live.step live).appended))

theorem Journaled.none (s : System) (status : Status) (e : Engine) (hwriter : e.writer = s.engine.writer)
    (hrunning : e.shutDown = s.engine.shutDown) : Journaled s (status, s.withEngine e) [] false := by
  rintro live ⟨hlive, hdirectory, hrun⟩
  exact ⟨[], ⟨hwriter.trans hlive, hdirectory, hrunning.trans hrun⟩,
    fun _ => ⟨.refl live, Bool.noConfusion⟩⟩

theorem Journaled.failed {s : System} {error : Error} {e : Engine} (hwriter : e.writer = s.engine.writer)
    (hrunning : e.shutDown = s.engine.shutDown) (entries : List Entry) (syncs : Bool) :
    Journaled s (.error error, s.withEngine e) entries syncs := by
  rintro live ⟨hlive, hdirectory, hrun⟩
  exact ⟨[], ⟨hwriter.trans hlive, hdirectory, hrunning.trans hrun⟩, fun hok => absurd hok (by simp)⟩

theorem Journaled.change {s : System} {result : Status × System} {entries : List Entry} {syncs : Bool}
    (h : Journaled s result entries syncs) {status : Status} (hstatus : status = .ok () → result.1 = .ok ()) {e : Engine}
    (hwriter : e.writer = result.2.engine.writer) (hrunning : e.shutDown = result.2.engine.shutDown) :
    Journaled s (status, result.2.withEngine e) entries syncs := by
  intro live hbacked
  obtain ⟨ops, hafter, hok⟩ := h live hbacked
  exact ⟨ops, ⟨hwriter.trans hafter.writer, hafter.directory, hrunning.trans hafter.running⟩, fun h => hok (hstatus h)⟩

theorem Journaled.start {s : System} {e : Engine} (hwriter : e.writer = s.engine.writer)
    (hrunning : e.shutDown = s.engine.shutDown) {result : Status × System} {entries : List Entry} {syncs : Bool}
    (h : Journaled (s.withEngine e) result entries syncs) : Journaled s result entries syncs :=
  fun live hbacked => h live ⟨hwriter.trans hbacked.writer, hbacked.directory, hrunning.trans hbacked.running⟩

theorem Journaled.andThen {s : System} {result : Status × System} {next : System → Status × System}
    {first second : List Entry} {synced syncs : Bool} (hfirst : Journaled s result first synced)
    (hnext : result.1 = .ok () → Journaled result.2 (next result.2) second syncs) :
    Journaled s (System.andThen result next) (first ++ second) syncs := by
  intro live hbacked
  obtain ⟨ops, hafter, hok⟩ := hfirst live hbacked
  obtain ⟨status, s'⟩ := result
  cases status with
  | error e => exact ⟨ops, hafter, fun hok => absurd hok (by simp [System.andThen])⟩
  | ok u =>
    obtain ⟨hgains, -⟩ := hok rfl
    obtain ⟨more, hlast, hok'⟩ := hnext rfl _ hafter
    refine ⟨ops ++ more, ?_, ?_⟩
    · rw [List.foldl_append]
      exact hlast
    · intro hdone
      rw [List.foldl_append]
      obtain ⟨hgains', hdurable⟩ := hok' hdone
      exact ⟨hgains.trans hgains', hdurable⟩

namespace System

theorem sync_journaled {s : System} {writer : StoreWriter} (hwriter : s.engine.writer = some writer) :
    Journaled s (s.sync writer) [] true := by
  rintro live ⟨hlive, hdirectory, hrun⟩
  obtain rfl : writer = live.writer := Option.some.inj (hwriter.symm.trans hlive)
  obtain ⟨hwriter', hdirectory', happended, hdurable, -⟩ := live.step_sync
  refine ⟨[.sync], ⟨?_, ?_, hrun⟩, fun _ => ⟨live.sync_gains, fun _ => ?_⟩⟩
  · rw [List.foldl_cons, List.foldl_nil, hwriter', ← hdirectory]
    rfl
  · rw [List.foldl_cons, List.foldl_nil, hdirectory', ← hdirectory]
    rfl
  · rw [List.foldl_cons, List.foldl_nil, hdurable, happended]

theorem persist_journaled (s : System) (now : Nanos) (type : RecordType) (payload : Bytes) (syncNow : Bool) :
    Journaled s (s.persist now type payload syncNow) [(type, payload)] (s.engine.config.durableWrites && syncNow) := by
  unfold persist
  split_ifs with hreadonly
  · exact .failed rfl rfl _ _
  · rintro live ⟨hlive, hdirectory, hrun⟩
    rw [hlive, hdirectory]
    dsimp only
    rcases happend : live.writer.append now (type, payload) live.directory with ⟨status, w, d⟩
    cases status with
    | error e =>
      obtain ⟨hw, hd⟩ := Live.step_append_error happend
      exact ⟨[.append now (type, payload)], ⟨congrArg some hw.symm, hd.symm, hrun⟩, fun hok => absurd hok (by simp)⟩
    | ok u =>
      obtain ⟨hw, hd, -⟩ := Live.step_append_ok happend
      have hgains := Live.append_gains happend
      have hbacked : ({ engine := { s.engine with writer := some w }, directory := d } : System).Backed
          (live.step (.append now (type, payload))) := ⟨congrArg some hw.symm, hd.symm, hrun⟩
      dsimp only
      split_ifs with hsync
      · obtain ⟨ops, hafter, hok⟩ := sync_journaled rfl _ hbacked
        refine ⟨.append now (type, payload) :: ops, hafter, fun hdone => ?_⟩
        obtain ⟨hgains', hdurable⟩ := hok hdone
        exact ⟨hgains.trans hgains', fun _ => hdurable rfl⟩
      · exact ⟨[.append now (type, payload)], hbacked, fun _ => ⟨hgains, fun hsyncs => absurd hsyncs hsync⟩⟩

/-! ### Calls -/

theorem each_journaled {α : Type} {body : System → α → Status × System} {entry : α → Entry}
    (hbody : ∀ s x, Journaled s (body s x) [entry x] false) (s : System) (xs : List α) :
    Journaled s (each body s xs) (xs.map entry) false := by
  induction xs generalizing s with
  | nil => exact .none s (.ok ()) s.engine rfl rfl
  | cons x xs ih => exact (hbody s x).andThen fun _ => ih _

theorem store_journaled (s : System) (now : Nanos) (type : RecordType) (record : MeasurementRecord) :
    Journaled s (s.store now type record) [measurementEntry type record] false :=
  (s.persist_journaled now type _ false).andThen fun _ => .none _ _ _ rfl rfl

theorem storeFence_journaled (s : System) (now : Nanos) (entry : SourceId × SourceFenceState) :
    Journaled s (s.storeFence now entry) [fenceEntry entry] false :=
  (s.persist_journaled now .fenceState _ false).andThen fun _ => .none _ _ _ rfl rfl

theorem syncBatch_journaled (s : System) : Journaled s s.syncBatch [] s.engine.config.durableWrites := by
  intro live hbacked
  cases hdurable : s.engine.config.durableWrites with
  | false =>
    have hsame : s.syncBatch = (.ok (), s) := by
      unfold syncBatch
      rw [hdurable]
    rw [hsame]
    exact Journaled.none s (.ok ()) s.engine rfl rfl live hbacked
  | true =>
    have hsync : s.syncBatch = s.sync live.writer := by
      unfold syncBatch
      rw [hdurable, hbacked.writer]
    rw [hsync]
    exact sync_journaled hbacked.writer live hbacked

theorem storeBatch_journaled {s : System} (now : Nanos) {admission : Admission}
    (hfences : s.engine.fences = admission.fences) :
    Journaled s (s.storeBatch now admission) (batchEntries admission) s.engine.config.durableWrites := by
  -- The stored records leave alone what the later parts read.
  have hkept : ∀ (type : RecordType) (s' : System) (record : MeasurementRecord),
      (s'.engine.fences = admission.fences ∧ s'.engine.config = s.engine.config) →
      (s'.store now type record).2.engine.fences = admission.fences ∧
        (s'.store now type record).2.engine.config = s.engine.config := by
    intro type s' record h
    refine ⟨(s'.store_fences now type record).trans h.1, ?_⟩
    exact @andThen_inv (fun s'' => s''.engine.config = s.engine.config) _ _
      ((s'.persist_config now type _ false).trans h.2) fun hconfig => hconfig
  have hfence : ∀ (s' : System) (entry : SourceId × SourceFenceState), s'.engine.config = s.engine.config →
      (s'.storeFence now entry).2.engine.config = s.engine.config := by
    intro s' entry h
    exact @andThen_inv (fun s'' => s''.engine.config = s.engine.config) _ _
      ((s'.persist_config now .fenceState _ false).trans h) fun hconfig => hconfig
  have hfirst := @each_inv _ (store · now .measurementCurrent ·)
    (fun s' => s'.engine.fences = admission.fences ∧ s'.engine.config = s.engine.config)
    (hkept _) s ⟨hfences, rfl⟩ admission.acceptedCurrent
  refine (each_journaled (fun s x => s.store_journaled now _ x) s _).andThen fun _ => ?_
  have hsecond := @each_inv _ (store · now .measurementHistorical ·)
    (fun s' => s'.engine.fences = admission.fences ∧ s'.engine.config = s.engine.config)
    (hkept _) _ hfirst admission.acceptedHistory
  refine (each_journaled (fun s x => s.store_journaled now _ x) _ _).andThen fun _ => ?_
  rw [hsecond.1, ← List.append_nil (admission.fences.toList.map fenceEntry)]
  refine (each_journaled (fun s x => s.storeFence_journaled now x) _ _).andThen fun _ => ?_
  have hthird := @each_inv _ (storeFence · now ·) (fun s' => s'.engine.config = s.engine.config) hfence _ hsecond.2
    admission.fences.toList
  rw [← hthird]
  exact syncBatch_journaled _

theorem define_journaled {α ι : Type} {s : System} {now : Nanos} {type : RecordType} {write : JsonWriter → α → JsonWriter}
    {value : α} {register : Engine → α → Except Error ι × Engine}
    (hconfig : (register s.engine value).2.config = s.engine.config)
    (hwriter : (register s.engine value).2.writer = s.engine.writer)
    (hrunning : (register s.engine value).2.shutDown = s.engine.shutDown) :
    Journaled s (outcome (s.define now type write value register)) [(type, encodeWith fun w => write w value)]
      s.engine.config.durableWrites := by
  unfold define
  split_ifs with hdown
  · exact .failed rfl rfl _ _
  · cases hresult : (register s.engine value).1 with
    | error e =>
      simp only [hresult]
      exact .failed hwriter hrunning _ _
    | ok id =>
      simp only [hresult]
      have hpersist := (s.withEngine (register s.engine value).2).persist_journaled now type
        (encodeWith fun w => write w value) true
      have hsyncs : (s.withEngine (register s.engine value).2).engine.config.durableWrites = s.engine.config.durableWrites :=
        congrArg RuntimeConfig.durableWrites hconfig
      rw [hsyncs, Bool.and_true] at hpersist
      refine (hpersist.start hwriter hrunning).change (fun hok => ?_) rfl rfl
      cases hstatus : ((s.withEngine (register s.engine value).2).persist now type
          (encodeWith fun w => write w value) true).1 with
      | ok u => rfl
      | error e =>
        rw [hstatus] at hok
        cases hok

theorem ingest_journaled (s : System) (now : Nanos) (request : IngestRequest) :
    Journaled s (outcome (s.ingest now request)) ((Call.ingest request).entries s.engine now)
      s.engine.config.durableWrites := by
  unfold ingest
  split_ifs
  · exact .failed rfl rfl _ _
  · exact .failed rfl rfl _ _
  · exact .failed rfl rfl _ _
  · cases htaken : s.engine.gate.admitBatch request with
    | error e => exact .failed rfl rfl _ _
    | ok admission =>
      have hentries : (Call.ingest request).entries s.engine now = batchEntries admission := by
        simp only [Call.entries, htaken]
      have hbatch := @storeBatch_journaled (s.withEngine (admitted s.engine admission)) now admission rfl
      have hstart := @Journaled.start s (admitted s.engine admission) rfl rfl _ _ _ hbatch
      rw [hentries]
      cases hstatus : ((s.withEngine (admitted s.engine admission)).storeBatch now admission).1 with
      | error e =>
        simp only [hstatus]
        exact hstart.change (fun hok => by cases hok) rfl rfl
      | ok u =>
        simp only [hstatus]
        exact hstart.change (fun _ => hstatus) rfl rfl

theorem createBaseline_journaled (s : System) (now : Nanos) (request : BaselineRequest) :
    Journaled s (outcome (s.createBaseline now request)) ((Call.createBaseline request).entries s.engine now)
      s.engine.config.durableWrites := by
  unfold createBaseline
  split_ifs
  · exact .failed rfl rfl _ _
  · cases hsummary : s.engine.summarize request.summary with
    | error e => exact .failed rfl rfl _ _
    | ok summary =>
      dsimp only
      split_ifs
      · exact .failed rfl rfl _ _
      · cases hadd : s.engine.baselines.add (request.baseline now s.engine.policy summary) with
        | error e => exact .failed rfl rfl _ _
        | ok added =>
          obtain ⟨id, baselines⟩ := added
          unfold storeBaseline
          dsimp only [withEngine]
          cases hget : baselines.get id with
          | error e => exact @Journaled.failed s e { s.engine with baselines } rfl rfl _ _
          | ok stored =>
            have hentries : (Call.createBaseline request).entries s.engine now =
                [(.baseline, encodeWith fun w => writeBaseline w stored)] := by
              simp only [Call.entries, hsummary, hadd, hget]
            have hpersist := (s.withEngine { s.engine with baselines }).persist_journaled now .baseline
              (encodeWith fun w => writeBaseline w stored) true
            have hstart := @Journaled.start s { s.engine with baselines } rfl rfl _ _ _ hpersist
            rw [Bool.and_true] at hstart
            rw [hentries]
            cases hstatus : ((s.withEngine { s.engine with baselines }).persist now .baseline
                (encodeWith fun w => writeBaseline w stored) true).1 with
            | error e =>
              dsimp only [withEngine] at hstatus ⊢
              simp only [hstatus]
              exact hstart.change (fun hok => by cases hok) rfl rfl
            | ok u =>
              dsimp only [withEngine] at hstatus ⊢
              simp only [hstatus]
              exact hstart.change (fun _ => hstatus) rfl rfl

end System

/-- A call that succeeds leaves everything durable. -/
def Call.syncs (config : RuntimeConfig) : Call → Bool
  | .flush => true
  | _ => config.durableWrites

theorem System.call_journaled (s : System) (now : Nanos) {c : Call} (hopen : c ≠ .shutdown) :
    Journaled s (s.call now c) (c.entries s.engine now) (c.syncs s.engine.config) := by
  cases c with
  | defineSource descriptor => exact define_journaled rfl rfl rfl
  | defineEndpoint definition => exact define_journaled rfl rfl rfl
  | defineLink definition => exact define_journaled rfl rfl rfl
  | defineQueue definition => exact define_journaled rfl rfl rfl
  | defineHop definition => exact define_journaled rfl rfl rfl
  | defineGeneration definition => exact define_journaled rfl rfl rfl
  | definePath definition => exact define_journaled rfl rfl rfl
  | defineClockDomain definition => exact define_journaled rfl rfl rfl
  | recordClockSync sync =>
    rw [System.call, ← outcome_status (s.recordClockSync now sync)]
    exact define_journaled rfl rfl rfl
  | ingest request => exact s.ingest_journaled now request
  | createBaseline request => exact s.createBaseline_journaled now request
  | flush =>
    intro live hbacked
    have hflush : s.call now .flush = s.sync live.writer := by
      unfold System.call flush
      rw [hbacked.writer]
    rw [hflush]
    exact sync_journaled hbacked.writer live hbacked
  | shutdown => exact absurd rfl hopen

/-! ### Runs -/

theorem System.Backed.call {s : System} {live : Live} (h : s.Backed live) (hordered : live.Ordered) (now : Nanos)
    {c : Call} (hopen : c ≠ .shutdown) : ∃ ops : List WriterOp,
      (s.call now c).2.Backed (ops.foldl Live.step live) ∧ live.Extends (ops.foldl Live.step live) ∧
        (ops.foldl Live.step live).Ordered ∧
        ((s.call now c).1.isOk = true →
          (ops.foldl Live.step live).appended = live.appended ++ c.entries s.engine now ∧
            (c.syncs s.engine.config = true →
              (ops.foldl Live.step live).durable = (ops.foldl Live.step live).appended)) := by
  obtain ⟨ops, hafter, hok⟩ := s.call_journaled now hopen live h
  obtain ⟨hextends, hordered'⟩ := Live.foldl_extends hordered ops
  refine ⟨ops, hafter, hextends, hordered', fun hdone => ?_⟩
  have hstatus : (s.call now c).1 = .ok () := by
    cases hstatus : (s.call now c).1 with
    | ok u => rfl
    | error e =>
      rw [hstatus] at hdone
      cases hdone
  obtain ⟨hgains, hsynced⟩ := hok hstatus
  exact ⟨hgains.appended, hsynced⟩

/-- A run is a piece of the session, in which everything acknowledged was appended, and with durable writes is
durable. -/
theorem System.Backed.run {s : System} {live : Live} (h : s.Backed live) (hordered : live.Ordered) {past : List Entry}
    (happended : past.Sublist live.appended)
    (hdurable : s.engine.config.durableWrites = true → past.Sublist live.durable) {calls : List (Nanos × Call)}
    (hopen : ∀ c ∈ calls, c.2 ≠ .shutdown) : ∃ ops : List WriterOp,
      (calls.foldl System.step s).Backed (ops.foldl Live.step live) ∧ (ops.foldl Live.step live).Ordered ∧
        (past ++ acknowledged s calls).Sublist (ops.foldl Live.step live).appended ∧
        (s.engine.config.durableWrites = true →
          (past ++ acknowledged s calls).Sublist (ops.foldl Live.step live).durable) := by
  induction calls generalizing s live past with
  | nil => exact ⟨[], h, hordered, by simpa using happended, by simpa using hdurable⟩
  | cons c calls ih =>
    rw [List.forall_mem_cons] at hopen
    obtain ⟨ops, hafter, hextends, hordered', hok⟩ := h.call hordered c.1 hopen.1
    have hafter : (s.step c).Backed (ops.foldl Live.step live) := hafter
    have hconfig : (s.step c).engine.config = s.engine.config := s.call_config c.1 c.2
    rw [acknowledged_cons]
    -- The records of this call join the past ones.
    obtain ⟨hnext, hnextDurable⟩ : (past ++ if (s.call c.1 c.2).1.isOk then c.2.entries s.engine c.1 else []).Sublist
          (ops.foldl Live.step live).appended ∧
        (s.engine.config.durableWrites = true →
          (past ++ if (s.call c.1 c.2).1.isOk then c.2.entries s.engine c.1 else []).Sublist
            (ops.foldl Live.step live).durable) := by
      split_ifs with hdone
      · obtain ⟨hentries, hsynced⟩ := hok hdone
        have hall : (past ++ c.2.entries s.engine c.1).Sublist (ops.foldl Live.step live).appended := by
          rw [hentries]
          exact happended.append (List.Sublist.refl _)
        refine ⟨hall, fun hwrites => ?_⟩
        have hsyncs : c.2.syncs s.engine.config = true := by
          unfold Call.syncs
          split
          · rfl
          · exact hwrites
        rw [hsynced hsyncs]
        exact hall
      · rw [List.append_nil]
        exact ⟨happended.trans hextends.appended.sublist, fun hwrites => (hdurable hwrites).trans hextends.durable.sublist⟩
    rw [← hconfig] at hnextDurable
    obtain ⟨more, hlast, hordered'', hrest, hrestDurable⟩ := ih hafter hordered' hnext hnextDurable hopen.2
    rw [hconfig] at hrestDurable
    rw [← List.append_assoc]
    refine ⟨ops ++ more, ?_, ?_, ?_, ?_⟩
    · rw [List.foldl_append]
      exact hlast
    · rw [List.foldl_append]
      exact hordered''
    · rw [List.foldl_append]
      exact hrest
    · rw [List.foldl_append]
      exact hrestDurable

theorem Engine.loadRecord_running {e e' : Engine} {record : StoredRecord} (h : e.loadRecord record = .ok e') :
    e'.shutDown = e.shutDown := by
  unfold loadRecord at h
  obtain ⟨document, -, h⟩ := bind_eq_ok_iff.mp h
  cases htype : record.type <;> rw [htype] at h <;> simp only at h
  case measurementCurrent =>
    obtain ⟨value, -, h⟩ := bind_eq_ok_iff.mp h
    cases h
    rfl
  case measurementHistorical =>
    obtain ⟨value, -, h⟩ := bind_eq_ok_iff.mp h
    cases h
    rfl
  case baseline =>
    obtain ⟨value, -, h⟩ := bind_eq_ok_iff.mp h
    obtain ⟨added, -, h⟩ := bind_eq_ok_iff.mp h
    cases h
    rfl
  case fenceState =>
    obtain ⟨value, -, h⟩ := bind_eq_ok_iff.mp h
    cases h
    rfl
  all_goals
    obtain ⟨x, -, -, rfl⟩ := reload_ok h
    rfl

theorem Engine.loadRecords_running {e e' : Engine} {records : List StoredRecord} (h : e.loadRecords records = .ok e') :
    e'.shutDown = e.shutDown := by
  induction records generalizing e with
  | nil =>
    cases h
    rfl
  | cons record rest ih =>
    obtain ⟨next, hnext, h⟩ := bind_eq_ok_iff.mp h
    exact (ih h).trans (loadRecord_running hnext)

theorem create_backed {config : RuntimeConfig} {now : Nanos} {d : Directory} {s : System}
    (hcreate : create config now d = .ok s) {directory : Bytes} (hstore : config.storeDirectory = some directory) :
    s.engine.config = config ∧ ∃ w d', StoreWriter.open (s.engine.storeConfig directory true) now d = .ok (w, d') ∧
      s.Backed { writer := w, directory := d' } := by
  unfold create at hcreate
  obtain ⟨-, -, hcreate⟩ := bind_eq_ok_iff.mp hcreate
  rw [hstore] at hcreate
  dsimp only at hcreate
  split_ifs at hcreate
  · obtain ⟨e, he, hcreate⟩ := bind_eq_ok_iff.mp hcreate
    obtain ⟨opened, hopened, hcreate⟩ := bind_eq_ok_iff.mp hcreate
    cases hcreate
    have hloaded := Engine.loadStore_ok he
    exact ⟨Engine.loadRecords_config hloaded, opened.1, opened.2, hopened, rfl, rfl, Engine.loadRecords_running hloaded⟩
  · obtain ⟨e, he, hcreate⟩ := bind_eq_ok_iff.mp hcreate
    obtain ⟨opened, hopened, hcreate⟩ := bind_eq_ok_iff.mp hcreate
    cases he
    cases hcreate
    exact ⟨rfl, opened.1, opened.2, hopened, rfl, rfl, rfl⟩

/-- The run ends with everything acknowledged made durable. -/
def Settled (config : RuntimeConfig) (calls : List (Nanos × Call)) : Prop :=
  config.durableWrites = true ∨ ∃ before now, calls = before ++ [(now, .flush)]

/-- What a crash of the runtime leaves of its store. -/
def System.crash (s : System) (closing : Bool) (keep : Nat) : Directory :=
  match s.engine.writer with
  | none => s.directory
  | some w => crashDirectory w s.directory closing keep

theorem acknowledged_append (s : System) (calls more : List (Nanos × Call)) :
    acknowledged s (calls ++ more) = acknowledged s calls ++ acknowledged (calls.foldl System.step s) more := by
  unfold acknowledged
  rw [Lib.steps_append, List.flatMap_append]

/-- A settled run is a piece of the session after which everything acknowledged is durable. -/
theorem settled_durable {s : System} {live : Live} (h : s.Backed live) (hordered : live.Ordered)
    {calls : List (Nanos × Call)} (hopen : ∀ c ∈ calls, c.2 ≠ .shutdown) (hsettled : Settled s.engine.config calls) :
    ∃ ops : List WriterOp, (calls.foldl System.step s).Backed (ops.foldl Live.step live) ∧
      (ops.foldl Live.step live).Ordered ∧ (acknowledged s calls).Sublist (ops.foldl Live.step live).durable := by
  rcases hsettled with hwrites | ⟨before, now, rfl⟩
  · obtain ⟨ops, hafter, hordered', -, hdurable⟩ :=
      h.run hordered (List.nil_sublist _) (fun _ => List.nil_sublist _) hopen
    exact ⟨ops, hafter, hordered', hdurable hwrites⟩
  · rw [List.forall_mem_append] at hopen
    obtain ⟨ops, hafter, hordered', happended, -⟩ :=
      h.run hordered (List.nil_sublist _) (fun _ => List.nil_sublist _) hopen.1
    obtain ⟨more, hlast, hextends, hordered'', hok⟩ := hafter.call hordered' now (hopen.2 _ List.mem_cons_self)
    have hflushed : ((before.foldl System.step s).call now .flush).1.isOk = true := by
      show (System.flush _).1.isOk = true
      unfold System.flush
      rw [hafter.1]
      exact congrArg Except.isOk (System.sync_spec _ hafter.writer).1
    obtain ⟨hentries, hsynced⟩ := hok hflushed
    refine ⟨ops ++ more, ?_, ?_, ?_⟩
    · rw [List.foldl_append, List.foldl_append]
      exact hlast
    · rw [List.foldl_append]
      exact hordered''
    · have hlastCall : acknowledged (before.foldl System.step s) [(now, .flush)] = [] := by
        rw [acknowledged_cons, hflushed]
        rfl
      rw [List.foldl_append, acknowledged_append, hlastCall, List.append_nil, hsynced rfl]
      exact happended.trans hextends.appended.sublist

/-- The engine runs a writer session of its store. Whatever that session does after a settled run, the call under way
included, a crash leaves every acknowledged record readable, after all that was durable before. -/
theorem acknowledged_survive {h : History} (hreadable : Readable h) {config : RuntimeConfig} {now : Nanos} {s : System}
    (hcreate : create config now h.directory = .ok s) {directory : Bytes}
    (hstore : config.storeDirectory = some directory) {calls : List (Nanos × Call)}
    (hopen : ∀ c ∈ calls, c.2 ≠ .shutdown) (hsettled : Settled config calls) :
    ∃ ops : List WriterOp,
      (∀ closing keep, (h.session ⟨s.engine.storeConfig directory true, now, ops, .crash closing keep⟩).directory =
        (calls.foldl System.step s).crash closing keep) ∧
      ∀ (more : List WriterOp) (closing : Bool) (keep : Nat) (after : History),
        after = h.session ⟨s.engine.storeConfig directory true, now, ops ++ more, .crash closing keep⟩ →
        after.directory.files.length < 2 ^ 32 - 1 → after.overran = false →
          (h.durable ++ acknowledged s calls).Sublist ((readAll after.directory).1.map StoredRecord.entry) := by
  obtain ⟨hconfig, w, d, hwriter, hbacked⟩ := create_backed hcreate hstore
  rw [← hconfig] at hsettled
  obtain ⟨ops, hafter, hordered, hdurable⟩ := settled_durable hbacked List.prefix_rfl hopen hsettled
  refine ⟨ops, ?_, ?_⟩
  · intro closing keep
    simp only [History.session, hwriter, WriterSession.run, System.crash, hafter.writer, hafter.directory]
  · rintro more closing keep after rfl hbound hcount
    have hreturned := session_returned hreadable hbound hcount
    simp only [History.session, hwriter, WriterSession.run, List.foldl_append] at hreturned ⊢
    have hlater := (Live.foldl_extends hordered more).1.durable
    exact ((List.Sublist.refl _).append (hdurable.trans hlater.sublist)).trans hreturned

/-- The deployment survives every crash after its last call. -/
theorem deployment_survives :
    (acknowledged storedStart deploymentCalls).length = 9 ∧
      ∃ ops : List WriterOp, ∀ (more : List WriterOp) (closing : Bool) (keep : Nat) (after : History),
        after = ({} : History).session
          ⟨storedStart.engine.storeConfig (text "store") true, 0, ops ++ more, .crash closing keep⟩ →
        after.directory.files.length < 2 ^ 32 - 1 → after.overran = false →
          (acknowledged storedStart deploymentCalls).Sublist ((readAll after.directory).1.map StoredRecord.entry) := by
  obtain ⟨ops, -, hread⟩ := @acknowledged_survive {} readable_empty storedConfig 0 storedStart stored_created
    (text "store") rfl deploymentCalls deployment_open (Or.inl rfl)
  rw [show ({} : History).durable ++ acknowledged storedStart deploymentCalls = acknowledged storedStart deploymentCalls from
    List.nil_append _] at hread
  exact ⟨deployment_length, ops, hread⟩

end LatencyObservatory.Runtime
