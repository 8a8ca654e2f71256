import LatencyObservatory.Runtime.Journal
import LatencyObservatory.Runtime.Replay
import LatencyObservatory.Store.Place

/-!
# Restarts

A run in which every call succeeds and which ends shut down leaves the records of its calls in the store, in complete
segments and beside a manifest that opens. The next engine loads them, and since the records of each call do to it what
the call did, it starts where the last one stopped.
-/

namespace LatencyObservatory.Store
open LatencyObservatory.Core LatencyObservatory.Lib

/-- A store that was closed, with this log in complete segments. -/
structure Directory.Carries (d : Directory) (log : List Entry) : Prop where
  kept : d.Kept
  segments : ∃ segments overran, Written { directory := d, written := log, overran } segments

theorem carries_empty : Directory.empty.Carries [] :=
  ⟨kept_empty, [], false, written_empty⟩

theorem Directory.Carries.log_eq {d : Directory} {log : List Entry} (h : d.Carries log)
    (hfiles : d.files.length < 2 ^ 32 - 1) (hlog : log.length < 2 ^ 32) :
    (readAll d).1.map StoredRecord.entry = log := by
  obtain ⟨segments, overran, hwritten⟩ := h.segments
  refine ((roundTrips_of_written hwritten (by dsimp only; omega)).mpr ?_).1
  rw [← Bool.not_eq_true, hwritten.overran]
  -- A segment cannot hold more records than the log.
  rintro ⟨segment, hmem, hfull⟩
  have hpart : segment.entries.length ≤ (segments.flatMap Segment.entries).length := by
    rw [List.length_flatMap]
    exact List.le_sum_of_mem (List.mem_map_of_mem hmem)
  rw [← hwritten.written] at hpart
  have hsize : 2 ^ 32 ≤ segment.entries.length := hfull
  dsimp only at hpart
  omega

theorem Directory.Carries.session {d : Directory} {log : List Entry} (h : d.Carries log) {config : StoreConfig}
    (hdigest : PlainDigest config.policyDigest) {now : Nanos} {w : StoreWriter} {d' : Directory}
    (hopen : StoreWriter.open config now d = .ok (w, d')) (ops : List WriterOp) {closed : Directory}
    (hclosed : closed = ((ops.foldl Live.step { writer := w, directory := d' }).writer.close
      (ops.foldl Live.step { writer := w, directory := d' }).directory).2.2)
    (hfiles : closed.files.length < 2 ^ 32 - 1) :
    closed.Carries (log ++ (ops.foldl Live.step { writer := w, directory := d' }).appended) ∧
      closed.manifest.isSome = true := by
  obtain ⟨segments, overran, hwritten⟩ := h.segments
  obtain ⟨hopened, hmanifest⟩ := open_kept h.kept hdigest hopen
  have hplace : closed.place = d'.place := by
    rw [hclosed]
    exact (close_place _ _).trans (Live.foldl_place _ _)
  have hsession : History.session { directory := d, written := log, overran } ⟨config, now, ops, .close⟩ =
      { directory := closed
        written := log ++ (ops.foldl Live.step { writer := w, directory := d' }).appended
        durable := (ops.foldl Live.step { writer := w, directory := d' }).appended
        overran := overran || (ops.foldl Live.step { writer := w, directory := d' }).overran } := by
    simp only [History.session, hopen, WriterSession.run, hclosed, List.nil_append]
  obtain ⟨after, hafter⟩ := @session_written _ _ hwritten ⟨config, now, ops, .close⟩ rfl (by rw [hsession]; exact hfiles)
  rw [hsession] at hafter
  refine ⟨⟨hopened.of_place hplace, after, _, hafter.files, hafter.numbered, hafter.written, hafter.overran⟩, ?_⟩
  exact (congrArg Option.isSome (congrArg Prod.snd hplace)).trans hmanifest

end LatencyObservatory.Store

namespace LatencyObservatory.Runtime

open LatencyObservatory.Core LatencyObservatory.Model LatencyObservatory.Ingest LatencyObservatory.Stats
open LatencyObservatory.Baselines LatencyObservatory.Store

/-! ### Runs without a failure -/

/-- The engine is in this session, or has closed it. -/
def System.Follows (s : System) (live : Live) : Prop :=
  s.Backed live ∨
    (s.engine.shutDown = true ∧ s.engine.writer = none ∧ s.directory = (live.writer.close live.directory).2.2)

theorem call_stopped {s : System} (hdown : s.engine.shutDown = true) (hwriter : s.engine.writer = none) {now : Nanos}
    {c : Call} (hok : (s.call now c).1 = .ok ()) : (s.call now c).2 = s ∧ c.entries s.engine now = [] := by
  have hdefine : ∀ {α ι : Type} (type : RecordType) (write : JsonWriter → α → JsonWriter) (value : α)
      (register : Engine → α → Except Error ι × Engine),
      (outcome (s.define now type write value register)).1 ≠ .ok () := by
    intro α ι type write value register
    unfold System.define
    rw [if_pos hdown]
    simp [outcome, Except.map]
  cases c with
  | defineSource descriptor => exact absurd hok (hdefine _ _ _ _)
  | defineEndpoint definition => exact absurd hok (hdefine _ _ _ _)
  | defineLink definition => exact absurd hok (hdefine _ _ _ _)
  | defineQueue definition => exact absurd hok (hdefine _ _ _ _)
  | defineHop definition => exact absurd hok (hdefine _ _ _ _)
  | defineGeneration definition => exact absurd hok (hdefine _ _ _ _)
  | definePath definition => exact absurd hok (hdefine _ _ _ _)
  | defineClockDomain definition => exact absurd hok (hdefine _ _ _ _)
  | recordClockSync sync =>
    rw [System.call, ← System.outcome_status (s.recordClockSync now sync)] at hok
    exact absurd hok (hdefine _ _ _ _)
  | ingest request =>
    have hrefused : s.ingest now request = (.error System.shuttingDown, s) := by
      unfold System.ingest
      rw [if_pos hdown]
    exact absurd hok (by simp [System.call, hrefused, outcome, Except.map])
  | createBaseline request =>
    have hrefused : s.createBaseline now request = (.error System.shuttingDown, s) := by
      unfold System.createBaseline
      rw [if_pos hdown]
    exact absurd hok (by simp [System.call, hrefused, outcome, Except.map])
  | flush =>
    refine ⟨?_, rfl⟩
    have hflush : s.flush = (.ok (), s) := by
      unfold System.flush
      rw [hwriter]
    exact congrArg Prod.snd hflush
  | shutdown =>
    refine ⟨?_, rfl⟩
    have hshutdown : s.shutdown = (.ok (), s) := by
      unfold System.shutdown
      rw [if_pos hdown]
    exact congrArg Prod.snd hshutdown

theorem close_ok (w : StoreWriter) (d : Directory) : (w.close d).1 = .ok () := by
  unfold StoreWriter.close
  split_ifs <;> rfl

theorem close_length (w : StoreWriter) (d : Directory) : (w.close d).2.2.files.length = d.files.length := by
  unfold StoreWriter.close
  split_ifs
  · rfl
  · exact closeSegment_length w d

theorem System.Backed.shutdown {s : System} {live : Live} (h : s.Backed live) : s.shutdown.2.Follows live := by
  right
  have hclose := close_ok live.writer live.directory
  unfold System.shutdown
  rw [if_neg (by simp [h.running])]
  dsimp only
  rw [h.writer, h.directory]
  dsimp only
  rcases hresult : live.writer.close live.directory with ⟨status, w, d⟩
  rw [hresult] at hclose
  cases hclose
  exact ⟨rfl, rfl, rfl⟩

theorem System.Follows.call {s : System} {live : Live} (h : s.Follows live) {now : Nanos} {c : Call}
    (hok : (s.call now c).1 = .ok ()) : ∃ ops : List WriterOp, (s.call now c).2.Follows (ops.foldl Live.step live) ∧
      live.Gains (ops.foldl Live.step live) (c.entries s.engine now) := by
  rcases h with hbacked | ⟨hdown, hwriter, hdirectory⟩
  · by_cases hstop : c = .shutdown
    · subst hstop
      exact ⟨[], hbacked.shutdown, .refl live⟩
    · obtain ⟨ops, hafter, hentries⟩ := s.call_journaled now hstop live hbacked
      exact ⟨ops, Or.inl hafter, (hentries hok).1⟩
  · obtain ⟨hsame, hnone⟩ := call_stopped hdown hwriter hok
    refine ⟨[], ?_, ?_⟩
    · rw [hsame]
      exact Or.inr ⟨hdown, hwriter, hdirectory⟩
    · rw [hnone]
      exact .refl live

theorem System.Follows.run {s : System} {live : Live} (h : s.Follows live) {calls : List (Nanos × Call)}
    (hok : Succeeds s calls) : ∃ ops : List WriterOp, (calls.foldl System.step s).Follows (ops.foldl Live.step live) ∧
      live.Gains (ops.foldl Live.step live) (acknowledged s calls) := by
  induction calls generalizing s live with
  | nil => exact ⟨[], h, .refl live⟩
  | cons c calls ih =>
    rw [Succeeds.cons_iff] at hok
    obtain ⟨ops, hafter, hgains⟩ := h.call hok.1
    obtain ⟨more, hlast, hrest⟩ := @ih (s.step c) _ hafter hok.2
    refine ⟨ops ++ more, ?_, ?_⟩
    · rw [List.foldl_append]
      exact hlast
    · rw [List.foldl_append, acknowledged_cons, hok.1]
      exact hgains.trans hrest

theorem life_carries {d : Directory} {log : List Entry} (hlog : d.Carries log) {config : RuntimeConfig} {now : Nanos}
    {s : System} (hcreate : create config now d = .ok s) {directory : Bytes}
    (hstore : config.storeDirectory = some directory) {calls : List (Nanos × Call)} (hok : Succeeds s calls)
    (hdown : (calls.foldl System.step s).engine.shutDown = true)
    (hfiles : (calls.foldl System.step s).directory.files.length < 2 ^ 32 - 1) :
    (calls.foldl System.step s).directory.Carries (log ++ acknowledged s calls) ∧
      (calls.foldl System.step s).directory.manifest.isSome = true := by
  obtain ⟨-, w, d', hopen, hbacked⟩ := create_backed hcreate hstore
  obtain ⟨ops, hafter, hgains⟩ := System.Follows.run (Or.inl hbacked) hok
  rcases hafter with hrunning | ⟨-, -, hclosed⟩
  · rw [hrunning.running] at hdown
    cases hdown
  · have happended := hgains.appended
    rw [List.nil_append] at happended
    rw [← happended]
    exact hlog.session (policy_digest_plain _) hopen ops hclosed hfiles

theorem life_files {d : Directory} {config : RuntimeConfig} {now : Nanos} {s : System}
    (hcreate : create config now d = .ok s) {directory : Bytes} (hstore : config.storeDirectory = some directory)
    {calls : List (Nanos × Call)} (hok : Succeeds s calls) :
    (calls.foldl System.step s).directory.files.length ≤ d.files.length + (acknowledged s calls).length := by
  obtain ⟨-, w, d', hopen, hbacked⟩ := create_backed hcreate hstore
  obtain ⟨ops, hafter, hgains⟩ := System.Follows.run (Or.inl hbacked) hok
  have hfiles := hgains.files
  rw [(open_spec hopen).1] at hfiles
  rcases hafter with hrunning | ⟨-, -, hclosed⟩
  · rw [hrunning.directory]
    exact hfiles
  · rw [hclosed, close_length]
    exact hfiles

/-! ### The next engine -/

/-- The engine that starts to load the store. -/
def Engine.starting (config : RuntimeConfig) (now : Nanos) (d : Directory) : Engine :=
  { Engine.new config ⟨now, referenceClockDomain⟩ with recovery := (readAll d).2 }

theorem create_of_loaded {d : Directory} (hkept : d.Kept) (hmanifest : d.manifest.isSome = true)
    {config : RuntimeConfig} (hvalid : config.policy.validate = .ok ()) {directory : Bytes}
    (hstore : config.storeDirectory = some directory) (hsome : directory ≠ []) {now : Nanos}
    (hcapacity : (readAll d).1.length ≤ config.policy.limits.maxTotalSamples) {e : Engine}
    (hload : (Engine.starting config now d).loadRecords (readAll d).1 = .ok e) :
    ∃ s, create config now d = .ok s ∧ s.engine.memory = e.memory := by
  obtain ⟨digest, -, hread⟩ := @Directory.Kept.read d hkept hmanifest
    ((Engine.new config ⟨now, referenceClockDomain⟩).storeConfig directory false) hsome
  obtain ⟨w, d', hopen⟩ := @Directory.Kept.open d hkept (e.storeConfig directory true) hsome rfl now
  refine ⟨⟨{ e with writer := some w }, d'⟩, ?_, rfl⟩
  have hloaded : (Engine.new config ⟨now, referenceClockDomain⟩).loadStore directory d = .ok e := by
    unfold Engine.loadStore
    refine bind_eq_ok_iff.mpr ⟨_, hread, ?_⟩
    have hroom : ¬(readAll d).1.length > (Engine.new config ⟨now, referenceClockDomain⟩).recordCapacity :=
      Nat.not_lt.mpr hcapacity
    dsimp only
    rw [if_neg hroom]
    exact hload
  unfold create
  refine bind_eq_ok_iff.mpr ⟨(), hvalid, ?_⟩
  rw [hstore]
  dsimp only
  rw [if_pos hmanifest]
  exact bind_eq_ok_iff.mpr ⟨e, hloaded, bind_eq_ok_iff.mpr ⟨_, hopen, rfl⟩⟩

/-! ### Repeating a run -/

/-- Every call of the run hands texts to the store that the decoders take back, at a depth that the policy allows. -/
def Repeatable (s : System) (calls : List (Nanos × Call)) : Prop :=
  ∀ p ∈ Lib.steps System.step s calls,
    p.2.2.Readable p.1.engine ∧ p.2.2.nesting ≤ p.1.engine.policy.limits.maxJsonDepth

instance (s : System) (calls : List (Nanos × Call)) : Decidable (Repeatable s calls) :=
  inferInstanceAs (Decidable (∀ p ∈ Lib.steps System.step s calls,
    p.2.2.Readable p.1.engine ∧ p.2.2.nesting ≤ p.1.engine.policy.limits.maxJsonDepth))

theorem Engine.loadRecords_length {e e' : Engine} {stored : List StoredRecord} (h : e.loadRecords stored = .ok e') :
    e'.records.length ≤ e.records.length + stored.length := by
  induction stored generalizing e with
  | nil =>
    cases h
    exact Nat.le_refl _
  | cons record rest ih =>
    obtain ⟨next, hnext, hrest⟩ := bind_eq_ok_iff.mp h
    have hone : next.records.length ≤ e.records.length + 1 := by
      obtain ⟨hmemory, -⟩ := loadRecord_load hnext
      have hrecords : ∀ m : Memory, Load e m → m.records.length ≤ e.records.length + 1 := by
        intro m hm
        cases hm with
        | measurement record =>
          show (e.records ++ [e.reclassifyLoaded record]).length ≤ _
          rw [List.length_append, List.length_singleton]
        | _ => exact Nat.le_succ _
      exact hrecords _ hmemory
    have hmore := ih hrest
    rw [List.length_cons]
    omega

theorem call_reached {s : System} (h : Fences.Reached s.engine.policy s.engine.fences) (now : Nanos) (c : Call) :
    Fences.Reached (s.call now c).2.engine.policy (s.call now c).2.engine.fences := by
  have hpolicy : (s.call now c).2.engine.policy = s.engine.policy := congrArg RuntimeConfig.policy (s.call_config now c)
  rw [hpolicy]
  have hchange : ∀ m : Memory, Change s.engine c m → Fences.Reached s.engine.policy m.fences := by
    intro m hm
    cases hm with
    | batch request admission stored htaken hstored => exact admitted_reached htaken h
    | _ => exact h
  exact hchange _ (s.call_change now c)

section Replay

variable {R : MeasurementRecord → MeasurementRecord → Prop} {B : Baseline → Baseline → Prop}

/-- **A run again.** The records of a run in which every call succeeded do to an engine that is alike what the run
did. -/
theorem run_replayed (hR : ∀ (e : Engine) (record : MeasurementRecord), R record (e.reclassifyLoaded record.persisted))
    (hB : ∀ b : Baseline, B b b.reloaded) {s : System} {calls : List (Nanos × Call)} (hok : Succeeds s calls)
    (hrepeatable : Repeatable s calls) (hfences : Fences.Reached s.engine.policy s.engine.fences) {e : Engine}
    (hrecords : e.records.length + (acknowledged s calls).length < 2 ^ 63) (hpolicy : e.policy = s.engine.policy)
    (halike : s.engine.memory.Alike R B e.memory) {stored : List StoredRecord}
    (hstored : stored.map StoredRecord.entry = acknowledged s calls) :
    ∃ e', e.loadRecords stored = .ok e' ∧ (calls.foldl System.step s).engine.memory.Alike R B e'.memory := by
  induction calls generalizing s e stored with
  | nil =>
    rw [acknowledged_nil, List.map_eq_nil_iff] at hstored
    subst hstored
    exact ⟨e, rfl, halike⟩
  | cons c calls ih =>
    have hfirst : (s.call c.1 c.2).1 = .ok () := hok _ List.mem_cons_self
    obtain ⟨hreadable, hnesting⟩ := hrepeatable _ List.mem_cons_self
    have hentries : acknowledged s (c :: calls) = c.2.entries s.engine c.1 ++ acknowledged (s.step c) calls := by
      rw [acknowledged_cons, hfirst]
      rfl
    rw [hentries] at hstored hrecords
    obtain ⟨first, rest, rfl, hthis, hothers⟩ := List.map_eq_append_iff.mp hstored
    rw [List.length_append] at hrecords
    have hfew : s.engine.records.length < 2 ^ 63 := by
      have hsame : s.engine.records.length = e.records.length := halike.records.length_eq
      omega
    obtain ⟨next, hnext, hafter⟩ :=
      call_replayed hR hB hfirst hreadable hnesting hfences hfew hpolicy halike hthis
    have hgrown := Engine.loadRecords_length hnext
    have hcount : first.length = (c.2.entries s.engine c.1).length := by rw [← hthis, List.length_map]
    have hsame : next.policy = (s.step c).engine.policy := by
      have hloaded : next.policy = e.policy := congrArg RuntimeConfig.policy (Engine.loadRecords_config hnext)
      have hcalled : (s.step c).engine.policy = s.engine.policy := congrArg RuntimeConfig.policy (s.call_config c.1 c.2)
      rw [hloaded, hpolicy, hcalled]
    obtain ⟨e', he', hlast⟩ := @ih (s.step c) (fun p hp => hok p (List.mem_cons_of_mem _ hp))
      (fun p hp => hrepeatable p (List.mem_cons_of_mem _ hp)) (call_reached hfences c.1 c.2) next (by omega) hsame
      hafter rest hothers
    exact ⟨e', (Engine.loadRecords_append hnext rest).trans he', hlast⟩

/-- What a log makes of a new engine, up to what a restart changes. -/
def Loads (R : MeasurementRecord → MeasurementRecord → Prop) (B : Baseline → Baseline → Prop) (policy : RuntimePolicy)
    (log : List Entry) (m : Memory) : Prop :=
  ∀ (config : RuntimeConfig) (now : Nanos) (d : Directory), config.policy = policy →
    ∀ stored : List StoredRecord, stored.map StoredRecord.entry = log →
      ∃ e, (Engine.starting config now d).loadRecords stored = .ok e ∧ m.Alike R B e.memory

theorem new_alike {config config' : RuntimeConfig} (hpolicy : config'.policy = config.policy) (start start' : Timestamp) :
    (Engine.new config start).memory.Alike R B (Engine.new config' start').memory := by
  unfold Engine.new
  rw [hpolicy]
  have hnone : ∀ id : BaselineId, (∅ : Std.ExtTreeMap BaselineId Baseline)[id]? = none :=
    fun id => Std.ExtTreeMap.getElem?_empty
  refine ⟨rfl, rfl, rfl, .nil, rfl, rfl, rfl, fun id => ?_, rfl⟩
  show Option.Rel B (∅ : Std.ExtTreeMap BaselineId Baseline)[id]? (∅ : Std.ExtTreeMap BaselineId Baseline)[id]?
  rw [hnone]
  exact .none

theorem loads_new (config : RuntimeConfig) (start : Timestamp) :
    Loads R B config.policy [] (Engine.new config start).memory := by
  intro config' now d hpolicy stored hstored
  rw [List.map_eq_nil_iff] at hstored
  subst hstored
  exact ⟨_, rfl, new_alike hpolicy start ⟨now, referenceClockDomain⟩⟩

theorem Loads.run (hR : ∀ (e : Engine) (record : MeasurementRecord), R record (e.reclassifyLoaded record.persisted))
    (hB : ∀ b : Baseline, B b b.reloaded) {s : System} {log : List Entry}
    (hlog : Loads R B s.engine.policy log s.engine.memory) {calls : List (Nanos × Call)} (hok : Succeeds s calls)
    (hrepeatable : Repeatable s calls) (hfences : Fences.Reached s.engine.policy s.engine.fences)
    (hcount : (log ++ acknowledged s calls).length < 2 ^ 63) :
    Loads R B s.engine.policy (log ++ acknowledged s calls) (calls.foldl System.step s).engine.memory := by
  intro config now d hpolicy stored hstored
  obtain ⟨first, rest, rfl, hfirst, hrest⟩ := List.map_eq_append_iff.mp hstored
  obtain ⟨e, he, halike⟩ := hlog config now d hpolicy first hfirst
  have hlength := Engine.loadRecords_length he
  have hnone : (Engine.starting config now d).records.length = 0 := rfl
  have hsize : first.length = log.length := by rw [← hfirst, List.length_map]
  have hconfig : e.config = config := Engine.loadRecords_config he
  rw [List.length_append] at hcount
  obtain ⟨e', he', hlast⟩ := run_replayed hR hB hok hrepeatable hfences (by omega)
    ((congrArg RuntimeConfig.policy hconfig).trans hpolicy) halike hrest
  exact ⟨e', (Engine.loadRecords_append he rest).trans he', hlast⟩

theorem Loads.create {config : RuntimeConfig} {log : List Entry} {m : Memory} (hlog : Loads R B config.policy log m)
    {d : Directory} (hcarries : d.Carries log) (hmanifest : d.manifest.isSome = true)
    (hvalid : config.policy.validate = .ok ()) {directory : Bytes} (hstore : config.storeDirectory = some directory)
    (hsome : directory ≠ []) (hcapacity : log.length ≤ config.policy.limits.maxTotalSamples)
    (hcount : log.length < 2 ^ 32) (hfiles : d.files.length < 2 ^ 32 - 1) (now : Nanos) :
    ∃ s, create config now d = .ok s ∧ m.Alike R B s.engine.memory := by
  have hread := hcarries.log_eq hfiles hcount
  obtain ⟨e, he, halike⟩ := hlog config now d rfl _ hread
  rw [← hread, List.length_map] at hcapacity
  obtain ⟨s, hs, hmemory⟩ := create_of_loaded hcarries.kept hmanifest hvalid hstore hsome hcapacity he
  refine ⟨s, hs, ?_⟩
  rw [hmemory]
  exact halike

end Replay

/-! ### What comes back -/

/-- A store path where nothing is stored yet. -/
structure Directory.Unused (d : Directory) : Prop where
  manifest : d.manifest = none
  kind : d.kind ≠ .other
  files : d.files = []

theorem Directory.Unused.carries {d : Directory} (h : Directory.Unused d) : d.Carries [] where
  kept := Or.inl ⟨h.manifest, h.kind⟩
  segments := ⟨[], false, h.files, by rw [h.files]; exact numbered_nil, rfl, by simp⟩

theorem create_unused {d : Directory} (h : d.manifest = none) {config : RuntimeConfig} {now : Nanos} {s : System}
    (hcreate : create config now d = .ok s) :
    s.engine.memory = (Engine.new config ⟨now, referenceClockDomain⟩).memory ∧ s.engine.policy = config.policy := by
  unfold create at hcreate
  obtain ⟨-, -, hcreate⟩ := bind_eq_ok_iff.mp hcreate
  dsimp only at hcreate
  split at hcreate
  · cases hcreate
    exact ⟨rfl, rfl⟩
  · rw [h] at hcreate
    obtain ⟨e, he, hcreate⟩ := bind_eq_ok_iff.mp hcreate
    obtain ⟨opened, -, hcreate⟩ := bind_eq_ok_iff.mp hcreate
    cases he
    cases hcreate
    exact ⟨rfl, rfl⟩

/-- A record as a restart leaves it: with another freshness, and saying that it was loaded. -/
def Redated (record restored : MeasurementRecord) : Prop :=
  ∃ freshness, restored = { record with
    evidence :=
      let evidence := (record.evidence.setFreshness freshness).addReason .restartLoadedEvidence
      if !evidence.usable && evidence.state == .observed then evidence.addReason .evidenceStale else evidence }

/-- Everything is back. -/
structure Memory.Restored (m m' : Memory) : Prop where
  catalog : m'.catalog = m.catalog
  clocks : m'.clocks = m.clocks
  fences : m'.fences = m.fences
  baselines : m'.baselines = m.baselines
  records : List.Forall₂ Redated m.records m'.records

/-- A record that was loaded, with its freshness as some engine dates it. -/
def Loaded (record restored : MeasurementRecord) : Prop :=
  ∃ e : Engine, restored = e.reclassifyLoaded record.persisted

theorem loaded_reclassified (e : Engine) (record : MeasurementRecord) :
    Loaded record (e.reclassifyLoaded record.persisted) :=
  ⟨e, rfl⟩

/-- A baseline that was loaded. -/
def Reread (b restored : Baseline) : Prop :=
  restored = b.reloaded

theorem reread_reloaded (b : Baseline) : Reread b b.reloaded :=
  rfl

/-- A memory without anything that its texts leave out. -/
structure Memory.Plain (m : Memory) : Prop where
  records : ∀ record ∈ m.records, record.persisted = record
  baselines : ∀ (id : BaselineId) (b : Baseline), m.baselines.baselines[id]? = some b → b.reloaded = b

theorem Memory.Plain.restored {m m' : Memory} (h : m.Plain) (halike : m.Alike Loaded Reread m') :
    m.Restored m' where
  catalog := halike.catalog
  clocks := halike.clocks
  fences := halike.fences
  baselines := by
    have hsame : m'.baselines.baselines = m.baselines.baselines := by
      apply Std.ExtTreeMap.ext_getElem?
      intro id
      have hrelated := halike.baselines.baselines id
      have hplain := h.baselines id
      generalize m'.baselines.baselines[id]? = there, m.baselines.baselines[id]? = here at hrelated hplain ⊢
      cases hrelated with
      | none => rfl
      | some hb => rw [show _ = _ from hb, hplain _ rfl]
    obtain ⟨hlimits, hpolicy, -, -, hbyPath⟩ := halike.baselines
    generalize m'.baselines = there, m.baselines = here at hsame hlimits hpolicy hbyPath ⊢
    obtain ⟨_, _, _, _⟩ := there
    obtain ⟨_, _, _, _⟩ := here
    dsimp only at hsame hlimits hpolicy hbyPath
    rw [hsame, hlimits, hpolicy, hbyPath]
  records := by
    have hrecords := halike.records
    have hplain := h.records
    generalize m'.records = there, m.records = here at hrecords hplain ⊢
    induction hrecords with
    | nil => exact .nil
    | cons hfirst hrest ih =>
      rw [List.forall_mem_cons] at hplain
      refine .cons ?_ (ih hplain.2)
      obtain ⟨e, rfl⟩ := hfirst
      rw [hplain.1]
      exact ⟨_, rfl⟩

/-- The call stores nothing that its text leaves out: no monotonic time of a batch, and none of the evidence that a
baseline has. -/
def Call.Plain : Call → Prop
  | .ingest request => request.receivedMono = default
  | .createBaseline _ => False
  | _ => True

theorem admitted_plain {gate : IngestGate} {request : IngestRequest} {admission : Admission}
    (htaken : gate.admitBatch request = .ok admission) (hmono : request.receivedMono = default)
    {record : MeasurementRecord} (hrecord : record ∈ admission.acceptedCurrent ++ admission.acceptedHistory) :
    record.persisted = record := by
  obtain ⟨hcurrent, hhistory⟩ := mem_accepted_iff htaken record
  obtain ⟨p, hp, rfl⟩ : ∃ p ∈ gate.batchPassages request, record = p.2.stored gate.policy p.1 := by
    rcases List.mem_append.mp hrecord with hmem | hmem
    · obtain ⟨p, hp, -, hstored⟩ := hcurrent.mp hmem
      exact ⟨p, hp, hstored⟩
    · obtain ⟨p, hp, -, hstored⟩ := hhistory.mp hmem
      exact ⟨p, hp, hstored⟩
  obtain ⟨hops, evidence, hstored⟩ := stored_submitted gate.policy p.1 p.2
  have hsubmitted : p.2.record.stamp.receivedMono = request.receivedMono := by
    obtain ⟨submitted, -, heq⟩ := IngestGate.mem_batchPassages hp
    rw [heq]
    rfl
  rw [hstored]
  unfold MeasurementRecord.persisted
  rw [← hmono, ← hsubmitted]

theorem change_plain {e : Engine} {c : Call} (hplain : c.Plain) {m : Memory} (hchange : Change e c m)
    (h : e.memory.Plain) : m.Plain := by
  cases hchange with
  | batch request admission stored htaken hstored =>
    refine ⟨fun record hrecord => ?_, h.baselines⟩
    rcases List.mem_append.mp hrecord with hold | hnew
    · exact h.records record hold
    · exact admitted_plain htaken hplain (hstored.subset hnew)
  | baseline => exact hplain.elim
  | _ => exact ⟨h.records, h.baselines⟩

theorem run_plain {s : System} (h : s.engine.memory.Plain) {calls : List (Nanos × Call)}
    (hplain : ∀ c ∈ calls, c.2.Plain) : (calls.foldl System.step s).engine.memory.Plain := by
  refine (@System.run_inv_from Memory.Plain s.engine.config s h rfl (fun _ c => c.Plain) ?_ calls fun p hp => ?_).1
  · exact fun e c m _ hallowed hchange hmemory => change_plain hallowed hchange hmemory
  · exact hplain p.2 (Lib.mem_of_mem_steps hp)

/-! ### The restart -/

theorem create_checked {config : RuntimeConfig} {now : Nanos} {d : Directory} {s : System}
    (hcreate : create config now d = .ok s) {directory : Bytes} (hstore : config.storeDirectory = some directory) :
    config.policy.validate = .ok () ∧ directory ≠ [] := by
  obtain ⟨-, w, d', hopen, -⟩ := create_backed hcreate hstore
  unfold create at hcreate
  obtain ⟨_, hvalid, -⟩ := bind_eq_ok_iff.mp hcreate
  refine ⟨hvalid, ?_⟩
  rintro rfl
  cases hopen

theorem create_loaded {config : RuntimeConfig} {now : Nanos} {d : Directory} {s : System}
    (hcreate : create config now d = .ok s) {directory : Bytes} (hstore : config.storeDirectory = some directory)
    (hmanifest : d.manifest.isSome = true) :
    ∃ e, (Engine.starting config now d).loadRecords (readAll d).1 = .ok e ∧ s.engine.memory = e.memory := by
  unfold create at hcreate
  obtain ⟨-, -, hcreate⟩ := bind_eq_ok_iff.mp hcreate
  rw [hstore] at hcreate
  dsimp only at hcreate
  rw [if_pos hmanifest] at hcreate
  obtain ⟨e, he, hcreate⟩ := bind_eq_ok_iff.mp hcreate
  obtain ⟨opened, -, hcreate⟩ := bind_eq_ok_iff.mp hcreate
  cases hcreate
  exact ⟨e, Engine.loadStore_ok he, rfl⟩

/-- **The restart.** After a run in which every call succeeded and that ended shut down, the store is loaded again with
the same policy, if every text is one that the decoders take back at the depth of the policy and there are not more
records than the policy lets the loader load. The catalog, the clocks and the fences are back as they were, the
measurements up to what a restart dates anew, and the baselines up to what their texts say. A baseline's text leaves
out all evidence but its state, so everything is back if no baseline was created and no batch had a monotonic time. -/
theorem store_reloads {config : RuntimeConfig} {directory : Bytes} (hstore : config.storeDirectory = some directory)
    {d : Directory} (hunused : Directory.Unused d) {now : Nanos} {start : System} (hcreate : create config now d = .ok start)
    {calls : List (Nanos × Call)} (hok : Succeeds start calls)
    (hdown : (calls.foldl System.step start).engine.shutDown = true) (hrepeatable : Repeatable start calls)
    (hcapacity : (acknowledged start calls).length ≤ config.policy.limits.maxTotalSamples)
    (hcount : (acknowledged start calls).length < 2 ^ 32 - 1) {config' : RuntimeConfig}
    (hpolicy : config'.policy = config.policy) (hsame : config'.storeDirectory = some directory) (later : Nanos) :
    ∃ s, create config' later (calls.foldl System.step start).directory = .ok s ∧
      (calls.foldl System.step start).engine.memory.Alike Loaded Reread s.engine.memory ∧
      ((∀ c ∈ calls, c.2.Plain) → (calls.foldl System.step start).engine.memory.Restored s.engine.memory) := by
  obtain ⟨hvalid, hsome⟩ := create_checked hcreate hstore
  obtain ⟨hmemory, hstartPolicy⟩ := create_unused hunused.manifest hcreate
  have hfiles := life_files hcreate hstore hok
  rw [hunused.files, List.length_nil, Nat.zero_add] at hfiles
  obtain ⟨hcarries, hmanifest⟩ := life_carries hunused.carries hcreate hstore hok hdown (by omega)
  rw [List.nil_append] at hcarries
  have hnew : Loads Loaded Reread start.engine.policy [] start.engine.memory := by
    rw [hmemory, hstartPolicy]
    exact loads_new config _
  have hfences : Fences.Reached start.engine.policy start.engine.fences := by
    rw [show start.engine.fences = ∅ from congrArg Memory.fences hmemory]
    exact Fences.reached_empty _
  have hloads := hnew.run loaded_reclassified reread_reloaded hok hrepeatable hfences
    (by rw [List.nil_append]; omega)
  rw [List.nil_append, hstartPolicy, ← hpolicy] at hloads
  rw [← hpolicy] at hvalid hcapacity
  obtain ⟨s, hs, halike⟩ := hloads.create hcarries hmanifest hvalid hsame hsome hcapacity (by omega) (by omega) later
  refine ⟨s, hs, halike, fun hplain => Memory.Plain.restored (run_plain ?_ hplain) halike⟩
  rw [hmemory]
  exact ⟨fun record hrecord => absurd hrecord List.not_mem_nil,
    fun id b hb => absurd hb (by simp [Engine.new, Engine.memory])⟩

/-! ### Runs that a store affords -/

theorem shutdown_ok (s : System) : s.shutdown.1 = .ok () ∧ s.shutdown.2.engine.shutDown = true := by
  unfold System.shutdown
  split_ifs with hdown
  · exact ⟨rfl, hdown⟩
  · dsimp only
    split
    · exact ⟨rfl, rfl⟩
    · rename_i writer hwriter
      have hclose := close_ok writer s.directory
      generalize writer.close s.directory = result at hclose ⊢
      obtain ⟨status, w, d⟩ := result
      cases hclose
      exact ⟨rfl, rfl⟩

theorem repeatable_unstored {s t : System} {calls : List (Nanos × Call)}
    (h : List.Forall₂ Unstored (Lib.steps System.step s calls) (Lib.steps System.step t calls))
    (hrepeatable : Repeatable t calls) : Repeatable s calls := by
  unfold Repeatable at hrepeatable ⊢
  generalize Lib.steps System.step s calls = ps, Lib.steps System.step t calls = qs at h hrepeatable ⊢
  induction h with
  | nil => simp
  | @cons p q _ _ hfirst _ ih =>
    obtain ⟨hengine, hsame⟩ := hfirst
    rw [List.forall_mem_cons] at hrepeatable ⊢
    obtain ⟨⟨hreadable, hnesting⟩, hrest⟩ := hrepeatable
    rw [hsame, hengine] at hreadable hnesting
    refine ⟨⟨?_, hnesting⟩, ih hrest⟩
    generalize p.2.2 = c at hreadable ⊢
    cases c <;> exact hreadable

/-- A run that ends with a shutdown, judged by what it does without the store. -/
theorem closing_run {s t : System} (h : t.engine = s.engine.unstored) {calls : List (Nanos × Call)}
    (hopen : ∀ c ∈ calls, c.2 ≠ .shutdown) (hok : Succeeds t calls) (hroom : s.engine.Affords (acknowledged t calls))
    (hrepeatable : Repeatable t calls) (now : Nanos) {whole : List (Nanos × Call)}
    (hwhole : whole = calls ++ [(now, .shutdown)]) :
    Succeeds s whole ∧ Repeatable s whole ∧ acknowledged s whole = acknowledged t calls ∧
      (whole.foldl System.step s).engine.shutDown = true ∧
      (whole.foldl System.step s).engine.memory = (calls.foldl System.step t).engine.memory := by
  subst hwhole
  obtain ⟨hall, hentries, hlast, hsteps⟩ := run_unstored h hopen hok hroom
  obtain ⟨hclosed, hdown⟩ := shutdown_ok (calls.foldl System.step s)
  have hcall : (((calls.foldl System.step s).call now .shutdown)).1 = .ok () := hclosed
  refine ⟨?_, ?_, ?_, ?_, ?_⟩
  · unfold Succeeds
    rw [Lib.steps_append, List.forall_mem_append]
    exact ⟨hall, List.forall_mem_singleton.mpr hcall⟩
  · unfold Repeatable
    rw [Lib.steps_append, List.forall_mem_append]
    exact ⟨repeatable_unstored hsteps hrepeatable, List.forall_mem_singleton.mpr ⟨trivial, Nat.zero_le _⟩⟩
  · rw [acknowledged_append, hentries, acknowledged_cons, hcall]
    exact List.append_nil _
  · rw [List.foldl_append]
    exact hdown
  · rw [List.foldl_append]
    refine ((calls.foldl System.step s).shutdown_memory).trans ?_
    rw [hlast]
    rfl

/-- What the deployment makes of a runtime without a store. -/
def deployed : System := deploymentCalls.foldl System.step bareStart

def deploymentLife : List (Nanos × Call) := deploymentCalls ++ [(4, .shutdown)]

theorem deployment_repeatable : Repeatable bareStart deploymentCalls := by
  decide +kernel

theorem deployment_life :
    Succeeds storedStart deploymentLife ∧ Repeatable storedStart deploymentLife ∧
      (deploymentLife.foldl System.step storedStart).engine.shutDown = true ∧
      (acknowledged storedStart deploymentLife).length = 9 ∧
      (deploymentLife.foldl System.step storedStart).engine.memory = deployed.engine.memory := by
  obtain ⟨hok, hrepeatable, hentries, hdown, hmemory⟩ := @closing_run storedStart bareStart rfl deploymentCalls
    deployment_open deployment_succeeds deployment_affords deployment_repeatable 4 deploymentLife rfl
  refine ⟨hok, hrepeatable, hdown, ?_, hmemory⟩
  rw [hentries, ← (run_unstored rfl deployment_open deployment_succeeds deployment_affords).2.1]
  exact deployment_length

/-- The deployment comes back with its clock, its fences, its exchange and its baseline. -/
theorem deployment_reloads :
    (deploymentLife.foldl System.step storedStart).engine.baselines.baselines.size = 1 ∧
      ∃ s, create storedConfig 5 (deploymentLife.foldl System.step storedStart).directory = .ok s ∧
        (deploymentLife.foldl System.step storedStart).engine.memory.Alike Loaded Reread s.engine.memory := by
  obtain ⟨hok, hrepeatable, hdown, hlength, hmemory⟩ := deployment_life
  have hcapacity : 9 ≤ storedConfig.policy.limits.maxTotalSamples := by decide
  have hsize : deployed.engine.baselines.baselines.size = 1 := by decide +kernel
  obtain ⟨s, hs, halike, -⟩ := @store_reloads storedConfig (text "store") rfl .empty ⟨rfl, by decide, rfl⟩ 0 storedStart
    stored_created deploymentLife hok hdown hrepeatable (by rw [hlength]; exact hcapacity) (by rw [hlength]; decide)
    storedConfig rfl rfl 5
  have hkept : ∀ e : Engine, e.memory.baselines = e.baselines := fun _ => rfl
  refine ⟨?_, s, hs, halike⟩
  rw [← hkept, hmemory, hkept]
  exact hsize

/-- A clock domain, and a report about it without a revision. -/
def unrevisedCalls : List (Nanos × Call) :=
  [(0, .defineClockDomain { name := ⟨text "clock.edge"⟩ }),
    (0, .recordClockSync { domain := .deriveFrom (text "clock.edge"), validForNs := 1 }), (1, .shutdown)]

/-- The registry takes a report without a revision, and the store keeps it. No engine loads that store again. -/
theorem unrevised_sync_locks_store :
    create storedConfig 0 .empty = .ok storedStart ∧ Succeeds storedStart unrevisedCalls ∧
      (unrevisedCalls.foldl System.step storedStart).engine.shutDown = true ∧
      ∀ (later : Nanos) (s : System),
        create storedConfig later (unrevisedCalls.foldl System.step storedStart).directory ≠ .ok s := by
  have hok : Succeeds storedStart unrevisedCalls := by decide +kernel
  have hdown : (unrevisedCalls.foldl System.step storedStart).engine.shutDown = true := by decide +kernel
  have hfiles : (unrevisedCalls.foldl System.step storedStart).directory.files.length < 2 ^ 32 - 1 := by decide +kernel
  refine ⟨stored_created, hok, hdown, fun later s hcreate => ?_⟩
  obtain ⟨hcarries, hmanifest⟩ := life_carries carries_empty stored_created rfl hok hdown hfiles
  obtain ⟨e, he, -⟩ := create_loaded hcreate rfl hmanifest
  have hentries : [] ++ acknowledged storedStart unrevisedCalls =
      [(.clockDomain, encodeWith fun w => writeClockDomain w { name := ⟨text "clock.edge"⟩ }),
        (.clockSync, encodeWith fun w => writeClockSync w
          { domain := .deriveFrom (text "clock.edge"), validForNs := 1 })] := by
    decide +kernel
  rw [hentries] at hcarries
  have hread := hcarries.log_eq hfiles (by decide)
  obtain ⟨first, rest, hstored, -, hrest⟩ := List.map_eq_cons_iff.mp hread
  obtain ⟨second, others, rfl, hsecond, -⟩ := List.map_eq_cons_iff.mp hrest
  rw [hstored] at he
  obtain ⟨next, hnext, he⟩ := bind_eq_ok_iff.mp he
  obtain ⟨last, hlast, -⟩ := bind_eq_ok_iff.mp he
  -- The decoder refuses the second record.
  have hpolicy : next.policy = defaultPolicy := congrArg RuntimeConfig.policy (Engine.loadRecord_load hnext).2
  obtain ⟨type, payload, segmentId, sequence⟩ := second
  obtain ⟨rfl, rfl⟩ := Prod.mk.inj hsecond
  unfold Engine.loadRecord at hlast
  rw [hpolicy] at hlast
  obtain ⟨document, hparse, hlast⟩ := bind_eq_ok_iff.mp hlast
  obtain ⟨sync, hdecode, -⟩ := Engine.reload_ok hlast
  have hrefused : ((parseJson (encodeWith fun w => writeClockSync w
      { domain := .deriveFrom (text "clock.edge"), validForNs := 1 }) defaultPolicy.limits.maxJsonDepth).bind
        decodeClockSync).isOk = false := by
    decide +kernel
  rw [show parseJson _ _ = _ from hparse] at hrefused
  rw [show (Except.ok document).bind decodeClockSync = _ from hdecode] at hrefused
  cases hrefused

end LatencyObservatory.Runtime
