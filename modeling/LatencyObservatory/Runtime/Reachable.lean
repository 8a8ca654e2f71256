import LatencyObservatory.Model.Integrity
import LatencyObservatory.Model.Registry
import LatencyObservatory.Ingest.Replay
import LatencyObservatory.Runtime.Atomicity

/-!
# Reachable engines

Whatever a call or a loaded record does to the engine's memory is one of a few changes. The two inversion
lemmas say so once, and a property that every change keeps holds in every state of every run, whatever the
directory held at the start.
-/

namespace LatencyObservatory.Runtime

open LatencyObservatory.Core LatencyObservatory.Model LatencyObservatory.Ingest LatencyObservatory.Stats
open LatencyObservatory.Baselines LatencyObservatory.Store

/-- The definition of the catalog that a call makes, if it makes one. -/
def Call.definition : Call → Option Catalog.DefineCall
  | .defineSource descriptor => some (.source descriptor)
  | .defineEndpoint definition => some (.endpoint definition)
  | .defineLink definition => some (.link definition)
  | .defineQueue definition => some (.queue definition)
  | .defineHop definition => some (.hop definition)
  | .defineGeneration definition => some (.generation definition)
  | .definePath definition => some (.path definition)
  | _ => none

/-- All that a call can do to the memory. A batch may have been stored in part. -/
inductive Change (e : Engine) : Call → Memory → Prop
  | none (c : Call) : Change e c e.memory
  | definition (c : Call) (x : Catalog.DefineCall) (h : c.definition = some x) :
      Change e c { e.memory with catalog := (e.catalog.call x).2 }
  | clockDomain (definition : ClockDomainDef) :
      Change e (.defineClockDomain definition) { e.memory with clocks := (e.clocks.defineDomain definition).2 }
  | clockSync (sync : ClockSync) :
      Change e (.recordClockSync sync) { e.memory with clocks := (e.clocks.recordSync sync).2 }
  | batch (request : IngestRequest) (admission : Admission) (stored : List MeasurementRecord)
      (htaken : e.gate.admitBatch request = .ok admission)
      (hstored : stored <+: admission.acceptedCurrent ++ admission.acceptedHistory) :
      Change e (.ingest request) { e.memory with fences := admission.fences, records := e.records ++ stored }
  | baseline (request : System.BaselineRequest) (now : Nanos) (summary : PathSummary) (id : BaselineId)
      (baselines : BaselineStore) (hsummary : e.summarize request.summary = .ok summary)
      (hadd : e.baselines.add (request.baseline now e.policy summary) = .ok (id, baselines)) :
      Change e (.createBaseline request) { e.memory with baselines }

/-- All that a record of the store can do to the memory. -/
inductive Load (e : Engine) : Memory → Prop
  | definition (x : Catalog.DefineCall) : Load e { e.memory with catalog := (e.catalog.call x).2 }
  | clockDomain (definition : ClockDomainDef) :
      Load e { e.memory with clocks := (e.clocks.defineDomain definition).2 }
  | clockSync (sync : ClockSync) : Load e { e.memory with clocks := (e.clocks.recordSync sync).2 }
  | measurement (record : MeasurementRecord) :
      Load e { e.memory with records := e.records ++ [e.reclassifyLoaded record] }
  | baseline (value : Baseline) (id : BaselineId) (baselines : BaselineStore)
      (hadd : e.baselines.add value = .ok (id, baselines)) : Load e { e.memory with baselines }
  | fence (source : SourceId) (state : SourceFenceState) :
      Load e { e.memory with fences := e.fences.insert source state }

namespace System

/-! ### Calls -/

theorem define_memory {α ι : Type} (s : System) (now : Nanos) (type : RecordType)
    (write : JsonWriter → α → JsonWriter) (value : α) (register : Engine → α → Except Error ι × Engine) :
    (s.define now type write value register).2.engine.memory = s.engine.memory ∨
      (s.define now type write value register).2.engine.memory = (register s.engine value).2.memory := by
  unfold define
  split_ifs
  · exact Or.inl rfl
  · right
    simp only
    split
    · rfl
    · exact persist_memory _ now type _ true

theorem ingest_change (s : System) (now : Nanos) (request : IngestRequest) :
    Change s.engine (.ingest request) (s.ingest now request).2.engine.memory := by
  unfold ingest
  split_ifs
  · exact .none _
  · exact .none _
  · exact .none _
  · cases htaken : s.engine.gate.admitBatch request with
    | error e => exact .none _
    | ok admission =>
      obtain ⟨stored, hpre, -, hmemory⟩ :=
        (s.withEngine (admitted s.engine admission)).storeBatch_stored now admission
      have hchange := Change.batch request admission stored htaken hpre
      simp only
      split
      · rw [hmemory]
        exact hchange
      · show Change s.engine (.ingest request) ((s.withEngine (admitted s.engine admission)).storeBatch now admission).2.engine.memory
        rw [hmemory]
        exact hchange

theorem createBaseline_change (s : System) (now : Nanos) (request : BaselineRequest) :
    Change s.engine (.createBaseline request) (s.createBaseline now request).2.engine.memory := by
  unfold createBaseline
  split_ifs
  · exact .none _
  · cases hsummary : s.engine.summarize request.summary with
    | error e => exact .none _
    | ok summary =>
      simp only
      split_ifs
      · exact .none _
      · cases hadd : s.engine.baselines.add (request.baseline now s.engine.policy summary) with
        | error e => exact .none _
        | ok added =>
          have hchange := Change.baseline request now summary added.1 added.2 hsummary hadd
          simp only
          unfold storeBaseline
          split
          · exact hchange
          · rename_i stored hstored
            have hmemory := (s.withEngine { s.engine with baselines := added.2 }).persist_memory now .baseline
              (encodeWith fun w => writeBaseline w stored) true
            simp only
            split
            · rw [hmemory]
              exact hchange
            · show Change s.engine (.createBaseline request) ((s.withEngine { s.engine with baselines := added.2 }).persist
                now .baseline (encodeWith fun w => writeBaseline w stored) true).2.engine.memory
              rw [hmemory]
              exact hchange

theorem define_change {α ι : Type} {s : System} {now : Nanos} {type : RecordType}
    {write : JsonWriter → α → JsonWriter} {value : α} {register : Engine → α → Except Error ι × Engine} {c : Call}
    (h : Change s.engine c (register s.engine value).2.memory) :
    Change s.engine c (s.define now type write value register).2.engine.memory := by
  rcases s.define_memory now type write value register with hsame | hregistered
  · rw [hsame]
    exact .none _
  · rw [hregistered]
    exact h

theorem call_change (s : System) (now : Nanos) (c : Call) : Change s.engine c (s.call now c).2.engine.memory := by
  cases c with
  | defineSource descriptor => exact define_change (.definition _ (.source descriptor) rfl)
  | defineEndpoint definition => exact define_change (.definition _ (.endpoint definition) rfl)
  | defineLink definition => exact define_change (.definition _ (.link definition) rfl)
  | defineQueue definition => exact define_change (.definition _ (.queue definition) rfl)
  | defineHop definition => exact define_change (.definition _ (.hop definition) rfl)
  | defineGeneration definition => exact define_change (.definition _ (.generation definition) rfl)
  | definePath definition => exact define_change (.definition _ (.path definition) rfl)
  | defineClockDomain definition => exact define_change (.clockDomain definition)
  | recordClockSync sync => exact define_change (.clockSync sync)
  | ingest request => exact s.ingest_change now request
  | createBaseline request => exact s.createBaseline_change now request
  | flush =>
    show Change s.engine .flush s.flush.2.engine.memory
    rw [s.flush_memory]
    exact .none _
  | shutdown =>
    show Change s.engine .shutdown s.shutdown.2.engine.memory
    rw [s.shutdown_memory]
    exact .none _

end System

/-! ### Restart -/

namespace Engine

theorem reload_ok {α ι : Type} {e' : Engine} {value : Except Error α} {register : α → Except Error ι × Engine}
    (h : reload value register = .ok e') : ∃ x, value = .ok x ∧ (∃ id, (register x).1 = .ok id) ∧ e' = (register x).2 := by
  unfold reload at h
  obtain ⟨x, hx, h⟩ := bind_eq_ok_iff.mp h
  obtain ⟨id, hid, h⟩ := bind_eq_ok_iff.mp h
  cases h
  exact ⟨x, hx, ⟨id, hid⟩, rfl⟩

theorem loadRecord_load {e e' : Engine} {record : StoredRecord} (h : e.loadRecord record = .ok e') :
    Load e e'.memory ∧ e'.config = e.config := by
  unfold loadRecord at h
  obtain ⟨document, -, h⟩ := bind_eq_ok_iff.mp h
  cases htype : record.type <;> rw [htype] at h <;> simp only at h
  case source => obtain ⟨x, -, -, rfl⟩ := reload_ok h; exact ⟨.definition (.source x), rfl⟩
  case endpoint => obtain ⟨x, -, -, rfl⟩ := reload_ok h; exact ⟨.definition (.endpoint x), rfl⟩
  case link => obtain ⟨x, -, -, rfl⟩ := reload_ok h; exact ⟨.definition (.link x), rfl⟩
  case queue => obtain ⟨x, -, -, rfl⟩ := reload_ok h; exact ⟨.definition (.queue x), rfl⟩
  case hop => obtain ⟨x, -, -, rfl⟩ := reload_ok h; exact ⟨.definition (.hop x), rfl⟩
  case generation => obtain ⟨x, -, -, rfl⟩ := reload_ok h; exact ⟨.definition (.generation x), rfl⟩
  case path => obtain ⟨x, -, -, rfl⟩ := reload_ok h; exact ⟨.definition (.path x), rfl⟩
  case clockDomain => obtain ⟨x, -, -, rfl⟩ := reload_ok h; exact ⟨.clockDomain x, rfl⟩
  case clockSync => obtain ⟨x, -, -, rfl⟩ := reload_ok h; exact ⟨.clockSync x, rfl⟩
  case measurementCurrent =>
    obtain ⟨value, -, h⟩ := bind_eq_ok_iff.mp h
    cases h
    exact ⟨.measurement value, rfl⟩
  case measurementHistorical =>
    obtain ⟨value, -, h⟩ := bind_eq_ok_iff.mp h
    cases h
    exact ⟨.measurement value, rfl⟩
  case baseline =>
    obtain ⟨value, -, h⟩ := bind_eq_ok_iff.mp h
    obtain ⟨added, hadd, h⟩ := bind_eq_ok_iff.mp h
    cases h
    exact ⟨.baseline value added.1 added.2 hadd, rfl⟩
  case fenceState =>
    obtain ⟨value, -, h⟩ := bind_eq_ok_iff.mp h
    cases h
    exact ⟨.fence value.1 value.2, rfl⟩

theorem loadRecords_inv {P : Memory → Prop} {e e' : Engine} {records : List StoredRecord}
    (hload : ∀ (e' : Engine) (m : Memory), e'.config = e.config → Load e' m → P e'.memory → P m)
    (h : e.loadRecords records = .ok e') (hP : P e.memory) : P e'.memory := by
  induction records generalizing e with
  | nil =>
    cases h
    exact hP
  | cons record rest ih =>
    unfold loadRecords at h
    obtain ⟨next, hnext, h⟩ := bind_eq_ok_iff.mp h
    obtain ⟨hmemory, hconfig⟩ := loadRecord_load hnext
    refine ih (fun e'' m hsame => hload e'' m (hsame.trans hconfig)) h ?_
    exact hload e next.memory rfl hmemory hP

theorem loadRecords_config {e e' : Engine} {records : List StoredRecord} (h : e.loadRecords records = .ok e') :
    e'.config = e.config := by
  induction records generalizing e with
  | nil =>
    cases h
    rfl
  | cons record rest ih =>
    unfold loadRecords at h
    obtain ⟨next, hnext, h⟩ := bind_eq_ok_iff.mp h
    exact (ih h).trans (loadRecord_load hnext).2

theorem loadStore_ok {e e' : Engine} {directory : Bytes} {d : Directory} (h : e.loadStore directory d = .ok e') :
    ({ e with recovery := (readAll d).2 } : Engine).loadRecords (readAll d).1 = .ok e' := by
  unfold loadStore at h
  obtain ⟨-, -, h⟩ := bind_eq_ok_iff.mp h
  obtain ⟨-, h⟩ := guard_eq_ok_iff.mp h
  exact h

end Engine

/-! ### Runs -/

/-- The engine that `create` returns is the new one, after the records of the store were loaded into it. -/
theorem create_inv {P : Memory → Prop} {config : RuntimeConfig} {now : Nanos} {d : Directory} {start : System}
    (h : create config now d = .ok start)
    (hload : ∀ (e : Engine) (m : Memory), e.config = config → Load e m → P e.memory → P m)
    (hP : P (Engine.new config ⟨now, referenceClockDomain⟩).memory) :
    P start.engine.memory ∧ start.engine.config = config := by
  unfold create at h
  obtain ⟨-, -, h⟩ := bind_eq_ok_iff.mp h
  simp only at h
  split at h
  · cases h
    exact ⟨hP, rfl⟩
  · rename_i directory hdirectory
    split_ifs at h
    · obtain ⟨e, he, h⟩ := bind_eq_ok_iff.mp h
      obtain ⟨opened, -, h⟩ := bind_eq_ok_iff.mp h
      cases h
      have hrecords := Engine.loadStore_ok he
      have hloaded : P e.memory := by
        refine Engine.loadRecords_inv ?_ hrecords hP
        intro e' m hconfig
        exact hload e' m hconfig
      exact ⟨hloaded, Engine.loadRecords_config hrecords⟩
    · obtain ⟨e, he, h⟩ := bind_eq_ok_iff.mp h
      obtain ⟨opened, -, h⟩ := bind_eq_ok_iff.mp h
      cases he
      cases h
      exact ⟨hP, rfl⟩

namespace System

theorem persist_config (s : System) (now : Nanos) (type : RecordType) (payload : Bytes) (syncNow : Bool) :
    (s.persist now type payload syncNow).2.engine.config = s.engine.config := by
  cases hmode : s.engine.config.readonly with
  | true => rw [s.persist_readonly now type payload syncNow hmode]
  | false => exact (congrArg Engine.config (s.persist_spec now type payload syncNow hmode).2).trans rfl

theorem define_config {α ι : Type} (s : System) (now : Nanos) (type : RecordType)
    (write : JsonWriter → α → JsonWriter) (value : α) {register : Engine → α → Except Error ι × Engine}
    (hregister : (register s.engine value).2.config = s.engine.config) :
    (s.define now type write value register).2.engine.config = s.engine.config := by
  unfold define
  split_ifs
  · rfl
  · simp only
    split
    · exact hregister
    · exact (persist_config _ now type _ true).trans hregister

theorem storeBatch_config (s : System) (now : Nanos) (admission : Admission) :
    (s.storeBatch now admission).2.engine.config = s.engine.config := by
  have hstore : ∀ (type : RecordType) (s' : System) (x : MeasurementRecord),
      s'.engine.config = s.engine.config → (s'.store now type x).2.engine.config = s.engine.config := by
    intro type s' x h
    exact @andThen_inv (fun s'' => s''.engine.config = s.engine.config) _ _
      ((s'.persist_config now type _ false).trans h) fun h => h
  have hfence : ∀ (s' : System) (x : SourceId × SourceFenceState),
      s'.engine.config = s.engine.config → (s'.storeFence now x).2.engine.config = s.engine.config := by
    intro s' x h
    exact @andThen_inv (fun s'' => s''.engine.config = s.engine.config) _ _
      ((s'.persist_config now .fenceState _ false).trans h) fun h => h
  refine @andThen_inv (fun s' => s'.engine.config = s.engine.config) _ _ ?_ fun h₁ =>
    @andThen_inv (fun s' => s'.engine.config = s.engine.config) _ _ ?_ fun h₂ =>
      @andThen_inv (fun s' => s'.engine.config = s.engine.config) _ _ ?_ fun h₃ => ?_
  · exact each_inv (hstore .measurementCurrent) rfl _
  · exact each_inv (hstore .measurementHistorical) h₁ _
  · exact each_inv hfence h₂ _
  · rw [(syncBatch_spec _).2]
    exact h₃

theorem call_config (s : System) (now : Nanos) (c : Call) : (s.call now c).2.engine.config = s.engine.config := by
  cases c with
  | ingest request =>
    show (s.ingest now request).2.engine.config = _
    unfold ingest
    split_ifs
    · rfl
    · rfl
    · rfl
    · split
      · rfl
      · rename_i admission _
        simp only
        split
        · exact storeBatch_config (s.withEngine (admitted s.engine admission)) now admission
        · exact storeBatch_config (s.withEngine (admitted s.engine admission)) now admission
  | createBaseline request =>
    show (s.createBaseline now request).2.engine.config = _
    unfold createBaseline
    split_ifs
    · rfl
    · split
      · rfl
      · split_ifs
        · rfl
        · split
          · rfl
          · rename_i id baselines _
            unfold storeBaseline
            split
            · rfl
            · simp only
              split
              · exact persist_config (s.withEngine { s.engine with baselines }) now .baseline _ true
              · exact persist_config (s.withEngine { s.engine with baselines }) now .baseline _ true
  | flush =>
    show s.flush.2.engine.config = _
    unfold flush
    split
    · rfl
    · rename_i writer hwriter
      rw [(s.sync_spec hwriter).2]
  | shutdown =>
    show s.shutdown.2.engine.config = _
    unfold shutdown
    split_ifs
    · rfl
    · simp only
      split
      · rfl
      · split <;> rfl
  | _ => exact define_config _ _ _ _ _ rfl

theorem run_inv_from {P : Memory → Prop} {config : RuntimeConfig} {start : System} (hP : P start.engine.memory)
    (hconfig : start.engine.config = config) {allowed : Engine → Call → Prop}
    (hcall : ∀ (e : Engine) (c : Call) (m : Memory), e.config = config → allowed e c → Change e c m → P e.memory → P m)
    (calls : List (Nanos × Call)) (hcalls : ∀ p ∈ Lib.steps step start calls, allowed p.1.engine p.2.2) :
    P (calls.foldl step start).engine.memory ∧ (calls.foldl step start).engine.config = config := by
  refine @Lib.foldl_inv_of_allowed _ _ step (fun s => P s.engine.memory ∧ s.engine.config = config)
    (fun s c => allowed s.engine c.2) ?_ _ ⟨hP, hconfig⟩ calls hcalls
  rintro s ⟨t, c⟩ hallowed ⟨hmemory, hconfig⟩
  exact ⟨hcall s.engine c _ hconfig hallowed (s.call_change t c) hmemory, (s.call_config t c).trans hconfig⟩

/-- What the new engine has, what every loaded record keeps and what every call keeps holds in every state
of every run. -/
theorem run_inv {P : Memory → Prop} {config : RuntimeConfig} {now : Nanos} {d : Directory} {start : System}
    (h : create config now d = .ok start) (hP : P (Engine.new config ⟨now, referenceClockDomain⟩).memory)
    (hload : ∀ (e : Engine) (m : Memory), e.config = config → Load e m → P e.memory → P m)
    (hcall : ∀ (e : Engine) (c : Call) (m : Memory), e.config = config → Change e c m → P e.memory → P m)
    (calls : List (Nanos × Call)) :
    P (calls.foldl step start).engine.memory ∧ (calls.foldl step start).engine.config = config := by
  obtain ⟨hstart, hconfig⟩ := create_inv h hload hP
  refine @run_inv_from P config start hstart hconfig (fun _ _ => True) ?_ calls fun _ _ => trivial
  intro e c m hsame _ hchange hmemory
  exact hcall e c m hsame hchange hmemory

end System

/-! ### The catalog -/

theorem reachable_integral {config : RuntimeConfig} {now : Nanos} {d : Directory} {start : System}
    (h : create config now d = .ok start) (calls : List (Nanos × Call)) :
    (calls.foldl System.step start).engine.catalog.Integral := by
  refine (@System.run_inv (fun m => m.catalog.Integral) _ _ _ _ h ?_ ?_ ?_ calls).1
  · exact Catalog.integral_empty config.policy.limits
  · intro e m _ hload hintegral
    cases hload with
    | definition x => exact (Catalog.call_sound hintegral x).integral
    | _ => exact hintegral
  · intro e c m _ hchange hintegral
    cases hchange with
    | definition _ x => exact (Catalog.call_sound hintegral x).integral
    | _ => exact hintegral

theorem reachable_clocks {config : RuntimeConfig} {now : Nanos} {d : Directory} {start : System}
    (h : create config now d = .ok start) (calls : List (Nanos × Call)) :
    ∃ clockCalls, (calls.foldl System.step start).engine.clocks = ClockRegistry.after config.policy clockCalls := by
  have hgrown : ∀ (r : ClockRegistry) (c : ClockRegistry.Call),
      (∃ before, r = ClockRegistry.after config.policy before) →
      ∃ clockCalls, r.call c = ClockRegistry.after config.policy clockCalls := by
    rintro r c ⟨before, rfl⟩
    refine ⟨before ++ [c], ?_⟩
    unfold ClockRegistry.after
    rw [List.foldl_append]
    rfl
  refine (@System.run_inv
    (fun m => ∃ clockCalls, m.clocks = ClockRegistry.after config.policy clockCalls) _ _ _ _ h ?_ ?_ ?_ calls).1
  · exact ⟨[], rfl⟩
  · intro e m _ hload hclocks
    cases hload with
    | clockDomain definition => exact hgrown _ (.defineDomain definition) hclocks
    | clockSync sync => exact hgrown _ (.recordSync sync) hclocks
    | _ => exact hclocks
  · intro e c m _ hchange hclocks
    cases hchange with
    | clockDomain definition => exact hgrown _ (.defineDomain definition) hclocks
    | clockSync sync => exact hgrown _ (.recordSync sync) hclocks
    | _ => exact hclocks

/-! ### Failing calls of a run -/

/-- In every run, and whatever the directory held, a failing call leaves the memory alone exactly if it is
harmless in the state it meets. -/
theorem run_atomic_iff {config : RuntimeConfig} {now : Nanos} {d : Directory} {start : System}
    (h : create config now d = .ok start) (calls : List (Nanos × Call)) :
    ∀ p ∈ Lib.steps System.step start calls, p.1.Atomic p.2.1 p.2.2 ↔ p.2.2.Harmless p.1.engine p.2.1 := by
  intro p hp
  obtain ⟨n, hn⟩ := List.getElem?_of_mem hp
  obtain ⟨-, hstate⟩ := Lib.steps_getElem? hn
  have hintegral := reachable_integral h (calls.take n)
  rw [← hstate] at hintegral
  exact System.call_atomic_iff hintegral p.2.1 p.2.2

/-- A new runtime without a store. -/
def storeless (readonly : Bool) : System :=
  ⟨.new { readonly } ⟨0, referenceClockDomain⟩, ⟨.missing, none, []⟩⟩

theorem storeless_created (readonly : Bool) : create { readonly } 0 ⟨.missing, none, []⟩ = .ok (storeless readonly) := by
  unfold create
  rw [show ({ readonly } : RuntimeConfig).policy.validate = .ok () from defaultPolicy_validate]
  rfl

/-- The source again, with another description. -/
def conflictingSource : SourceDescriptor := { sampleSource 1 with description := text "renamed" }

def sourcedSystem : System := (storeless false).step (0, .defineSource (sampleSource 1))

/-- The conflicting definition is refused, and the source stays as it was. -/
theorem conflicting_source_atomic :
    create { readonly := false } 0 ⟨.missing, none, []⟩ = .ok (storeless false) ∧
      sourcedSystem.engine.catalog.sources.size = 1 ∧
      (sourcedSystem.call 0 (.defineSource conflictingSource)).1.isOk = false ∧
      sourcedSystem.Atomic 0 (.defineSource conflictingSource) := by
  refine ⟨storeless_created false, by decide +kernel, by decide +kernel, ?_⟩
  have hrefused : (sourcedSystem.engine.catalog.defineSource conflictingSource).1.isOk = false := by decide +kernel
  obtain ⟨error, herror⟩ : ∃ error, (sourcedSystem.engine.catalog.defineSource conflictingSource).1 = .error error := by
    cases hresult : (sourcedSystem.engine.catalog.defineSource conflictingSource).1 with
    | error error => exact ⟨error, rfl⟩
    | ok id =>
      rw [hresult] at hrefused
      cases hrefused
  refine (run_atomic_iff (storeless_created false) [(0, .defineSource (sampleSource 1)), (0, .defineSource conflictingSource)]
    (sourcedSystem, 0, .defineSource conflictingSource) (List.mem_cons_of_mem _ List.mem_cons_self)).mpr ?_
  exact Or.inr (Or.inl ⟨error, herror⟩)

/-- A read only runtime refuses the source and has defined it nevertheless. -/
theorem readonly_source_defined :
    create { readonly := true } 0 ⟨.missing, none, []⟩ = .ok (storeless true) ∧
      ((storeless true).call 0 (.defineSource (sampleSource 1))).1 =
        .error ⟨.refused, "the runtime is configured as read only", []⟩ ∧
      ((storeless true).call 0 (.defineSource (sampleSource 1))).2.engine.catalog.sources.size = 1 ∧
      ¬ (storeless true).Atomic 0 (.defineSource (sampleSource 1)) := by
  have hrefused : ((storeless true).call 0 (.defineSource (sampleSource 1))).1 =
      .error ⟨.refused, "the runtime is configured as read only", []⟩ := by
    decide +kernel
  have hdefined : ((storeless true).call 0 (.defineSource (sampleSource 1))).2.engine.catalog.sources.size = 1 := by
    decide +kernel
  refine ⟨storeless_created true, hrefused, hdefined, ?_⟩
  intro hatomic
  have hsame := congrArg (fun m : Memory => m.catalog.sources.size) (hatomic _ hrefused)
  simp only [Engine.memory, hdefined] at hsame
  revert hsame
  decide +kernel

end LatencyObservatory.Runtime
