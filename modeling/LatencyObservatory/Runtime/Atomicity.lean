import LatencyObservatory.Ingest.Progress
import LatencyObservatory.Model.Integrity
import LatencyObservatory.Runtime.Engine
import LatencyObservatory.Store.Acceptance

/-!
# Failing calls

Every writer operation changes the engine first and appends to the store afterwards, and an append that
fails does not take the change back. A call that fails is therefore harmless only if it was refused before
it changed anything, or had nothing to change; otherwise the store has to take all it writes, and then the
call does not fail.
-/

namespace LatencyObservatory.Runtime

open LatencyObservatory.Core LatencyObservatory.Model LatencyObservatory.Ingest LatencyObservatory.Stats
open LatencyObservatory.Baselines LatencyObservatory.Store

/-- What the queries answer from: the registries, the fences, the measurements and the baselines. -/
structure Memory where
  catalog : Catalog
  clocks : ClockRegistry
  fences : Fences
  records : List MeasurementRecord
  baselines : BaselineStore

namespace Engine

def memory (e : Engine) : Memory :=
  ⟨e.catalog, e.clocks, e.fences, e.records, e.baselines⟩

/-- The store, if there is one, takes these records one after the other. -/
def takes (e : Engine) (now : Nanos) (entries : List Entry) : Bool :=
  match e.writer with
  | none => true
  | some writer => writer.takesAll now entries

/-- The engine once a list of appends was tried. -/
def appended (e : Engine) (now : Nanos) (entry : Entry) : Engine :=
  { e with writer := e.writer.map fun writer => writer.appended now entry }

theorem takes_append {e e' : Engine} {now : Nanos} {first : List Entry}
    (h : e'.writer = e.writer.map fun writer => writer.appendedAll now first) (second : List Entry) :
    e.takes now (first ++ second) = (e.takes now first && e'.takes now second) := by
  unfold takes
  rw [h]
  cases e.writer with
  | none => rfl
  | some writer => exact StoreWriter.takesAll_append now writer first second

end Engine

namespace System

/-! ### Appending -/

section Persist

variable (s : System) (now : Nanos) (type : RecordType) (payload : Bytes) (syncNow : Bool)

/-- `persist` touches the writer alone, and fails if the runtime is read only or the store does not take
the record. -/
theorem persist_spec (hwritable : s.engine.config.readonly = false) :
    ((s.persist now type payload syncNow).1 = .ok () ↔ s.engine.takes now [(type, payload)] = true) ∧
      (s.persist now type payload syncNow).2.engine = s.engine.appended now (type, payload) := by
  unfold persist Engine.takes Engine.appended
  rw [hwritable]
  cases hwriter : s.engine.writer with
  | none =>
    refine ⟨by simp, ?_⟩
    show s.engine = { s.engine with writer := none }
    rw [← hwriter]
  | some writer =>
    have hok := writer.append_ok_iff now (type, payload) s.directory
    have hafter := writer.append_writer now (type, payload) s.directory
    simp only [Bool.false_eq_true, if_false, Option.map_some, StoreWriter.takesAll, Bool.and_true]
    cases hresult : (writer.append now (type, payload) s.directory).1 with
    | error e =>
      rw [hresult] at hok
      simp only [hafter]
      exact ⟨hok, trivial⟩
    | ok u =>
      rw [hresult] at hok
      have htakes := hok.mp rfl
      simp only [hafter, htakes]
      split_ifs
      · unfold sync StoreWriter.sync
        cases (writer.appended now (type, payload)).file <;> exact ⟨iff_of_true rfl trivial, rfl⟩
      · exact ⟨iff_of_true rfl trivial, rfl⟩

theorem persist_readonly (hreadonly : s.engine.config.readonly = true) :
    s.persist now type payload syncNow = (.error ⟨.refused, "the runtime is configured as read only", []⟩, s) := by
  unfold persist
  rw [if_pos hreadonly]

end Persist

/-! ### Phases that append -/

/-- A phase of a call appends these records: it gets through exactly if the store takes them all, and the
writer is then what the appends leave. -/
structure Phase (now : Nanos) (s : System) (result : Status × System) (entries : List Entry) : Prop where
  ok_iff : result.1 = .ok () ↔ s.engine.takes now entries = true
  writer : result.1 = .ok () → result.2.engine.writer = s.engine.writer.map fun w => w.appendedAll now entries
  config : result.2.engine.config = s.engine.config

theorem Phase.nil (now : Nanos) (s : System) (e : Engine) (hwriter : e.writer = s.engine.writer)
    (hconfig : e.config = s.engine.config) : Phase now s (.ok (), s.withEngine e) [] := by
  refine ⟨?_, fun _ => ?_, hconfig⟩
  · simp only [Engine.takes, true_iff]
    cases s.engine.writer <;> rfl
  · show e.writer = _
    rw [hwriter]
    cases s.engine.writer <;> rfl

theorem Phase.andThen {now : Nanos} {s : System} {result : Status × System} {next : System → Status × System}
    {first second : List Entry} (hfirst : Phase now s result first)
    (hnext : result.2.engine.config = s.engine.config → Phase now result.2 (next result.2) second) :
    Phase now s (andThen result next) (first ++ second) := by
  obtain ⟨r, s₁⟩ := result
  have hnext := hnext hfirst.config
  unfold System.andThen
  cases r with
  | error e =>
    have hno : s.engine.takes now first = false := by
      rw [← Bool.not_eq_true, ← hfirst.ok_iff]
      simp
    have htakes := @Engine.takes_append s.engine
      { s.engine with writer := s.engine.writer.map fun w => w.appendedAll now first } now first rfl second
    refine ⟨?_, by simp, hfirst.config⟩
    rw [htakes, hno]
    simp
  | ok u =>
    have hwriter := hfirst.writer rfl
    refine ⟨?_, fun hok => ?_, hnext.config.trans hfirst.config⟩
    · rw [Engine.takes_append hwriter, hfirst.ok_iff.mp rfl, Bool.true_and]
      exact hnext.ok_iff
    · rw [hnext.writer hok, hwriter, Option.map_map]
      congr 1
      funext w
      exact (List.foldl_append).symm

theorem persist_phase {s : System} (now : Nanos) (type : RecordType) (payload : Bytes) (syncNow : Bool)
    (hwritable : s.engine.config.readonly = false) :
    Phase now s (s.persist now type payload syncNow) [(type, payload)] := by
  obtain ⟨hok, hengine⟩ := s.persist_spec now type payload syncNow hwritable
  exact ⟨hok, fun _ => congrArg Engine.writer hengine, (congrArg Engine.config hengine).trans rfl⟩

theorem each_phase {α : Type} {now : Nanos} {body : System → α → Status × System} {entry : α → Entry}
    (hbody : ∀ s x, s.engine.config.readonly = false → Phase now s (body s x) [entry x]) {s : System}
    (hwritable : s.engine.config.readonly = false) (xs : List α) : Phase now s (each body s xs) (xs.map entry) := by
  induction xs generalizing s with
  | nil => exact .nil now s s.engine rfl rfl
  | cons x xs ih => exact (hbody s x hwritable).andThen fun hconfig => ih (by rw [hconfig]; exact hwritable)

/-! ### A batch -/

def measurementEntry (type : RecordType) (record : MeasurementRecord) : Entry :=
  (type, encodeWith fun w => writeMeasurement w record)

def fenceEntry (entry : SourceId × SourceFenceState) : Entry :=
  (.fenceState, encodeWith fun w => writeFenceState w entry.1 entry.2)

/-- Everything a batch appends, in order. -/
def batchEntries (admission : Admission) : List Entry :=
  admission.acceptedCurrent.map (measurementEntry .measurementCurrent) ++
    (admission.acceptedHistory.map (measurementEntry .measurementHistorical) ++
      admission.fences.toList.map fenceEntry)

theorem store_phase {s : System} (now : Nanos) (type : RecordType) (record : MeasurementRecord)
    (hwritable : s.engine.config.readonly = false) :
    Phase now s (s.store now type record) [measurementEntry type record] :=
  (persist_phase now type _ false hwritable).andThen fun _ => .nil now _ _ rfl rfl

theorem storeFence_phase {s : System} (now : Nanos) (entry : SourceId × SourceFenceState)
    (hwritable : s.engine.config.readonly = false) : Phase now s (s.storeFence now entry) [fenceEntry entry] :=
  (persist_phase now .fenceState _ false hwritable).andThen fun _ => .nil now _ _ rfl rfl

theorem sync_spec (s : System) {writer : StoreWriter} (hwriter : s.engine.writer = some writer) :
    (s.sync writer).1 = .ok () ∧ (s.sync writer).2.engine = s.engine := by
  have hsame : { s.engine with writer := some writer } = s.engine := by rw [← hwriter]
  unfold sync StoreWriter.sync
  cases writer.file <;> exact ⟨rfl, hsame⟩

theorem syncBatch_spec (s : System) : s.syncBatch.1 = .ok () ∧ s.syncBatch.2.engine = s.engine := by
  unfold syncBatch
  split
  · rename_i hwriter
    exact s.sync_spec hwriter
  · exact ⟨rfl, rfl⟩

/-! ### What the appends leave alone -/

theorem persist_memory (s : System) (now : Nanos) (type : RecordType) (payload : Bytes) (syncNow : Bool) :
    (s.persist now type payload syncNow).2.engine.memory = s.engine.memory := by
  cases hreadonly : s.engine.config.readonly with
  | true => rw [persist_readonly _ _ _ _ _ hreadonly]
  | false =>
    rw [(s.persist_spec now type payload syncNow hreadonly).2]
    rfl

theorem andThen_inv {P : System → Prop} {result : Status × System} {next : System → Status × System}
    (hresult : P result.2) (hnext : P result.2 → P (next result.2).2) : P (andThen result next).2 := by
  unfold andThen
  split
  · exact hresult
  · exact hnext hresult

theorem each_inv {α : Type} {body : System → α → Status × System} {P : System → Prop}
    (hbody : ∀ s x, P s → P (body s x).2) {s : System} (h : P s) (xs : List α) : P (each body s xs).2 := by
  induction xs generalizing s with
  | nil => exact h
  | cons x xs ih => exact andThen_inv (hbody s x h) fun hnext => ih hnext

theorem store_fences (s : System) (now : Nanos) (type : RecordType) (record : MeasurementRecord) :
    (s.store now type record).2.engine.fences = s.engine.fences :=
  @andThen_inv (fun s' => s'.engine.fences = s.engine.fences) _ _
    (congrArg Memory.fences (s.persist_memory now type _ false)) fun h => h

theorem storeFence_memory (s : System) (now : Nanos) (entry : SourceId × SourceFenceState) :
    (s.storeFence now entry).2.engine.memory = s.engine.memory :=
  @andThen_inv (fun s' => s'.engine.memory = s.engine.memory) _ _ (s.persist_memory now .fenceState _ false) fun h => h

theorem syncBatch_phase (now : Nanos) (s : System) : Phase now s s.syncBatch [] := by
  obtain ⟨hok, hengine⟩ := s.syncBatch_spec
  have hnil := Phase.nil now s s.engine rfl rfl
  refine ⟨iff_of_true hok (hnil.ok_iff.mp rfl), fun _ => ?_, congrArg Engine.config hengine⟩
  rw [hengine]
  exact hnil.writer rfl

theorem storeBatch_phase {s : System} (now : Nanos) {admission : Admission}
    (hwritable : s.engine.config.readonly = false) (hfences : s.engine.fences = admission.fences) :
    Phase now s (s.storeBatch now admission) (batchEntries admission) := by
  have hkept₁ := @each_inv _ (store · now .measurementCurrent ·) (fun s => s.engine.fences = admission.fences)
    (fun s x h => (s.store_fences now _ x).trans h) s hfences admission.acceptedCurrent
  refine Phase.andThen (each_phase (fun s x h => store_phase now _ x h) hwritable _) fun hconfig₁ => ?_
  have hwritable₁ := hwritable
  rw [← hconfig₁] at hwritable₁
  have hkept₂ := @each_inv _ (store · now .measurementHistorical ·) (fun s => s.engine.fences = admission.fences)
    (fun s x h => (s.store_fences now _ x).trans h) _ hkept₁ admission.acceptedHistory
  refine Phase.andThen (each_phase (fun s x h => store_phase now _ x h) hwritable₁ _) fun hconfig₂ => ?_
  have hwritable₂ := hwritable₁
  rw [← hconfig₂] at hwritable₂
  -- The stored records left the fences alone, so the ones that are appended are those of the gate.
  have hlast := Phase.andThen (each_phase (fun s x h => storeFence_phase now x h) hwritable₂ admission.fences.toList)
    fun _ => syncBatch_phase now _
  rw [List.append_nil] at hlast
  rw [← hkept₂] at hlast ⊢
  exact hlast

theorem store_memory (s : System) (now : Nanos) (type : RecordType) (record : MeasurementRecord) :
    ((∃ e, (s.store now type record).1 = .error e) ∧ (s.store now type record).2.engine.memory = s.engine.memory) ∨
      ((s.store now type record).1 = .ok () ∧ (s.store now type record).2.engine.memory =
        { s.engine.memory with records := s.engine.memory.records ++ [record] }) := by
  have hmemory := s.persist_memory now type (encodeWith fun w => writeMeasurement w record) false
  unfold store andThen
  cases (s.persist now type (encodeWith fun w => writeMeasurement w record) false).1 with
  | error e => exact Or.inl ⟨⟨e, rfl⟩, hmemory⟩
  | ok u =>
    refine Or.inr ⟨rfl, ?_⟩
    rw [← hmemory]
    rfl

theorem each_store_memory (now : Nanos) (type : RecordType) (s : System) (records : List MeasurementRecord) :
    ∃ stored, stored <+: records ∧ ((each (store · now type ·) s records).1 = .ok () → stored = records) ∧
      (each (store · now type ·) s records).2.engine.memory =
        { s.engine.memory with records := s.engine.memory.records ++ stored } := by
  induction records generalizing s with
  | nil => exact ⟨[], List.prefix_rfl, fun _ => rfl, by simp [each]⟩
  | cons record rest ih =>
    unfold each andThen
    rcases s.store_memory now type record with ⟨⟨e, herror⟩, hmemory⟩ | ⟨hok, hmemory⟩
    · rw [herror]
      refine ⟨[], List.nil_prefix, by simp, ?_⟩
      rw [List.append_nil]
      exact hmemory
    · rw [hok]
      simp only
      obtain ⟨stored, hpre, hall, hrest⟩ := ih (s.store now type record).2
      refine ⟨record :: stored, List.cons_prefix_cons.mpr ⟨rfl, hpre⟩, fun h => by rw [hall h], ?_⟩
      rw [hrest, hmemory]
      simp only [List.append_assoc, List.cons_append, List.nil_append]

/-- A batch stores the first of its accepted records, and the appended fences change nothing more. -/
theorem storeBatch_stored (s : System) (now : Nanos) (admission : Admission) :
    ∃ stored, stored <+: admission.acceptedCurrent ++ admission.acceptedHistory ∧
      ((s.storeBatch now admission).1 = .ok () → stored = admission.acceptedCurrent ++ admission.acceptedHistory) ∧
      (s.storeBatch now admission).2.engine.memory =
        { s.engine.memory with records := s.engine.memory.records ++ stored } := by
  unfold storeBatch
  obtain ⟨current, hcurrent, hcurrentAll, hmemory₁⟩ :=
    each_store_memory now .measurementCurrent s admission.acceptedCurrent
  generalize each (store · now .measurementCurrent ·) s admission.acceptedCurrent = first at *
  obtain ⟨r₁, s₁⟩ := first
  cases r₁ with
  | error e => exact ⟨current, hcurrent.trans (List.prefix_append _ _), by simp [andThen], hmemory₁⟩
  | ok u =>
    obtain rfl := hcurrentAll rfl
    obtain ⟨history, hhistory, hhistoryAll, hmemory₂⟩ :=
      each_store_memory now .measurementHistorical s₁ admission.acceptedHistory
    simp only [andThen]
    generalize each (store · now .measurementHistorical ·) s₁ admission.acceptedHistory = second at *
    obtain ⟨r₂, s₂⟩ := second
    simp only at hmemory₁ hmemory₂
    rw [hmemory₁] at hmemory₂
    cases r₂ with
    | error e =>
      refine ⟨admission.acceptedCurrent ++ history, List.prefix_append_right_inj _ |>.mpr hhistory, by simp, ?_⟩
      simpa using hmemory₂
    | ok u =>
      obtain rfl := hhistoryAll rfl
      refine ⟨admission.acceptedCurrent ++ admission.acceptedHistory, List.prefix_rfl, fun _ => rfl, ?_⟩
      simp only
      have hkept : (andThen (each (storeFence · now ·) s₂ s₂.engine.fences.toList) syncBatch).2.engine.memory =
          s₂.engine.memory := by
        refine @andThen_inv (fun s' => s'.engine.memory = s₂.engine.memory) _ _ ?_ fun h => ?_
        · exact each_inv (fun s' x h => (s'.storeFence_memory now x).trans h) rfl _
        · rw [(syncBatch_spec _).2]
          exact h
      exact hkept.trans (by simpa using hmemory₂)

end System

/-! ### When a failing call is harmless -/

namespace Call

/-- The call is refused by the checks that come before any change. -/
def refused (e : Engine) (now : Nanos) : Call → Prop
  | .defineSource descriptor => ∃ error, (e.catalog.defineSource descriptor).1 = .error error
  | .defineEndpoint definition => ∃ error, (e.catalog.defineEndpoint definition).1 = .error error
  | .defineLink definition => ∃ error, (e.catalog.defineLink definition).1 = .error error
  | .defineQueue definition => ∃ error, (e.catalog.defineQueue definition).1 = .error error
  | .defineHop definition => ∃ error, (e.catalog.defineHop definition).1 = .error error
  | .defineGeneration definition => ∃ error, (e.catalog.defineGeneration definition).1 = .error error
  | .definePath definition => ∃ error, (e.catalog.definePath definition).1 = .error error
  | .defineClockDomain definition => ∃ error, (e.clocks.defineDomain definition).1 = .error error
  | .recordClockSync sync => ∃ error, (e.clocks.recordSync sync).1 = .error error
  | .ingest request => e.config.readonly = true ∨ e.recordCapacity < e.records.length + request.records.length ∨
      ∃ error, e.gate.admitBatch request = .error error
  | .createBaseline request => ∀ summary, e.summarize request.summary = .ok summary →
      summary.exchangesIncluded = 0 ∨ ∃ error, e.baselines.add (request.baseline now e.policy summary) = .error error
  | .flush | .shutdown => False

/-- The call has nothing to change: what it defines is stored already as it is, or no record of the batch
gets as far as the fences. -/
def known (e : Engine) : Call → Prop
  | .defineSource descriptor => e.catalog.sources[(.deriveFrom descriptor.name.str : SourceId)]? =
      some { descriptor with id := .deriveFrom descriptor.name.str }
  | .defineEndpoint definition => e.catalog.endpoints[(.deriveFrom definition.name.str : EndpointId)]? =
      some { definition with id := .deriveFrom definition.name.str }
  | .defineLink definition => e.catalog.links[(.deriveFrom definition.name.str : LinkId)]? =
      some { definition with id := .deriveFrom definition.name.str }
  | .defineQueue definition => e.catalog.queues[(.deriveFrom definition.name.str : QueueId)]? =
      some { definition with id := .deriveFrom definition.name.str }
  | .defineHop definition => e.catalog.hops[(.deriveFrom definition.name.str : HopId)]? =
      some { definition with id := .deriveFrom definition.name.str }
  | .defineGeneration definition => e.catalog.generations[(.deriveFrom definition.name.str : GenerationId)]? =
      some { definition with id := .deriveFrom definition.name.str }
  | .definePath definition => e.catalog.paths[(.deriveFrom definition.name.str : PathId)]? =
      some { definition with id := .deriveFrom definition.name.str }
  | .defineClockDomain definition => e.clocks.domains[(.deriveFrom definition.name.str : ClockDomainId)]? =
      some { definition with id := .deriveFrom definition.name.str }
  | .recordClockSync sync => e.clocks.syncs[sync.domain]? = some sync
  | .ingest request => ∀ record ∈ request.records, e.gate.admissible (IngestGate.stamp request record) = none
  | .createBaseline _ => False
  | .flush | .shutdown => True

/-- The records the call appends. -/
def entries (e : Engine) (now : Nanos) : Call → List Entry
  | .defineSource descriptor => [(.source, encodeWith fun w => writeSource w descriptor)]
  | .defineEndpoint definition => [(.endpoint, encodeWith fun w => writeEndpoint w definition)]
  | .defineLink definition => [(.link, encodeWith fun w => writeLink w definition)]
  | .defineQueue definition => [(.queue, encodeWith fun w => writeQueue w definition)]
  | .defineHop definition => [(.hop, encodeWith fun w => writeHop w definition)]
  | .defineGeneration definition => [(.generation, encodeWith fun w => writeGeneration w definition)]
  | .definePath definition => [(.path, encodeWith fun w => writePath w definition)]
  | .defineClockDomain definition => [(.clockDomain, encodeWith fun w => writeClockDomain w definition)]
  | .recordClockSync sync => [(.clockSync, encodeWith fun w => writeClockSync w sync)]
  | .ingest request =>
    match e.gate.admitBatch request with
    | .ok admission => System.batchEntries admission
    | .error _ => []
  | .createBaseline request =>
    match e.summarize request.summary with
    | .ok summary =>
      match e.baselines.add (request.baseline now e.policy summary) with
      | .ok (id, baselines) =>
        match baselines.get id with
        | .ok stored => [(.baseline, encodeWith fun w => writeBaseline w stored)]
        | .error _ => []
      | .error _ => []
    | .error _ => []
  | .flush | .shutdown => []

/-- A failure of the call, if there is one, changes nothing. -/
def Harmless (e : Engine) (now : Nanos) (c : Call) : Prop :=
  e.shutDown = true ∨ c.refused e now ∨ c.known e ∨ (e.config.readonly = false ∧ e.takes now (c.entries e now) = true)

end Call

/-- A call that returns an error leaves the memory as it was. -/
def System.Atomic (s : System) (now : Nanos) (c : Call) : Prop :=
  ∀ error, (s.call now c).1 = .error error → (s.call now c).2.engine.memory = s.engine.memory

namespace System

theorem outcome_status (result : Status × System) : outcome result = result := by
  obtain ⟨r, s⟩ := result
  cases r <;> rfl

theorem define_atomic_iff {α ι : Type} {s : System} {now : Nanos} {type : RecordType}
    {write : JsonWriter → α → JsonWriter} {value : α} {register : Engine → α → Except Error ι × Engine}
    (hconfig : (register s.engine value).2.config = s.engine.config)
    (hwriter : (register s.engine value).2.writer = s.engine.writer)
    (hrefused : ∀ error, (register s.engine value).1 = .error error →
      (register s.engine value).2.memory = s.engine.memory)
    {known : Prop} (hknown : ∀ id, (register s.engine value).1 = .ok id →
      ((register s.engine value).2.memory = s.engine.memory ↔ known)) :
    (∀ error, (outcome (s.define now type write value register)).1 = .error error →
        (outcome (s.define now type write value register)).2.engine.memory = s.engine.memory) ↔
      s.engine.shutDown = true ∨ (∃ error, (register s.engine value).1 = .error error) ∨ known ∨
        (s.engine.config.readonly = false ∧
          s.engine.takes now [(type, encodeWith fun w => write w value)] = true) := by
  unfold define
  by_cases hdown : s.engine.shutDown = true
  · simp [hdown, outcome]
  · rw [if_neg hdown]
    simp only [hdown, Bool.false_eq_true, false_or]
    cases hresult : (register s.engine value).1 with
    | error e =>
      have hsame := hrefused e hresult
      simp only [outcome, withEngine, hsame, implies_true, true_iff]
      exact Or.inl ⟨e, rfl⟩
    | ok id =>
      have hmemory := hknown id hresult
      simp only [reduceCtorEq, exists_false, false_or]
      rw [← hmemory]
      have hkept := (s.withEngine (register s.engine value).2).persist_memory now type
        (encodeWith fun w => write w value) true
      have hreadonly : (s.withEngine (register s.engine value).2).engine.config.readonly =
          s.engine.config.readonly := congrArg RuntimeConfig.readonly hconfig
      cases hmode : s.engine.config.readonly with
      | true =>
        rw [persist_readonly _ _ _ _ _ (hreadonly.trans hmode)]
        simp [outcome, Except.map, withEngine]
      | false =>
        obtain ⟨hok, -⟩ := (s.withEngine (register s.engine value).2).persist_spec now type
          (encodeWith fun w => write w value) true (hreadonly.trans hmode)
        have htakes : (s.withEngine (register s.engine value).2).engine.takes now
            [(type, encodeWith fun w => write w value)] =
              s.engine.takes now [(type, encodeWith fun w => write w value)] := by
          unfold Engine.takes withEngine
          rw [hwriter]
        rw [htakes] at hok
        rw [← hok]
        simp only [outcome, hkept, true_and]
        cases (persist (s.withEngine (register s.engine value).2) now type
          (encodeWith fun w => write w value) true).1 with
        | error e => simp [Except.map, withEngine]
        | ok u => simp [Except.map]

theorem catalog_memory_iff {e : Engine} {c : Catalog} :
    ({ e with catalog := c } : Engine).memory = e.memory ↔ c = e.catalog := by
  simp [Engine.memory]

theorem clocks_memory_iff {e : Engine} {r : ClockRegistry} :
    ({ e with clocks := r } : Engine).memory = e.memory ↔ r = e.clocks := by
  simp [Engine.memory]

theorem catalog_atomic_iff {tag : Tag} {α : Type} {s : System} {now : Nanos} {type : RecordType}
    {write : JsonWriter → α → JsonWriter} {value : α} {define : Catalog → α → Except Error (StrongId tag) × Catalog}
    (hsound : s.engine.catalog.Sound (Catalog.settle (define s.engine.catalog value))) {known : Prop}
    (hknown : ∀ id, (define s.engine.catalog value).1 = .ok id →
      ((define s.engine.catalog value).2 = s.engine.catalog ↔ known)) :
    (∀ error, (outcome (s.define now type write value fun e value =>
          ((define e.catalog value).1, { e with catalog := (define e.catalog value).2 }))).1 = .error error →
        (outcome (s.define now type write value fun e value =>
          ((define e.catalog value).1, { e with catalog := (define e.catalog value).2 }))).2.engine.memory =
            s.engine.memory) ↔
      s.engine.shutDown = true ∨ (∃ error, (define s.engine.catalog value).1 = .error error) ∨ known ∨
        (s.engine.config.readonly = false ∧
          s.engine.takes now [(type, encodeWith fun w => write w value)] = true) := by
  apply define_atomic_iff rfl rfl
  · intro error herror
    apply catalog_memory_iff.mpr
    apply hsound.atomic
    have herror' : (define s.engine.catalog value).1 = .error error := herror
    simp [Catalog.settle, herror', Except.map]
  · intro id hid
    rw [catalog_memory_iff]
    exact hknown id hid

theorem defineDomain_cases (r : ClockRegistry) (definition : ClockDomainDef) :
    (∃ error, r.defineDomain definition = (.error error, r)) ∨
      ∃ id, (r.domains[(.deriveFrom definition.name.str : ClockDomainId)]? =
          some { definition with id := .deriveFrom definition.name.str } ∧ r.defineDomain definition = (.ok id, r)) ∨
        (r.domains[(.deriveFrom definition.name.str : ClockDomainId)]? = none ∧
          r.defineDomain definition = (.ok id, { r with
            domains := r.domains.insert (.deriveFrom definition.name.str)
              { definition with id := .deriveFrom definition.name.str } })) := by
  unfold ClockRegistry.defineDomain
  simp only
  by_cases hid : (definition.id.valid && definition.id != .deriveFrom definition.name.str) = true
  · exact Or.inl ⟨_, if_pos hid⟩
  · rw [if_neg hid]
    cases hfound : r.domains[(.deriveFrom definition.name.str : ClockDomainId)]? with
    | none =>
      simp only
      by_cases hfull : r.domains.size ≥ r.policy.limits.maxClockDomains
      · exact Or.inl ⟨_, if_pos hfull⟩
      · exact Or.inr ⟨_, Or.inr ⟨trivial, if_neg hfull⟩⟩
    | some found =>
      simp only
      by_cases hsame : found = { definition with id := .deriveFrom definition.name.str }
      · exact Or.inr ⟨_, Or.inl ⟨by rw [hsame], if_neg (not_not.mpr hsame)⟩⟩
      · exact Or.inl ⟨_, if_pos hsame⟩

theorem recordSync_cases (r : ClockRegistry) (sync : ClockSync) :
    (∃ error, r.recordSync sync = (.error error, r)) ∨
      (r.syncs[sync.domain]? = some sync ∧ r.recordSync sync = (.ok (), r)) ∨
      (r.syncs[sync.domain]? ≠ some sync ∧
        r.recordSync sync = (.ok (), { r with syncs := r.syncs.insert sync.domain sync })) := by
  unfold ClockRegistry.recordSync
  have hguard : ∀ {c : Prop} [Decidable c] {e : Error} {rest : Status × ClockRegistry},
      (¬ c → (∃ error, rest = (.error error, r)) ∨ (r.syncs[sync.domain]? = some sync ∧ rest = (.ok (), r)) ∨
        (r.syncs[sync.domain]? ≠ some sync ∧
          rest = (.ok (), { r with syncs := r.syncs.insert sync.domain sync }))) →
      (∃ error, (if c then (.error e, r) else rest) = (.error error, r)) ∨
        (r.syncs[sync.domain]? = some sync ∧ (if c then (.error e, r) else rest) = (.ok (), r)) ∨
        (r.syncs[sync.domain]? ≠ some sync ∧
          (if c then (.error e, r) else rest) = (.ok (), { r with syncs := r.syncs.insert sync.domain sync })) := by
    intro c _ e rest hrest
    by_cases hc : c
    · exact Or.inl ⟨e, if_pos hc⟩
    · rw [if_neg hc]
      exact hrest hc
  refine hguard fun _ => hguard fun _ => hguard fun _ => hguard fun _ => hguard fun _ => hguard fun _ => ?_
  cases hfound : r.syncs[sync.domain]? with
  | none => exact Or.inr (Or.inr ⟨by simp, rfl⟩)
  | some found =>
    simp only
    rw [hfound] at hguard
    refine hguard fun _ => ?_
    by_cases hrevision : sync.revision = found.revision
    · rw [if_pos hrevision]
      by_cases hsame : sync = found
      · exact Or.inr (Or.inl ⟨by rw [hsame], if_pos hsame⟩)
      · rw [if_neg hsame]
        split_ifs
        · exact Or.inl ⟨_, rfl⟩
        · exact Or.inl ⟨_, rfl⟩
    · rw [if_neg hrevision]
      refine Or.inr (Or.inr ⟨?_, rfl⟩)
      intro hstored
      rw [Option.some.injEq] at hstored
      exact hrevision (congrArg ClockSync.revision hstored).symm

theorem clocks_atomic_iff {α ι : Type} {s : System} {now : Nanos} {type : RecordType}
    {write : JsonWriter → α → JsonWriter} {value : α} {change : ClockRegistry → α → Except Error ι × ClockRegistry}
    {known : Prop} (hcases : (∃ error, change s.engine.clocks value = (.error error, s.engine.clocks)) ∨
      ∃ id, (known ∧ change s.engine.clocks value = (.ok id, s.engine.clocks)) ∨
        (¬ known ∧ (change s.engine.clocks value).1 = .ok id ∧
          (change s.engine.clocks value).2 ≠ s.engine.clocks)) :
    (∀ error, (outcome (s.define now type write value fun e value =>
          ((change e.clocks value).1, { e with clocks := (change e.clocks value).2 }))).1 = .error error →
        (outcome (s.define now type write value fun e value =>
          ((change e.clocks value).1, { e with clocks := (change e.clocks value).2 }))).2.engine.memory =
            s.engine.memory) ↔
      s.engine.shutDown = true ∨ (∃ error, (change s.engine.clocks value).1 = .error error) ∨ known ∨
        (s.engine.config.readonly = false ∧
          s.engine.takes now [(type, encodeWith fun w => write w value)] = true) := by
  apply define_atomic_iff rfl rfl
  · intro error herror
    have herror' : (change s.engine.clocks value).1 = .error error := herror
    apply clocks_memory_iff.mpr
    rcases hcases with ⟨e, hrefused⟩ | ⟨id, ⟨-, hok⟩ | ⟨-, hok, -⟩⟩
    · rw [hrefused]
    · rw [hok]
    · rw [hok] at herror'
      cases herror'
  · intro id hid
    have hid' : (change s.engine.clocks value).1 = .ok id := hid
    rw [clocks_memory_iff]
    rcases hcases with ⟨e, hrefused⟩ | ⟨id, ⟨hknown, hok⟩ | ⟨hnew, -, hchanged⟩⟩
    · rw [hrefused] at hid'
      cases hid'
    · exact iff_of_true (congrArg Prod.snd hok) hknown
    · exact iff_of_false hchanged hnew

/-- What a batch leaves of the fences and whether it accepts anything, by whether a record is admissible. -/
theorem admission_unchanged_iff {e : Engine} {request : IngestRequest} {admission : Admission}
    (h : e.gate.admitBatch request = .ok admission) :
    (admission.fences = e.fences ↔ (Call.ingest request).known e) ∧
      ((Call.ingest request).known e → admission.acceptedCurrent = [] ∧ admission.acceptedHistory = []) := by
  have hgate : (⟨e.catalog, e.clocks, request⟩ : Batch).gate e.policy e.fences = e.gate := rfl
  obtain ⟨hfences, hcurrent, hhistory⟩ := @admitBatch_eq_run e.policy ⟨e.catalog, e.clocks, request⟩ e.fences _ h
  have htaken : (⟨e.catalog, e.clocks, request⟩ : Batch).taken e.policy = true :=
    admitBatch_ok_iff.mp ⟨admission, h⟩
  have hsubmissions : (⟨e.catalog, e.clocks, request⟩ : Batch).submissions e.policy =
      request.records.map fun record => ⟨e.catalog, e.clocks, IngestGate.stamp request record, request.receivedAt⟩ := by
    unfold Batch.submissions
    rw [if_pos htaken]
  have hnone : (Call.ingest request).known e ↔
      ∀ x ∈ (⟨e.catalog, e.clocks, request⟩ : Batch).submissions e.policy,
        (x.gate e.policy e.fences).admissible x.record = none := by
    rw [hsubmissions, List.forall_mem_map]
    rfl
  refine ⟨?_, fun hknown => ?_⟩
  · rw [hfences, foldl_submit_eq_iff, hnone]
  · have hall : ∀ p ∈ passages e.policy e.fences [⟨e.catalog, e.clocks, request⟩],
        (p.2.gate e.policy e.fences).admissible p.2.record = none := by
      intro p hp
      refine hnone.mp hknown p.2 ?_
      obtain ⟨n, hn⟩ := List.getElem?_of_mem hp
      have hx := (Lib.steps_getElem? hn).1
      simpa using List.mem_of_getElem? hx
    rw [hcurrent, hhistory]
    exact ⟨accepted_eq_nil (by decide) hall, accepted_eq_nil (by decide) hall⟩

theorem ingest_of_admitted {s : System} {now : Nanos} {request : IngestRequest} {admission : Admission}
    (hdown : s.engine.shutDown = false) (hwritable : s.engine.config.readonly = false)
    (hroom : ¬ s.engine.recordCapacity < s.engine.records.length + request.records.length)
    (htaken : s.engine.gate.admitBatch request = .ok admission) :
    (outcome (s.ingest now request)).1 = ((s.withEngine (admitted s.engine admission)).storeBatch now admission).1 ∧
      (outcome (s.ingest now request)).2.engine.memory =
        ((s.withEngine (admitted s.engine admission)).storeBatch now admission).2.engine.memory := by
  unfold ingest
  rw [if_neg (by simp [hdown]), if_neg (by simp [hwritable]), if_neg hroom, htaken]
  simp only
  cases ((s.withEngine (admitted s.engine admission)).storeBatch now admission).1 with
  | error e => exact ⟨rfl, rfl⟩
  | ok u => exact ⟨rfl, rfl⟩

theorem ingest_atomic_iff (s : System) (now : Nanos) (request : IngestRequest) :
    s.Atomic now (.ingest request) ↔ (Call.ingest request).Harmless s.engine now := by
  unfold Atomic Call.Harmless
  simp only [call, Call.refused, Call.entries]
  cases hdown : s.engine.shutDown with
  | true => simp [ingest, hdown, outcome]
  | false =>
    cases hwritable : s.engine.config.readonly with
    | true => simp [ingest, hdown, hwritable, outcome]
    | false =>
      by_cases hfull : s.engine.recordCapacity < s.engine.records.length + request.records.length
      · simp [ingest, hdown, hwritable, hfull, outcome]
      · cases htaken : s.engine.gate.admitBatch request with
        | error e => simp [ingest, hdown, hwritable, hfull, htaken, outcome]
        | ok admission =>
          obtain ⟨hresult, hafter⟩ := @ingest_of_admitted s now request admission hdown hwritable hfull htaken
          obtain ⟨hunchanged, hempty⟩ := admission_unchanged_iff htaken
          have hphase := @storeBatch_phase (s.withEngine (admitted s.engine admission)) now admission hwritable rfl
          obtain ⟨stored, hpre, -, hmemory⟩ :=
            (s.withEngine (admitted s.engine admission)).storeBatch_stored now admission
          have hkept := congrArg Memory.fences hmemory
          have htakes : s.engine.takes now (batchEntries admission) = true ↔
              ((s.withEngine (admitted s.engine admission)).storeBatch now admission).1 = .ok () :=
            hphase.ok_iff.symm
          rw [hresult, hafter, htakes]
          simp only [Bool.false_eq_true, hfull, reduceCtorEq, exists_false, false_or, true_and]
          cases hstored : ((s.withEngine (admitted s.engine admission)).storeBatch now admission).1 with
          | ok u => simp
          | error e =>
            simp only [Except.error.injEq, forall_eq', reduceCtorEq, or_false]
            constructor
            · intro hsame
              exact hunchanged.mp (hkept.symm.trans (congrArg Memory.fences hsame))
            · intro hknown
              obtain ⟨hcurrent, hhistory⟩ := hempty hknown
              rw [hcurrent, hhistory, List.append_nil, List.prefix_nil] at hpre
              rw [hmemory, hpre, List.append_nil]
              show (⟨_, _, admission.fences, _, _⟩ : Memory) = _
              rw [hunchanged.mpr hknown]
              rfl

theorem add_spec {store store' : BaselineStore} {baseline : Baseline} {id : BaselineId}
    (h : store.add baseline = .ok (id, store')) :
    store' ≠ store ∧ ∃ stored, store'.get id = .ok stored := by
  unfold BaselineStore.add at h
  obtain ⟨-, h⟩ := guard_eq_ok_iff.mp h
  obtain ⟨-, h⟩ := guard_eq_ok_iff.mp h
  obtain ⟨-, h⟩ := guard_eq_ok_iff.mp h
  obtain ⟨hnew, h⟩ := guard_eq_ok_iff.mp h
  obtain ⟨-, h⟩ := guard_eq_ok_iff.mp h
  simp only [Except.ok.injEq, Prod.mk.injEq] at h
  obtain ⟨rfl, rfl⟩ := h
  constructor
  · intro hsame
    have hcontains := congrArg (fun store : BaselineStore => store.baselines.contains
      (if baseline.id.valid then baseline.id else .deriveFrom baseline.canonical)) hsame
    rw [Std.ExtTreeMap.contains_insert_self] at hcontains
    exact hnew hcontains.symm
  · exact ⟨_, Catalog.lookup_ok_iff.mpr Std.ExtTreeMap.getElem?_insert_self⟩

theorem createBaseline_of_added {s : System} {now : Nanos} {request : BaselineRequest} {summary : PathSummary}
    {id : BaselineId} {baselines : BaselineStore} {stored : Baseline} (hdown : s.engine.shutDown = false)
    (hsummary : s.engine.summarize request.summary = .ok summary) (hsome : ¬ summary.exchangesIncluded = 0)
    (hadd : s.engine.baselines.add (request.baseline now s.engine.policy summary) = .ok (id, baselines))
    (hstored : baselines.get id = .ok stored) :
    (outcome (s.createBaseline now request)).1 = ((s.withEngine { s.engine with baselines }).persist now .baseline
        (encodeWith fun w => writeBaseline w stored)).1 ∧
      (outcome (s.createBaseline now request)).2.engine.memory =
        ({ s.engine with baselines } : Engine).memory ∧
      (Call.createBaseline request).entries s.engine now =
        [(.baseline, encodeWith fun w => writeBaseline w stored)] := by
  have hget : (s.withEngine { s.engine with baselines }).engine.baselines.get id = .ok stored := hstored
  have hmemory := (s.withEngine { s.engine with baselines }).persist_memory now .baseline
    (encodeWith fun w => writeBaseline w stored) true
  refine ⟨?_, ?_, ?_⟩
  · unfold createBaseline
    rw [if_neg (by simp [hdown]), hsummary]
    simp only
    rw [if_neg hsome, hadd]
    simp only
    unfold storeBaseline
    rw [hget]
    simp only
    split
    · rename_i e he
      rw [he]
      rfl
    · rename_i he
      rw [he]
      rfl
  · unfold createBaseline
    rw [if_neg (by simp [hdown]), hsummary]
    simp only
    rw [if_neg hsome, hadd]
    simp only
    unfold storeBaseline
    rw [hget]
    simp only
    split
    · exact hmemory
    · exact hmemory
  · unfold Call.entries
    simp only
    rw [hsummary]
    simp only
    rw [hadd]
    simp only
    rw [hstored]

theorem createBaseline_atomic_iff (s : System) (now : Nanos) (request : BaselineRequest) :
    s.Atomic now (.createBaseline request) ↔ (Call.createBaseline request).Harmless s.engine now := by
  unfold Atomic Call.Harmless
  simp only [call, Call.refused, Call.known, false_or]
  cases hdown : s.engine.shutDown with
  | true => simp [createBaseline, hdown, outcome]
  | false =>
    cases hsummary : s.engine.summarize request.summary with
    | error e => simp [createBaseline, hdown, hsummary, outcome]
    | ok summary =>
      simp only [Except.ok.injEq, forall_eq']
      by_cases hnone : summary.exchangesIncluded = 0
      · simp [createBaseline, hdown, hsummary, hnone, outcome]
      · cases hadd : s.engine.baselines.add (request.baseline now s.engine.policy summary) with
        | error e => simp [createBaseline, hdown, hsummary, hnone, hadd, outcome]
        | ok added =>
          obtain ⟨id, baselines⟩ := added
          obtain ⟨hchanged, stored, hstored⟩ := add_spec hadd
          obtain ⟨hresult, hafter, hentries⟩ := createBaseline_of_added hdown hsummary hnone hadd hstored
          have hmemory : ({ s.engine with baselines } : Engine).memory ≠ s.engine.memory := by
            intro hsame
            exact hchanged (congrArg Memory.baselines hsame)
          rw [hresult, hafter, hentries]
          simp only [hmemory, imp_false, Bool.false_eq_true, hnone, reduceCtorEq, exists_false, false_or]
          cases hmode : s.engine.config.readonly with
          | true =>
            have hmode' : (s.withEngine { s.engine with baselines }).engine.config.readonly = true := hmode
            rw [persist_readonly _ _ _ _ _ hmode']
            simp
          | false =>
            obtain ⟨hok, -⟩ := (s.withEngine { s.engine with baselines }).persist_spec now .baseline
              (encodeWith fun w => writeBaseline w stored) true hmode
            have htakes : s.engine.takes now [(.baseline, encodeWith fun w => writeBaseline w stored)] = true ↔ _ :=
              hok.symm
            rw [htakes]
            cases ((s.withEngine { s.engine with baselines }).persist now .baseline
              (encodeWith fun w => writeBaseline w stored) true).1 with
            | ok u => simp
            | error e => simp

theorem flush_memory (s : System) : s.flush.2.engine.memory = s.engine.memory := by
  unfold flush
  split
  · rfl
  · rename_i writer hwriter
    rw [(s.sync_spec hwriter).2]

theorem shutdown_memory (s : System) : s.shutdown.2.engine.memory = s.engine.memory := by
  unfold shutdown
  split_ifs
  · rfl
  · simp only
    split
    · rfl
    · split <;> rfl

theorem call_atomic_iff {s : System} (h : s.engine.catalog.Integral) (now : Nanos) (c : Call) :
    s.Atomic now c ↔ c.Harmless s.engine now := by
  cases c with
  | defineSource descriptor =>
    exact catalog_atomic_iff (Catalog.defineSource_sound h descriptor) fun _ => Catalog.defineSource_eq_self_iff h
  | defineEndpoint definition =>
    exact catalog_atomic_iff (Catalog.defineEndpoint_sound h definition) fun _ => Catalog.defineEndpoint_eq_self_iff
  | defineLink definition =>
    exact catalog_atomic_iff (Catalog.defineLink_sound h definition) fun _ => Catalog.defineLink_eq_self_iff
  | defineQueue definition =>
    exact catalog_atomic_iff (Catalog.defineQueue_sound h definition) fun _ => Catalog.defineQueue_eq_self_iff
  | defineHop definition =>
    exact catalog_atomic_iff (Catalog.defineHop_sound h definition) fun _ => Catalog.defineHop_eq_self_iff
  | defineGeneration definition =>
    exact catalog_atomic_iff (Catalog.defineGeneration_sound h definition) fun _ =>
      Catalog.defineGeneration_eq_self_iff h
  | definePath definition =>
    exact catalog_atomic_iff (Catalog.definePath_sound h definition) fun _ => Catalog.definePath_eq_self_iff h
  | defineClockDomain definition =>
    apply clocks_atomic_iff
    rcases defineDomain_cases s.engine.clocks definition with hrefused | ⟨id, hknown | ⟨hnew, hdefined⟩⟩
    · exact Or.inl hrefused
    · exact Or.inr ⟨id, Or.inl hknown⟩
    · refine Or.inr ⟨id, Or.inr ⟨fun hknown => ?_, congrArg Prod.fst hdefined, fun hsame => ?_⟩⟩
      · cases hnew.symm.trans hknown
      · rw [hdefined] at hsame
        have hfound := congrArg
          (fun r : ClockRegistry => r.domains[(.deriveFrom definition.name.str : ClockDomainId)]?) hsame
        simp [hnew] at hfound
  | recordClockSync sync =>
    have houtcome := outcome_status (s.recordClockSync now sync)
    unfold Atomic
    simp only [call]
    rw [← houtcome]
    apply clocks_atomic_iff
    rcases recordSync_cases s.engine.clocks sync with hrefused | hknown | ⟨hnew, hrecorded⟩
    · exact Or.inl hrefused
    · exact Or.inr ⟨(), Or.inl hknown⟩
    · refine Or.inr ⟨(), Or.inr ⟨hnew, congrArg Prod.fst hrecorded, fun hsame => ?_⟩⟩
      rw [hrecorded] at hsame
      have hfound := congrArg (fun r : ClockRegistry => r.syncs[sync.domain]?) hsame
      simp only [Std.ExtTreeMap.getElem?_insert_self] at hfound
      exact hnew hfound.symm
  | ingest request => exact s.ingest_atomic_iff now request
  | createBaseline request => exact s.createBaseline_atomic_iff now request
  | flush => exact iff_of_true (fun _ _ => s.flush_memory) (Or.inr (Or.inr (Or.inl trivial)))
  | shutdown => exact iff_of_true (fun _ _ => s.shutdown_memory) (Or.inr (Or.inr (Or.inl trivial)))

end System

end LatencyObservatory.Runtime
