import LatencyObservatory.Core.JsonSize
import LatencyObservatory.Ingest.FenceCodec
import LatencyObservatory.Model.SyncCodec
import LatencyObservatory.Baselines.RoundTrip
import LatencyObservatory.Runtime.BaselineRestart
import LatencyObservatory.Runtime.Currency
import LatencyObservatory.Runtime.Storeless

/-!
# What the engine writes

Every record that a call appends is the compact text of a tree. So the trees bound the size of the records, without a
string of them being escaped, and a store that affords as much affords the records.
-/

namespace LatencyObservatory.Runtime

open LatencyObservatory.Core LatencyObservatory.Model LatencyObservatory.Ingest LatencyObservatory.Stats
open LatencyObservatory.Baselines LatencyObservatory.Store

/-- The trees of what a batch appends. -/
def batchDocuments (admission : Admission) : List JsonValue :=
  admission.acceptedCurrent.map measurementJson ++
    (admission.acceptedHistory.map measurementJson ++
      admission.fences.toList.map fun entry => fenceStateJson entry.1 entry.2)

/-- The trees of what a call appends. -/
def Call.documents (e : Engine) (now : Nanos) : Call → List JsonValue
  | .defineSource descriptor => [sourceJson descriptor]
  | .defineEndpoint definition => [endpointJson definition]
  | .defineLink definition => [linkJson definition]
  | .defineQueue definition => [queueJson definition]
  | .defineHop definition => [hopJson definition]
  | .defineGeneration definition => [generationJson definition]
  | .definePath definition => [pathJson definition]
  | .defineClockDomain definition => [clockDomainJson definition]
  | .recordClockSync sync => [clockSyncJson sync]
  | .ingest request =>
    match e.gate.admitBatch request with
    | .ok admission => batchDocuments admission
    | .error _ => []
  | .createBaseline request =>
    match e.summarize request.summary with
    | .ok summary =>
      match e.baselines.add (request.baseline now e.policy summary) with
      | .ok (id, baselines) =>
        match baselines.get id with
        | .ok stored => [baselineJson stored]
        | .error _ => []
      | .error _ => []
    | .error _ => []
  | .flush | .shutdown => []

/-- The records are the texts of these trees. -/
def WrittenAs (entries : List Entry) (documents : List JsonValue) : Prop :=
  entries.map Prod.snd = documents.map (JsonValue.write false)

theorem WrittenAs.append {first second : List Entry} {documents more : List JsonValue} (h : WrittenAs first documents)
    (h' : WrittenAs second more) : WrittenAs (first ++ second) (documents ++ more) := by
  unfold WrittenAs at h h' ⊢
  rw [List.map_append, List.map_append, h, h']

theorem encodeWith_eq {write : JsonWriter → JsonWriter} {document : JsonValue} (h : Writes write document) :
    encodeWith write = document.write false := by
  unfold encodeWith JsonValue.write
  rw [h]

theorem writtenAs_single (type : RecordType) {write : JsonWriter → JsonWriter} {document : JsonValue}
    (h : Writes write document) : WrittenAs [(type, encodeWith write)] [document] :=
  congrArg (fun payload => [payload]) (encodeWith_eq h)

theorem batch_writtenAs (admission : Admission) : WrittenAs (System.batchEntries admission) (batchDocuments admission) := by
  have hmeasurements : ∀ (type : RecordType) (records : List MeasurementRecord),
      WrittenAs (records.map (System.measurementEntry type)) (records.map measurementJson) := by
    intro type records
    unfold WrittenAs
    rw [List.map_map, List.map_map]
    exact List.map_congr_left fun record _ => encodeWith_eq (writeMeasurement_eq · record)
  have hfences : WrittenAs (admission.fences.toList.map System.fenceEntry)
      (admission.fences.toList.map fun entry => fenceStateJson entry.1 entry.2) := by
    unfold WrittenAs
    rw [List.map_map, List.map_map]
    exact List.map_congr_left fun entry _ => encodeWith_eq (writeFenceState_eq · entry.1 entry.2)
  exact (hmeasurements _ _).append ((hmeasurements _ _).append hfences)

/-- **What the engine writes.** -/
theorem entries_writtenAs (e : Engine) (now : Nanos) (c : Call) : WrittenAs (c.entries e now) (c.documents e now) := by
  cases c with
  | defineSource descriptor => exact writtenAs_single _ (writeSource_eq · descriptor)
  | defineEndpoint definition => exact writtenAs_single _ (writeEndpoint_eq · definition)
  | defineLink definition => exact writtenAs_single _ (writeLink_eq · definition)
  | defineQueue definition => exact writtenAs_single _ (writeQueue_eq · definition)
  | defineHop definition => exact writtenAs_single _ (writeHop_eq · definition)
  | defineGeneration definition => exact writtenAs_single _ (writeGeneration_eq · definition)
  | definePath definition => exact writtenAs_single _ (writePath_eq · definition)
  | defineClockDomain definition => exact writtenAs_single _ (writeClockDomain_eq · definition)
  | recordClockSync sync => exact writtenAs_single _ (writeClockSync_eq · sync)
  | ingest request =>
    unfold Call.entries Call.documents
    dsimp only
    cases e.gate.admitBatch request with
    | error error => exact rfl
    | ok admission => exact batch_writtenAs admission
  | createBaseline request =>
    unfold Call.entries Call.documents
    dsimp only
    cases e.summarize request.summary with
    | error error => exact rfl
    | ok summary =>
      dsimp only
      cases e.baselines.add (request.baseline now e.policy summary) with
      | error error => exact rfl
      | ok added =>
        dsimp only
        cases added.2.get added.1 with
        | error error => exact rfl
        | ok stored => exact writtenAs_single _ (writeBaseline_eq · stored)
  | flush => exact rfl
  | shutdown => exact rfl

/-- The trees of all that a run has appended. -/
def documents (s : System) (calls : List (Nanos × Call)) : List JsonValue :=
  (Lib.steps System.step s calls).flatMap fun p =>
    if (p.1.call p.2.1 p.2.2).1.isOk then p.2.2.documents p.1.engine p.2.1 else []

theorem acknowledged_writtenAs (s : System) (calls : List (Nanos × Call)) :
    WrittenAs (acknowledged s calls) (documents s calls) := by
  unfold acknowledged documents
  induction Lib.steps System.step s calls with
  | nil => exact rfl
  | cons p rest ih =>
    rw [List.flatMap_cons, List.flatMap_cons]
    refine WrittenAs.append ?_ ih
    split_ifs
    · exact entries_writtenAs _ _ _
    · exact rfl

/-- What the record of a tree costs at most. -/
def documentCost (document : JsonValue) : Nat :=
  recordHeaderBytes + document.size + segmentFooterBytes

/-- A store affords what it would afford at the sizes of the trees. -/
theorem WrittenAs.affords {entries : List Entry} {documents : List JsonValue} (h : WrittenAs entries documents)
    {w : StoreWriter} (hopen : w.closed = false)
    (hfits : ∀ document ∈ documents, StoreWriter.fits w.config.limits document.size = true)
    (hcounted : w.totalBytes + (documents.map documentCost).sum < 2 ^ 64)
    (hstored : w.totalBytes + (documents.map documentCost).sum ≤ w.config.limits.maxStoreBytes) :
    w.Affords entries := by
  have hboth : (∀ entry ∈ entries, StoreWriter.fits w.config.limits entry.2.length = true) ∧
      (entries.map appendCost).sum ≤ (documents.map documentCost).sum := by
    clear hcounted hstored
    induction entries generalizing documents with
    | nil => exact ⟨by simp, Nat.zero_le _⟩
    | cons entry rest ih =>
      obtain ⟨document, others, rfl, hfirst, hrest⟩ := List.map_eq_cons_iff.mp h.symm
      rw [List.forall_mem_cons] at hfits
      obtain ⟨hall, hsum⟩ := ih hrest.symm hfits.2
      have hlength : entry.2.length ≤ document.size := by
        rw [← hfirst]
        exact document.write_length_le
      refine ⟨List.forall_mem_cons.mpr ⟨?_, hall⟩, ?_⟩
      · have hbound := hfits.1
        unfold StoreWriter.fits at hbound ⊢
        simp only [Bool.and_eq_true, decide_eq_true_eq] at hbound ⊢
        omega
      · simp only [List.map_cons, List.sum_cons, appendCost, documentCost]
        omega
  exact ⟨hopen, hboth.1, by omega, by omega⟩

/-- A new writer affords trees that together fit into one record. -/
theorem WrittenAs.affords_new {entries : List Entry} {documents : List JsonValue} (h : WrittenAs entries documents)
    {w : StoreWriter} (hopen : w.closed = false) (hempty : w.totalBytes = 0)
    (hpayload : (documents.map documentCost).sum ≤ maxRecordPayloadBytes)
    (hsegment : (documents.map documentCost).sum ≤ w.config.limits.maxSegmentBytes)
    (hstore : (documents.map documentCost).sum ≤ w.config.limits.maxStoreBytes) : w.Affords entries := by
  have hsmall : maxRecordPayloadBytes < 2 ^ 64 := by decide
  refine h.affords hopen (fun document hmem => ?_) (by omega) (by omega)
  have hone : recordHeaderBytes + document.size + segmentFooterBytes ≤ (documents.map documentCost).sum :=
    List.le_sum_of_mem (List.mem_map_of_mem hmem)
  unfold StoreWriter.fits
  rw [Bool.and_eq_true, decide_eq_true_eq, decide_eq_true_eq]
  omega

/-! ### A deployment -/

/-- A runtime that was just created, in a place where nothing was. -/
def freshSystem (config : RuntimeConfig) (directory : Bytes) (now : Nanos) : System :=
  let e := Engine.new config ⟨now, referenceClockDomain⟩
  { engine := { e with writer := some { config := e.storeConfig directory true, segmentId := 1 } }
    directory := ⟨.directory, some (manifestText now config.policy.digest), []⟩ }

theorem create_empty {config : RuntimeConfig} (hvalid : config.policy.validate = .ok ()) {directory : Bytes}
    (hstore : config.storeDirectory = some directory) (hsome : directory ≠ []) (now : Nanos) :
    create config now .empty = .ok (freshSystem config directory now) := by
  have hopen : StoreWriter.open ((Engine.new config ⟨now, referenceClockDomain⟩).storeConfig directory true) now .empty =
      .ok ({ config := (Engine.new config ⟨now, referenceClockDomain⟩).storeConfig directory true, segmentId := 1 },
        ⟨.directory, some (manifestText now config.policy.digest), []⟩) := by
    have hne : ((Engine.new config ⟨now, referenceClockDomain⟩).storeConfig directory true).directory ≠ [] := hsome
    unfold StoreWriter.open StoreWriter.openDirectory
    rw [if_neg hne]
    rfl
  unfold create
  rw [hvalid, hstore]
  simp only [bind, Except.bind, Directory.empty, Option.isSome_none, Bool.false_eq_true, if_false] at hopen ⊢
  rw [hopen]
  rfl

/-- A runtime on an empty store. -/
def storedConfig : RuntimeConfig := { storeDirectory := some (text "store") }

def storedStart : System := freshSystem storedConfig (text "store") 0

theorem stored_created : create storedConfig 0 .empty = .ok storedStart :=
  create_empty defaultPolicy_validate rfl (by decide) 0

/-- A deployment with a clock, one exchange and a baseline of it. -/
def deploymentCalls : List (Nanos × Call) :=
  sampleDefinitions ++
    [(0, .defineClockDomain { name := ⟨text "clock.edge"⟩ }),
      (0, .recordClockSync { domain := .deriveFrom (text "clock.edge"), validForNs := 1000000000, revision := ⟨1⟩ }),
      (0, .ingest (sequenceBatch 5)), (3, .createBaseline (boundRequest 3))]

/-- The runtime on the empty store, without that store. -/
def bareStart : System := ⟨storedStart.engine.unstored, .empty⟩

theorem deployment_succeeds : Succeeds bareStart deploymentCalls := by
  decide +kernel

theorem deployment_open : ∀ c ∈ deploymentCalls, c.2 ≠ .shutdown := by
  simp [deploymentCalls, sampleDefinitions]

theorem deployment_costs : (documents bareStart deploymentCalls).length = 9 ∧
    ((documents bareStart deploymentCalls).map documentCost).sum ≤ 2 ^ 15 := by
  decide +kernel

theorem deployment_affords : storedStart.engine.Affords (acknowledged bareStart deploymentCalls) := by
  have hsegment : (2 : Nat) ^ 15 ≤ storedConfig.policy.limits.maxSegmentBytes := by decide
  have hstore : (2 : Nat) ^ 15 ≤ storedConfig.policy.limits.maxStoreBytes := by decide
  have hpayload : (2 : Nat) ^ 15 ≤ maxRecordPayloadBytes := by decide
  intro w hw
  obtain ⟨hopen, hempty, hlimits⟩ : w.closed = false ∧ w.totalBytes = 0 ∧
      w.config.limits = storedConfig.policy.limits := by
    obtain rfl := Option.some.inj hw
    exact ⟨rfl, rfl, rfl⟩
  rw [← hlimits] at hsegment hstore
  have hcost := deployment_costs.2
  exact (acknowledged_writtenAs bareStart deploymentCalls).affords_new hopen hempty (hcost.trans hpayload)
    (hcost.trans hsegment) (hcost.trans hstore)

theorem deployment_length : (acknowledged storedStart deploymentCalls).length = 9 := by
  have hlength := congrArg List.length (acknowledged_writtenAs bareStart deploymentCalls)
  rw [List.length_map, List.length_map, deployment_costs.1] at hlength
  rw [(@run_unstored storedStart bareStart rfl _ deployment_open deployment_succeeds deployment_affords).2.1]
  exact hlength

end LatencyObservatory.Runtime
