import LatencyObservatory.Ingest.FenceCodec
import LatencyObservatory.Ingest.RecordCodec
import LatencyObservatory.Model.SyncCodec
import LatencyObservatory.Runtime.BaselineRestart

/-!
# Records of the store are loaded again

What one call has appended, the loader turns back into what the call did to the memory. The measurements are dated
anew, and of a baseline comes back what its text says. Which calls can be repeated like this is a matter of what their
texts leave out and of what the decoders refuse.
-/

namespace LatencyObservatory.Baselines

open LatencyObservatory.Core LatencyObservatory.Model LatencyObservatory.Stats

/-- What comes back of a baseline that the registry holds. -/
def Baseline.reloaded (b : Baseline) : Baseline :=
  { b.restored with evidence := b.restored.evidence.addReason .aggregateDeterministic }

/-- Registries with the same identities, whose baselines are related. -/
structure BaselineStore.Alike (B : Baseline → Baseline → Prop) (store loaded : BaselineStore) : Prop where
  limits : loaded.limits = store.limits
  policy : loaded.policy = store.policy
  size : loaded.baselines.size = store.baselines.size
  baselines : ∀ id : BaselineId, Option.Rel B (store.baselines[id]?) (loaded.baselines[id]?)
  byPath : loaded.byPath = store.byPath

theorem BaselineStore.add_cases {store after : BaselineStore} {b : Baseline} {id : BaselineId}
    (h : store.add b = .ok (id, after)) :
    (!b.path.valid || !b.generation.valid || !b.domain.valid) = false ∧ b.revision.valid = true ∧
      b.name.str.isEmpty = false ∧ id = (if b.id.valid then b.id else .deriveFrom b.canonical) ∧
      store.baselines.contains id = false ∧ store.baselines.size < store.limits.maxBaselines ∧
      after = { store with
        baselines := store.baselines.insert id
          { b with id, evidence := b.evidence.addReason .aggregateDeterministic }
        byPath := store.byPath.insert b.path ((store.byPath[b.path]?.getD []) ++ [id]) } := by
  unfold add at h
  obtain ⟨hvalid, h⟩ := guard_eq_ok_iff.mp h
  obtain ⟨hrevision, h⟩ := guard_eq_ok_iff.mp h
  obtain ⟨hname, h⟩ := guard_eq_ok_iff.mp h
  obtain ⟨hnew, h⟩ := guard_eq_ok_iff.mp h
  obtain ⟨hroom, h⟩ := guard_eq_ok_iff.mp h
  rw [Except.ok.injEq, Prod.mk.injEq] at h
  obtain ⟨rfl, rfl⟩ := h
  exact ⟨by simpa using hvalid, by simpa using hrevision, by simpa using hname, rfl, Bool.eq_false_iff.mpr hnew,
    Nat.lt_of_not_le hroom, rfl⟩

theorem BaselineStore.Alike.add {B : Baseline → Baseline → Prop} (hB : ∀ b : Baseline, B b b.reloaded)
    {store loaded after : BaselineStore} (hloaded : store.Alike B loaded) {b : Baseline} {id : BaselineId}
    (hadd : store.add b = .ok (id, after)) {stored : Baseline} (hstored : after.get id = .ok stored) :
    ∃ reloaded, loaded.add stored.restored = .ok (id, reloaded) ∧ after.Alike B reloaded := by
  obtain ⟨hvalid, hrevision, hname, hid, hnew, hroom, rfl⟩ := add_cases hadd
  have hvalidId : id.valid = true := by
    rw [hid]
    split_ifs with hgiven
    · exact hgiven
    · exact StrongId.deriveFrom_valid _
  have hfound := Catalog.lookup_ok_iff.mp hstored
  rw [Std.ExtTreeMap.getElem?_insert_self, Option.some.injEq] at hfound
  subst hfound
  have hsame : ∀ other : BaselineId, loaded.baselines.contains other = store.baselines.contains other := by
    intro other
    have hrelated := hloaded.baselines other
    rw [Std.ExtTreeMap.contains_eq_isSome_getElem?, Std.ExtTreeMap.contains_eq_isSome_getElem?]
    generalize loaded.baselines[other]? = there, store.baselines[other]? = here at hrelated ⊢
    cases hrelated <;> rfl
  have hnew' : loaded.baselines.contains id = false := (hsame id).trans hnew
  have hroom' : ¬loaded.baselines.size ≥ loaded.limits.maxBaselines := by
    rw [hloaded.size, hloaded.limits]
    omega
  have hrepeated : loaded.add { b with id, evidence := b.evidence.addReason .aggregateDeterministic }.restored =
      .ok (id, { loaded with
        baselines := loaded.baselines.insert id
          { b with id, evidence := b.evidence.addReason .aggregateDeterministic }.reloaded
        byPath := loaded.byPath.insert b.path ((loaded.byPath[b.path]?.getD []) ++ [id]) }) := by
    unfold BaselineStore.add
    dsimp only [Baseline.restored]
    simp only [hvalid, hrevision, hname, hvalidId, hnew', hroom', Bool.not_true, Bool.false_eq_true, if_true, if_false]
    rfl
  refine ⟨_, hrepeated, hloaded.limits, hloaded.policy, ?_, fun other => ?_, ?_⟩
  · dsimp only
    rw [Std.ExtTreeMap.size_insert, Std.ExtTreeMap.size_insert, hloaded.size]
    simp only [hsame id]
  · dsimp only
    rw [Std.ExtTreeMap.getElem?_insert, Std.ExtTreeMap.getElem?_insert]
    split_ifs
    · exact .some (hB _)
    · exact hloaded.baselines other
  · dsimp only
    rw [hloaded.byPath]

end LatencyObservatory.Baselines

namespace LatencyObservatory.Runtime

open LatencyObservatory.Core LatencyObservatory.Model LatencyObservatory.Ingest LatencyObservatory.Stats
open LatencyObservatory.Baselines LatencyObservatory.Store

/-! ### Loading -/

namespace Engine

theorem reload_eq {α ι : Type} {value : Except Error α} {x : α} (hvalue : value = .ok x)
    {register : α → Except Error ι × Engine} {id : ι} (hregister : (register x).1 = .ok id) :
    reload value register = .ok (register x).2 :=
  bind_eq_ok_iff.mpr ⟨x, hvalue, bind_eq_ok_iff.mpr ⟨id, hregister, rfl⟩⟩

theorem loadRecord_definition {α ι : Type} {e : Engine} {record : StoredRecord} {write : JsonWriter → α → JsonWriter}
    {decode : JsonValue → Except Error α} {value decoded : α} {register : α → Except Error ι × Engine}
    (hround : RoundTrips write decode value decoded) (hdepth : 2 ≤ e.policy.limits.maxJsonDepth)
    (hpayload : record.payload = encodeWith fun w => write w value)
    (hload : e.loadRecord record = (parseJson record.payload e.policy.limits.maxJsonDepth).bind fun document =>
      reload (decode document) register) {id : ι}
    (hregister : (register decoded).1 = .ok id) : e.loadRecord record = .ok (register decoded).2 := by
  obtain ⟨document, hparse, hdecode⟩ := hround _ hdepth false
  have hparse : parseJson record.payload e.policy.limits.maxJsonDepth = .ok document := by
    rw [hpayload]
    exact hparse
  rw [hload, hparse]
  exact reload_eq hdecode hregister

theorem loadRecords_append {e e' : Engine} {first : List StoredRecord} (h : e.loadRecords first = .ok e')
    (second : List StoredRecord) : e.loadRecords (first ++ second) = e'.loadRecords second := by
  induction first generalizing e with
  | nil =>
    cases h
    rfl
  | cons record rest ih =>
    obtain ⟨next, hnext, hrest⟩ := bind_eq_ok_iff.mp h
    rw [List.cons_append, loadRecords, hnext]
    exact ih hrest

theorem loadRecords_single {e e' : Engine} {record : StoredRecord} (h : e.loadRecord record = .ok e') :
    e.loadRecords [record] = .ok e' :=
  bind_eq_ok_iff.mpr ⟨e', h, rfl⟩

theorem loadRecord_measurement {e : Engine} {stored : StoredRecord} {type : RecordType}
    (htype : type = .measurementCurrent ∨ type = .measurementHistorical) {record : MeasurementRecord}
    (hstored : stored.entry = System.measurementEntry type record) (hwritten : record.Written)
    (hsequence : record.sequence.toNat < 2 ^ 63) (hdepth : 6 ≤ e.policy.limits.maxJsonDepth) :
    e.loadRecord stored = .ok { e with records := e.records ++ [e.reclassifyLoaded record.persisted] } := by
  obtain ⟨storedType, payload, segmentId, sequence⟩ := stored
  obtain ⟨rfl, rfl⟩ := Prod.mk.inj hstored
  have hnesting := measurementJson_nesting record
  have hparse : parseJson (encodeWith fun w => writeMeasurement w record) e.policy.limits.maxJsonDepth =
      .ok (measurementJson record) := by
    unfold encodeWith
    beta_reduce
    rw [writeMeasurement_eq]
    exact parse_written (measurementJson_wellFormed hsequence) (by omega) false
  have hdecode := decodeMeasurement_json hwritten
  unfold loadRecord
  refine bind_eq_ok_iff.mpr ⟨_, hparse, ?_⟩
  rcases htype with rfl | rfl
  · exact bind_eq_ok_iff.mpr ⟨_, hdecode, rfl⟩
  · exact bind_eq_ok_iff.mpr ⟨_, hdecode, rfl⟩

theorem loadRecords_measurements {e : Engine} {type : RecordType}
    (htype : type = .measurementCurrent ∨ type = .measurementHistorical) {records : List MeasurementRecord}
    (hwritten : ∀ record ∈ records, record.Written ∧ record.sequence.toNat < 2 ^ 63)
    (hdepth : 6 ≤ e.policy.limits.maxJsonDepth) {stored : List StoredRecord}
    (hstored : stored.map StoredRecord.entry = records.map (System.measurementEntry type)) :
    e.loadRecords stored =
      .ok { e with records := e.records ++ records.map fun record => e.reclassifyLoaded record.persisted } := by
  induction records generalizing e stored with
  | nil =>
    rw [List.map_nil, List.map_eq_nil_iff] at hstored
    subst hstored
    rw [List.map_nil, List.append_nil]
    rfl
  | cons record rest ih =>
    obtain ⟨first, others, rfl, hfirst, hothers⟩ := List.map_eq_cons_iff.mp hstored
    rw [List.forall_mem_cons] at hwritten
    have hload := e.loadRecord_measurement htype hfirst hwritten.1.1 hwritten.1.2 hdepth
    have hrest := @ih { e with records := e.records ++ [e.reclassifyLoaded record.persisted] } hwritten.2 hdepth _ hothers
    refine bind_eq_ok_iff.mpr ⟨_, hload, hrest.trans ?_⟩
    rw [List.map_cons, ← List.append_cons]
    rfl

theorem loadRecord_fence {e : Engine} {stored : StoredRecord} {entry : SourceId × SourceFenceState}
    (hstored : stored.entry = System.fenceEntry entry) (hfits : entry.2.Fits)
    (hrestorable : ∀ (key : SessionKey) (state : SessionState), entry.2.sessions[key]? = some state → state.Restorable)
    (hdepth : 4 ≤ e.policy.limits.maxJsonDepth) :
    e.loadRecord stored = .ok { e with fences := e.fences.insert entry.1 entry.2 } := by
  obtain ⟨storedType, payload, segmentId, sequence⟩ := stored
  obtain ⟨rfl, rfl⟩ := Prod.mk.inj hstored
  have hnesting := fenceStateJson_nesting entry.1 entry.2
  have hparse : parseJson (encodeWith fun w => writeFenceState w entry.1 entry.2) e.policy.limits.maxJsonDepth =
      .ok (fenceStateJson entry.1 entry.2) := by
    unfold encodeWith
    beta_reduce
    rw [writeFenceState_eq]
    exact parse_written (fenceStateJson_wellFormed entry.1 hfits) (by omega) false
  unfold loadRecord
  exact bind_eq_ok_iff.mpr ⟨_, hparse, bind_eq_ok_iff.mpr ⟨_, decodeFenceState_json entry.1 hrestorable, rfl⟩⟩

theorem loadRecords_fences {e : Engine} {entries : List (SourceId × SourceFenceState)}
    (hfits : ∀ entry ∈ entries, entry.2.Fits)
    (hrestorable : ∀ entry ∈ entries, ∀ (key : SessionKey) (state : SessionState),
      entry.2.sessions[key]? = some state → state.Restorable)
    (hdepth : 4 ≤ e.policy.limits.maxJsonDepth) {stored : List StoredRecord}
    (hstored : stored.map StoredRecord.entry = entries.map System.fenceEntry) :
    e.loadRecords stored =
      .ok { e with fences := entries.foldl (fun fences entry => fences.insert entry.1 entry.2) e.fences } := by
  induction entries generalizing e stored with
  | nil =>
    rw [List.map_nil, List.map_eq_nil_iff] at hstored
    subst hstored
    rfl
  | cons entry rest ih =>
    obtain ⟨first, others, rfl, hfirst, hothers⟩ := List.map_eq_cons_iff.mp hstored
    rw [List.forall_mem_cons] at hfits hrestorable
    have hload := e.loadRecord_fence hfirst hfits.1 hrestorable.1 hdepth
    exact bind_eq_ok_iff.mpr ⟨_, hload, @ih { e with fences := e.fences.insert entry.1 entry.2 } hfits.2
      hrestorable.2 hdepth _ hothers⟩

theorem loadRecord_baseline {e : Engine} {stored : StoredRecord} {n : Nat} {b : Baseline}
    (hstored : stored.entry = (.baseline, encodeWith fun w => writeBaseline w b)) (hof : b.Of n) (hexchanges : n < 2 ^ 63)
    (hreadable : b.Readable) (hdepth : 7 ≤ e.policy.limits.maxJsonDepth) {id : BaselineId} {baselines : BaselineStore}
    (hadd : e.baselines.add b.restored = .ok (id, baselines)) : e.loadRecord stored = .ok { e with baselines } := by
  obtain ⟨storedType, payload, segmentId, sequence⟩ := stored
  obtain ⟨rfl, rfl⟩ := Prod.mk.inj hstored
  have hnesting := baselineJson_nesting b
  have hbounds : b.histogram.bucketCount < 2 ^ 63 := by
    have hmake := hreadable.histogram
    unfold HistogramSpec.make at hmake
    obtain ⟨hfew, -⟩ := guard_eq_ok_iff.mp hmake
    show b.histogram.bounds.length + 1 < 2 ^ 63
    have hlimit : ({} : Limits).maxHistogramBuckets < 2 ^ 62 := by decide
    omega
  have hparse : parseJson (encodeWith fun w => writeBaseline w b) e.policy.limits.maxJsonDepth = .ok (baselineJson b) := by
    unfold encodeWith
    beta_reduce
    rw [writeBaseline_eq]
    exact parse_written (baselineJson_wellFormed hof hexchanges hbounds) (by omega) false
  unfold loadRecord
  refine bind_eq_ok_iff.mpr ⟨_, hparse, ?_⟩
  exact bind_eq_ok_iff.mpr ⟨_, decodeBaseline_json hof hreadable, bind_eq_ok_iff.mpr ⟨_, hadd, rfl⟩⟩

end Engine

/-! ### Calls that succeeded -/

namespace System

theorem define_succeeded {α ι : Type} {s : System} {now : Nanos} {type : RecordType} {write : JsonWriter → α → JsonWriter}
    {value : α} {register : Engine → α → Except Error ι × Engine}
    (h : (outcome (s.define now type write value register)).1 = .ok ()) :
    (∃ id, (register s.engine value).1 = .ok id) ∧
      (outcome (s.define now type write value register)).2.engine.memory = (register s.engine value).2.memory := by
  unfold define at h ⊢
  split_ifs at h ⊢
  · cases h
  · cases hresult : (register s.engine value).1 with
    | error e =>
      simp only [hresult] at h
      cases h
    | ok id =>
      simp only [hresult]
      exact ⟨⟨id, rfl⟩, persist_memory _ now type _ true⟩

theorem ingest_succeeded {s : System} {now : Nanos} {request : IngestRequest}
    (h : (outcome (s.ingest now request)).1 = .ok ()) :
    ∃ admission, s.engine.gate.admitBatch request = .ok admission ∧
      (outcome (s.ingest now request)).2.engine.memory =
        { s.engine.memory with
          fences := admission.fences
          records := s.engine.records ++ (admission.acceptedCurrent ++ admission.acceptedHistory) } := by
  unfold ingest at h ⊢
  split_ifs at h ⊢
  · cases h
  · cases h
  · cases h
  · cases htaken : s.engine.gate.admitBatch request with
    | error e =>
      simp only [htaken] at h
      cases h
    | ok admission =>
      refine ⟨admission, rfl, ?_⟩
      obtain ⟨stored, -, hall, hmemory⟩ := (s.withEngine (admitted s.engine admission)).storeBatch_stored now admission
      simp only [htaken] at h ⊢
      cases hstatus : ((s.withEngine (admitted s.engine admission)).storeBatch now admission).1 with
      | error e =>
        simp only [hstatus] at h
        cases h
      | ok u =>
        rw [hall hstatus] at hmemory
        exact hmemory

theorem createBaseline_succeeded {s : System} {now : Nanos} {request : BaselineRequest}
    (h : (outcome (s.createBaseline now request)).1 = .ok ()) :
    ∃ summary id baselines stored, s.engine.summarize request.summary = .ok summary ∧
      s.engine.baselines.add (request.baseline now s.engine.policy summary) = .ok (id, baselines) ∧
      baselines.get id = .ok stored ∧
      stored = { request.baseline now s.engine.policy summary with
        id, evidence := (request.baseline now s.engine.policy summary).evidence.addReason .aggregateDeterministic } ∧
      (outcome (s.createBaseline now request)).2.engine.memory = { s.engine.memory with baselines } ∧
      (Call.createBaseline request).entries s.engine now =
        [(.baseline, encodeWith fun w => writeBaseline w stored)] := by
  have hdown : s.engine.shutDown = false := by
    rw [← Bool.not_eq_true]
    intro hdown
    unfold createBaseline at h
    rw [if_pos hdown] at h
    cases h
  cases hsummary : s.engine.summarize request.summary with
  | error e =>
    unfold createBaseline at h
    rw [if_neg (by simp [hdown]), hsummary] at h
    cases h
  | ok summary =>
    by_cases hnone : summary.exchangesIncluded = 0
    · unfold createBaseline at h
      rw [if_neg (by simp [hdown]), hsummary] at h
      simp only [hnone, if_true] at h
      cases h
    · cases hadd : s.engine.baselines.add (request.baseline now s.engine.policy summary) with
      | error e =>
        unfold createBaseline at h
        rw [if_neg (by simp [hdown]), hsummary] at h
        simp only [hnone, if_false, hadd] at h
        cases h
      | ok added =>
        obtain ⟨id, baselines⟩ := added
        have hkept := add_kept hadd
        obtain ⟨-, hmemory, hentries⟩ := createBaseline_of_added hdown hsummary hnone hadd hkept
        exact ⟨summary, id, baselines, _, rfl, hadd, hkept, rfl, hmemory, hentries⟩

end System

/-! ### Calls that can be repeated -/

/-- How deep the texts of a call nest. -/
def Call.nesting : Call → Nat
  | .ingest _ => 6
  | .createBaseline _ => 7
  | .flush | .shutdown => 0
  | _ => 2

/-- What a call hands to the store is read back by the decoders. -/
def Call.Readable (e : Engine) : Call → Prop
  | .defineSource descriptor => Name.parse descriptor.name.str = .ok descriptor.name
  | .defineEndpoint definition => Name.parse definition.name.str = .ok definition.name
  | .defineLink definition => Name.parse definition.name.str = .ok definition.name
  | .defineQueue definition => Name.parse definition.name.str = .ok definition.name
  | .defineHop definition => Name.parse definition.name.str = .ok definition.name
  | .defineGeneration definition => Name.parse definition.name.str = .ok definition.name
  | .definePath definition => Name.parse definition.name.str = .ok definition.name
  | .defineClockDomain definition => Name.parse definition.name.str = .ok definition.name
  | .recordClockSync sync => sync.revision.valid = true
  | .ingest request => ∀ admission, e.gate.admitBatch request = .ok admission →
      (∀ record ∈ admission.acceptedCurrent ++ admission.acceptedHistory,
        record.sequence.toNat < 2 ^ 63 ∧ DatedAlike record) ∧
      ∀ (source : SourceId) (fence : SourceFenceState), admission.fences[source]? = some fence → fence.Fits
  | .createBaseline request => Name.parse request.name.str = .ok request.name ∧
      HistogramSpec.make request.histogram.bounds {} = .ok request.histogram ∧ ∀ probe ∈ request.probes, probe.Valid
  | .flush | .shutdown => True

instance (probe : QuantileProbe) : Decidable probe.Valid :=
  decidable_of_iff (0 < probe.numerator.toNat ∧ probe.numerator.toNat ≤ probe.denominator.toNat)
    ⟨fun h => ⟨h.1, h.2⟩, fun h => ⟨h.positive, h.proper⟩⟩

theorem readable_batch_iff {e : Engine} {request : IngestRequest} :
    (Call.ingest request).Readable e ↔ ∀ admission ∈ (e.gate.admitBatch request).toOption,
      (∀ record ∈ admission.acceptedCurrent ++ admission.acceptedHistory,
        record.sequence.toNat < 2 ^ 63 ∧ ∀ hop ∈ record.hops, hop.entryDomain = hop.entry.domain ∧
          hop.exitDomain = hop.exit.domain) ∧
      ∀ entry ∈ admission.fences.toList, entry.2.Fits := by
  have hsome : ∀ admission, admission ∈ (e.gate.admitBatch request).toOption ↔
      e.gate.admitBatch request = .ok admission := by
    intro admission
    cases e.gate.admitBatch request <;> simp [Except.toOption]
  simp only [hsome]
  refine forall_congr' fun admission => imp_congr_right fun _ => and_congr_right fun _ => ?_
  constructor
  · intro h entry hentry
    exact h entry.1 entry.2 (Std.ExtTreeMap.mem_toList_iff_getElem?_eq_some.mp hentry)
  · intro h source fence hfence
    exact h (source, fence) (Std.ExtTreeMap.mem_toList_iff_getElem?_eq_some.mpr hfence)

instance (e : Engine) (c : Call) : Decidable (c.Readable e) :=
  match c with
  | .defineSource _ | .defineEndpoint _ | .defineLink _ | .defineQueue _ | .defineHop _ | .defineGeneration _
  | .definePath _ | .defineClockDomain _ => decEq _ _
  | .recordClockSync _ => decEq _ _
  | .ingest _ => decidable_of_iff _ readable_batch_iff.symm
  | .createBaseline request => inferInstanceAs (Decidable (_ ∧ _ ∧ ∀ probe ∈ request.probes, probe.Valid))
  | .flush | .shutdown => isTrue trivial

/-- What holds of the fences of a run. -/
structure Fences.Reached (policy : RuntimePolicy) (fences : Fences) : Prop where
  inv : FencesInv policy.limits fences
  kept : FencesKept (withSession policy.limits) fences
  revised : FencesRevised fences

theorem Fences.reached_empty (policy : RuntimePolicy) : Fences.Reached policy ∅ :=
  ⟨fencesInv_empty _, fencesKept_empty _, by intro source fence h; simp at h⟩

theorem Fences.Reached.submit {policy : RuntimePolicy} {fences : Fences} (x : Submission)
    (h : Fences.Reached policy fences) : Fences.Reached policy (x.submit policy fences) :=
  ⟨submit_inv policy fences x h.inv, submit_kept policy fences x h.kept, submit_revised policy fences x h.revised⟩

theorem Fences.Reached.restorable {policy : RuntimePolicy} {fences : Fences} (h : Fences.Reached policy fences)
    {source : SourceId} {fence : SourceFenceState} (hfence : fences[source]? = some fence) (key : SessionKey)
    (state : SessionState) (hstate : fence.sessions[key]? = some state) : state.Restorable where
  revision := h.revised source fence hfence key state hstate
  recent := ((h.inv source fence hfence).session key state hstate).recent_iff

section Batch

variable {gate : IngestGate} {request : IngestRequest} {admission : Admission}

theorem admitted_fences (htaken : gate.admitBatch request = .ok admission) :
    admission.fences = (Batch.submissions gate.policy ⟨gate.catalog, gate.clocks, request⟩).foldl
      (Submission.submit gate.policy) gate.fences :=
  (@admitBatch_eq_run gate.policy ⟨gate.catalog, gate.clocks, request⟩ gate.fences admission htaken).1

theorem admitted_reached (htaken : gate.admitBatch request = .ok admission)
    (h : Fences.Reached gate.policy gate.fences) : Fences.Reached gate.policy admission.fences := by
  rw [admitted_fences htaken]
  exact Lib.foldl_inv (fun fences x => Fences.Reached.submit x) h _

theorem admitted_sources (htaken : gate.admitBatch request = .ok admission) (source : SourceId)
    (h : gate.fences[source]?.isSome = true) : admission.fences[source]?.isSome = true := by
  rw [admitted_fences htaken]
  refine @Lib.foldl_inv _ _ _ (fun fences : Fences => fences[source]?.isSome = true) (fun fences x hsome => ?_) _ h _
  rcases submit_cases gate.policy fences x with ⟨-, -, hsame⟩ | ⟨_, _, _, -, hinsert⟩
  · rw [hsame]
    exact hsome
  · rw [hinsert, Std.ExtTreeMap.getElem?_insert]
    split_ifs
    · rfl
    · exact hsome

theorem accepted_written (htaken : gate.admitBatch request = .ok admission) (h : Fences.Reached gate.policy gate.fences)
    {record : MeasurementRecord} (hrecord : record ∈ admission.acceptedCurrent ++ admission.acceptedHistory)
    (hdated : DatedAlike record) : record.Written := by
  obtain ⟨hcurrent, hhistory⟩ := mem_accepted_iff htaken record
  obtain ⟨p, hp, hverdict, rfl⟩ : ∃ p ∈ gate.batchPassages request, p.2.verdict gate.policy p.1 ≠ .rejected ∧
      record = p.2.stored gate.policy p.1 := by
    rcases List.mem_append.mp hrecord with hmem | hmem
    · obtain ⟨p, hp, hverdict, hstored⟩ := hcurrent.mp hmem
      exact ⟨p, hp, by rw [hverdict]; decide, hstored⟩
    · obtain ⟨p, hp, hverdict, hstored⟩ := hhistory.mp hmem
      exact ⟨p, hp, by rw [hverdict]; decide, hstored⟩
  obtain ⟨n, hn⟩ := List.getElem?_of_mem hp
  have hreached : Fences.Reached gate.policy p.1 := Lib.steps_inv (fun fences x => Fences.Reached.submit x) h hn
  exact stored_written hreached.kept (submission_id (Lib.mem_of_mem_steps hp)) hverdict hdated

end Batch

/-! ### Repeating a call -/

/-- Memories that a restart does not tell apart, up to what is allowed of measurements and of baselines. -/
structure Memory.Alike (R : MeasurementRecord → MeasurementRecord → Prop) (B : Baseline → Baseline → Prop) (m m' : Memory) :
    Prop where
  catalog : m'.catalog = m.catalog
  clocks : m'.clocks = m.clocks
  fences : m'.fences = m.fences
  records : List.Forall₂ R m.records m'.records
  baselines : m.baselines.Alike B m'.baselines

section Replay

variable {R : MeasurementRecord → MeasurementRecord → Prop} {B : Baseline → Baseline → Prop} {s : System} {now : Nanos}
  {e : Engine} {stored : List StoredRecord}

theorem define_replayed {α ι : Type} {type : RecordType} {write : JsonWriter → α → JsonWriter} {value : α}
    (decode : JsonValue → Except Error α) (decoded : α) {register : Engine → α → Except Error ι × Engine}
    (hok : (outcome (s.define now type write value register)).1 = .ok ())
    (hdepth : 2 ≤ e.policy.limits.maxJsonDepth)
    (hload : ∀ record : StoredRecord, record.type = type → e.loadRecord record =
      (parseJson record.payload e.policy.limits.maxJsonDepth).bind fun document =>
        Engine.reload (decode document) (register e))
    (hregister : ∀ id, (register s.engine value).1 = .ok id → RoundTrips write decode value decoded ∧
      (register e decoded).1 = .ok id ∧ (register s.engine value).2.memory.Alike R B (register e decoded).2.memory)
    (hstored : stored.map StoredRecord.entry = [(type, encodeWith fun w => write w value)]) :
    ∃ e', e.loadRecords stored = .ok e' ∧
      (outcome (s.define now type write value register)).2.engine.memory.Alike R B e'.memory := by
  obtain ⟨⟨id, hid⟩, hmemory⟩ := System.define_succeeded hok
  obtain ⟨hround, hagain, halike⟩ := hregister id hid
  obtain ⟨record, rest, rfl, hrecord, hrest⟩ := List.map_eq_cons_iff.mp hstored
  rw [List.map_eq_nil_iff] at hrest
  subst hrest
  obtain ⟨htype, hpayload⟩ := Prod.mk.inj hrecord
  refine ⟨_, Engine.loadRecords_single (Engine.loadRecord_definition hround hdepth hpayload
    (hload record htype) hagain), ?_⟩
  rw [hmemory]
  exact halike

theorem catalog_replayed {tag : Tag} {α : Type} {type : RecordType} {write : JsonWriter → α → JsonWriter}
    {value : α} (decode : JsonValue → Except Error α) (decoded : α)
    {define : Catalog → α → Except Error (StrongId tag) × Catalog}
    (hok : (outcome (s.define now type write value fun e value =>
      ((define e.catalog value).1, { e with catalog := (define e.catalog value).2 }))).1 = .ok ())
    (hdepth : 2 ≤ e.policy.limits.maxJsonDepth) (halike : s.engine.memory.Alike R B e.memory)
    (hload : ∀ record : StoredRecord, record.type = type → e.loadRecord record =
      (parseJson record.payload e.policy.limits.maxJsonDepth).bind fun document =>
        Engine.reload (decode document) fun value =>
          ((define e.catalog value).1, { e with catalog := (define e.catalog value).2 }))
    (hdefine : ∀ id, (define s.engine.catalog value).1 = .ok id → RoundTrips write decode value decoded ∧
      define s.engine.catalog decoded = define s.engine.catalog value)
    (hstored : stored.map StoredRecord.entry = [(type, encodeWith fun w => write w value)]) :
    ∃ e', e.loadRecords stored = .ok e' ∧ (outcome (s.define now type write value fun e value =>
      ((define e.catalog value).1, { e with catalog := (define e.catalog value).2 }))).2.engine.memory.Alike R B e'.memory := by
  refine define_replayed decode decoded hok hdepth hload (fun id hid => ?_) hstored
  obtain ⟨hround, hsame⟩ := hdefine id hid
  have hcatalog : define e.catalog decoded = define s.engine.catalog value := by
    rw [show e.catalog = s.engine.catalog from halike.catalog]
    exact hsame
  dsimp only
  rw [hcatalog]
  exact ⟨hround, hid, ⟨rfl, halike.clocks, halike.fences, halike.records, halike.baselines⟩⟩

theorem not_other {tag : Tag} (id : StrongId tag) : ¬(id.valid && id != id) = true := by
  simp

theorem defineSource_again {c : Catalog} {descriptor : SourceDescriptor} {id : SourceId}
    (h : (c.defineSource descriptor).1 = .ok id) :
    descriptor.revision.valid = true ∧
      c.defineSource { descriptor with id := .deriveFrom descriptor.name.str } = c.defineSource descriptor := by
  unfold Catalog.defineSource at h ⊢
  dsimp only at h ⊢
  rw [if_neg (not_other _)]
  by_cases hgiven : (descriptor.id.valid && descriptor.id != .deriveFrom descriptor.name.str) = true
  · rw [if_pos hgiven] at h
    cases h
  · rw [if_neg hgiven] at h ⊢
    by_cases hrevision : (!descriptor.revision.valid) = true
    · rw [if_pos hrevision] at h
      cases h
    · exact ⟨by simpa using hrevision, rfl⟩

theorem defineDomain_again {r : ClockRegistry} {definition : ClockDomainDef} {id : ClockDomainId}
    (h : (r.defineDomain definition).1 = .ok id) :
    r.defineDomain { definition with id := .deriveFrom definition.name.str } = r.defineDomain definition := by
  unfold ClockRegistry.defineDomain at h ⊢
  dsimp only at h ⊢
  rw [if_neg (not_other _)]
  by_cases hgiven : (definition.id.valid && definition.id != .deriveFrom definition.name.str) = true
  · rw [if_pos hgiven] at h
    cases h
  · rw [if_neg hgiven]

theorem revision_of_guard {α : Type} {revision : Revision} {error : Error} {c : Catalog} {rest : Except Error α × Catalog}
    {id : α} (h : (if !revision.valid then (.error error, c) else rest).1 = .ok id) : revision.valid = true := by
  split_ifs at h with hrevision
  simpa using hrevision

theorem ingest_replayed (hR : ∀ (e : Engine) (record : MeasurementRecord), R record (e.reclassifyLoaded record.persisted))
    {request : IngestRequest} (hok : (outcome (s.ingest now request)).1 = .ok ())
    (hreadable : (Call.ingest request).Readable s.engine) (hdepth : 6 ≤ e.policy.limits.maxJsonDepth)
    (hfences : Fences.Reached s.engine.policy s.engine.fences) (halike : s.engine.memory.Alike R B e.memory)
    (hstored : stored.map StoredRecord.entry = (Call.ingest request).entries s.engine now) :
    ∃ e', e.loadRecords stored = .ok e' ∧ (outcome (s.ingest now request)).2.engine.memory.Alike R B e'.memory := by
  obtain ⟨admission, htaken, hmemory⟩ := System.ingest_succeeded hok
  obtain ⟨hrecords, hfits⟩ := hreadable admission htaken
  have hwritten : ∀ record ∈ admission.acceptedCurrent ++ admission.acceptedHistory,
      record.Written ∧ record.sequence.toNat < 2 ^ 63 := fun record hrecord =>
    ⟨accepted_written htaken hfences hrecord (hrecords record hrecord).2, (hrecords record hrecord).1⟩
  have hreached := admitted_reached htaken hfences
  have hentries : (Call.ingest request).entries s.engine now = System.batchEntries admission := by
    simp only [Call.entries, htaken]
  rw [hentries] at hstored
  obtain ⟨current, others, rfl, hcurrent, hothers⟩ := List.map_eq_append_iff.mp hstored
  obtain ⟨history, fences, rfl, hhistory, hlast⟩ := List.map_eq_append_iff.mp hothers
  have hlisted : ∀ entry ∈ admission.fences.toList, admission.fences[entry.1]? = some entry.2 :=
    fun entry hentry => Std.ExtTreeMap.mem_toList_iff_getElem?_eq_some.mp hentry
  -- The current records, then the historical ones, then the fences.
  have hfirst := Engine.loadRecords_measurements (Or.inl rfl)
    (fun record hrecord => hwritten record (List.mem_append_left _ hrecord)) hdepth hcurrent
  have hsecond := @Engine.loadRecords_measurements
    { e with records := e.records ++ admission.acceptedCurrent.map fun record => e.reclassifyLoaded record.persisted }
    .measurementHistorical (Or.inr rfl) admission.acceptedHistory
    (fun record hrecord => hwritten record (List.mem_append_right _ hrecord)) hdepth _ hhistory
  have hthird := @Engine.loadRecords_fences
    { e with records := e.records ++ (admission.acceptedCurrent.map fun record => e.reclassifyLoaded record.persisted) ++
      admission.acceptedHistory.map fun record => e.reclassifyLoaded record.persisted }
    admission.fences.toList (fun entry hentry => hfits _ _ (hlisted entry hentry))
    (fun entry hentry => hreached.restorable (hlisted entry hentry)) ((by decide : 4 ≤ 6).trans hdepth) _ hlast
  refine ⟨_, (Engine.loadRecords_append hfirst _).trans ((Engine.loadRecords_append hsecond _).trans hthird), ?_⟩
  rw [hmemory]
  have hrebuilt : admission.fences.toList.foldl (fun fences entry => fences.insert entry.1 entry.2) e.fences =
      admission.fences := by
    apply Lib.foldl_insert_toList
    intro source hsome
    rw [show e.fences = s.engine.fences from halike.fences] at hsome
    exact admitted_sources htaken source hsome
  have hnew : ∀ records : List MeasurementRecord,
      List.Forall₂ R records (records.map fun record => e.reclassifyLoaded record.persisted) := by
    intro records
    rw [List.forall₂_map_right_iff, List.forall₂_same]
    exact fun record _ => hR e record
  refine ⟨halike.catalog, halike.clocks, hrebuilt, ?_, halike.baselines⟩
  show List.Forall₂ R (s.engine.records ++ (admission.acceptedCurrent ++ admission.acceptedHistory)) _
  rw [← List.append_assoc]
  exact List.rel_append (List.rel_append halike.records (hnew _)) (hnew _)

theorem createBaseline_replayed (hB : ∀ b : Baseline, B b b.reloaded) {request : System.BaselineRequest}
    (hok : (outcome (s.createBaseline now request)).1 = .ok ())
    (hreadable : (Call.createBaseline request).Readable s.engine) (hdepth : 7 ≤ e.policy.limits.maxJsonDepth)
    (hrecords : s.engine.records.length < 2 ^ 63) (halike : s.engine.memory.Alike R B e.memory)
    (hstored : stored.map StoredRecord.entry = (Call.createBaseline request).entries s.engine now) :
    ∃ e', e.loadRecords stored = .ok e' ∧ (outcome (s.createBaseline now request)).2.engine.memory.Alike R B e'.memory := by
  obtain ⟨summary, id, baselines, b, hsummary, hadd, hget, hb, hmemory, hentries⟩ :=
    System.createBaseline_succeeded hok
  rw [hentries] at hstored
  obtain ⟨record, rest, rfl, hrecord, hrest⟩ := List.map_eq_cons_iff.mp hstored
  rw [List.map_eq_nil_iff] at hrest
  subst hrest
  have hof : b.Of s.engine.records.length := by
    rw [hb]
    exact System.createBaseline_of hrecords hsummary
  have hread : b.Readable := by
    rw [hb]
    exact ⟨hreadable.1, hreadable.2.1, hreadable.2.2⟩
  obtain ⟨reloaded, hagain, hbaselines⟩ := halike.baselines.add hB hadd hget
  refine ⟨_, Engine.loadRecords_single (Engine.loadRecord_baseline hrecord hof hrecords hread hdepth hagain), ?_⟩
  rw [hmemory]
  exact ⟨halike.catalog, halike.clocks, halike.fences, halike.records, hbaselines⟩

/-- **One call again.** The records that a successful call appended do to an engine that is alike what the call did. -/
theorem call_replayed (hR : ∀ (e : Engine) (record : MeasurementRecord), R record (e.reclassifyLoaded record.persisted))
    (hB : ∀ b : Baseline, B b b.reloaded) {c : Call} (hok : (s.call now c).1 = .ok ()) (hreadable : c.Readable s.engine)
    (hnesting : c.nesting ≤ s.engine.policy.limits.maxJsonDepth)
    (hfences : Fences.Reached s.engine.policy s.engine.fences) (hrecords : s.engine.records.length < 2 ^ 63)
    (hpolicy : e.policy = s.engine.policy) (halike : s.engine.memory.Alike R B e.memory)
    (hstored : stored.map StoredRecord.entry = c.entries s.engine now) :
    ∃ e', e.loadRecords stored = .ok e' ∧ (s.call now c).2.engine.memory.Alike R B e'.memory := by
  rw [← hpolicy] at hnesting
  cases c with
  | defineSource descriptor =>
    refine catalog_replayed decodeSource { descriptor with id := .deriveFrom descriptor.name.str } hok hnesting halike
      ?_ ?_ hstored
    · rintro ⟨_, _, _, _⟩ rfl
      rfl
    · intro id hid
      obtain ⟨hrevision, hsame⟩ := defineSource_again hid
      exact ⟨source_roundTrips hreadable hrevision, hsame⟩
  | defineEndpoint definition =>
    refine catalog_replayed decodeEndpoint { definition with id := .deriveFrom definition.name.str } hok hnesting halike
      ?_ ?_ hstored
    · rintro ⟨_, _, _, _⟩ rfl
      rfl
    · exact fun id hid => ⟨endpoint_roundTrips hreadable (revision_of_guard hid), rfl⟩
  | defineLink definition =>
    refine catalog_replayed decodeLink { definition with id := .deriveFrom definition.name.str } hok hnesting halike
      ?_ ?_ hstored
    · rintro ⟨_, _, _, _⟩ rfl
      rfl
    · exact fun id hid => ⟨link_roundTrips hreadable (revision_of_guard hid), rfl⟩
  | defineQueue definition =>
    refine catalog_replayed decodeQueue { definition with id := .deriveFrom definition.name.str } hok hnesting halike
      ?_ ?_ hstored
    · rintro ⟨_, _, _, _⟩ rfl
      rfl
    · exact fun id hid => ⟨queue_roundTrips hreadable (revision_of_guard hid), rfl⟩
  | defineHop definition =>
    refine catalog_replayed decodeHop { definition with id := .deriveFrom definition.name.str } hok hnesting halike
      ?_ ?_ hstored
    · rintro ⟨_, _, _, _⟩ rfl
      rfl
    · exact fun id hid => ⟨hop_roundTrips hreadable (revision_of_guard hid), rfl⟩
  | defineGeneration definition =>
    refine catalog_replayed decodeGeneration { definition with id := .deriveFrom definition.name.str } hok hnesting halike
      ?_ ?_ hstored
    · rintro ⟨_, _, _, _⟩ rfl
      rfl
    · exact fun id hid => ⟨generation_roundTrips hreadable (revision_of_guard hid), rfl⟩
  | definePath definition =>
    refine catalog_replayed decodePath { definition with id := .deriveFrom definition.name.str } hok hnesting halike
      ?_ ?_ hstored
    · rintro ⟨_, _, _, _⟩ rfl
      rfl
    · exact fun id hid => ⟨path_roundTrips hreadable (revision_of_guard hid), rfl⟩
  | defineClockDomain definition =>
    refine define_replayed decodeClockDomain { definition with id := .deriveFrom definition.name.str } hok hnesting
      ?_ ?_ hstored
    · rintro ⟨_, _, _, _⟩ rfl
      rfl
    · intro id hid
      have hclocks : e.clocks.defineDomain { definition with id := .deriveFrom definition.name.str } =
          s.engine.clocks.defineDomain definition := by
        rw [show e.clocks = s.engine.clocks from halike.clocks]
        exact defineDomain_again hid
      dsimp only
      rw [hclocks]
      exact ⟨clockDomain_roundTrips hreadable, hid,
        ⟨halike.catalog, rfl, halike.fences, halike.records, halike.baselines⟩⟩
  | recordClockSync sync =>
    rw [System.call, ← System.outcome_status (s.recordClockSync now sync)] at hok ⊢
    refine define_replayed decodeClockSync sync hok hnesting ?_ ?_ hstored
    · rintro ⟨_, _, _, _⟩ rfl
      rfl
    · intro id hid
      have hclocks : e.clocks = s.engine.clocks := halike.clocks
      dsimp only
      rw [hclocks]
      exact ⟨clockSync_roundTrips hreadable, hid, ⟨halike.catalog, rfl, halike.fences, halike.records, halike.baselines⟩⟩
  | ingest request => exact ingest_replayed hR hok hreadable hnesting hfences halike hstored
  | createBaseline request => exact createBaseline_replayed hB hok hreadable hnesting hrecords halike hstored
  | flush =>
    rw [List.map_eq_nil_iff.mp hstored]
    refine ⟨e, rfl, ?_⟩
    rw [System.call, System.flush_memory]
    exact halike
  | shutdown =>
    rw [List.map_eq_nil_iff.mp hstored]
    refine ⟨e, rfl, ?_⟩
    rw [System.call, System.shutdown_memory]
    exact halike

end Replay

end LatencyObservatory.Runtime
