import LatencyObservatory.Runtime.Currency
import LatencyObservatory.Runtime.Restart

/-!
# What a restart leaves current

The loader dates every measurement by its age at the start of the session, with the clock registry as the log has
filled it so far, and keeps the times themselves. A measurement that is recent then is as usable as a new one.
-/

namespace LatencyObservatory.Runtime

open LatencyObservatory.Core LatencyObservatory.Model LatencyObservatory.Stats LatencyObservatory.Store

/-- The measurement that a record of the store holds. -/
def storedMeasurement (maxDepth : Nat) (record : StoredRecord) : Option MeasurementRecord :=
  match record.type with
  | .measurementCurrent | .measurementHistorical =>
    ((parseJson record.payload maxDepth).bind decodeMeasurement).toOption
  | _ => none

namespace Engine

/-- The measurements of a log, each with the engine that meets it in the course of the load. -/
def meetings (e : Engine) : List StoredRecord → List (Engine × MeasurementRecord)
  | [] => []
  | record :: rest =>
    match e.loadRecord record with
    | .error _ => []
    | .ok next =>
      (storedMeasurement e.policy.limits.maxJsonDepth record).toList.map (e, ·) ++ next.meetings rest

/-- An observation that is fresh or aging at the start of the session. -/
def findsRecent (e : Engine) (record : MeasurementRecord) : Bool :=
  record.evidence.state == .observed && record.stamp.receivedAt.ns != Int64.maxValue &&
    match (e.clocks.estimateAge record.stamp.observedAt e.sessionStart).ageNs with
    | some age => e.policy.freshness.classify age == .fresh || e.policy.freshness.classify age == .aging
    | none => false

theorem loadRecord_records {e next : Engine} {record : StoredRecord} (h : e.loadRecord record = .ok next) :
    next.records = e.records ++
      (storedMeasurement e.policy.limits.maxJsonDepth record).toList.map e.reclassifyLoaded := by
  obtain ⟨type, payload, segmentId, sequence⟩ := record
  unfold loadRecord at h
  obtain ⟨document, hparse, h⟩ := bind_eq_ok_iff.mp h
  dsimp only at hparse h
  -- Only the measurements leave the records longer.
  have hmeasured : ∀ {value : MeasurementRecord}, decodeMeasurement document = .ok value →
      ((parseJson payload e.policy.limits.maxJsonDepth).bind decodeMeasurement).toOption = some value := by
    intro value hvalue
    rw [hparse]
    show (decodeMeasurement document).toOption = some value
    rw [hvalue]
    rfl
  cases type with
  | measurementCurrent =>
    obtain ⟨value, hvalue, h⟩ := bind_eq_ok_iff.mp h
    cases h
    unfold storedMeasurement
    dsimp only
    rw [hmeasured hvalue]
    rfl
  | measurementHistorical =>
    obtain ⟨value, hvalue, h⟩ := bind_eq_ok_iff.mp h
    cases h
    unfold storedMeasurement
    dsimp only
    rw [hmeasured hvalue]
    rfl
  | baseline =>
    obtain ⟨value, -, h⟩ := bind_eq_ok_iff.mp h
    obtain ⟨added, -, h⟩ := bind_eq_ok_iff.mp h
    cases h
    exact (List.append_nil _).symm
  | fenceState =>
    obtain ⟨value, -, h⟩ := bind_eq_ok_iff.mp h
    cases h
    exact (List.append_nil _).symm
  | _ =>
    obtain ⟨x, -, -, rfl⟩ := reload_ok h
    exact (List.append_nil _).symm

theorem loadRecords_records {e e' : Engine} {stored : List StoredRecord} (h : e.loadRecords stored = .ok e') :
    e'.records = e.records ++ (e.meetings stored).map fun p => p.1.reclassifyLoaded p.2 := by
  induction stored generalizing e with
  | nil =>
    cases h
    exact (List.append_nil _).symm
  | cons record rest ih =>
    obtain ⟨next, hnext, h⟩ := bind_eq_ok_iff.mp h
    rw [ih h, loadRecord_records hnext, meetings, hnext]
    dsimp only
    rw [List.map_append, List.map_map, List.append_assoc]
    rfl

theorem reclassifyLoaded_stamp (e : Engine) (record : MeasurementRecord) :
    (e.reclassifyLoaded record).stamp = record.stamp := rfl

theorem reclassified_counted_iff (e : Engine) (record : MeasurementRecord) :
    Counted (e.reclassifyLoaded record) ↔ e.findsRecent record = true := by
  have hmarked : ∀ evidence : Evidence,
      (if !evidence.usable && evidence.state == .observed then evidence.addReason .evidenceStale else evidence).usable =
        evidence.usable := by
    intro evidence
    split_ifs
    · unfold Evidence.usable
      rw [Evidence.addReason_state, Evidence.addReason_freshness]
    · rfl
  rw [counted_iff, reclassifyLoaded_stamp]
  unfold reclassifyLoaded findsRecent
  dsimp only
  rw [hmarked]
  unfold Evidence.usable
  rw [Evidence.addReason_state, Evidence.addReason_freshness, Evidence.setFreshness_state,
    Evidence.setFreshness_freshness]
  cases (e.clocks.estimateAge record.stamp.observedAt e.sessionStart).ageNs with
  | none => simp
  | some age =>
    simp only [Bool.and_eq_true, bne_iff_ne, and_assoc]
    tauto

end Engine

/-- **Restart and currency.** After the load every measurement has the times of its text, and none of them is counted by
a query in current mode, exactly if the engine that met it in the log did not find it recent. -/
theorem restart_keeps_history_iff {config : RuntimeConfig} {now : Nanos} {d : Directory} {s : System}
    (hcreate : create config now d = .ok s) {directory : Bytes} (hstore : config.storeDirectory = some directory)
    (hmanifest : d.manifest.isSome = true) :
    (s.engine.records.map MeasurementRecord.stamp =
        ((Engine.starting config now d).meetings (readAll d).1).map (fun p => p.2.stamp) ∧
      ∀ record ∈ s.engine.records, ¬Counted record) ↔
    ∀ p ∈ (Engine.starting config now d).meetings (readAll d).1, p.1.findsRecent p.2 = false := by
  obtain ⟨e, he, hmemory⟩ := create_loaded hcreate hstore hmanifest
  have hrecords : s.engine.records =
      ((Engine.starting config now d).meetings (readAll d).1).map fun p => p.1.reclassifyLoaded p.2 := by
    rw [show s.engine.records = e.records from congrArg Memory.records hmemory, Engine.loadRecords_records he]
    exact List.nil_append _
  rw [hrecords, List.map_map]
  constructor
  · rintro ⟨-, hnone⟩ p hp
    rw [← Bool.not_eq_true, ← Engine.reclassified_counted_iff]
    exact hnone _ (List.mem_map_of_mem hp)
  · intro hold
    refine ⟨rfl, fun record hrecord => ?_⟩
    obtain ⟨p, hp, rfl⟩ := List.mem_map.mp hrecord
    rw [Engine.reclassified_counted_iff, hold p hp]
    exact Bool.false_ne_true

/-- An exchange that was observed in the first second of the clock. -/
def recentRecord : MeasurementRecord :=
  { Ingest.sampleRecord 1 7 with
    id := deriveMeasurementId (.deriveFrom (Ingest.sampleSource 1).name.str) ⟨1⟩ ⟨1⟩ 7
    stamp := { observedAt := ⟨1000000, referenceClockDomain⟩, receivedAt := ⟨2000000, referenceClockDomain⟩ }
    evidence := .observed .fresh .high }

theorem recentRecord_written : recentRecord.Written where
  id := StrongId.deriveFrom_valid _
  revision := by decide +kernel
  request := rfl
  response := rfl
  domain := by decide +kernel
  evidence := rfl
  hops := fun hop hhop => absurd hhop List.not_mem_nil

theorem recent_stored : ∃ d : Directory, d.Carries [System.measurementEntry .measurementCurrent recentRecord] ∧
    d.manifest.isSome = true ∧ d.files.length < 2 ^ 32 - 1 := by
  obtain ⟨-, w, d, hopen, hwriter, hdirectory, -⟩ := @create_backed storedConfig 0 .empty storedStart stored_created
    (text "store") rfl
  dsimp only at hwriter hdirectory
  have htakes : w.takes (System.measurementEntry .measurementCurrent recentRecord).2.length = true := by
    rw [← Option.some.inj hwriter]
    decide +kernel
  have hok := (w.append_ok_iff 0 (System.measurementEntry .measurementCurrent recentRecord) d).mpr htakes
  rcases happend : w.append 0 (System.measurementEntry .measurementCurrent recentRecord) d with ⟨status, w', d'⟩
  rw [happend] at hok
  cases hok
  have hstep := @Live.step_append_ok { writer := w, directory := d } 0
    (System.measurementEntry .measurementCurrent recentRecord) w' d' happend
  have hfiles : ((([WriterOp.append 0 (System.measurementEntry .measurementCurrent recentRecord)].foldl Live.step
      { writer := w, directory := d }).writer.close
        ([WriterOp.append 0 (System.measurementEntry .measurementCurrent recentRecord)].foldl Live.step
          { writer := w, directory := d }).directory).2.2).files.length < 2 ^ 32 - 1 := by
    rw [← Option.some.inj hwriter, ← hdirectory]
    decide +kernel
  obtain ⟨hcarries, hmanifest⟩ := carries_empty.session (policy_digest_plain _) hopen
    [.append 0 (System.measurementEntry .measurementCurrent recentRecord)] rfl hfiles
  have happended : [] ++ ([WriterOp.append 0 (System.measurementEntry .measurementCurrent recentRecord)].foldl Live.step
      { writer := w, directory := d }).appended = [System.measurementEntry .measurementCurrent recentRecord] :=
    hstep.2.2
  rw [happended] at hcarries
  exact ⟨_, hcarries, hmanifest, hfiles⟩

theorem recent_loaded {d : Directory} (h : d.Carries [System.measurementEntry .measurementCurrent recentRecord])
    (hmanifest : d.manifest.isSome = true) (hfiles : d.files.length < 2 ^ 32 - 1) (now : Nanos) :
    ∃ s, create storedConfig now d = .ok s ∧
      s.engine.records = [(Engine.starting storedConfig now d).reclassifyLoaded recentRecord.persisted] := by
  have hread := h.log_eq hfiles (by decide)
  obtain ⟨stored, rest, hstored, hentry, hrest⟩ := List.map_eq_cons_iff.mp hread
  rw [List.map_eq_nil_iff] at hrest
  subst hrest
  have hload := Engine.loadRecords_single ((Engine.starting storedConfig now d).loadRecord_measurement (Or.inl rfl)
    hentry recentRecord_written (by decide) (show 6 ≤ defaultPolicy.limits.maxJsonDepth by decide))
  rw [← hstored] at hload
  have hcapacity : (readAll d).1.length ≤ storedConfig.policy.limits.maxTotalSamples := by
    rw [hstored]
    show 1 ≤ defaultPolicy.limits.maxTotalSamples
    decide
  obtain ⟨s, hs, hmemory⟩ := @create_of_loaded d h.kept hmanifest storedConfig defaultPolicy_validate (text "store") rfl
    (by decide) now hcapacity _ hload
  exact ⟨s, hs, congrArg Memory.records hmemory⟩

/-- Two days later nothing is current. -/
theorem old_exchange_history :
    ∃ d s, d.Carries [System.measurementEntry .measurementCurrent recentRecord] ∧
      create storedConfig 172800000000000 d = .ok s ∧ ∀ record ∈ s.engine.records, ¬Counted record := by
  obtain ⟨d, hcarries, hmanifest, hfiles⟩ := recent_stored
  obtain ⟨s, hs, hrecords⟩ := recent_loaded hcarries hmanifest hfiles 172800000000000
  have hold : (Engine.new storedConfig ⟨172800000000000, referenceClockDomain⟩).findsRecent recentRecord.persisted =
      false := by
    decide +kernel
  have hnone : ¬Counted ((Engine.starting storedConfig 172800000000000 d).reclassifyLoaded recentRecord.persisted) := by
    rw [Engine.reclassified_counted_iff, Bool.not_eq_true]
    exact hold
  refine ⟨d, s, hcarries, hs, ((restart_keeps_history_iff hs rfl hmanifest).mpr fun p hp => ?_).2⟩
  obtain ⟨e, he, hmemory⟩ := create_loaded hs rfl hmanifest
  have hall := Engine.loadRecords_records he
  rw [show e.records = s.engine.records from (congrArg Memory.records hmemory).symm, hrecords] at hall
  have hmem : p.1.reclassifyLoaded p.2 ∈
      [(Engine.starting storedConfig 172800000000000 d).reclassifyLoaded recentRecord.persisted] := by
    rw [hall]
    exact List.mem_append_right _ (List.mem_map_of_mem hp)
  rw [← Bool.not_eq_true, ← Engine.reclassified_counted_iff, List.mem_singleton.mp hmem]
  exact hnone

/-- Two milliseconds later the exchange is current again. -/
theorem recent_exchange_current :
    ∃ d s, d.Carries [System.measurementEntry .measurementCurrent recentRecord] ∧
      create storedConfig 3000000 d = .ok s ∧ ∃ record ∈ s.engine.records, Counted record := by
  obtain ⟨d, hcarries, hmanifest, hfiles⟩ := recent_stored
  obtain ⟨s, hs, hrecords⟩ := recent_loaded hcarries hmanifest hfiles 3000000
  have hrecent : (Engine.new storedConfig ⟨3000000, referenceClockDomain⟩).findsRecent recentRecord.persisted = true := by
    decide +kernel
  refine ⟨d, s, hcarries, hs, _, by rw [hrecords]; exact List.mem_singleton_self _, ?_⟩
  exact (Engine.reclassified_counted_iff _ _).mpr hrecent

end LatencyObservatory.Runtime
