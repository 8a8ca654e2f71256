import LatencyObservatory.Ingest.Run

/-!
# Accepted records

Where a stored record comes from: a record of its batch that the gate admitted, with every hop where it
was and no hop in conflict with the path, as far as the gate looks.
-/

namespace LatencyObservatory.Ingest

open LatencyObservatory.Core LatencyObservatory.Model

/-! ### The passage of an accepted record -/

section Batch

variable {gate : IngestGate} {request : IngestRequest} {admission : Admission}

/-- The records of a batch with the fences they meet. -/
def IngestGate.batchPassages (gate : IngestGate) (request : IngestRequest) : List (Fences × Submission) :=
  passages gate.policy gate.fences [⟨gate.catalog, gate.clocks, request⟩]

theorem IngestGate.mem_batchPassages {p : Fences × Submission} (hp : p ∈ gate.batchPassages request) :
    ∃ submitted ∈ request.records, p.2 =
      ⟨gate.catalog, gate.clocks, IngestGate.stamp request submitted, request.receivedAt⟩ := by
  have hmem := Lib.mem_of_mem_steps hp
  rw [List.flatMap_cons, List.flatMap_nil, List.append_nil] at hmem
  unfold Batch.submissions at hmem
  split_ifs at hmem
  · obtain ⟨submitted, hsubmitted, hp⟩ := List.mem_map.mp hmem
    exact ⟨submitted, hsubmitted, hp.symm⟩
  · cases hmem

theorem mem_accepted_iff (h : gate.admitBatch request = .ok admission) (record : MeasurementRecord) :
    (record ∈ admission.acceptedCurrent ↔ ∃ p ∈ gate.batchPassages request,
        p.2.verdict gate.policy p.1 = .acceptedCurrent ∧ record = p.2.stored gate.policy p.1) ∧
      (record ∈ admission.acceptedHistory ↔ ∃ p ∈ gate.batchPassages request,
        p.2.verdict gate.policy p.1 = .acceptedHistorical ∧ record = p.2.stored gate.policy p.1) := by
  obtain ⟨-, hcurrent, hhistory⟩ :=
    @admitBatch_eq_run gate.policy ⟨gate.catalog, gate.clocks, request⟩ gate.fences admission h
  have hmem : ∀ verdict, record ∈ accepted gate.policy verdict (gate.batchPassages request) ↔
      ∃ p ∈ gate.batchPassages request,
        p.2.verdict gate.policy p.1 = verdict ∧ record = p.2.stored gate.policy p.1 := by
    intro verdict
    unfold accepted
    rw [List.mem_map]
    constructor
    · rintro ⟨p, hp, rfl⟩
      rw [List.mem_filter, decide_eq_true_eq] at hp
      exact ⟨p, hp.1, hp.2, rfl⟩
    · rintro ⟨p, hp, hverdict, rfl⟩
      exact ⟨p, List.mem_filter.mpr ⟨hp, by simpa using hverdict⟩, rfl⟩
  rw [hcurrent, hhistory]
  exact ⟨hmem .acceptedCurrent, hmem .acceptedHistorical⟩

end Batch

theorem stored_stamp (policy : RuntimePolicy) (fences : Fences) (x : Submission) :
    (x.stored policy fences).stamp = x.record.stamp := by
  show (x.classified policy fences).record.stamp = _
  unfold Submission.classified IngestGate.classify
  split
  · rfl
  · rfl
  · rfl
  · simp only
    split
    · rfl
    · rfl

/-! ### Its hops -/

theorem checkHops_conflicts {catalog : Catalog} {path : PathDef} {hops : List HopObservation} {d : Draft}
    (h : (checkHops catalog path hops d).fatal = false) : ∀ hop ∈ hops, hopConflicts catalog path hop = false := by
  induction hops generalizing d with
  | nil => simp
  | cons hop rest ih =>
    intro other hother
    rw [checkHops, List.foldl_cons] at h
    rcases List.mem_cons.mp hother with rfl | hrest
    · have hkept := checkHops_not_fatal h
      rw [checkHops] at hkept
      rw [hkept] at h
      exact Draft.rejectIf_condition h
    · exact ih h other hrest

/-- The derived observation is one of the same hop at the same index; that of an undefined hop keeps the
dwells it came with. -/
structure Derives (catalog : Catalog) (before after : HopObservation) : Prop where
  hop : after.hop = before.hop
  index : after.index = before.index
  undefined : ∀ error, catalog.hop before.hop = .error error →
    after.dwellNs = before.dwellNs ∧ after.queueDwellNs = before.queueDwellNs

theorem deriveHopDwell_place (clocks : ClockRegistry) (record : MeasurementRecord) (hop : HopObservation) :
    (deriveHopDwell clocks record hop).1.hop = hop.hop ∧ (deriveHopDwell clocks record hop).1.index = hop.index := by
  unfold deriveHopDwell
  split <;> exact ⟨rfl, rfl⟩

theorem deriveQueueDwell_place (catalog : Catalog) (clocks : ClockRegistry) (record : MeasurementRecord)
    (definition : HopDef) (hop : HopObservation) :
    (deriveQueueDwell catalog clocks record definition hop).1.hop = hop.hop ∧
      (deriveQueueDwell catalog clocks record definition hop).1.index = hop.index := by
  unfold deriveQueueDwell
  split
  · split
    · exact ⟨rfl, rfl⟩
    · split
      · exact ⟨rfl, rfl⟩
      · split
        · exact ⟨rfl, rfl⟩
        · split
          · exact ⟨rfl, rfl⟩
          · split <;> exact ⟨rfl, rfl⟩
  · split <;> exact ⟨rfl, rfl⟩

theorem deriveHop_derives (catalog : Catalog) (clocks : ClockRegistry) (record : MeasurementRecord)
    (hop : HopObservation) : Derives catalog hop (deriveHop catalog clocks record hop).1 := by
  unfold deriveHop
  split
  · exact ⟨rfl, rfl, fun _ _ => ⟨rfl, rfl⟩⟩
  · rename_i definition hdefined
    obtain ⟨hhop, hindex⟩ := deriveHopDwell_place clocks record hop
    obtain ⟨hhop', hindex'⟩ :=
      deriveQueueDwell_place catalog clocks record definition (deriveHopDwell clocks record hop).1
    refine ⟨hhop'.trans hhop, hindex'.trans hindex, fun error herror => ?_⟩
    rw [hdefined] at herror
    cases herror

theorem deriveDwells_eq_map (catalog : Catalog) (clocks : ClockRegistry) (record : MeasurementRecord)
    (hops : List HopObservation) :
    (deriveDwells catalog clocks record hops).1 = hops.map fun hop => (deriveHop catalog clocks record hop).1 := by
  induction hops with
  | nil => rfl
  | cons hop rest ih =>
    rw [List.map_cons, ← ih]
    rfl

/-- The observation that is stored for a submitted hop. -/
def storedHop (catalog : Catalog) (clocks : ClockRegistry) (record : MeasurementRecord) (evidence : Evidence)
    (hop : HopObservation) : HopObservation :=
  (deriveHop catalog clocks record (inheritFreshness evidence { hop with evidence := hopEvidence catalog hop })).1

theorem inheritFreshness_eq (evidence : Evidence) (hop : HopObservation) :
    ∃ dated, inheritFreshness evidence hop = { hop with evidence := dated } := by
  unfold inheritFreshness
  split_ifs
  · exact ⟨_, rfl⟩
  · exact ⟨hop.evidence, rfl⟩

theorem storedHop_derives (catalog : Catalog) (clocks : ClockRegistry) (record : MeasurementRecord)
    (evidence : Evidence) (hop : HopObservation) :
    Derives catalog hop (storedHop catalog clocks record evidence hop) := by
  unfold storedHop
  obtain ⟨dated, hdated⟩ := inheritFreshness_eq evidence { hop with evidence := hopEvidence catalog hop }
  rw [hdated]
  have hderives := deriveHop_derives catalog clocks record { hop with evidence := dated }
  exact ⟨hderives.hop, hderives.index, hderives.undefined⟩

theorem stored_hops {policy : RuntimePolicy} {fences : Fences} {x : Submission}
    (h : x.verdict policy fences ≠ .rejected) :
    ∃ path source evidence, (x.gate policy fences).admissible x.record = some (path, source) ∧
      x.catalog.path x.record.path = .ok path ∧
      ((x.gate policy fences).draft path x.record).fatal = false ∧
      (x.stored policy fences).path = x.record.path ∧
      (x.stored policy fences).hops = x.record.hops.map (storedHop x.catalog x.clocks x.record evidence) := by
  cases hadmissible : (x.gate policy fences).admissible x.record with
  | none => exact absurd ((x.gate policy fences).classify_of_not_admissible x.record x.now hadmissible).1 h
  | some found =>
    obtain ⟨path, source⟩ := found
    obtain ⟨-, -, hsource, hpath, hsound⟩ := (x.gate policy fences).classify_of_admissible x.record x.now hadmissible
    have hrecord : (x.classified policy fences).record =
        ((x.gate policy fences).enrich x.record ((x.gate policy fences).dated path x.record x.now)).1 := by
      unfold Submission.classified IngestGate.classify
      unfold IngestGate.admissible at hadmissible
      cases hgeneration : (x.gate policy fences).catalog.generation x.record.generation with
      | error e => simp [hpath, hsource, hgeneration] at hadmissible
      | ok generation => simp only [hpath, hsource, hsound, Bool.false_eq_true, if_false]
    refine ⟨path, source, (x.gate policy fences).dated path x.record x.now, rfl, hpath, hsound, ?_, ?_⟩
    · show (x.classified policy fences).record.path = _
      rw [hrecord]
      rfl
    · show (x.classified policy fences).record.hops = _
      rw [hrecord]
      show (deriveDwells x.catalog x.clocks x.record _).1 = _
      rw [deriveDwells_eq_map, List.map_map]
      rfl

/-- What is known of a record that was accepted. -/
structure AcceptedFrom (gate : IngestGate) (submitted record : MeasurementRecord) : Prop where
  path : record.path = submitted.path
  hops : ∃ path, gate.catalog.path submitted.path = .ok path ∧
    ∀ after ∈ record.hops, ∃ before ∈ submitted.hops, hopConflicts gate.catalog path before = false ∧
      Derives gate.catalog before after

theorem stored_acceptedFrom {policy : RuntimePolicy} {fences : Fences} {x : Submission}
    (h : x.verdict policy fences ≠ .rejected) :
    (∃ found, (x.gate policy fences).admissible x.record = some found) ∧
      AcceptedFrom (x.gate policy fences) x.record (x.stored policy fences) := by
  obtain ⟨path, source, evidence, hadmissible, hpath, hsound, hstoredPath, hstoredHops⟩ := stored_hops h
  refine ⟨⟨_, hadmissible⟩, hstoredPath, path, hpath, ?_⟩
  intro after hafter
  rw [hstoredHops] at hafter
  obtain ⟨before, hbefore, rfl⟩ := List.mem_map.mp hafter
  exact ⟨before, hbefore, checkHops_conflicts hsound before hbefore, storedHop_derives _ _ _ _ _⟩

end LatencyObservatory.Ingest
