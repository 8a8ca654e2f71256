import LatencyObservatory.Ingest.Gate
import LatencyObservatory.Ingest.Invariant
import LatencyObservatory.Lib.Steps

/-!
# Runs of the gate

A run of `admit` is a run of single submissions: each record meets the fences the previous one left,
with the registries of its batch. `classify` is described once, by whether the record is admissible at
all, by its age, and by the predicates of the session fence; every statement about whole runs follows
from that description and the invariant of the fences.
-/

namespace LatencyObservatory.Ingest

open LatencyObservatory.Core LatencyObservatory.Model

namespace IngestGate

variable (gate : IngestGate) (record : MeasurementRecord) (now : Timestamp)

/-- The path and source of a record that reaches the fences: the registry knows it and no structural
check was fatal. -/
def admissible : Option (PathDef × SourceDescriptor) :=
  match gate.catalog.path record.path, gate.catalog.source record.source,
      gate.catalog.generation record.generation with
  | .ok path, .ok source, .ok _ => if (gate.draft path record).fatal then none else some (path, source)
  | _, _, _ => none

/-- The record's age is established and within the aging horizon. -/
def recent : Bool :=
  match (gate.clocks.estimateAge record.stamp.observedAt now).ageNs with
  | some age => gate.policy.freshness.classify age == .fresh || gate.policy.freshness.classify age == .aging
  | none => false

/-! ### The draft evidence -/

theorem classify_of_not_admissible (h : gate.admissible record = none) :
    (gate.classify record now).ruling.verdict = .rejected ∧ (gate.classify record now).fences = gate.fences := by
  unfold admissible at h
  unfold classify
  cases hpath : gate.catalog.path record.path with
  | error e => exact ⟨rfl, rfl⟩
  | ok path =>
    cases hsource : gate.catalog.source record.source with
    | error e => exact ⟨rfl, rfl⟩
    | ok source =>
      cases hgeneration : gate.catalog.generation record.generation with
      | error e => exact ⟨rfl, rfl⟩
      | ok generation =>
        simp only [hpath, hsource, hgeneration] at h
        split_ifs at h with hfatal
        simp only [hfatal, if_true, and_self]

theorem classify_of_admissible {path : PathDef} {source : SourceDescriptor}
    (h : gate.admissible record = some (path, source)) :
    (gate.classify record now).ruling =
        (gate.applyFences path source record (gate.dated path record now)).2.1 ∧
      (gate.classify record now).fences =
        gate.fences.insert record.source
          (gate.applyFences path source record (gate.dated path record now)).1 ∧
      gate.catalog.source record.source = .ok source ∧ gate.catalog.path record.path = .ok path ∧
      (gate.draft path record).fatal = false := by
  unfold admissible at h
  unfold classify
  cases hpath : gate.catalog.path record.path with
  | error e => simp [hpath] at h
  | ok path' =>
    cases hsource : gate.catalog.source record.source with
    | error e => simp [hpath, hsource] at h
    | ok source' =>
      cases hgeneration : gate.catalog.generation record.generation with
      | error e => simp [hpath, hsource, hgeneration] at h
      | ok generation =>
        simp only [hpath, hsource, hgeneration] at h
        split_ifs at h with hfatal
        simp only [Option.some.injEq, Prod.mk.injEq] at h
        obtain ⟨rfl, rfl⟩ := h
        simp [hfatal]

end IngestGate

theorem Draft.rejectIf_not_fatal {d : Draft} {condition : Bool} {code : ReasonCode} {detail : Bytes}
    (h : (d.rejectIf condition code detail).fatal = false) :
    d.rejectIf condition code detail = d := by
  unfold Draft.rejectIf at h ⊢
  split_ifs at h ⊢
  · simp [Draft.reject] at h
  · rfl

theorem Draft.rejectIf_condition {d : Draft} {condition : Bool} {code : ReasonCode} {detail : Bytes}
    (h : (d.rejectIf condition code detail).fatal = false) : condition = false := by
  unfold Draft.rejectIf at h
  cases condition with
  | false => rfl
  | true => simp [Draft.reject] at h

theorem checkLatency_not_fatal {record : MeasurementRecord} {d : Draft}
    (h : (checkLatency record d).fatal = false) : checkLatency record d = d := by
  unfold checkLatency at h ⊢
  split_ifs at h ⊢
  · simp [Draft.reject] at h
  · exact Draft.rejectIf_not_fatal h

theorem checkExchange_not_fatal {record : MeasurementRecord} {d : Draft}
    (h : (checkExchange record d).fatal = false) : checkExchange record d = d := by
  unfold checkExchange at h ⊢
  simp only at h ⊢
  have h₆ := Draft.rejectIf_not_fatal h
  rw [h₆] at h ⊢
  have h₅ := checkLatency_not_fatal h
  rw [h₅] at h ⊢
  have h₄ := Draft.rejectIf_not_fatal h
  rw [h₄] at h ⊢
  have h₃ := Draft.rejectIf_not_fatal h
  rw [h₃] at h ⊢
  have h₂ := Draft.rejectIf_not_fatal h
  rw [h₂] at h ⊢
  exact Draft.rejectIf_not_fatal h

/-- What the checks of an exchange establish of its revision and its clock domain. -/
structure SoundExchange (record : MeasurementRecord) : Prop where
  revision : record.sourceRevision.valid = true
  domain : record.domain.valid = true
  request : record.request.domain = record.domain
  response : record.response.domain = record.domain

theorem checkExchange_sound {record : MeasurementRecord} {d : Draft}
    (h : (checkExchange record d).fatal = false) : SoundExchange record := by
  unfold checkExchange at h
  simp only at h
  rw [Draft.rejectIf_not_fatal h] at h
  rw [checkLatency_not_fatal h] at h
  have hreadings := Draft.rejectIf_condition h
  rw [Draft.rejectIf_not_fatal h] at h
  have hdomain := Draft.rejectIf_condition h
  rw [Draft.rejectIf_not_fatal h] at h
  have hrevision := Draft.rejectIf_condition h
  rw [Bool.or_eq_false_iff, bne_eq_false_iff_eq, bne_eq_false_iff_eq] at hreadings
  exact ⟨by simpa using hrevision, by simpa using hdomain, hreadings.1, hreadings.2⟩

theorem checkHops_not_fatal {catalog : Catalog} {path : PathDef} {hops : List HopObservation} {d : Draft}
    (h : (checkHops catalog path hops d).fatal = false) : checkHops catalog path hops d = d := by
  induction hops generalizing d with
  | nil => rfl
  | cons hop rest ih =>
    rw [checkHops, List.foldl_cons] at h ⊢
    have hrest := ih h
    rw [checkHops] at hrest
    rw [hrest] at h ⊢
    exact Draft.rejectIf_not_fatal h

namespace IngestGate

variable {gate : IngestGate} {record : MeasurementRecord} {now : Timestamp}

theorem draft_of_not_fatal {path : PathDef} (h : (gate.draft path record).fatal = false) :
    (gate.draft path record).evidence = Evidence.observed .unknown .high := by
  unfold draft at h ⊢
  have hhops := checkHops_not_fatal h
  rw [hhops] at h ⊢
  rw [checkExchange_not_fatal h]

end IngestGate

theorem IngestGate.sound_of_not_fatal {gate : IngestGate} {path : PathDef} {record : MeasurementRecord}
    (h : (gate.draft path record).fatal = false) : SoundExchange record := by
  unfold draft at h
  rw [checkHops_not_fatal h] at h
  exact checkExchange_sound h

theorem estimateAge_observed {r : ClockRegistry} {observed now : Timestamp} {age : Nanos}
    (h : (r.estimateAge observed now).ageNs = some age) :
    (r.estimateAge observed now).evidence.state = .observed := by
  unfold ClockRegistry.estimateAge at h ⊢
  split_ifs at h ⊢
  · simp
  · split at h <;> rename_i hsync
    · simp at h
    · rename_i report
      simp only
      split_ifs at h ⊢ <;> simp_all

namespace IngestGate

variable {gate : IngestGate} {record : MeasurementRecord} {now : Timestamp}

theorem dated_usable {path : PathDef} (h : (gate.draft path record).fatal = false) :
    (gate.dated path record now).usable = gate.recent record now := by
  unfold dated recent dateEvidence
  rw [draft_of_not_fatal h]
  cases hage : (gate.clocks.estimateAge record.stamp.observedAt now).ageNs with
  | none => simp [Evidence.usable]
  | some age =>
    have hstate := estimateAge_observed hage
    simp [Evidence.usable, hstate, Evidence.observed, Evidence.ofState, Evidence.mergeState, Evidence.isCoverage]

end IngestGate

/-! ### The fences -/

namespace IngestGate

variable (gate : IngestGate) (path : PathDef) (source : SourceDescriptor) (record : MeasurementRecord)

/-- The record belongs to another or to a superseded generation. -/
def foreignGeneration : Bool :=
  record.generation != path.generation || gate.catalog.isSuperseded record.generation

/-- The record carries a revision the registry has not seen. -/
def revisionAhead : Bool :=
  record.sourceRevision.value > source.revision.value

/-- The record was produced by an older source revision than the registered one. -/
def revisionBehind : Bool :=
  record.sourceRevision.value < source.revision.value

theorem fenceGeneration_view (ruling : Ruling) :
    (gate.fenceGeneration path record ruling).view =
      if gate.foreignGeneration path record then demote ruling.view else ruling.view := by
  unfold fenceGeneration foreignGeneration
  simp only [Bool.or_eq_true, bne_iff_ne]
  split_ifs <;> simp_all

theorem fenceRevision_view (ruling : Ruling) :
    (fenceRevision source record ruling).view =
      if revisionAhead source record then (.rejected, .conflicting, ruling.evidence.freshness)
      else if revisionBehind source record then demote ruling.view
      else ruling.view := by
  unfold fenceRevision revisionAhead revisionBehind
  simp only [decide_eq_true_eq]
  split_ifs
  · simp [Ruling.view]
  · simp
  · rfl

theorem fenceUsable_view (ruling : Ruling) :
    (fenceUsable ruling).view =
      if ruling.verdict = .acceptedCurrent ∧ ruling.evidence.usable = false then demote ruling.view
      else ruling.view := by
  unfold fenceUsable
  simp only [Bool.not_eq_true']
  split_ifs <;> rfl

/-- `usable` on what a view shows. -/
def viewUsable (v : AdmitVerdict × EvidenceState × Freshness) : Bool :=
  v.2.1 == .observed && (v.2.2 == .fresh || v.2.2 == .aging)

/-- A fence that holds the record back as history: generation, session or registered revision. -/
def heldBack : Bool :=
  gate.foreignGeneration path record || (gate.fenceOf record.source).outdated record ||
    revisionBehind source record

/-- All fences together. The registered revision is looked at after the session fence, whatever that
fence decided. -/
theorem applyFences_view (evidence : Evidence) :
    (gate.applyFences path source record evidence).2.1.view =
      if revisionAhead source record then
        (.rejected, .conflicting,
          if (gate.fenceOf record.source).replays record then .unknown else evidence.freshness)
      else if (gate.fenceOf record.source).replays record then
        (if revisionBehind source record then .acceptedHistorical else .rejected, .conflicting, .unknown)
      else
        (if gate.heldBack path source record || !evidence.usable then .acceptedHistorical
          else .acceptedCurrent, evidence.state, evidence.freshness) := by
  have hverdict : ∀ r : Ruling, r.verdict = r.view.1 := fun _ => rfl
  have hfreshness : ∀ r : Ruling, r.evidence.freshness = r.view.2.2 := fun _ => rfl
  have husable : ∀ r : Ruling, r.evidence.usable = viewUsable r.view := fun _ => rfl
  simp only [applyFences]
  rw [fenceUsable_view]
  simp only [hverdict, husable]
  rw [fenceRevision_view]
  simp only [hfreshness]
  rw [applySessionFence_view, fenceGeneration_view]
  unfold heldBack
  have hview : (Ruling.mk .acceptedCurrent evidence).view = (.acceptedCurrent, evidence.state, evidence.freshness) := rfl
  have hkept : viewUsable (.acceptedCurrent, evidence.state, evidence.freshness) = evidence.usable := rfl
  rw [hview]
  -- Seven decisions remain, each a Boolean of the state before.
  cases revisionAhead source record <;> cases (gate.fenceOf record.source).replays record <;>
    cases revisionBehind source record <;> cases (gate.fenceOf record.source).outdated record <;>
    cases gate.foreignGeneration path record <;> simp [demote, hkept]
  cases evidence.usable <;> simp

theorem applyFences_verdict (evidence : Evidence) :
    (gate.applyFences path source record evidence).2.1.verdict =
      if revisionAhead source record then .rejected
      else if (gate.fenceOf record.source).replays record then
        if revisionBehind source record then .acceptedHistorical else .rejected
      else if gate.heldBack path source record || !evidence.usable then .acceptedHistorical
      else .acceptedCurrent := by
  have h := congrArg Prod.fst (applyFences_view gate path source record evidence)
  rw [apply_ite Prod.fst, apply_ite Prod.fst] at h
  exact h

theorem applyFences_usable (evidence : Evidence) :
    (gate.applyFences path source record evidence).2.1.evidence.usable =
      (!revisionAhead source record && !(gate.fenceOf record.source).replays record && evidence.usable) := by
  have h := congrArg viewUsable (applyFences_view gate path source record evidence)
  rw [apply_ite viewUsable, apply_ite viewUsable] at h
  refine Eq.trans h ?_
  cases revisionAhead source record <;> cases (gate.fenceOf record.source).replays record <;>
    simp [viewUsable, Evidence.usable]

section Classify

variable {gate path source record} {now : Timestamp}

/-- An admissible record is refused for a revision ahead of the registry, or as a replay that the
registered revision does not overrule. -/
theorem classify_rejected_iff (h : gate.admissible record = some (path, source)) :
    (gate.classify record now).ruling.verdict = .rejected ↔
      revisionAhead source record = true ∨
        ((gate.fenceOf record.source).replays record = true ∧ revisionBehind source record = false) := by
  rw [(gate.classify_of_admissible record now h).1, applyFences_verdict]
  cases revisionAhead source record <;> cases (gate.fenceOf record.source).replays record <;>
    cases revisionBehind source record <;> simp
  all_goals split_ifs <;> simp

theorem classify_current_iff (h : gate.admissible record = some (path, source)) :
    (gate.classify record now).ruling.verdict = .acceptedCurrent ↔
      revisionAhead source record = false ∧ (gate.fenceOf record.source).replays record = false ∧
        gate.heldBack path source record = false ∧ gate.recent record now = true := by
  obtain ⟨hruling, -, -, -, hsound⟩ := gate.classify_of_admissible record now h
  rw [hruling, ← dated_usable hsound, applyFences_verdict]
  cases revisionAhead source record <;> cases (gate.fenceOf record.source).replays record <;>
    cases gate.heldBack path source record <;> cases (gate.dated path record now).usable <;> simp
  all_goals split_ifs <;> simp

/-- A record kept as history although its evidence is usable: recent, but held back by a fence. -/
theorem classify_historical_usable_iff (h : gate.admissible record = some (path, source)) :
    ((gate.classify record now).ruling.verdict = .acceptedHistorical ∧
        (gate.classify record now).ruling.evidence.usable = true) ↔
      revisionAhead source record = false ∧ (gate.fenceOf record.source).replays record = false ∧
        gate.heldBack path source record = true ∧ gate.recent record now = true := by
  obtain ⟨hruling, -, -, -, hsound⟩ := gate.classify_of_admissible record now h
  rw [hruling, ← dated_usable hsound, applyFences_verdict, applyFences_usable]
  cases revisionAhead source record <;> cases (gate.fenceOf record.source).replays record <;>
    cases gate.heldBack path source record <;> cases (gate.dated path record now).usable <;> simp

end Classify

end IngestGate

/-! ### Runs -/

/-- One call of `admit`, with the registries as they stand at that moment. -/
structure Batch where
  catalog : Catalog
  clocks : ClockRegistry
  request : IngestRequest

/-- One record as the gate meets it. -/
structure Submission where
  catalog : Catalog
  clocks : ClockRegistry
  record : MeasurementRecord
  now : Timestamp

namespace Submission

variable (policy : RuntimePolicy)

/-- The gate that meets the submission. -/
def gate (x : Submission) (fences : Fences) : IngestGate :=
  { policy := policy, catalog := x.catalog, clocks := x.clocks, fences := fences }

def classified (fences : Fences) (x : Submission) : Classified :=
  (x.gate policy fences).classify x.record x.now

def verdict (fences : Fences) (x : Submission) : AdmitVerdict :=
  (x.classified policy fences).ruling.verdict

/-- The record as it is stored when accepted. -/
def stored (fences : Fences) (x : Submission) : MeasurementRecord :=
  { (x.classified policy fences).record with evidence := (x.classified policy fences).ruling.evidence }

/-- The fences after the submission. -/
def submit (fences : Fences) (x : Submission) : Fences :=
  (x.classified policy fences).fences

end Submission

namespace Batch

/-- `admit` takes the batch: it has a receive time and is not too long. -/
def taken (policy : RuntimePolicy) (batch : Batch) : Bool :=
  batch.request.receivedAt.valid && batch.request.records.length ≤ policy.limits.maxBatchSamples

/-- The submissions of one call; a refused batch makes none. -/
def submissions (policy : RuntimePolicy) (batch : Batch) : List Submission :=
  if batch.taken policy then
    batch.request.records.map fun record =>
      ⟨batch.catalog, batch.clocks, IngestGate.stamp batch.request record, batch.request.receivedAt⟩
  else []

def gate (policy : RuntimePolicy) (batch : Batch) (fences : Fences) : IngestGate :=
  { policy := policy, catalog := batch.catalog, clocks := batch.clocks, fences := fences }

end Batch

/-- Every record of a run of `admit` from given fences, with the fences it meets. -/
def passages (policy : RuntimePolicy) (fences : Fences) (batches : List Batch) : List (Fences × Submission) :=
  Lib.steps (Submission.submit policy) fences (batches.flatMap (Batch.submissions policy))

/-- The fences of every source keep their invariant. -/
def FencesInv (limits : Limits) (fences : Fences) : Prop :=
  ∀ (source : SourceId) (fence : SourceFenceState), fences[source]? = some fence → fence.Inv limits

theorem fencesInv_empty (limits : Limits) : FencesInv limits ∅ := by
  intro source fence h
  simp at h

theorem FencesInv.fenceOf {gate : IngestGate} (h : FencesInv gate.policy.limits gate.fences) (source : SourceId) :
    (gate.fenceOf source).Inv gate.policy.limits := by
  unfold IngestGate.fenceOf
  cases hfound : gate.fences[source]? with
  | none => exact SourceFenceState.inv_empty _
  | some fence => exact h source fence hfound

theorem submit_cases (policy : RuntimePolicy) (fences : Fences) (x : Submission) :
    ((x.gate policy fences).admissible x.record = none ∧ x.verdict policy fences = .rejected ∧
      x.submit policy fences = fences) ∨
    ∃ path source ruling, (x.gate policy fences).admissible x.record = some (path, source) ∧
      x.submit policy fences =
        fences.insert x.record.source
          (applySessionFence policy.limits ((x.gate policy fences).fenceOf x.record.source) x.record ruling).1 := by
  cases h : (x.gate policy fences).admissible x.record with
  | none =>
    obtain ⟨hverdict, hfences⟩ := (x.gate policy fences).classify_of_not_admissible x.record x.now h
    exact Or.inl ⟨rfl, hverdict, hfences⟩
  | some found =>
    obtain ⟨path, source⟩ := found
    obtain ⟨-, hfences, -, -, -⟩ := (x.gate policy fences).classify_of_admissible x.record x.now h
    exact Or.inr ⟨path, source, _, rfl, hfences⟩

theorem submit_inv (policy : RuntimePolicy) (fences : Fences) (x : Submission)
    (h : FencesInv policy.limits fences) : FencesInv policy.limits (x.submit policy fences) := by
  rcases submit_cases policy fences x with ⟨-, -, hsame⟩ | ⟨path, source, ruling, -, hinsert⟩
  · rw [hsame]
    exact h
  · intro source' fence hfound
    rw [hinsert, Std.ExtTreeMap.getElem?_insert] at hfound
    split_ifs at hfound
    · cases hfound
      exact applySessionFence_inv x.record ruling (@FencesInv.fenceOf (x.gate policy fences) h _)
    · exact h source' fence hfound

theorem passages_inv {policy : RuntimePolicy} {batches : List Batch} {n : Nat} {fences : Fences} {x : Submission}
    (h : (passages policy ∅ batches)[n]? = some (fences, x)) : FencesInv policy.limits fences :=
  Lib.steps_inv (fun fences x => submit_inv policy fences x) (fencesInv_empty _) h

/-! ### `admit` is a run of submissions -/

theorem admitBatch_ok_iff {policy : RuntimePolicy} {fences : Fences} {batch : Batch} :
    (∃ admission, (batch.gate policy fences).admitBatch batch.request = .ok admission) ↔ batch.taken policy = true := by
  unfold IngestGate.admitBatch Batch.taken Batch.gate
  by_cases hvalid : batch.request.receivedAt.valid = true
  · by_cases hlong : batch.request.records.length > policy.limits.maxBatchSamples
    · simp [hvalid, hlong]
    · simp [hvalid, hlong, Nat.le_of_not_lt hlong]
  · simp [hvalid]

section Admit

variable {policy : RuntimePolicy} (batch : Batch)

/-- The submission of one record of a batch. -/
def Batch.submission (record : MeasurementRecord) : Submission :=
  ⟨batch.catalog, batch.clocks, IngestGate.stamp batch.request record, batch.request.receivedAt⟩

/-- The accepted records of a run of submissions with one verdict, as they are stored. -/
def accepted (policy : RuntimePolicy) (verdict : AdmitVerdict) (run : List (Fences × Submission)) :
    List MeasurementRecord :=
  (run.filter fun p => p.2.verdict policy p.1 = verdict).map fun p => p.2.stored policy p.1

theorem accepted_cons (policy : RuntimePolicy) (verdict : AdmitVerdict) (p : Fences × Submission)
    (run : List (Fences × Submission)) :
    accepted policy verdict (p :: run) =
      (if p.2.verdict policy p.1 = verdict then [p.2.stored policy p.1] else []) ++ accepted policy verdict run := by
  unfold accepted
  rw [List.filter_cons]
  split_ifs <;> simp_all

theorem foldl_admitRecord (fences₀ : Fences) (records : List MeasurementRecord) (s : Admission) :
    let run := Lib.steps (Submission.submit policy) s.fences (records.map batch.submission)
    let final := records.foldl ((batch.gate policy fences₀).admitRecord batch.request) s
    final.fences = (records.map batch.submission).foldl (Submission.submit policy) s.fences ∧
      final.acceptedCurrent = s.acceptedCurrent ++ accepted policy .acceptedCurrent run ∧
      final.acceptedHistory = s.acceptedHistory ++ accepted policy .acceptedHistorical run := by
  induction records generalizing s with
  | nil => simp [Lib.steps, accepted]
  | cons record rest ih =>
    obtain ⟨hfences, hcurrent, hhistory⟩ := ih ((batch.gate policy fences₀).admitRecord batch.request s record)
    have hstep : ((batch.gate policy fences₀).admitRecord batch.request s record).fences =
        (batch.submission record).submit policy s.fences := rfl
    have hheld : ((batch.gate policy fences₀).admitRecord batch.request s record).acceptedCurrent =
        if (batch.submission record).verdict policy s.fences = .acceptedCurrent then
          s.acceptedCurrent ++ [(batch.submission record).stored policy s.fences]
        else s.acceptedCurrent := rfl
    have hkept : ((batch.gate policy fences₀).admitRecord batch.request s record).acceptedHistory =
        if (batch.submission record).verdict policy s.fences = .acceptedHistorical then
          s.acceptedHistory ++ [(batch.submission record).stored policy s.fences]
        else s.acceptedHistory := rfl
    simp only [List.map_cons, List.foldl_cons, Lib.steps, accepted_cons]
    rw [hstep] at hfences hcurrent hhistory
    refine ⟨hfences, ?_, ?_⟩
    · rw [hcurrent, hheld]
      split_ifs <;> simp
    · rw [hhistory, hkept]
      split_ifs <;> simp

/-- What `admit` returns is what the run of its submissions yields: the fences after it, and the
records of each accepting verdict in submission order. -/
theorem admitBatch_eq_run {fences : Fences} {admission : Admission}
    (h : (batch.gate policy fences).admitBatch batch.request = .ok admission) :
    admission.fences = (batch.submissions policy).foldl (Submission.submit policy) fences ∧
      admission.acceptedCurrent = accepted policy .acceptedCurrent (passages policy fences [batch]) ∧
      admission.acceptedHistory = accepted policy .acceptedHistorical (passages policy fences [batch]) := by
  have htaken := admitBatch_ok_iff.mp ⟨admission, h⟩
  have hsubmissions : batch.submissions policy = batch.request.records.map batch.submission := by
    unfold Batch.submissions
    rw [if_pos htaken]
    rfl
  have hvalid : batch.request.receivedAt.valid = true ∧
      batch.request.records.length ≤ policy.limits.maxBatchSamples := by
    simpa [Batch.taken] using htaken
  unfold IngestGate.admitBatch at h
  rw [if_neg (by simp [hvalid.1]), if_neg (by simpa [Batch.gate] using hvalid.2)] at h
  simp only [Except.ok.injEq] at h
  subst h
  obtain ⟨hfences, hcurrent, hhistory⟩ := foldl_admitRecord batch fences batch.request.records
    { fences := fences, report := { received := batch.request.records.length } }
  simp only [passages, List.flatMap_cons, List.flatMap_nil, List.append_nil, hsubmissions]
  rw [List.nil_append] at hcurrent hhistory
  exact ⟨hfences, hcurrent, hhistory⟩

end Admit

end LatencyObservatory.Ingest
