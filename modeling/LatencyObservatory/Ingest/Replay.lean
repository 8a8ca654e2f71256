import LatencyObservatory.Ingest.Run

/-!
# Replay protection

Two submissions of one exchange, identified by source, epoch, incarnation and sequence. As long as the
session still knows the sequence, the session fence refuses the second. The registered source revision
is checked afterwards and overwrites that refusal: a replay stamped with an older revision is accepted
as history. The resubmission is refused exactly when its revision is not behind the registered one, or
it fails the structural checks.
-/

namespace LatencyObservatory.Ingest

open LatencyObservatory.Core LatencyObservatory.Model

/-- The two records name one exchange. -/
def SameExchange (a b : MeasurementRecord) : Prop :=
  a.source = b.source ∧ a.epoch = b.epoch ∧ a.incarnation = b.incarnation ∧ a.sequence = b.sequence

/-- Two passages of one run from empty fences, in this order, that submit the same exchange. -/
structure Resubmitted (policy : RuntimePolicy) (batches : List Batch) (first second : Fences × Submission) :
    Prop where
  ordered : ∃ i j : Nat, i < j ∧ (passages policy ∅ batches)[i]? = some first ∧
    (passages policy ∅ batches)[j]? = some second
  same : SameExchange first.2.record second.2.record

/-- The fences still know the record's sequence: it is its session's last one, or in the window. -/
def Remembers (fences : Fences) (record : MeasurementRecord) : Prop :=
  ∃ fence state, fences[record.source]? = some fence ∧ fence.sessions[sessionKey record]? = some state ∧
    (record.sequence = state.lastSequence ∨ record.sequence ∈ state.recentSequences)

/-- The registered revision of the record's source is newer than the record's, and the record reaches
the fences at all. -/
def RevisionOverrules (gate : IngestGate) (record : MeasurementRecord) : Prop :=
  ∃ path source, gate.admissible record = some (path, source) ∧
    record.sourceRevision.value < source.revision.value

instance (gate : IngestGate) (record : MeasurementRecord) : Decidable (RevisionOverrules gate record) :=
  decidable_of_iff
    ((gate.admissible record).any (fun found => record.sourceRevision.value < found.2.revision.value) = true)
    (by simp [RevisionOverrules, Option.any_eq_true])

theorem Remembers.congr {fences : Fences} {a b : MeasurementRecord} (hsame : SameExchange a b)
    (h : Remembers fences a) : Remembers fences b := by
  obtain ⟨hsource, hepoch, hincarnation, hsequence⟩ := hsame
  unfold Remembers sessionKey at h ⊢
  rw [← hsource, ← hepoch, ← hincarnation, ← hsequence]
  exact h

theorem Remembers.replays {gate : IngestGate} {record : MeasurementRecord}
    (hinv : FencesInv gate.policy.limits gate.fences) (h : Remembers gate.fences record) :
    (gate.fenceOf record.source).replays record = true := by
  obtain ⟨fence, state, hfence, hstate, hknown⟩ := h
  have hof : gate.fenceOf record.source = fence := by
    unfold IngestGate.fenceOf
    rw [hfence]
    rfl
  rw [hof, SourceFenceState.replays, SourceFenceState.sessionOf, hstate]
  exact (((hinv _ _ hfence).session _ _ hstate).replays_iff _).mpr hknown

theorem remembers_of_replays (gate : IngestGate) (record : MeasurementRecord)
    (h : (gate.fenceOf record.source).replays record = true) : Remembers gate.fences record := by
  unfold IngestGate.fenceOf SourceFenceState.replays SourceFenceState.sessionOf at h
  cases hfence : gate.fences[record.source]? with
  | none => simp [hfence] at h
  | some fence =>
    rw [hfence, Option.getD_some, Option.any_eq_true] at h
    obtain ⟨state, hstate, hreplays⟩ := h
    refine ⟨fence, state, hfence, hstate, ?_⟩
    simp only [SessionState.replays, Bool.and_eq_true, Bool.or_eq_true, beq_iff_eq,
      Std.ExtTreeSet.contains_iff_mem] at hreplays
    exact hreplays.2

theorem remembered_rejected_iff {gate : IngestGate} {record : MeasurementRecord} {now : Timestamp}
    (hinv : FencesInv gate.policy.limits gate.fences) (h : Remembers gate.fences record) :
    (gate.classify record now).ruling.verdict = .rejected ↔ ¬ RevisionOverrules gate record := by
  cases hadm : gate.admissible record with
  | none =>
    have hnot : ¬ RevisionOverrules gate record := by
      rintro ⟨path, source, hfound, -⟩
      rw [hadm] at hfound
      cases hfound
    exact iff_of_true (gate.classify_of_not_admissible record now hadm).1 hnot
  | some found =>
    obtain ⟨path, source⟩ := found
    rw [IngestGate.classify_rejected_iff hadm, h.replays hinv]
    have hover : RevisionOverrules gate record ↔ record.sourceRevision.value < source.revision.value := by
      constructor
      · rintro ⟨path', source', hfound, hlt⟩
        rw [hadm] at hfound
        cases hfound
        exact hlt
      · exact fun hlt => ⟨path, source, hadm, hlt⟩
    rw [hover]
    simp only [IngestGate.revisionAhead, IngestGate.revisionBehind, decide_eq_true_eq, decide_eq_false_iff_not,
      true_and]
    constructor
    · rintro (hgt | hnot)
      · exact UInt32.lt_asymm hgt
      · exact hnot
    · exact Or.inr

/-- **Replay safety.** In every run, a second submission of an accepted exchange whose sequence the
session still knows is refused exactly when the registered source revision is not newer than the
resubmission's, or the resubmission is not admissible. -/
theorem resubmission_rejected_iff {policy : RuntimePolicy} {batches : List Batch}
    {first second : Fences × Submission} (h : Resubmitted policy batches first second)
    (hfirst : first.2.verdict policy first.1 ≠ .rejected) (hknown : Remembers second.1 first.2.record) :
    ¬ (first.2.verdict policy first.1 ≠ .rejected ∧ second.2.verdict policy second.1 ≠ .rejected) ↔
      ¬ RevisionOverrules (second.2.gate policy second.1) second.2.record := by
  obtain ⟨i, j, -, -, hj⟩ := h.ordered
  have hinv : FencesInv policy.limits second.1 := passages_inv hj
  rw [not_and, not_not]
  have hsecond : second.2.verdict policy second.1 = .rejected ↔
      ¬ RevisionOverrules (second.2.gate policy second.1) second.2.record :=
    remembered_rejected_iff hinv (hknown.congr h.same)
  exact ⟨fun himp => hsecond.mp (himp hfirst), fun hnot _ => hsecond.mpr hnot⟩

/-! ### A small deployment

One generation, one path of one hop and one source, whose registered revision is the parameter. -/

def sampleGeneration : GenerationDef := { name := ⟨text "release-1"⟩, revision := .first }
def sampleHop : HopDef := { name := ⟨text "edge"⟩, revision := .first }
def samplePath : PathDef :=
  { name := ⟨text "client-to-server"⟩
    generation := .deriveFrom sampleGeneration.name.str
    revision := .first
    hops := [.deriveFrom sampleHop.name.str] }
def sampleSource (revision : UInt32) : SourceDescriptor := { name := ⟨text "probe"⟩, revision := ⟨revision⟩ }

def sampleCatalog (revision : UInt32) : Catalog :=
  let c : Catalog := { limits := {} }
  let c := (c.defineGeneration sampleGeneration).2
  let c := (c.defineHop sampleHop).2
  let c := (c.definePath samplePath).2
  (c.defineSource (sampleSource revision)).2

def sampleClocks : ClockRegistry := { policy := defaultPolicy }

/-- An exchange of 10 ns, observed one millisecond before it is received. -/
def sampleRecord (epoch : UInt64) (sequence : Sequence) : MeasurementRecord :=
  { path := .deriveFrom samplePath.name.str
    generation := .deriveFrom sampleGeneration.name.str
    source := .deriveFrom (sampleSource 1).name.str
    epoch := ⟨epoch⟩
    incarnation := ⟨1⟩
    sourceRevision := .first
    sequence := sequence
    domain := referenceClockDomain
    request := ⟨0, referenceClockDomain⟩
    response := ⟨10, referenceClockDomain⟩
    rttNs := 10
    stamp := { observedAt := ⟨1000000, referenceClockDomain⟩ } }

def sampleBatch (revision : UInt32) (records : List MeasurementRecord) : Batch :=
  { catalog := sampleCatalog revision
    clocks := sampleClocks
    request := { records := records, receivedAt := ⟨2000000, referenceClockDomain⟩ } }

/-- The only record of a batch, as the gate meets it. -/
def sampleSubmission (revision : UInt32) (record : MeasurementRecord) : Submission :=
  (sampleBatch revision [record]).submission record

theorem sampleBatch_submissions {policy : RuntimePolicy} (hpolicy : 1 ≤ policy.limits.maxBatchSamples)
    (revision : UInt32) (record : MeasurementRecord) :
    (sampleBatch revision [record]).submissions policy = [sampleSubmission revision record] := by
  have htaken : (sampleBatch revision [record]).taken policy = true := by
    have hvalid : referenceClockDomain.valid = true := StrongId.deriveFrom_valid _
    simp [Batch.taken, sampleBatch, Timestamp.valid, hvalid, hpolicy]
  unfold Batch.submissions
  rw [if_pos htaken]
  rfl

/-- The fences after the exchange was submitted once. -/
def sampleFences (revision : UInt32) (record : MeasurementRecord) : Fences :=
  (sampleSubmission revision record).submit defaultPolicy ∅

theorem sample_resubmitted (revision : UInt32) (record : MeasurementRecord) :
    Resubmitted defaultPolicy [sampleBatch revision [record], sampleBatch revision [record]]
      (∅, sampleSubmission revision record)
      (sampleFences revision record, sampleSubmission revision record) := by
  refine ⟨⟨0, 1, by decide, ?_, ?_⟩, rfl, rfl, rfl, rfl⟩ <;>
    simp [passages, @sampleBatch_submissions defaultPolicy (by decide), Lib.steps, sampleFences]

/-- Registered at revision 1, the exchange is refused the second time. -/
theorem resubmission_rejected_sample :
    ¬ ((sampleSubmission 1 (sampleRecord 1 7)).verdict defaultPolicy ∅ ≠ .rejected ∧
        (sampleSubmission 1 (sampleRecord 1 7)).verdict defaultPolicy (sampleFences 1 (sampleRecord 1 7)) ≠
          .rejected) := by
  refine (resubmission_rejected_iff (sample_resubmitted 1 (sampleRecord 1 7)) (by decide +kernel)
    (remembers_of_replays
      ((sampleSubmission 1 (sampleRecord 1 7)).gate defaultPolicy (sampleFences 1 (sampleRecord 1 7))) _
      (by decide +kernel))).mpr ?_
  decide +kernel

/-- With the source registered at revision 2, an exchange stamped with revision 1 is accepted as
history twice. -/
theorem resubmission_accepted_twice :
    Resubmitted defaultPolicy [sampleBatch 2 [sampleRecord 1 7], sampleBatch 2 [sampleRecord 1 7]]
        (∅, sampleSubmission 2 (sampleRecord 1 7))
        (sampleFences 2 (sampleRecord 1 7), sampleSubmission 2 (sampleRecord 1 7)) ∧
      Remembers (sampleFences 2 (sampleRecord 1 7)) (sampleSubmission 2 (sampleRecord 1 7)).record ∧
      (sampleSubmission 2 (sampleRecord 1 7)).verdict defaultPolicy ∅ = .acceptedHistorical ∧
      (sampleSubmission 2 (sampleRecord 1 7)).verdict defaultPolicy (sampleFences 2 (sampleRecord 1 7)) =
        .acceptedHistorical := by
  refine ⟨sample_resubmitted 2 _, ?_, by decide +kernel, by decide +kernel⟩
  exact remembers_of_replays
    ((sampleSubmission 2 (sampleRecord 1 7)).gate defaultPolicy (sampleFences 2 (sampleRecord 1 7))) _
    (by decide +kernel)

end LatencyObservatory.Ingest
