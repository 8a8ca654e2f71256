import LatencyObservatory.Ingest.Hops
import LatencyObservatory.Ingest.Reasons
import LatencyObservatory.Model.CodecTrees

/-!
# The text of an accepted record

The codec of a record writes the identity of the record, takes the domain of the exchange from its response, and does
not read the flags of the evidence. For a record that the gate accepts nothing is lost by that: the gate derives the
identity, has checked the domains, and gives fewer reasons than evidence can keep. Only the monotonic time of the
receipt does not outlive the process that took it.
-/

namespace LatencyObservatory.Ingest

open LatencyObservatory.Core LatencyObservatory.Model

theorem stored_submitted (policy : RuntimePolicy) (fences : Fences) (x : Submission) :
    ∃ hops evidence, x.stored policy fences = { x.record with hops := hops, evidence := evidence } := by
  have hrecord : ∃ hops, (x.classified policy fences).record = { x.record with hops := hops } := by
    unfold Submission.classified IngestGate.classify
    split
    · exact ⟨_, rfl⟩
    · exact ⟨_, rfl⟩
    · exact ⟨_, rfl⟩
    · dsimp only
      split
      · exact ⟨_, rfl⟩
      · exact ⟨_, rfl⟩
  obtain ⟨hops, hrecord⟩ := hrecord
  unfold Submission.stored
  rw [hrecord]
  exact ⟨hops, _, rfl⟩

theorem submission_id {policy : RuntimePolicy} {batches : List Batch} {x : Submission}
    (h : x ∈ batches.flatMap (Batch.submissions policy)) : x.record.id.valid = true := by
  obtain ⟨batch, -, hx⟩ := List.mem_flatMap.mp h
  unfold Batch.submissions at hx
  split_ifs at hx
  · obtain ⟨record, -, rfl⟩ := List.mem_map.mp hx
    exact StrongId.deriveFrom_valid _
  · cases hx

/-- The hops are dated in the domains they name. -/
def DatedAlike (record : MeasurementRecord) : Prop :=
  ∀ hop ∈ record.hops, hop.entryDomain = hop.entry.domain ∧ hop.exitDomain = hop.exit.domain

theorem stored_written {policy : RuntimePolicy} {fences : Fences} {x : Submission}
    (hkept : FencesKept (withSession policy.limits) fences) (hid : x.record.id.valid = true)
    (h : x.verdict policy fences ≠ .rejected) (hdated : DatedAlike (x.stored policy fences)) :
    (x.stored policy fences).Written := by
  obtain ⟨path, source, evidence, -, -, hsound, -, hstoredHops⟩ := stored_hops h
  have hexchange := IngestGate.sound_of_not_fatal hsound
  have hwithin := stored_within hkept h
  obtain ⟨hops, ruled, hstored⟩ := stored_submitted policy fences x
  have hhops : ∀ hop ∈ (x.stored policy fences).hops, hop.Written := by
    intro hop hhop
    obtain ⟨hentry, hexit⟩ := hdated hop hhop
    rw [hstoredHops] at hhop
    obtain ⟨before, -, rfl⟩ := List.mem_map.mp hhop
    exact ⟨hentry, hexit, (storedHop_within _ _ _ _ _).2⟩
  rw [hstored] at hwithin hhops ⊢
  exact ⟨hid, hexchange.revision, hexchange.request, hexchange.response, hexchange.domain, hwithin.2, hhops⟩

/-- **Records outlive the process.** Every record that the gate accepts in a run from empty fences, with a sequence
that fits a JSON number and hops that are dated in the domains they name, is read back from its text as it is, up to
the monotonic time of its receipt. -/
theorem accepted_roundTrip (policy : RuntimePolicy) (batches : List Batch) :
    ∀ p ∈ passages policy ∅ batches, p.2.verdict policy p.1 ≠ .rejected →
      (p.2.stored policy p.1).sequence.toNat < 2 ^ 63 → DatedAlike (p.2.stored policy p.1) →
        ∀ maxDepth, 16 ≤ maxDepth → ∀ pretty : Bool, ∃ tree,
          parseJson (writeMeasurement { pretty := pretty } (p.2.stored policy p.1)).out maxDepth = .ok tree ∧
            decodeMeasurement tree = .ok (p.2.stored policy p.1).persisted := by
  intro p hp haccepted hsequence hdated maxDepth hdepth pretty
  obtain ⟨n, hn⟩ := List.getElem?_of_mem hp
  have hkept : FencesKept (withSession policy.limits) p.1 :=
    Lib.steps_inv (submit_kept policy) (fencesKept_empty _) hn
  have hid := submission_id (Lib.mem_of_mem_steps hp)
  exact ⟨_, decodeMeasurement_written (stored_written hkept hid haccepted hdated) hsequence hdepth pretty⟩

/-- The observation of the hop `edge` by a source that names its clock domains. -/
def datedObservation : HopObservation :=
  { edgeObservation with entryDomain := referenceClockDomain, exitDomain := referenceClockDomain }

theorem dated_observation_roundTrip :
    ∃ tree, parseJson (writeMeasurement {} ((observedSubmission datedObservation).stored defaultPolicy ∅)).out 16 =
        .ok tree ∧
      decodeMeasurement tree = .ok ((observedSubmission datedObservation).stored defaultPolicy ∅).persisted := by
  refine accepted_roundTrip defaultPolicy [sampleBatch 1 [{ sampleRecord 1 7 with hops := [datedObservation] }]]
    (∅, observedSubmission datedObservation) ?_ ?_ ?_ ?_ 16 (Nat.le_refl 16) false
  · simp [passages, @sampleBatch_submissions defaultPolicy (by decide), Lib.steps, observedSubmission]
  · decide +kernel
  · decide +kernel
  · have hdomains : ((observedSubmission datedObservation).stored defaultPolicy ∅).hops.all
        (fun hop => hop.entryDomain == hop.entry.domain && hop.exitDomain == hop.exit.domain) = true := by
      decide +kernel
    intro hop hhop
    simpa using List.all_eq_true.mp hdomains hop hhop

end LatencyObservatory.Ingest
