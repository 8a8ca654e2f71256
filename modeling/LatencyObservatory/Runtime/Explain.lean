import LatencyObservatory.Lib.Listing
import LatencyObservatory.Runtime.Range
import LatencyObservatory.Stats.Accounting

/-!
# Explanations and their provenance

An explanation names the measurements behind a summary, at most `provenanceLimit` of them, and says whether it left
some out. The listing loop and the record loop of `summarize` share the classifier, so what is listed is the first
of what was counted. The limit is tested before the next record is classified: a full listing counts as truncated
as soon as any record follows, also one that the summary does not count.
-/

namespace LatencyObservatory.Runtime

open LatencyObservatory.Core LatencyObservatory.Model LatencyObservatory.Stats LatencyObservatory.Ingest

/-! ### The explanation -/

structure ProvenanceEntry where
  measurement : Bytes
  source : Bytes
  epoch : Bytes
  incarnation : Bytes
  sequence : Sequence
  sourceKind : Bytes := []
  authority : Bytes := []
  observedAtNs : Nanos
  observedAtDomain : Bytes
  receivedAtNs : Nanos
  state : Bytes
  freshness : Bytes
  synthetic : Bool
deriving DecidableEq

structure Explanation where
  subject : Bytes
  policyDigest : Bytes
  policyText : Bytes
  histogramDigest : Bytes
  windowFromNs : UInt64
  windowToNs : UInt64
  asOfNs : Nanos
  evidenceState : Bytes
  freshness : Bytes
  confidence : Bytes
  reasons : List Reason
  provenance : List ProvenanceEntry
  notes : List Bytes
  provenanceTruncated : Bool
  recoveryApplied : Bool := false
  recoveryReasons : List Reason := []
deriving DecidableEq

def provenanceLimit : Nat := 64

namespace Engine

/-- An unknown source leaves its kind and authority empty. -/
def provenanceEntry (e : Engine) (record : MeasurementRecord) : ProvenanceEntry :=
  let entry : ProvenanceEntry :=
    { measurement := record.id.toHex
      source := record.source.toHex
      epoch := record.epoch.toHex
      incarnation := record.incarnation.toHex
      sequence := record.sequence
      observedAtNs := record.stamp.observedAt.ns
      observedAtDomain := record.stamp.observedAt.domain.toHex
      receivedAtNs := record.stamp.receivedAt.ns
      state := nameOf states (text "unknown") record.evidence.state
      freshness := nameOf freshnesses (text "unknown") record.evidence.freshness
      synthetic := record.synthetic }
  match e.catalog.source record.source with
  | .error _ => entry
  | .ok source =>
    { entry with
      sourceKind := nameOf sourceKinds (text "unknown") source.kind
      authority := nameOf authorityClasses (text "unknown") source.authority }

def explanationNotes (e : Engine) (summary : PathSummary) : List Bytes :=
  [text "no causal claim: the runtime reports observed time and deviations from a generation bound baseline, never causes",
    text "aggregation is deterministic: identical evidence yields identical output regardless of arrival order",
    text "missing hops are unknown, never zero: coverage is reported separately from the distribution"] ++
    (if summary.mode = .historical then
      [text "historical mode: stale evidence is included and its freshness is reported per bucket"] else []) ++
    (if summary.generation ≠ e.catalog.currentGeneration ∧ e.catalog.currentGeneration.valid then
      [text "the queried generation is not the current generation of this lineage"] else [])

/-- `explain_locked`; the loop over the records is `Lib.listUpTo`. -/
def explainLocked (e : Engine) (request : SummaryRequest) (summary : PathSummary) : Explanation :=
  let listing := Lib.listUpTo provenanceLimit (fun record => request.classify record = .included) e.provenanceEntry []
    e.records
  let recovered := e.recovery.truncated || e.recovery.segmentsRejected != 0
  { subject := text "path.summary"
    policyDigest := e.policy.digest
    policyText := e.policy.canonicalText
    histogramDigest := request.histogram.digest
    windowFromNs := (if summary.window.start.ns < 0 then 0 else summary.window.start.ns).toUInt64
    windowToNs := (if summary.window.stop.ns < 0 then 0 else summary.window.stop.ns).toUInt64
    asOfNs := summary.asOf.ns
    evidenceState := nameOf states (text "unknown") summary.evidence.state
    freshness := nameOf freshnesses (text "unknown") summary.evidence.freshness
    confidence := nameOf confidences (text "none") summary.evidence.confidence
    reasons := summary.evidence.reasons
    provenance := listing.1
    notes := e.explanationNotes summary
    provenanceTruncated := listing.2
    recoveryApplied := recovered
    recoveryReasons := if recovered then e.recovery.reasons else [] }

def explain (e : Engine) (request : SummaryRequest) : Except Error Explanation := do
  let summary ← e.summarize request
  return e.explainLocked request summary

/-! ### Provenance -/

theorem explainLocked_provenance (e : Engine) (request : SummaryRequest) (summary : PathSummary) :
    (e.explainLocked request summary).provenance =
      ((request.included e.records).take provenanceLimit).map e.provenanceEntry := by
  have hlisted := @Lib.listUpTo_listed _ _ provenanceLimit (fun record => request.classify record = .included)
    e.provenanceEntry e.records [] (Nat.zero_le _)
  exact hlisted

theorem explainLocked_truncated_iff (e : Engine) (request : SummaryRequest) (summary : PathSummary) :
    (e.explainLocked request summary).provenanceTruncated = true ↔
      provenanceLimit < (request.included e.records).length ∨
        (provenanceLimit = (request.included e.records).length ∧
          Lib.EndsUnkept (fun record => request.classify record = .included) e.records) := by
  have hflag := @Lib.listUpTo_flag_iff _ _ provenanceLimit (fun record => request.classify record = .included)
    e.provenanceEntry e.records [] (Nat.zero_le _)
  exact hflag

/-- Every explanation lists the first `provenanceLimit` of what the summary counts, and whether it says that more
was counted is right exactly if it is not full with the last record left out of the summary. -/
theorem explain_complete_iff (e : Engine) (request : SummaryRequest) (summary : PathSummary)
    (h : e.summarize request = .ok summary) :
    ∃ explanation, e.explain request = .ok explanation ∧
      ((explanation.provenance = ((request.included e.records).take (min provenanceLimit summary.exchangesIncluded)).map
            e.provenanceEntry ∧
          (explanation.provenanceTruncated = true ↔ provenanceLimit < summary.exchangesIncluded)) ↔
        ¬((request.included e.records).length = provenanceLimit ∧
          ∃ last, e.records.getLast? = some last ∧ request.classify last ≠ .included)) := by
  have hcount : summary.exchangesIncluded = (request.included e.records).length := (summarize_records h).2.1
  have hexplain : e.explain request = .ok (e.explainLocked request summary) := by
    unfold explain
    rw [h]
    rfl
  have hends : Lib.EndsUnkept (fun record => request.classify record = .included) e.records ↔
      ∃ last, e.records.getLast? = some last ∧ request.classify last ≠ .included := by
    simp [Lib.EndsUnkept]
  have hlisted : (e.explainLocked request summary).provenance =
      ((request.included e.records).take (min provenanceLimit (request.included e.records).length)).map
        e.provenanceEntry := by
    rw [explainLocked_provenance, List.take_eq_take_min]
  refine ⟨_, hexplain, ?_⟩
  rw [explainLocked_truncated_iff, hends, hcount]
  constructor
  · rintro ⟨-, htruncated⟩ ⟨hfull, hlast⟩
    have hmore := htruncated.mp (Or.inr ⟨hfull.symm, hlast⟩)
    omega
  · intro hcondition
    refine ⟨hlisted, ?_⟩
    constructor
    · rintro (hmore | ⟨hfull, hlast⟩)
      · exact hmore
      · exact absurd ⟨hfull.symm, hlast⟩ hcondition
    · intro hmore
      exact Or.inl hmore

end Engine

/-- The sample deployment with so many exchanges, and a later one that the sample summary leaves out. -/
def fullSystem (exchanges : Nat) : System :=
  (sampleDefinitions ++
    [(0, Call.ingest
        { records := (List.range exchanges).map fun i => sampleRecord 1 (UInt64.ofNat (i + 1))
          receivedAt := ⟨2000000, referenceClockDomain⟩ }),
      (0, Call.ingest
        { records := [sampleRecord 1 (UInt64.ofNat (exchanges + 1))]
          receivedAt := ⟨3000000, referenceClockDomain⟩ })]).foldl System.step (storeless false)

theorem ok_of_isOk {ε α : Type} {x : Except ε α} (h : x.isOk = true) : ∃ a, x = .ok a := by
  cases x with
  | error e => cases h
  | ok a => exact ⟨a, rfl⟩

theorem two_exchanges_explained :
    ∃ explanation, (fullSystem 2).engine.explain sampleSummary = .ok explanation ∧
      explanation.provenanceTruncated = false := by
  obtain ⟨summary, hsummary⟩ := ok_of_isOk (by decide +kernel :
    ((fullSystem 2).engine.summarize sampleSummary).isOk = true)
  obtain ⟨explanation, hexplain, hcomplete⟩ := (fullSystem 2).engine.explain_complete_iff sampleSummary summary hsummary
  have hfew : (sampleSummary.included (fullSystem 2).engine.records).length = 2 := by decide +kernel
  obtain ⟨-, htruncated⟩ := hcomplete.mpr (fun h => absurd (hfew.symm.trans h.1) (by decide))
  refine ⟨explanation, hexplain, ?_⟩
  rw [Bool.eq_false_iff]
  intro h
  have hmore := htruncated.mp h
  rw [(summarize_records hsummary).2.1, hfew] at hmore
  exact absurd hmore (by decide)

/-- All 64 exchanges of the window are listed, and the later record makes the explanation say that some are not. -/
theorem full_listing_truncated :
    create { readonly := false } 0 ⟨.missing, none, []⟩ = .ok (storeless false) ∧
      ∃ summary explanation, (fullSystem 64).engine.summarize sampleSummary = .ok summary ∧
        (fullSystem 64).engine.explain sampleSummary = .ok explanation ∧ summary.exchangesIncluded = 64 ∧
        explanation.provenanceTruncated = true := by
  obtain ⟨summary, hsummary⟩ := ok_of_isOk (by decide +kernel :
    ((fullSystem 64).engine.summarize sampleSummary).isOk = true)
  have hfull : (sampleSummary.included (fullSystem 64).engine.records).length = 64 := by decide +kernel
  have hlast : (fullSystem 64).engine.records.getLast?.map sampleSummary.classify = some .outOfWindow := by decide +kernel
  refine ⟨storeless_created false, summary, (fullSystem 64).engine.explainLocked sampleSummary summary, hsummary, ?_,
    (summarize_records hsummary).2.1.trans hfull, ?_⟩
  · unfold Engine.explain
    rw [hsummary]
    rfl
  · rw [Engine.explainLocked_truncated_iff]
    refine Or.inr ⟨hfull.symm, ?_⟩
    obtain ⟨last, hrecord, hclass⟩ := Option.map_eq_some_iff.mp hlast
    exact ⟨last, hrecord, by simp [hclass]⟩

end LatencyObservatory.Runtime
