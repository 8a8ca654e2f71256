import LatencyObservatory.Ingest.Representation

/-!
# Sources do not interfere

All sources share one gate, one batch loop and one map of fences, but a submission reads and writes the
fence state of its own source only. A run therefore falls apart into one run per source, and neither the
interleaving of the sources nor the split into batches changes what a record of a source meets.
-/

namespace LatencyObservatory.Ingest

open LatencyObservatory.Core LatencyObservatory.Model

/-- What admission says about one record: its sample verdict and its hops with the derived dwells. -/
structure Outcome where
  verdict : SampleVerdict
  hops : List HopObservation

namespace Submission

variable (policy : RuntimePolicy)

def outcome (fences : Fences) (x : Submission) : Outcome where
  verdict := ⟨(x.classified policy fences).record.id, (x.classified policy fences).ruling.verdict,
    (x.classified policy fences).ruling.evidence⟩
  hops := (x.classified policy fences).record.hops

/-- The submission without the monotonic receive time, which nothing at admission reads. -/
def timeless (x : Submission) : Submission :=
  { x with record := { x.record with stamp := { x.record.stamp with receivedMono := default } } }

end Submission

/-- The fences of a gate that has seen one source only. -/
def aloneFences (source : SourceId) (fence : Option SourceFenceState) : Fences :=
  match fence with
  | none => ∅
  | some fence => (∅ : Fences).insert source fence

@[simp] theorem aloneFences_self (source : SourceId) (fence : Option SourceFenceState) :
    (aloneFences source fence)[source]? = fence := by
  cases fence with
  | none => simp [aloneFences]
  | some fence => simp [aloneFences]

theorem classify_congr (gate : IngestGate) (record : MeasurementRecord) (now : Timestamp) {fences : Fences}
    (hfence : fences[record.source]? = gate.fences[record.source]?) :
    ({ gate with fences := fences }.classify record now).record = (gate.classify record now).record ∧
      ({ gate with fences := fences }.classify record now).ruling = (gate.classify record now).ruling ∧
      ({ gate with fences := fences }.classify record now).fences[record.source]? =
        (gate.classify record now).fences[record.source]? := by
  have hof : { gate with fences := fences }.fenceOf record.source = gate.fenceOf record.source := by
    unfold IngestGate.fenceOf
    rw [hfence]
  have happly : ∀ path source evidence,
      { gate with fences := fences }.applyFences path source record evidence =
        gate.applyFences path source record evidence := by
    intro path source evidence
    unfold IngestGate.applyFences
    rw [hof]
    rfl
  unfold IngestGate.classify
  simp only
  split
  · exact ⟨rfl, rfl, hfence⟩
  · exact ⟨rfl, rfl, hfence⟩
  · exact ⟨rfl, rfl, hfence⟩
  · rename_i path source generation _ _ _
    have hdated : { gate with fences := fences }.dated path record now = gate.dated path record now := rfl
    have henrich : ∀ evidence, { gate with fences := fences }.enrich record evidence =
        gate.enrich record evidence := fun _ => rfl
    have hdraft : { gate with fences := fences }.draft path record = gate.draft path record := rfl
    simp only [hdated, henrich, hdraft, happly]
    split_ifs
    · exact ⟨rfl, rfl, hfence⟩
    · refine ⟨rfl, rfl, ?_⟩
      rw [Std.ExtTreeMap.getElem?_insert_self, Std.ExtTreeMap.getElem?_insert_self]

theorem deriveDwells_timeless (catalog : Catalog) (clocks : ClockRegistry) (x : Submission)
    (hops : List HopObservation) :
    deriveDwells catalog clocks x.timeless.record hops = deriveDwells catalog clocks x.record hops := by
  induction hops with
  | nil => rfl
  | cons hop rest ih =>
    have hhop : deriveHop catalog clocks x.timeless.record hop = deriveHop catalog clocks x.record hop := rfl
    rw [deriveDwells, deriveDwells, hhop, ih]

theorem classified_timeless (policy : RuntimePolicy) (fences : Fences) (x : Submission) :
    x.timeless.outcome policy fences = x.outcome policy fences ∧
      x.timeless.submit policy fences = x.submit policy fences := by
  unfold Submission.outcome Submission.submit Submission.classified IngestGate.classify
  have hpath : x.timeless.record.path = x.record.path := rfl
  have hsource : x.timeless.record.source = x.record.source := rfl
  have hgeneration : x.timeless.record.generation = x.record.generation := rfl
  have hgate : x.timeless.gate policy fences = x.gate policy fences := rfl
  rw [hgate, hpath, hsource, hgeneration]
  split
  · exact ⟨rfl, rfl⟩
  · exact ⟨rfl, rfl⟩
  · exact ⟨rfl, rfl⟩
  · rename_i path source generation _ _ _
    have hdated : (x.gate policy fences).dated path x.timeless.record x.timeless.now =
        (x.gate policy fences).dated path x.record x.now := rfl
    have hdraft : (x.gate policy fences).draft path x.timeless.record =
        (x.gate policy fences).draft path x.record := rfl
    have hfences : ∀ evidence, (x.gate policy fences).applyFences path source x.timeless.record evidence =
        (x.gate policy fences).applyFences path source x.record evidence := fun _ => rfl
    have hid : x.timeless.record.id = x.record.id := rfl
    have hhops : x.timeless.record.hops = x.record.hops := rfl
    simp only [hdated, hdraft, hfences, IngestGate.enrich, hhops, deriveDwells_timeless, hid]
    split_ifs <;> exact ⟨rfl, rfl⟩

/-- The fence state of a source after a submission of it, had the gate seen no other source. -/
def submitAlone (policy : RuntimePolicy) (fence : Option SourceFenceState) (x : Submission) :
    Option SourceFenceState :=
  (x.submit policy (aloneFences x.record.source fence))[x.record.source]?

theorem submit_component (policy : RuntimePolicy) (fences : Fences) (x : Submission) (source : SourceId) :
    (x.submit policy fences)[source]? =
      if x.record.source = source then submitAlone policy (fences[source]?) x.timeless else fences[source]? := by
  split_ifs with hsource
  · subst hsource
    have hkey : x.timeless.record.source = x.record.source := rfl
    rw [submitAlone, (classified_timeless policy _ x).2, hkey]
    exact (classify_congr (x.gate policy fences) x.record x.now (aloneFences_self _ _)).2.2.symm
  · exact submit_other_source hsource

theorem outcome_component (policy : RuntimePolicy) (fences : Fences) (x : Submission) :
    x.outcome policy fences =
      x.timeless.outcome policy (aloneFences x.record.source (fences[x.record.source]?)) := by
  rw [(classified_timeless policy _ x).1]
  obtain ⟨hrecord, hruling, -⟩ :=
    classify_congr (x.gate policy fences) x.record x.now (aloneFences_self x.record.source _)
  unfold Submission.outcome Submission.classified
  rw [← hrecord, ← hruling]
  rfl

/-! ### Two runs -/

section TwoRuns

variable (policy : RuntimePolicy) (catalog : Catalog) (clocks : ClockRegistry)

/-- The calls of `admit` with fixed registries. -/
def calls (requests : List IngestRequest) : List Batch :=
  requests.map fun request => ⟨catalog, clocks, request⟩

/-- The records of one source in submission order, each with its receive time. -/
def arrivals (requests : List IngestRequest) (source : SourceId) : List (MeasurementRecord × Timestamp) :=
  (requests.flatMap fun request => request.records.map fun record => (record, request.receivedAt)).filter
    fun arrival => arrival.1.source = source

/-- What the run says about the records of one source, in submission order. -/
def outcomes (requests : List IngestRequest) (source : SourceId) : List Outcome :=
  ((passages policy ∅ (calls catalog clocks requests)).filter fun p => p.2.record.source = source).map
    fun p => p.2.outcome policy p.1

/-- The fences a run from empty ones ends with. -/
def finalFences (requests : List IngestRequest) : Fences :=
  ((calls catalog clocks requests).flatMap (Batch.submissions policy)).foldl (Submission.submit policy) ∅

/-- An arrival as the gate meets it, up to the monotonic receive time. -/
def arrive (arrival : MeasurementRecord × Timestamp) : Submission :=
  ⟨catalog, clocks, IngestGate.stamp { records := [], receivedAt := arrival.2 } arrival.1, arrival.2⟩

variable {policy}

theorem timeless_submissions {request : IngestRequest}
    (h : request.records.length ≤ policy.limits.maxBatchSamples) (source : SourceId) :
    (((⟨catalog, clocks, request⟩ : Batch).submissions policy).filter
        fun x => x.record.source = source).map Submission.timeless =
      (((request.records.map fun record => (record, request.receivedAt)).filter
        fun arrival => arrival.1.source = source).filter fun arrival => arrival.2.valid).map
          (arrive catalog clocks) := by
  unfold Batch.submissions Batch.taken
  cases hvalid : request.receivedAt.valid with
  | false =>
    rw [if_neg (by simp)]
    simp [List.filter_map, Function.comp_def, hvalid]
  | true =>
    rw [if_pos (by simpa using h)]
    simp only [List.filter_map, Function.comp_def, hvalid, List.map_map, List.filter_true]
    rfl

theorem timeless_calls {requests : List IngestRequest}
    (h : ∀ request ∈ requests, request.records.length ≤ policy.limits.maxBatchSamples) (source : SourceId) :
    (((calls catalog clocks requests).flatMap (Batch.submissions policy)).filter
        fun x => x.record.source = source).map Submission.timeless =
      ((arrivals requests source).filter fun arrival => arrival.2.valid).map (arrive catalog clocks) := by
  induction requests with
  | nil => rfl
  | cons request rest ih =>
    have hhead := timeless_submissions catalog clocks (h request List.mem_cons_self) source
    have htail := ih fun other hother => h other (List.mem_cons_of_mem _ hother)
    simp only [calls, arrivals, List.map_cons, List.flatMap_cons, List.filter_append, List.map_append] at htail ⊢
    rw [hhead, htail]

theorem outcomes_eq {requests : List IngestRequest}
    (h : ∀ request ∈ requests, request.records.length ≤ policy.limits.maxBatchSamples) (source : SourceId) :
    outcomes policy catalog clocks requests source =
      (Lib.steps (submitAlone policy) none
        (((arrivals requests source).filter fun arrival => arrival.2.valid).map (arrive catalog clocks))).map
          fun p => p.2.outcome policy (aloneFences source p.1) := by
  have hrun := Lib.steps_component (submit_component policy) ∅
    ((calls catalog clocks requests).flatMap (Batch.submissions policy)) source
  rw [timeless_calls catalog clocks h, Std.ExtTreeMap.getElem?_empty] at hrun
  rw [← hrun, List.map_map]
  refine List.map_congr_left ?_
  intro p hp
  have hsource : p.2.record.source = source := by simpa using (List.mem_filter.mp hp).2
  subst hsource
  exact outcome_component policy p.1 p.2

theorem finalFences_component {requests : List IngestRequest}
    (h : ∀ request ∈ requests, request.records.length ≤ policy.limits.maxBatchSamples) (source : SourceId) :
    (finalFences policy catalog clocks requests)[source]? =
      (((arrivals requests source).filter fun arrival => arrival.2.valid).map (arrive catalog clocks)).foldl
        (submitAlone policy) none := by
  have hrun := Lib.foldl_component (submit_component policy) ∅
    ((calls catalog clocks requests).flatMap (Batch.submissions policy)) source
  rw [timeless_calls catalog clocks h, Std.ExtTreeMap.getElem?_empty] at hrun
  exact hrun

/-- **Sources do not interfere.** Two sequences of batches that bring, for every source, the same records
in the same order and with the same receive times give every record the same verdict, evidence and hops,
and end with the same fences. -/
theorem sources_independent {first second : List IngestRequest}
    (hfirst : ∀ request ∈ first, request.records.length ≤ policy.limits.maxBatchSamples)
    (hsecond : ∀ request ∈ second, request.records.length ≤ policy.limits.maxBatchSamples)
    (hsame : ∀ source, arrivals first source = arrivals second source) :
    (∀ source, outcomes policy catalog clocks first source = outcomes policy catalog clocks second source) ∧
      finalFences policy catalog clocks first = finalFences policy catalog clocks second := by
  constructor
  · intro source
    rw [outcomes_eq catalog clocks hfirst, outcomes_eq catalog clocks hsecond, hsame source]
  · apply Std.ExtTreeMap.ext_getElem?
    intro source
    rw [finalFences_component catalog clocks hfirst, finalFences_component catalog clocks hsecond, hsame source]

end TwoRuns

/-- A second source beside the sample one. -/
def secondSource : SourceDescriptor := { name := ⟨text "probe-2"⟩, revision := .first }

def secondRecord : MeasurementRecord := { sampleRecord 1 1 with source := .deriveFrom secondSource.name.str }

def twoSources : Catalog := ((sampleCatalog 1).defineSource secondSource).2

def sampleRequest (records : List MeasurementRecord) : IngestRequest :=
  { records := records, receivedAt := ⟨2000000, referenceClockDomain⟩ }

/-- Three records of two sources, in one batch and in two batches of another order. -/
theorem sample_sources_independent :
    outcomes defaultPolicy twoSources sampleClocks
        [sampleRequest [sampleRecord 1 1, secondRecord, sampleRecord 1 2]] secondRecord.source =
      outcomes defaultPolicy twoSources sampleClocks
        [sampleRequest [secondRecord], sampleRequest [sampleRecord 1 1, sampleRecord 1 2]] secondRecord.source := by
  refine (sources_independent twoSources sampleClocks ?_ ?_ ?_).1 secondRecord.source
  · simp [sampleRequest, defaultPolicy]
  · simp [sampleRequest, defaultPolicy]
  · intro source
    have hne : secondRecord.source ≠ (sampleRecord 1 1).source := by decide +kernel
    have hsame : (sampleRecord 1 2).source = (sampleRecord 1 1).source := rfl
    simp only [arrivals, sampleRequest, List.flatMap_cons, List.flatMap_nil, List.map_cons, List.map_nil,
      List.append_nil, List.cons_append, List.nil_append, List.filter_cons, hsame]
    by_cases hfirst : (sampleRecord 1 1).source = source
    · have hsecond : secondRecord.source ≠ source := hfirst ▸ hne
      simp [hfirst, hsecond]
    · simp [hfirst]

end LatencyObservatory.Ingest
