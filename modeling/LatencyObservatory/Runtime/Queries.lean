import LatencyObservatory.Attribution.Attribute
import LatencyObservatory.Ingest.Replay
import LatencyObservatory.Runtime.History
import LatencyObservatory.Stats.Loop

/-!
# The query paths agree on what counts

The inclusion filter exists three times: as `classify_record`, inlined in `attribute`, and behind the
bucket arithmetic of `history`. The inlined copy is the classifier without a source restriction, and the
bucket of a record in the window always exists, so each path counts the records of a class.
-/

namespace LatencyObservatory.Runtime

open LatencyObservatory.Core LatencyObservatory.Model LatencyObservatory.Stats LatencyObservatory.Attribution

/-! ### Attribution -/

theorem includes_iff_classify (request : AttributionRequest) (record : MeasurementRecord) :
    (record.path = request.path ∧ request.includes record = true) ↔
      classifyRecord record request.path request.generation request.mode request.window .none = .included := by
  have hnone : (StrongId.none : SourceId).valid = false := rfl
  unfold AttributionRequest.includes classifyRecord
  simp only [hnone, Bool.false_eq_true, false_and, if_false]
  by_cases hpath : record.path = request.path
  · by_cases hgeneration : record.generation = request.generation
    · by_cases hdomain : record.stamp.receivedAt.domain = request.window.start.domain
      · cases hwindow : request.window.contains record.stamp.receivedAt with
        | false => simp [hpath, hgeneration, hdomain]
        | true =>
          -- The record is in the window: what remains is its evidence.
          cases hstate : record.evidence.state <;> cases hmode : request.mode <;>
            cases husable : record.evidence.usable <;> simp [hpath, hgeneration, hdomain]
      · simp [hpath, hgeneration, hdomain]
    · simp [hpath, hgeneration]
  · simp [hpath]

theorem AttributionLoop.contribute_counts (clocks : ClockRegistry) (s : AttributionLoop) (record : MeasurementRecord) :
    (s.contribute clocks record).included = s.included + 1 ∧
      (s.contribute clocks record).complete + (s.contribute clocks record).incomplete =
        s.complete + s.incomplete + 1 := by
  unfold AttributionLoop.contribute
  simp only
  split_ifs
  · exact ⟨rfl, rfl⟩
  · unfold AttributionLoop.settle
    split
    · exact ⟨rfl, rfl⟩
    · refine ⟨rfl, ?_⟩
      simp only
      omega

theorem AttributionLoop.step_counts (clocks : ClockRegistry) (request : AttributionRequest) (s : AttributionLoop)
    (record : MeasurementRecord) :
    (s.step clocks request record).included =
        s.included + (if record.path = request.path ∧ request.includes record = true then 1 else 0) ∧
      (s.complete + s.incomplete = s.included →
        (s.step clocks request record).complete + (s.step clocks request record).incomplete =
          (s.step clocks request record).included) := by
  unfold AttributionLoop.step
  by_cases hpath : record.path = request.path
  · rw [if_neg (not_not.mpr hpath)]
    simp only [hpath, true_and]
    split_ifs
    · obtain ⟨hincluded, hsplit⟩ := AttributionLoop.contribute_counts clocks
        { s with considered := s.considered + 1 } record
      refine ⟨hincluded, ?_⟩
      intro hbefore
      rw [hincluded, hsplit]
      exact congrArg (· + 1) hbefore
    · exact ⟨rfl, id⟩
  · rw [if_pos hpath]
    simp [hpath]

theorem decompose_counts {catalog : Catalog} {request : AttributionRequest} {policy : RuntimePolicy}
    {s : AttributionLoop} {result : AttributionResult} (h : decompose catalog request policy s = .ok result) :
    result.exchangesIncluded = s.included ∧ result.exchangesComplete = s.complete ∧
      result.exchangesIncomplete = s.incomplete := by
  unfold decompose at h
  obtain ⟨endToEnd, -, h⟩ := bind_eq_ok_iff.mp h
  obtain ⟨residual, -, h⟩ := bind_eq_ok_iff.mp h
  obtain ⟨hops, -, h⟩ := bind_eq_ok_iff.mp h
  simp only [pure, Except.pure, Except.ok.injEq] at h
  rw [← h]
  exact ⟨rfl, rfl, rfl⟩

theorem compareBaseline_counts {records : List MeasurementRecord} {catalog : Catalog}
    {baselines : Baselines.BaselineStore} {request : AttributionRequest} {policy : RuntimePolicy}
    {before result : AttributionResult}
    (h : compareBaseline records catalog baselines request policy before = .ok result) :
    result.exchangesIncluded = before.exchangesIncluded ∧ result.exchangesComplete = before.exchangesComplete ∧
      result.exchangesIncomplete = before.exchangesIncomplete := by
  unfold compareBaseline at h
  split_ifs at h
  · cases h
    exact ⟨rfl, rfl, rfl⟩
  · split at h
    · cases h
      exact ⟨rfl, rfl, rfl⟩
    · obtain ⟨summary, -, h⟩ := bind_eq_ok_iff.mp h
      simp only [pure, Except.pure, Except.ok.injEq] at h
      rw [← h]
      exact ⟨rfl, rfl, rfl⟩

theorem attributeExchanges_counts {records : List MeasurementRecord} {catalog : Catalog} {clocks : ClockRegistry}
    {baselines : Baselines.BaselineStore} {request : AttributionRequest} {policy : RuntimePolicy}
    {result : AttributionResult}
    (h : attributeExchanges records catalog clocks baselines request policy = .ok result) :
    result.exchangesIncluded = records.countP (fun record =>
        classifyRecord record request.path request.generation request.mode request.window .none = .included) ∧
      result.exchangesComplete + result.exchangesIncomplete = result.exchangesIncluded := by
  unfold attributeExchanges at h
  obtain ⟨-, h⟩ := guard_eq_ok_iff.mp h
  obtain ⟨-, h⟩ := guard_eq_ok_iff.mp h
  obtain ⟨path, -, h⟩ := bind_eq_ok_iff.mp h
  obtain ⟨decomposed, hdecomposed, h⟩ := bind_eq_ok_iff.mp h
  obtain ⟨hincluded, hcomplete, hincomplete⟩ := compareBaseline_counts h
  obtain ⟨hincluded', hcomplete', hincomplete'⟩ := decompose_counts hdecomposed
  rw [hincluded, hcomplete, hincomplete, hincluded', hcomplete', hincomplete']
  constructor
  · have hcount := @Lib.foldl_counter _ _ (AttributionLoop.step clocks request) AttributionLoop.included
      (fun record => record.path = request.path ∧ request.includes record = true)
      (fun s record => by simpa using (AttributionLoop.step_counts clocks request s record).1)
      { hops := path.hops.map fun hop => { hop } } records
    rw [hcount, Nat.zero_add]
    refine List.countP_congr ?_
    intro record _
    simpa using includes_iff_classify request record
  · exact @Lib.foldl_inv _ _ (AttributionLoop.step clocks request)
      (fun s => s.complete + s.incomplete = s.included)
      (fun s record => (AttributionLoop.step_counts clocks request s record).2) _ rfl records

/-! ### History -/

theorem bucketCount_ok {request : HistoryRequest} {limits : Limits} {count : Nat}
    (hwidth : 0 < request.bucketNs.toInt) (hwindow : request.window.start.ns.toInt < request.window.stop.ns.toInt)
    (h : bucketCount request limits = .ok count) :
    request.window.stop.ns.toInt - request.window.start.ns.toInt < 2 ^ 63 ∧
      count = (request.window.stop.ns.toInt - request.window.start.ns.toInt + (request.bucketNs.toInt - 1)).toNat /
        request.bucketNs.toInt.toNat := by
  unfold bucketCount at h
  split at h
  · cases h
  · rename_i span hspan
    have hspanInt := checkedSubI64_toInt hspan
    split at h
    · cases h
    · rename_i rounded hrounded
      simp only at h
      split_ifs at h
      cases h
      have hbound := request.bucketNs.toInt_lt
      have hprevious : (request.bucketNs - 1).toInt = request.bucketNs.toInt - 1 := by
        rw [Int64.toInt_sub, Int64.toInt_one, Int.bmod_def]
        omega
      have hroundedInt := checkedAddI64_toInt hrounded
      rw [hspanInt, hprevious] at hroundedInt
      have hspanBound := span.toInt_lt
      have hroundedBound := rounded.toInt_lt
      have hnonneg : 0 ≤ rounded.toInt := by omega
      -- Neither operand is negative, so the signed division is the exact one.
      have hdiv : (rounded / request.bucketNs).toInt = rounded.toInt / request.bucketNs.toInt := by
        rw [Int64.toInt_div_of_ne_left, Int.tdiv_eq_ediv_of_nonneg hnonneg]
        intro hmin
        rw [hmin, Int64.toInt_minValue] at hnonneg
        omega
      refine ⟨by omega, ?_⟩
      have hquotient : 0 ≤ (rounded / request.bucketNs).toInt := by
        rw [hdiv]
        exact Int.ediv_nonneg hnonneg (by omega)
      rw [toNat_toUInt64_of_nonneg hquotient, hdiv, ← hroundedInt]
      obtain ⟨n, hn⟩ := Int.eq_ofNat_of_zero_le hnonneg
      obtain ⟨m, hm⟩ := Int.eq_ofNat_of_zero_le (Int.le_of_lt hwidth)
      rw [hn, hm, ← Int.natCast_ediv, Int.toNat_natCast, Int.toNat_natCast, Int.toNat_natCast]

theorem bucketIndex_lt {request : HistoryRequest} {limits : Limits} {count : Nat} {record : MeasurementRecord}
    (hwidth : 0 < request.bucketNs.toInt) (hcount : bucketCount request limits = .ok count)
    (hin : request.window.contains record.stamp.receivedAt = true) : bucketIndex request record < count := by
  simp only [TimeWindow.contains, Bool.and_eq_true, beq_iff_eq, decide_eq_true_eq, ge_iff_le,
    Int64.le_iff_toInt_le, Int64.lt_iff_toInt_lt] at hin
  obtain ⟨⟨-, hstart⟩, hstop⟩ := hin
  obtain ⟨hspan, hcountEq⟩ := bucketCount_ok hwidth (by omega) hcount
  have hoffset : (record.stamp.receivedAt.ns - request.window.start.ns).toInt =
      record.stamp.receivedAt.ns.toInt - request.window.start.ns.toInt := by
    rw [Int64.toInt_sub, Int.bmod_def]
    omega
  unfold bucketIndex
  rw [UInt64.toNat_div, toNat_toUInt64_of_nonneg (by omega), toNat_toUInt64_of_nonneg (by omega), hoffset, hcountEq]
  -- The last offset lies in the last bucket: rounding up leaves room for it.
  have hlast : (record.stamp.receivedAt.ns.toInt - request.window.start.ns.toInt).toNat +
      request.bucketNs.toInt.toNat ≤
        (request.window.stop.ns.toInt - request.window.start.ns.toInt + (request.bucketNs.toInt - 1)).toNat := by
    omega
  calc (record.stamp.receivedAt.ns.toInt - request.window.start.ns.toInt).toNat / request.bucketNs.toInt.toNat
      < (record.stamp.receivedAt.ns.toInt - request.window.start.ns.toInt).toNat / request.bucketNs.toInt.toNat + 1 :=
        Nat.lt_succ_self _
    _ = ((record.stamp.receivedAt.ns.toInt - request.window.start.ns.toInt).toNat +
          request.bucketNs.toInt.toNat) / request.bucketNs.toInt.toNat := by
        rw [Nat.add_div_right _ (by omega)]
    _ ≤ _ := Nat.div_le_div_right hlast

/-- What a bucket counts for one of the four classes it keeps apart. -/
def bucketCounter : RecordClass → HistoryBucket → Nat
  | .stale => HistoryBucket.excludedStale
  | .conflicting => HistoryBucket.excludedConflicting
  | .unsupported => HistoryBucket.excludedUnsupported
  | _ => HistoryBucket.exchangesIncluded

/-- The classes a bucket counts. -/
def Bucketed (found : RecordClass) : Prop :=
  found = .included ∨ found = .conflicting ∨ found = .unsupported ∨ found = .stale

/-- The total of one counter over all buckets. -/
def HistoryLoop.total (found : RecordClass) (s : HistoryLoop) : Nat :=
  (s.buckets.map fun a => bucketCounter found a.bucket).sum

theorem BucketAccumulator.count_counter {found other : RecordClass} (hfound : Bucketed found)
    (hother : Bucketed other) (a : BucketAccumulator) (record : MeasurementRecord) :
    bucketCounter found (a.count record other).bucket =
      bucketCounter found a.bucket + if other = found then 1 else 0 := by
  rcases hfound with rfl | rfl | rfl | rfl <;> rcases hother with rfl | rfl | rfl | rfl <;> rfl

theorem contains_of_bucketed {request : HistoryRequest} {record : MeasurementRecord}
    (h : Bucketed (request.classify record)) : request.window.contains record.stamp.receivedAt = true := by
  unfold HistoryRequest.classify classifyRecord at h
  split_ifs at h <;> simp_all [Bucketed]

theorem HistoryLoop.step_total {request : HistoryRequest} {limits : Limits} {count : Nat}
    (hwidth : 0 < request.bucketNs.toInt) (hcount : bucketCount request limits = .ok count) {found : RecordClass}
    (hfound : Bucketed found) {s : HistoryLoop} (hlength : s.buckets.length = count) (record : MeasurementRecord) :
    (s.step request record).buckets.length = count ∧
      (s.step request record).total found = s.total found + if request.classify record = found then 1 else 0 := by
  unfold HistoryLoop.step
  simp only
  by_cases hbucketed : Bucketed (request.classify record)
  · have hkeep : ¬ (request.classify record ≠ .included ∧ request.classify record ≠ .conflicting ∧
        request.classify record ≠ .unsupported ∧ request.classify record ≠ .stale) := by
      rintro ⟨h₁, h₂, h₃, h₄⟩
      rcases hbucketed with h | h | h | h <;> contradiction
    have hindex := bucketIndex_lt hwidth hcount (contains_of_bucketed hbucketed)
    rw [if_neg hkeep, if_neg (by omega)]
    have htotal := @Lib.sum_modify _ (fun a : BucketAccumulator => bucketCounter found a.bucket)
      (fun a => a.count record (request.classify record)) _
      (fun a => BucketAccumulator.count_counter hfound hbucketed a record) s.buckets
      (bucketIndex request record) (by omega)
    split_ifs at htotal ⊢ <;> exact ⟨by simpa using hlength, htotal⟩
  · have hskip : request.classify record ≠ .included ∧ request.classify record ≠ .conflicting ∧
        request.classify record ≠ .unsupported ∧ request.classify record ≠ .stale := by
      simpa only [Bucketed, not_or] using hbucketed
    rw [if_pos hskip]
    refine ⟨hlength, ?_⟩
    rw [if_neg]
    · rfl
    · rintro rfl
      exact hbucketed hfound

theorem concludeBuckets_counter {request : HistoryRequest} {limits : Limits} {accumulators : List BucketAccumulator}
    {buckets : List HistoryBucket} (h : concludeBuckets request limits accumulators = .ok buckets)
    (found : RecordClass) :
    buckets.map (bucketCounter found) = accumulators.map fun a => bucketCounter found a.bucket := by
  induction accumulators generalizing buckets with
  | nil =>
    cases h
    rfl
  | cons a rest ih =>
    rw [concludeBuckets] at h
    obtain ⟨bucket, hbucket, h⟩ := bind_eq_ok_iff.mp h
    obtain ⟨others, hothers, h⟩ := bind_eq_ok_iff.mp h
    simp only [pure, Except.pure, Except.ok.injEq] at h
    rw [← h, List.map_cons, List.map_cons, ih hothers]
    congr 1
    unfold concludeBucket at hbucket
    obtain ⟨endToEnd, -, hbucket⟩ := bind_eq_ok_iff.mp hbucket
    simp only [pure, Except.pure, Except.ok.injEq] at hbucket
    rw [← hbucket]
    cases found <;> rfl

theorem history_total {records : List MeasurementRecord} {catalog : Catalog} {policy : RuntimePolicy}
    {request : HistoryRequest} {result : HistoryResult} (h : history records catalog policy request = .ok result)
    {found : RecordClass} (hfound : Bucketed found) :
    (result.buckets.map (bucketCounter found)).sum =
      records.countP fun record => request.classify record = found := by
  unfold history at h
  obtain ⟨-, h⟩ := guard_eq_ok_iff.mp h
  obtain ⟨hwidth, h⟩ := guard_eq_ok_iff.mp h
  obtain ⟨-, h⟩ := guard_eq_ok_iff.mp h
  obtain ⟨path, -, h⟩ := bind_eq_ok_iff.mp h
  obtain ⟨count, hcount, h⟩ := bind_eq_ok_iff.mp h
  have hpositive : 0 < request.bucketNs.toInt := by
    rw [Int64.le_iff_toInt_le, Int64.toInt_zero] at hwidth
    omega
  unfold concludeHistory at h
  obtain ⟨buckets, hbuckets, h⟩ := bind_eq_ok_iff.mp h
  simp only [pure, Except.pure, Except.ok.injEq] at h
  have hresult : result.buckets = buckets := by rw [← h]
  rw [hresult, concludeBuckets_counter hbuckets]
  -- Induction over the records: the number of buckets never changes.
  have hloop : ∀ (records : List MeasurementRecord) (s : HistoryLoop), s.buckets.length = count →
      (records.foldl (HistoryLoop.step request) s).total found =
        s.total found + records.countP fun record => request.classify record = found := by
    intro records
    induction records with
    | nil =>
      intro s _
      rfl
    | cons record rest ih =>
      intro s hlength
      obtain ⟨hlength', htotal⟩ := HistoryLoop.step_total hpositive hcount hfound hlength record
      rw [List.foldl_cons, ih _ hlength', htotal, List.countP_cons]
      simp only [decide_eq_true_eq]
      omega
  have hstart : HistoryLoop.total found { buckets := (List.range count).map (startBucket request) } = 0 := by
    unfold HistoryLoop.total
    rw [List.sum_eq_zero]
    intro n hn
    simp only [List.map_map, List.mem_map, Function.comp_apply] at hn
    obtain ⟨index, -, rfl⟩ := hn
    rcases hfound with rfl | rfl | rfl | rfl <;> rfl
  have hall := hloop records { buckets := (List.range count).map (startBucket request) } (by simp)
  rw [hstart, Nat.zero_add] at hall
  exact hall

/-! ### Agreement -/

/-- The attribution and the summary ask about the same records. -/
structure SameExchanges (a : AttributionRequest) (s : SummaryRequest) : Prop where
  path : a.path = s.path
  generation : a.generation = s.generation
  mode : a.mode = s.mode
  window : a.window = s.window
  unrestricted : s.restrictToSource = .none

/-- The history and the summary ask about the same records. -/
structure SameRecords (r : HistoryRequest) (s : SummaryRequest) : Prop where
  path : r.path = s.path
  generation : r.generation = s.generation
  mode : r.mode = s.mode
  window : r.window = s.window
  source : r.restrictToSource = s.restrictToSource

/-- **The three query paths agree.** `attribute` includes exactly what the classifier includes without a
source restriction, as many exchanges as `summarize` does, each of them complete or incomplete; and the
buckets of `history` add up to the counters of `summarize`. -/
theorem query_paths_agree (records : List MeasurementRecord) (catalog : Catalog) (clocks : ClockRegistry)
    (baselines : Baselines.BaselineStore) (policy : RuntimePolicy) :
    (∀ (a : AttributionRequest) (record : MeasurementRecord),
      (record.path = a.path ∧ a.includes record = true) ↔
        classifyRecord record a.path a.generation a.mode a.window .none = .included) ∧
    (∀ a result, attributeExchanges records catalog clocks baselines a policy = .ok result →
      result.exchangesComplete + result.exchangesIncomplete = result.exchangesIncluded ∧
      ∀ s summary, SameExchanges a s → summarize records catalog s policy = .ok summary →
        result.exchangesIncluded = summary.exchangesIncluded) ∧
    (∀ r result s summary, SameRecords r s → history records catalog policy r = .ok result →
      summarize records catalog s policy = .ok summary →
        (result.buckets.map HistoryBucket.exchangesIncluded).sum = summary.exchangesIncluded ∧
        (result.buckets.map HistoryBucket.excludedStale).sum = summary.excludedStale ∧
        (result.buckets.map HistoryBucket.excludedConflicting).sum = summary.excludedConflicting ∧
        (result.buckets.map HistoryBucket.excludedUnsupported).sum = summary.excludedUnsupported) := by
  refine ⟨includes_iff_classify, ?_, ?_⟩
  · intro a result hresult
    obtain ⟨hincluded, hsplit⟩ := attributeExchanges_counts hresult
    refine ⟨hsplit, ?_⟩
    intro s summary hsame hsummary
    obtain ⟨hcounter, -, -, -⟩ := summarize_counters hsummary
    rw [hincluded, hsame.path, hsame.generation, hsame.mode, hsame.window, ← hsame.unrestricted]
    exact hcounter.symm
  · intro r result s summary hsame hresult hsummary
    have hclassify : ∀ record, r.classify record = s.classify record := by
      intro record
      unfold HistoryRequest.classify SummaryRequest.classify
      rw [hsame.path, hsame.generation, hsame.mode, hsame.window, hsame.source]
    have htotal : ∀ found, Bucketed found →
        (result.buckets.map (bucketCounter found)).sum = s.classCount found records := by
      intro found hfound
      rw [history_total hresult hfound]
      simp only [hclassify]
      rfl
    obtain ⟨hincluded, hstale, hconflicting, hunsupported⟩ := summarize_counters hsummary
    rw [hincluded, hstale, hconflicting, hunsupported]
    exact ⟨htotal .included (Or.inl rfl), htotal .stale (Or.inr (Or.inr (Or.inr rfl))),
      htotal .conflicting (Or.inr (Or.inl rfl)), htotal .unsupported (Or.inr (Or.inr (Or.inl rfl)))⟩

/-! ### One stored exchange -/

/-- The sample exchange as the gate stores it. -/
def sampleStored : MeasurementRecord :=
  (Ingest.sampleSubmission 1 (Ingest.sampleRecord 1 7)).stored defaultPolicy ∅

def sampleWindow : TimeWindow := ⟨⟨0, referenceClockDomain⟩, ⟨3000000, referenceClockDomain⟩⟩

def sampleSummary : SummaryRequest :=
  { path := sampleStored.path, generation := sampleStored.generation, window := sampleWindow }

def sampleAttribution : AttributionRequest :=
  { path := sampleStored.path, generation := sampleStored.generation, window := sampleWindow }

def sampleHistory : HistoryRequest :=
  { path := sampleStored.path, generation := sampleStored.generation, mode := .current, window := sampleWindow
    bucketNs := 1000000 }

def noBaselines : Baselines.BaselineStore := { limits := {}, policy := defaultPolicy }

/-- All three queries succeed over the stored exchange, and agree. -/
theorem sample_queries_agree :
    ∃ attribution historical summary,
      attributeExchanges [sampleStored] (Ingest.sampleCatalog 1) Ingest.sampleClocks noBaselines sampleAttribution
        defaultPolicy = .ok attribution ∧
      history [sampleStored] (Ingest.sampleCatalog 1) defaultPolicy sampleHistory = .ok historical ∧
      summarize [sampleStored] (Ingest.sampleCatalog 1) sampleSummary defaultPolicy = .ok summary ∧
      attribution.exchangesIncluded = summary.exchangesIncluded ∧
      (historical.buckets.map HistoryBucket.exchangesIncluded).sum = summary.exchangesIncluded := by
  have hok : ∀ {α : Type} {x : Except Error α}, x.toOption.isSome = true → ∃ value, x = .ok value := by
    intro α x h
    cases x with
    | error e => cases h
    | ok value => exact ⟨value, rfl⟩
  obtain ⟨attribution, hattribution⟩ := hok (by decide +kernel : (attributeExchanges [sampleStored]
    (Ingest.sampleCatalog 1) Ingest.sampleClocks noBaselines sampleAttribution defaultPolicy).toOption.isSome = true)
  obtain ⟨historical, hhistorical⟩ := hok (by decide +kernel : (history [sampleStored] (Ingest.sampleCatalog 1)
    defaultPolicy sampleHistory).toOption.isSome = true)
  obtain ⟨summary, hsummary⟩ := hok (by decide +kernel : (summarize [sampleStored] (Ingest.sampleCatalog 1)
    sampleSummary defaultPolicy).toOption.isSome = true)
  obtain ⟨-, hattributed, hbucketed⟩ := query_paths_agree [sampleStored] (Ingest.sampleCatalog 1)
    Ingest.sampleClocks noBaselines defaultPolicy
  exact ⟨attribution, historical, summary, hattribution, hhistorical, hsummary,
    (hattributed _ _ hattribution).2 _ _ ⟨rfl, rfl, rfl, rfl, rfl⟩ hsummary,
    (hbucketed _ _ _ _ ⟨rfl, rfl, rfl, rfl, rfl⟩ hhistorical hsummary).1⟩

end LatencyObservatory.Runtime
