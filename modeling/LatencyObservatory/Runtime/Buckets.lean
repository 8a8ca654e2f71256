import Mathlib.Data.Rat.Floor
import LatencyObservatory.Runtime.Queries

/-!
# History buckets tile the window

The buckets of a history cut its window into intervals of one width, the last of them possibly longer than what
is left. A record that reaches its evidence lies in the window, so the index that is computed from its receive
time is the number of its interval, and no record is counted anywhere else.
-/

namespace LatencyObservatory.Runtime

open LatencyObservatory.Core LatencyObservatory.Model LatencyObservatory.Stats

instance (found : RecordClass) : Decidable (Bucketed found) := inferInstanceAs (Decidable (_ ∨ _))

/-- The exchange was received in the `i`-th interval of the window. -/
def InInterval (request : HistoryRequest) (i : Nat) (record : MeasurementRecord) : Prop :=
  request.window.start.ns.toInt + i * request.bucketNs.toInt ≤ record.stamp.receivedAt.ns.toInt ∧
    record.stamp.receivedAt.ns.toInt < request.window.start.ns.toInt + (i + 1) * request.bucketNs.toInt

instance (request : HistoryRequest) (i : Nat) (record : MeasurementRecord) :
    Decidable (InInterval request i record) := inferInstanceAs (Decidable (_ ∧ _))

/-! ### The loop -/

section Loop

variable (request : HistoryRequest)

/-- The records that are counted in one bucket. -/
def HistoryRequest.placed (i : Nat) (records : List MeasurementRecord) : List MeasurementRecord :=
  records.filter fun record => Bucketed (request.classify record) ∧ bucketIndex request record = i

theorem HistoryLoop.step_bucket (s : HistoryLoop) (record : MeasurementRecord) (i : Nat) :
    (s.step request record).buckets[i]? =
      if Bucketed (request.classify record) ∧ bucketIndex request record = i then
        (s.buckets[i]?).map fun a => a.count record (request.classify record)
      else s.buckets[i]? := by
  unfold HistoryLoop.step
  simp only
  by_cases hbucketed : Bucketed (request.classify record)
  · have hkeep : ¬(request.classify record ≠ .included ∧ request.classify record ≠ .conflicting ∧
        request.classify record ≠ .unsupported ∧ request.classify record ≠ .stale) := by
      rintro ⟨h₁, h₂, h₃, h₄⟩
      rcases hbucketed with h | h | h | h <;> contradiction
    rw [if_neg hkeep]
    by_cases hrange : bucketIndex request record ≥ s.buckets.length
    · rw [if_pos hrange]
      -- There is no bucket to count the record in.
      by_cases hplace : bucketIndex request record = i
      · rw [if_pos ⟨hbucketed, hplace⟩, List.getElem?_eq_none (by omega)]
        rfl
      · rw [if_neg fun h => hplace h.2]
    · rw [if_neg hrange]
      have hmodified : (s.buckets.modify (bucketIndex request record)
          fun a => a.count record (request.classify record))[i]? =
            if Bucketed (request.classify record) ∧ bucketIndex request record = i then
              (s.buckets[i]?).map fun a => a.count record (request.classify record)
            else s.buckets[i]? := by
        rw [List.getElem?_modify]
        by_cases hplace : bucketIndex request record = i
        · rw [if_pos ⟨hbucketed, hplace⟩]
          simp [hplace]
        · rw [if_neg fun h => hplace h.2]
          simp [hplace]
      split_ifs at hmodified ⊢ <;> exact hmodified
  · have hskip : request.classify record ≠ .included ∧ request.classify record ≠ .conflicting ∧
        request.classify record ≠ .unsupported ∧ request.classify record ≠ .stale := by
      simpa only [Bucketed, not_or] using hbucketed
    rw [if_pos hskip, if_neg fun h => hbucketed h.1]

theorem HistoryLoop.foldl_bucket (s : HistoryLoop) (records : List MeasurementRecord) (i : Nat) :
    (records.foldl (HistoryLoop.step request) s).buckets[i]? =
      (s.buckets[i]?).map fun a =>
        (request.placed i records).foldl (fun a record => a.count record (request.classify record)) a := by
  induction records generalizing s with
  | nil => simp [HistoryRequest.placed]
  | cons record rest ih =>
    rw [List.foldl_cons, ih, HistoryLoop.step_bucket]
    unfold HistoryRequest.placed
    by_cases hplaced : Bucketed (request.classify record) ∧ bucketIndex request record = i
    · rw [if_pos hplaced, List.filter_cons_of_pos (by simpa using hplaced), Option.map_map]
      rfl
    · rw [if_neg hplaced, List.filter_cons_of_neg (by simpa using hplaced)]

theorem HistoryLoop.foldl_length (s : HistoryLoop) (records : List MeasurementRecord) :
    (records.foldl (HistoryLoop.step request) s).buckets.length = s.buckets.length := by
  apply @Lib.foldl_inv _ _ (HistoryLoop.step request) (fun t => t.buckets.length = s.buckets.length)
  · intro t record ht
    unfold HistoryLoop.step
    simp only
    split_ifs <;> simpa using ht
  · rfl

/-- What a bucket has after some records of the kept classes. -/
structure BucketAccumulator.Counted (before : BucketAccumulator) (records : List MeasurementRecord)
    (a : BucketAccumulator) : Prop where
  start : a.bucket.start = before.bucket.start
  considered : a.bucket.exchangesConsidered = before.bucket.exchangesConsidered + records.length
  counters : ∀ found, Bucketed found → bucketCounter found a.bucket =
    bucketCounter found before.bucket + records.countP fun record => request.classify record = found
  values : a.values = before.values ++
    (records.filter fun record => request.classify record = .included).map MeasurementRecord.rttNs

theorem BucketAccumulator.foldl_count (a : BucketAccumulator) {records : List MeasurementRecord}
    (h : ∀ record ∈ records, Bucketed (request.classify record)) :
    BucketAccumulator.Counted request a records
      (records.foldl (fun a record => a.count record (request.classify record)) a) := by
  induction records generalizing a with
  | nil => exact ⟨rfl, rfl, fun _ _ => rfl, by simp⟩
  | cons record rest ih =>
    obtain ⟨hfirst, hrest⟩ := List.forall_mem_cons.mp h
    have hcounted := ih (a.count record (request.classify record)) hrest
    rw [List.foldl_cons]
    refine ⟨?_, ?_, ?_, ?_⟩
    · rw [hcounted.start]
      rcases hfirst with h | h | h | h <;> rw [h] <;> rfl
    · rw [hcounted.considered, List.length_cons]
      rcases hfirst with h | h | h | h <;> rw [h] <;> simp only [BucketAccumulator.count] <;> omega
    · intro found hfound
      rw [hcounted.counters found hfound, BucketAccumulator.count_counter hfound hfirst, List.countP_cons]
      simp only [decide_eq_true_eq]
      omega
    · rw [hcounted.values, List.filter_cons]
      rcases hfirst with h | h | h | h <;> rw [h] <;> simp [BucketAccumulator.count]

end Loop

/-! ### The intervals -/

theorem bucketIndex_iff_inInterval {request : HistoryRequest} {limits : Limits} {count : Nat}
    (hwidth : 0 < request.bucketNs.toInt) (hcount : bucketCount request limits = .ok count)
    {record : MeasurementRecord} (hin : request.window.contains record.stamp.receivedAt = true) (i : Nat) :
    bucketIndex request record = i ↔ InInterval request i record := by
  simp only [TimeWindow.contains, Bool.and_eq_true, beq_iff_eq, decide_eq_true_eq, ge_iff_le,
    Int64.le_iff_toInt_le, Int64.lt_iff_toInt_lt] at hin
  obtain ⟨⟨-, hstart⟩, hstop⟩ := hin
  obtain ⟨hspan, -⟩ := bucketCount_ok hwidth (by omega) hcount
  have hoffset : (record.stamp.receivedAt.ns - request.window.start.ns).toInt =
      record.stamp.receivedAt.ns.toInt - request.window.start.ns.toInt :=
    toInt_sub_of_representable ⟨by omega, by omega⟩
  unfold bucketIndex InInterval
  rw [UInt64.toNat_div, toNat_toUInt64_of_nonneg (by omega), toNat_toUInt64_of_nonneg (by omega), hoffset,
    Nat.div_eq_iff (by omega)]
  generalize request.bucketNs.toInt = width at *
  obtain ⟨b, rfl⟩ := Int.eq_ofNat_of_zero_le hwidth.le
  obtain ⟨offset, hoff⟩ := Int.eq_ofNat_of_zero_le
    (show 0 ≤ record.stamp.receivedAt.ns.toInt - request.window.start.ns.toInt by omega)
  rw [hoff, Int.toNat_natCast, Int.toNat_natCast]
  have hlow : (i : Int) * b = ((i * b : Nat) : Int) := by push_cast; rfl
  have hhigh : ((i : Int) + 1) * b = ((i * b + b : Nat) : Int) := by push_cast; ring
  rw [hlow, hhigh]
  omega

theorem startBucket_counter (request : HistoryRequest) (i : Nat) (found : RecordClass) :
    bucketCounter found (startBucket request i).bucket = 0 := by
  cases found <;> rfl

theorem startBucket_start {request : HistoryRequest} {limits : Limits} {count : Nat}
    (hwidth : 0 < request.bucketNs.toInt) (hwindow : request.window.start.ns.toInt < request.window.stop.ns.toInt)
    (hcount : bucketCount request limits = .ok count) {i : Nat} (hi : i < count) :
    (startBucket request i).bucket.start.ns.toInt = request.window.start.ns.toInt + i * request.bucketNs.toInt := by
  obtain ⟨hspan, hceil⟩ := bucketCount_ok hwidth hwindow hcount
  have hlow := request.window.start.ns.le_toInt
  have hstop := request.window.stop.ns.toInt_lt
  have hbound := request.bucketNs.toInt_lt
  -- The interval starts before the window ends.
  have hbefore : (i : Int) * request.bucketNs.toInt < request.window.stop.ns.toInt - request.window.start.ns.toInt := by
    rw [hceil, Nat.lt_div_iff_mul_lt (by omega)] at hi
    have hproduct : ((i * request.bucketNs.toInt.toNat : Nat) : Int) = i * request.bucketNs.toInt := by
      rw [Nat.cast_mul, Int.toNat_of_nonneg hwidth.le]
    omega
  have hnonneg : 0 ≤ (i : Int) * request.bucketNs.toInt := mul_nonneg (by omega) hwidth.le
  have hsmall : (i : Int) ≤ i * request.bucketNs.toInt := le_mul_of_one_le_right (by omega) (by omega)
  have hindex : (Int64.ofNat i).toInt = i := Int64.toInt_ofNat_of_lt (by omega)
  have hproduct : (Int64.ofNat i * request.bucketNs).toInt = i * request.bucketNs.toInt := by
    rw [toInt_mul_of_representable (by rw [hindex]; exact ⟨by omega, by omega⟩), hindex]
  unfold startBucket
  simp only
  rw [toInt_add_of_representable (by rw [hproduct]; exact ⟨by omega, by omega⟩), hproduct]

/-! ### The result -/

theorem concludeBuckets_getElem? {request : HistoryRequest} {limits : Limits} {accumulators : List BucketAccumulator}
    {buckets : List HistoryBucket} (h : concludeBuckets request limits accumulators = .ok buckets) :
    buckets.length = accumulators.length ∧ ∀ (i : Nat) (bucket : HistoryBucket), buckets[i]? = some bucket →
      ∃ a, accumulators[i]? = some a ∧ concludeBucket request limits a = .ok bucket := by
  induction accumulators generalizing buckets with
  | nil =>
    cases h
    exact ⟨rfl, by simp⟩
  | cons first rest ih =>
    rw [concludeBuckets] at h
    obtain ⟨bucket, hbucket, h⟩ := bind_eq_ok_iff.mp h
    obtain ⟨others, hothers, h⟩ := bind_eq_ok_iff.mp h
    cases h
    obtain ⟨hlength, hrest⟩ := ih hothers
    refine ⟨by rw [List.length_cons, List.length_cons, hlength], ?_⟩
    intro i found hfound
    cases i with
    | zero =>
      rw [List.getElem?_cons_zero, Option.some.injEq] at hfound
      exact ⟨first, rfl, hfound ▸ hbucket⟩
    | succ i => exact hrest i found hfound

theorem concludeBucket_ok {request : HistoryRequest} {limits : Limits} {a : BucketAccumulator} {bucket : HistoryBucket}
    (h : concludeBucket request limits a = .ok bucket) :
    bucket.start = a.bucket.start ∧ bucket.exchangesConsidered = a.bucket.exchangesConsidered ∧
      (∀ found, bucketCounter found bucket = bucketCounter found a.bucket) ∧
      aggregate a.values request.histogram request.probes limits = .ok bucket.endToEnd := by
  unfold concludeBucket at h
  obtain ⟨endToEnd, hendToEnd, h⟩ := bind_eq_ok_iff.mp h
  cases h
  refine ⟨rfl, rfl, ?_, hendToEnd⟩
  intro found
  cases found <;> rfl

/-- What a bucket of a history says: it starts at its interval of the window and counts the records that were
received in it, by class. -/
structure HistoryBucket.Tiles (request : HistoryRequest) (limits : Limits) (records : List MeasurementRecord) (i : Nat)
    (bucket : HistoryBucket) : Prop where
  start : bucket.start.ns.toInt = request.window.start.ns.toInt + i * request.bucketNs.toInt
  domain : bucket.start.domain = request.window.start.domain
  considered : bucket.exchangesConsidered =
    records.countP fun record => Bucketed (request.classify record) ∧ InInterval request i record
  counters : ∀ found, Bucketed found → bucketCounter found bucket =
    records.countP fun record => request.classify record = found ∧ InInterval request i record
  distribution : aggregate ((records.filter fun record =>
      request.classify record = .included ∧ InInterval request i record).map MeasurementRecord.rttNs)
    request.histogram request.probes limits = .ok bucket.endToEnd

theorem rounded_eq_ceil {span : Int} {width : Nat} (hspan : 0 < span) (hwidth : 0 < width) :
    (((span + (width - 1)).toNat / width : Nat) : Int) = ⌈(span : ℚ) / width⌉ := by
  rw [Rat.ceil_intCast_div_natCast, Int.natCast_ediv, Int.toNat_of_nonneg (by omega),
    Int.ediv_eq_iff_of_pos (by omega)]
  have hdivision := Int.emod_add_mul_ediv (-span) width
  have hnonneg := Int.emod_nonneg (-span) (show (width : Int) ≠ 0 by omega)
  have hless := Int.emod_lt_of_pos (-span) (show 0 < (width : Int) by omega)
  rw [Int.neg_mul, Int.mul_comm (-span / _)]
  omega

theorem count_eq_ceil {request : HistoryRequest} {limits : Limits} {count : Nat}
    (hwidth : 0 < request.bucketNs.toInt) (hwindow : request.window.start.ns.toInt < request.window.stop.ns.toInt)
    (hcount : bucketCount request limits = .ok count) :
    (count : Int) = ⌈((request.window.stop.ns.toInt - request.window.start.ns.toInt : Int) : ℚ) /
      request.bucketNs.toInt⌉ := by
  obtain ⟨-, hceil⟩ := bucketCount_ok hwidth hwindow hcount
  have hspan : 0 < request.window.stop.ns.toInt - request.window.start.ns.toInt := by omega
  rw [hceil]
  generalize request.window.stop.ns.toInt - request.window.start.ns.toInt = span at *
  generalize request.bucketNs.toInt = width at *
  obtain ⟨b, rfl⟩ := Int.eq_ofNat_of_zero_le hwidth.le
  rw [Int.toNat_natCast, Int.cast_natCast]
  exact rounded_eq_ceil hspan (by omega)

/-- **The buckets of a history tile its window.** -/
theorem history_tiles {records : List MeasurementRecord} {catalog : Catalog} {policy : RuntimePolicy}
    {request : HistoryRequest} {result : HistoryResult} (h : history records catalog policy request = .ok result) :
    (result.buckets.length : Int) = ⌈((request.window.stop.ns.toInt - request.window.start.ns.toInt : Int) : ℚ) /
        request.bucketNs.toInt⌉ ∧
      (∀ (i : Nat) (bucket : HistoryBucket), result.buckets[i]? = some bucket →
        bucket.Tiles request policy.limits records i) ∧
      ∀ record, Bucketed (request.classify record) →
        ∃ i, (i < result.buckets.length ∧ InInterval request i record) ∧
          ∀ j, InInterval request j record → j = i := by
  unfold history at h
  obtain ⟨hvalid, h⟩ := guard_eq_ok_iff.mp h
  obtain ⟨hpositive, h⟩ := guard_eq_ok_iff.mp h
  obtain ⟨-, h⟩ := guard_eq_ok_iff.mp h
  obtain ⟨path, -, h⟩ := bind_eq_ok_iff.mp h
  obtain ⟨count, hcount, h⟩ := bind_eq_ok_iff.mp h
  have hwidth : 0 < request.bucketNs.toInt := by
    rw [Int64.le_iff_toInt_le, Int64.toInt_zero] at hpositive
    omega
  have hwindow : request.window.start.ns.toInt < request.window.stop.ns.toInt := by
    simp only [Bool.not_eq_true', Bool.not_eq_false, TimeWindow.valid, Bool.and_eq_true, decide_eq_true_eq,
      Int64.lt_iff_toInt_lt] at hvalid
    exact hvalid.2
  have hplace : ∀ record, Bucketed (request.classify record) → ∀ i,
      bucketIndex request record = i ↔ InInterval request i record :=
    fun record hrecord => bucketIndex_iff_inInterval hwidth hcount (contains_of_bucketed hrecord)
  unfold concludeHistory at h
  obtain ⟨buckets, hbuckets, h⟩ := bind_eq_ok_iff.mp h
  cases h
  obtain ⟨hlength, hconcluded⟩ := concludeBuckets_getElem? hbuckets
  have hall : buckets.length = count := by
    rw [hlength]
    have hstart := HistoryLoop.foldl_length request { buckets := (List.range count).map (startBucket request) } records
    rw [hstart, List.length_map, List.length_range]
  refine ⟨?_, ?_, ?_⟩
  · rw [hall]
    exact count_eq_ceil hwidth hwindow hcount
  · intro i bucket hbucket
    have hi : i < count := hall ▸ (List.getElem?_eq_some_iff.mp hbucket).1
    obtain ⟨a, ha, hconclude⟩ := hconcluded i bucket hbucket
    rw [HistoryLoop.foldl_bucket, List.getElem?_map, List.getElem?_range hi, Option.map_some, Option.map_some,
      Option.some.injEq] at ha
    obtain ⟨hstart, hconsidered, hcounters, hdistribution⟩ := concludeBucket_ok hconclude
    have hkept : ∀ record ∈ request.placed i records, Bucketed (request.classify record) := by
      intro record hrecord
      have := (List.mem_filter.mp hrecord).2
      rw [decide_eq_true_eq] at this
      exact this.1
    have hcounted := (startBucket request i).foldl_count request hkept
    rw [ha] at hcounted
    have hplaced : request.placed i records =
        records.filter fun record => Bucketed (request.classify record) ∧ InInterval request i record := by
      refine List.filter_congr fun record _ => ?_
      rw [decide_eq_decide]
      exact and_congr_right fun hrecord => hplace record hrecord i
    rw [hplaced] at hcounted
    refine ⟨?_, ?_, ?_, ?_, ?_⟩
    · rw [hstart, hcounted.start]
      exact startBucket_start hwidth hwindow hcount hi
    · rw [hstart, hcounted.start]
      rfl
    · rw [hconsidered, hcounted.considered, List.countP_eq_length_filter]
      exact Nat.zero_add _
    · intro found hfound
      rw [hcounters, hcounted.counters found hfound, List.countP_filter, startBucket_counter, Nat.zero_add]
      refine List.countP_congr fun record _ => ?_
      simp only [Bool.and_eq_true, decide_eq_true_eq]
      constructor
      · rintro ⟨hclass, -, hinside⟩
        exact ⟨hclass, hinside⟩
      · rintro ⟨hclass, hinside⟩
        exact ⟨hclass, hclass ▸ hfound, hinside⟩
    · rw [← hdistribution, hcounted.values, List.filter_filter]
      refine congrArg (fun values => aggregate values request.histogram request.probes policy.limits) ?_
      refine congrArg (List.map MeasurementRecord.rttNs) (List.filter_congr fun record _ => ?_)
      rw [Bool.eq_iff_iff]
      simp only [Bool.and_eq_true, decide_eq_true_eq]
      constructor
      · rintro ⟨hclass, hinside⟩
        exact ⟨hclass, Or.inl hclass, hinside⟩
      · rintro ⟨hclass, -, hinside⟩
        exact ⟨hclass, hinside⟩
  · intro record hrecord
    refine ⟨bucketIndex request record, ⟨?_, (hplace record hrecord _).mp rfl⟩, ?_⟩
    · rw [hall]
      exact bucketIndex_lt hwidth hcount (contains_of_bucketed hrecord)
    · intro j hj
      exact ((hplace record hrecord j).mpr hj).symm

/-- The sample exchange stands in the third of three buckets. -/
theorem sample_history_tiles :
    ∃ result, history [sampleStored] (Ingest.sampleCatalog 1) defaultPolicy sampleHistory = .ok result ∧
      result.buckets.map HistoryBucket.exchangesIncluded = [0, 0, 1] ∧
      ∀ (i : Nat) (bucket : HistoryBucket), result.buckets[i]? = some bucket →
        bucket.Tiles sampleHistory defaultPolicy.limits [sampleStored] i := by
  have hanswered : (history [sampleStored] (Ingest.sampleCatalog 1) defaultPolicy sampleHistory).map
      (fun result => result.buckets.map HistoryBucket.exchangesIncluded) = .ok [0, 0, 1] := by decide +kernel
  cases hresult : history [sampleStored] (Ingest.sampleCatalog 1) defaultPolicy sampleHistory with
  | error e =>
    rw [hresult] at hanswered
    cases hanswered
  | ok result =>
    rw [hresult] at hanswered
    exact ⟨result, rfl, Except.ok.inj hanswered, (history_tiles hresult).2.1⟩

end LatencyObservatory.Runtime
