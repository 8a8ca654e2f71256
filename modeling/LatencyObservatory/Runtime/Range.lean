import LatencyObservatory.Ingest.Range
import LatencyObservatory.Runtime.Queries
import LatencyObservatory.Runtime.Reachable

/-!
# Signed overflow

The service, the gate and the queries compute latencies, ages and bucket bounds with plain 64-bit operations. For a
request to an engine that any run has reached, `plain_operations_fit_iff` gives the bounds on the submitted and the
stored numbers under which none of these operations leaves the signed range.
-/

namespace LatencyObservatory.Runtime

open LatencyObservatory.Core LatencyObservatory.Model LatencyObservatory.Ingest LatencyObservatory.Stats
open LatencyObservatory.Baselines LatencyObservatory.Attribution LatencyObservatory.Store

/-! ### Attribution -/

/-- The positions that the hop loop comes to. -/
def scannedIndices : Nat → Nat → List HopIndex
  | _, 0 => []
  | position, hops + 1 =>
    match HopIndex.fromValue (UInt32.ofNat position) with
    | .error _ => []
    | .ok index => index :: scannedIndices (position + 1) hops

/-- The comparison of a hop with a dwell against the exchange. -/
def hopCompareOps (clocks : ClockRegistry) (record : MeasurementRecord) (index : HopIndex) : List PlainOp :=
  match record.hopAt index with
  | none => []
  | some observation =>
    if observation.dwellNs.isSome ∧ observation.entry.domain ≠ record.domain then
      compareForOps clocks record observation.entry.domain record.domain
    else []

/-- The scan of one exchange. -/
def exchangeScan (clocks : ClockRegistry) (hops : List HopId) (record : MeasurementRecord) : ExchangeScan :=
  let started : ExchangeScan := { complete := true, clocksRefused := false, refusalEvidence := default }
  let started := match (AttributionLoop.exchangeOffset clocks record).2 with
    | none => started
    | some evidence => started.refuse evidence
  started.scanHops clocks record 0 (hops.map fun hop => { hop })

/-- The end to end latency on the reference timeline, and its residual. -/
def settleOps (offset : Nanos) (record : MeasurementRecord) (accounted : Option Nanos) : List PlainOp :=
  let request := record.request.ns - offset
  let response := record.response.ns - offset
  .sub record.request.ns offset :: .sub record.response.ns offset :: .sub response request ::
    if response - request < 0 then []
    else match accounted with
      | none => []
      | some accounted => [.sub (response - request) accounted]

def exchangeOps (clocks : ClockRegistry) (hops : List HopId) (record : MeasurementRecord) : List PlainOp :=
  (if record.domain = referenceClockDomain then []
    else compareForOps clocks record record.domain referenceClockDomain) ++
  (scannedIndices 0 hops.length).flatMap (hopCompareOps clocks record) ++
  if (exchangeScan clocks hops record).complete then
    settleOps (AttributionLoop.exchangeOffset clocks record).1 record
      (accountedSum 0 (exchangeScan clocks hops record).timeline)
  else []

/-- The age of the baseline at the end of the window. -/
def baselineOps (baselines : BaselineStore) (request : AttributionRequest) : List PlainOp :=
  if request.baseline.valid then
    match baselines.get request.baseline with
    | .error _ => []
    | .ok reference => if reference.id.valid then [.sub request.window.stop.ns reference.createdAt.ns] else []
  else []

namespace Engine

/-- The exchanges that an attribution looks at. -/
def attributed (e : Engine) (request : AttributionRequest) : List MeasurementRecord :=
  e.records.filter fun record => record.path == request.path && request.includes record

def attributionOps (e : Engine) (request : AttributionRequest) : List PlainOp :=
  if request.window.valid && request.generation.valid then
    match e.catalog.path request.path with
    | .error _ => []
    | .ok path =>
      (e.attributed request).flatMap (exchangeOps e.clocks path.hops) ++
        if (e.attributeExchanges request).isOk then baselineOps e.baselines request else []
  else []

end Engine

/-! ### History -/

/-- The bounds of one bucket. -/
def bucketOps (request : HistoryRequest) (index : Nat) : List PlainOp :=
  let shift := Int64.ofNat index * request.bucketNs
  [.mul (Int64.ofNat index) request.bucketNs, .add request.window.start.ns shift,
    .add (request.window.start.ns + shift) request.bucketNs]

/-- The offset of a record that is counted. -/
def offsetOps (request : HistoryRequest) (record : MeasurementRecord) : List PlainOp :=
  let found := request.classify record
  if found ≠ .included ∧ found ≠ .conflicting ∧ found ≠ .unsupported ∧ found ≠ .stale then []
  else [.sub record.stamp.receivedAt.ns request.window.start.ns]

def Engine.historyOps (e : Engine) (request : HistoryRequest) : List PlainOp :=
  if request.window.valid && decide (0 < request.bucketNs) && request.generation.valid &&
      (e.catalog.path request.path).isOk then
    .sub request.bucketNs 1 ::
      match bucketCount request e.policy.limits with
      | .error _ => []
      | .ok count => (List.range count).flatMap (bucketOps request) ++ e.records.flatMap (offsetOps request)
  else []

/-! ### Requests -/

/-- What the engine, or the service in front of it, is asked for. -/
inductive PlainRequest where
  | submit (request : IngestRequest)
  | ingest (request : IngestRequest)
  | history (request : HistoryRequest)
  | attribution (request : AttributionRequest)

namespace Engine

/-- The checks of `Engine::ingest` before the gate. -/
def admits (e : Engine) (request : IngestRequest) : Bool :=
  !e.shutDown && !e.config.readonly && decide (e.records.length + request.records.length ≤ e.recordCapacity)

def ingestOps (e : Engine) (request : IngestRequest) : List PlainOp :=
  if e.admits request then e.gate.admitOps request else []

/-- The service derives a latency of every record before it hands the batch on. -/
def submitOps (e : Engine) (request : IngestRequest) : List PlainOp :=
  (request.records.map fun record => PlainOp.sub record.response.ns record.request.ns) ++ e.ingestOps request

def plainOps (e : Engine) : PlainRequest → List PlainOp
  | .submit request => e.submitOps request
  | .ingest request => e.ingestOps request
  | .history request => e.historyOps request
  | .attribution request => e.attributionOps request

end Engine

/-! ### The bounds of an attribution -/

section Attribution

variable {clocks : ClockRegistry} {record : MeasurementRecord} {offset : Nanos} {accounted : Option Nanos}
  {hops : List HopId}

/-- The comparison of two domains for a record stays in range. -/
def CompareForWithin (clocks : ClockRegistry) (record : MeasurementRecord) (a b : ClockDomainId) : Prop :=
  clocks.CompareWithin record.stamp.receivedAt record.generation record.epoch record.incarnation a b

/-- What keeps the latency of an exchange and its residual in range. -/
structure SettleWithin (offset : Nanos) (record : MeasurementRecord) (accounted : Option Nanos) : Prop where
  request : Representable (record.request.ns.toInt - offset.toInt)
  response : Representable (record.response.ns.toInt - offset.toInt)
  latency : Representable (record.response.ns.toInt - record.request.ns.toInt)
  residual : record.request.ns.toInt ≤ record.response.ns.toInt → ∀ dwells, accounted = some dwells →
    record.response.ns.toInt - record.request.ns.toInt - dwells.toInt < 2 ^ 63

theorem settleOps_fit_iff : AllFit (settleOps offset record accounted) ↔ SettleWithin offset record accounted := by
  unfold settleOps
  extract_lets request response
  rw [allFit_cons, allFit_cons, allFit_cons, allFit_ite_not]
  -- Once both readings are on the timeline their difference is that of the readings.
  have hlatency : Representable (record.request.ns.toInt - offset.toInt) →
      Representable (record.response.ns.toInt - offset.toInt) →
      response.toInt - request.toInt = record.response.ns.toInt - record.request.ns.toInt := by
    intro hrequest hresponse
    unfold request response
    rw [toInt_sub_of_representable hrequest, toInt_sub_of_representable hresponse]
    omega
  have hdifference : Representable (response.toInt - request.toInt) →
      ((response - request).toInt = response.toInt - request.toInt ∧
        (¬response - request < 0 ↔ request.toInt ≤ response.toInt)) := by
    intro hfits
    have hexact := toInt_sub_of_representable hfits
    refine ⟨hexact, ?_⟩
    rw [Int64.not_lt, Int64.le_iff_toInt_le, hexact, Int64.toInt_zero]
    omega
  constructor
  · rintro ⟨hrequest, hresponse, hfits, hresidual⟩
    have hsame := hlatency hrequest hresponse
    obtain ⟨hexact, horder⟩ := hdifference hfits
    replace hfits : Representable (response.toInt - request.toInt) := hfits
    rw [hsame] at hfits
    refine ⟨hrequest, hresponse, hfits, ?_⟩
    rintro hordered dwells rfl
    have hop := hresidual (horder.mpr (by omega))
    rw [allFit_singleton, PlainOp.exact, hexact, hsame] at hop
    exact hop.2
  · rintro ⟨hrequest, hresponse, hfits, hresidual⟩
    have hsame := hlatency hrequest hresponse
    rw [← hsame] at hfits
    obtain ⟨hexact, horder⟩ := hdifference hfits
    refine ⟨hrequest, hresponse, hfits, ?_⟩
    intro hordered
    have hle := horder.mp hordered
    cases accounted with
    | none => exact allFit_nil
    | some dwells =>
      have hbound := hresidual (by omega) dwells rfl
      have hdwells := dwells.toInt_lt
      rw [allFit_singleton, PlainOp.exact, hexact, hsame]
      exact ⟨by omega, hbound⟩

theorem hopCompareOps_fit_iff (hsound : clocks.Sound) {index : HopIndex} :
    AllFit (hopCompareOps clocks record index) ↔ ∀ observation, record.hopAt index = some observation →
      observation.dwellNs.isSome = true → observation.entry.domain ≠ record.domain →
      CompareForWithin clocks record observation.entry.domain record.domain := by
  unfold hopCompareOps
  cases record.hopAt index with
  | none => exact iff_of_true allFit_nil fun observation h => by cases h
  | some observation =>
    dsimp only
    rw [allFit_ite]
    constructor
    · intro h other hother hdwell hdomain
      cases hother
      exact (ClockRegistry.compareOps_fit_iff hsound).mp (h ⟨hdwell, hdomain⟩)
    · rintro h ⟨hdwell, hdomain⟩
      exact (ClockRegistry.compareOps_fit_iff hsound).mpr (h observation rfl hdwell hdomain)

/-- What keeps an exchange that is attributed in range. -/
structure ExchangeWithin (clocks : ClockRegistry) (hops : List HopId) (record : MeasurementRecord) : Prop where
  placed : record.domain ≠ referenceClockDomain →
    CompareForWithin clocks record record.domain referenceClockDomain
  compared : ∀ index ∈ scannedIndices 0 hops.length, ∀ observation, record.hopAt index = some observation →
    observation.dwellNs.isSome = true → observation.entry.domain ≠ record.domain →
    CompareForWithin clocks record observation.entry.domain record.domain
  settled : (exchangeScan clocks hops record).complete = true →
    SettleWithin (AttributionLoop.exchangeOffset clocks record).1 record
      (accountedSum 0 (exchangeScan clocks hops record).timeline)

theorem exchangeOps_fit_iff (hsound : clocks.Sound) :
    AllFit (exchangeOps clocks hops record) ↔ ExchangeWithin clocks hops record := by
  unfold exchangeOps
  rw [allFit_append, allFit_append, allFit_ite_not, allFit_flatMap, allFit_ite, settleOps_fit_iff]
  constructor
  · rintro ⟨⟨hplaced, hcompared⟩, hsettled⟩
    exact ⟨fun h => (ClockRegistry.compareOps_fit_iff hsound).mp (hplaced h),
      fun index hindex => (hopCompareOps_fit_iff hsound).mp (hcompared index hindex), hsettled⟩
  · rintro ⟨hplaced, hcompared, hsettled⟩
    exact ⟨⟨fun h => (ClockRegistry.compareOps_fit_iff hsound).mpr (hplaced h),
      fun index hindex => (hopCompareOps_fit_iff hsound).mpr (hcompared index hindex)⟩, hsettled⟩

/-- The baseline is not too far from the end of the window. -/
def BaselineWithin (baselines : BaselineStore) (request : AttributionRequest) : Prop :=
  request.baseline.valid = true → ∀ reference, baselines.get request.baseline = .ok reference →
    reference.id.valid = true → Representable (request.window.stop.ns.toInt - reference.createdAt.ns.toInt)

theorem baselineOps_fit_iff {baselines : BaselineStore} {request : AttributionRequest} :
    AllFit (baselineOps baselines request) ↔ BaselineWithin baselines request := by
  unfold baselineOps BaselineWithin
  rw [allFit_ite]
  refine imp_congr_right fun _ => ?_
  cases baselines.get request.baseline with
  | error e => exact iff_of_true allFit_nil fun reference h => by cases h
  | ok reference =>
    dsimp only
    rw [allFit_ite, allFit_singleton]
    constructor
    · intro h other hother
      cases hother
      exact h
    · intro h
      exact h reference rfl

end Attribution

/-! ### The bounds of a history -/

section History

variable {request : HistoryRequest} {limits : Limits} {count : Nat}

theorem bucket_starts_within (hwidth : 0 < request.bucketNs.toInt)
    (hwindow : request.window.start.ns.toInt < request.window.stop.ns.toInt)
    (hcount : bucketCount request limits = .ok count) {index : Nat} (hindex : index < count) :
    index * request.bucketNs.toInt < request.window.stop.ns.toInt - request.window.start.ns.toInt := by
  obtain ⟨-, hcountEq⟩ := bucketCount_ok hwidth hwindow hcount
  obtain ⟨width, hwidthEq⟩ := Int.eq_ofNat_of_zero_le (Int.le_of_lt hwidth)
  obtain ⟨span, hspanEq⟩ : ∃ span : Nat,
      request.window.stop.ns.toInt - request.window.start.ns.toInt + (request.bucketNs.toInt - 1) = span :=
    Int.eq_ofNat_of_zero_le (by omega)
  rw [hspanEq, hwidthEq, Int.toNat_natCast, Int.toNat_natCast] at hcountEq
  have hmul : (index + 1) * width ≤ span := by
    rw [hcountEq] at hindex
    exact (Nat.le_div_iff_mul_le (by omega)).mp hindex
  have hmulInt : (index + 1 : Int) * width ≤ span := by exact_mod_cast hmul
  rw [Int.add_mul, Int.one_mul] at hmulInt
  rw [hwidthEq]
  omega

theorem bucketOps_fit_iff {index : Nat} (hwidth : 0 < request.bucketNs.toInt)
    (hstarts : index * request.bucketNs.toInt < request.window.stop.ns.toInt - request.window.start.ns.toInt)
    (hspan : request.window.stop.ns.toInt - request.window.start.ns.toInt < 2 ^ 63) :
    AllFit (bucketOps request index) ↔
      request.window.start.ns.toInt + (index + 1) * request.bucketNs.toInt < 2 ^ 63 := by
  have hlow := request.window.start.ns.le_toInt
  have hhigh := request.window.stop.ns.toInt_lt
  have hnonneg : 0 ≤ index * request.bucketNs.toInt := Int.mul_nonneg (Int.natCast_nonneg _) (Int.le_of_lt hwidth)
  have hindex : (Int64.ofNat index).toInt = index := by
    have hle : (index : Int) * 1 ≤ index * request.bucketNs.toInt :=
      Int.mul_le_mul_of_nonneg_left (by omega) (Int.natCast_nonneg _)
    exact Int64.toInt_ofNat_of_lt (by omega)
  have hshiftFits : Representable ((Int64.ofNat index).toInt * request.bucketNs.toInt) := by
    rw [hindex]
    exact ⟨by omega, by omega⟩
  have hshift := toInt_mul_of_representable hshiftFits
  rw [hindex] at hshift
  have hstartFits : Representable (request.window.start.ns.toInt +
      (Int64.ofNat index * request.bucketNs).toInt) := by
    rw [hshift]
    exact ⟨by omega, by omega⟩
  have hstart := toInt_add_of_representable hstartFits
  unfold bucketOps
  extract_lets shift
  rw [allFit_cons, allFit_cons, allFit_singleton]
  constructor
  · rintro ⟨-, -, hend⟩
    have hbound := hend.2
    rw [PlainOp.exact, hstart, hshift] at hbound
    rw [Int.add_mul, Int.one_mul]
    omega
  · intro hend
    refine ⟨hshiftFits, hstartFits, ?_⟩
    rw [Int.add_mul, Int.one_mul] at hend
    rw [PlainOp.exact, hstart, hshift]
    exact ⟨by omega, by omega⟩

theorem bucketsOps_fit_iff (hwidth : 0 < request.bucketNs.toInt)
    (hwindow : request.window.start.ns.toInt < request.window.stop.ns.toInt)
    (hcount : bucketCount request limits = .ok count) :
    AllFit ((List.range count).flatMap (bucketOps request)) ↔
      request.window.start.ns.toInt + count * request.bucketNs.toInt < 2 ^ 63 := by
  have hspan := (bucketCount_ok hwidth hwindow hcount).1
  have hone : ∀ index < count, (AllFit (bucketOps request index) ↔
      request.window.start.ns.toInt + (index + 1) * request.bucketNs.toInt < 2 ^ 63) := by
    intro index hindex
    exact bucketOps_fit_iff hwidth (bucket_starts_within hwidth hwindow hcount hindex) hspan
  rw [allFit_flatMap]
  constructor
  · intro h
    cases count with
    | zero =>
      have hstart := request.window.start.ns.toInt_lt
      simpa using hstart
    | succ last =>
      have hend := (hone last (Nat.lt_succ_self last)).mp (h last (List.mem_range.mpr (Nat.lt_succ_self last)))
      rwa [Int.natCast_add, Int.natCast_one]
  · intro h index hindex
    rw [List.mem_range] at hindex
    rw [hone index hindex]
    have hle : (index + 1 : Int) * request.bucketNs.toInt ≤ count * request.bucketNs.toInt :=
      Int.mul_le_mul_of_nonneg_right (by omega) (Int.le_of_lt hwidth)
    omega

theorem offsetOps_fit (hspan : request.window.stop.ns.toInt - request.window.start.ns.toInt < 2 ^ 63)
    (record : MeasurementRecord) : AllFit (offsetOps request record) := by
  unfold offsetOps
  rw [allFit_ite_not, allFit_singleton]
  intro hcounted
  have hbucketed : Bucketed (request.classify record) := by
    unfold Bucketed
    simp only [ne_eq, not_and, not_not] at hcounted
    by_contra hnot
    simp only [not_or] at hnot
    exact hnot.2.2.2 (hcounted hnot.1 hnot.2.1 hnot.2.2.1)
  have hin := contains_of_bucketed hbucketed
  simp only [TimeWindow.contains, Bool.and_eq_true, decide_eq_true_eq, ge_iff_le,
    Int64.le_iff_toInt_le, Int64.lt_iff_toInt_lt] at hin
  rw [PlainOp.exact]
  exact ⟨by omega, by omega⟩

end History

/-! ### The bounds of a request -/

namespace Engine

variable {e : Engine}

/-- The batch is classified, and every record of it that names known things is within its bounds. -/
def IngestWithin (e : Engine) (request : IngestRequest) : Prop :=
  e.admits request = true → (e.gate.admitBatch request).isOk = true → ∀ record ∈ request.records,
    (e.catalog.path record.path).isOk = true → (e.catalog.source record.source).isOk = true →
      (e.catalog.generation record.generation).isOk = true →
        RecordWithin e.gate (IngestGate.stamp request record) request.receivedAt

theorem ingestOps_fit_iff (hsound : e.clocks.Sound) {request : IngestRequest} :
    AllFit (e.ingestOps request) ↔ e.IngestWithin request := by
  unfold ingestOps IngestWithin
  rw [allFit_ite]
  refine imp_congr_right fun _ => ?_
  unfold IngestGate.admitOps
  cases e.gate.admitBatch request with
  | error error => exact iff_of_true allFit_nil fun h => by cases h
  | ok admission =>
    dsimp only
    rw [allFit_flatMap]
    constructor
    · intro h _ record hrecord
      exact (IngestGate.classifyOps_fit_iff hsound).mp (h record hrecord)
    · intro h record hrecord
      exact (IngestGate.classifyOps_fit_iff hsound).mpr (h rfl record hrecord)

/-- The last bucket ends in range. -/
def HistoryWithin (e : Engine) (request : HistoryRequest) : Prop :=
  request.window.valid = true → 0 < request.bucketNs → request.generation.valid = true →
    (e.catalog.path request.path).isOk = true → ∀ count, bucketCount request e.policy.limits = .ok count →
      request.window.start.ns.toInt + count * request.bucketNs.toInt < 2 ^ 63

theorem historyOps_fit_iff {request : HistoryRequest} : AllFit (e.historyOps request) ↔ e.HistoryWithin request := by
  unfold historyOps HistoryWithin
  rw [allFit_ite]
  simp only [Bool.and_eq_true, decide_eq_true_eq, and_imp]
  refine imp_congr_right fun hwindow => imp_congr_right fun hwidth => imp_congr_right fun _ =>
    imp_congr_right fun _ => ?_
  have hordered : request.window.start.ns.toInt < request.window.stop.ns.toInt := by
    unfold TimeWindow.valid at hwindow
    rw [Bool.and_eq_true, decide_eq_true_eq] at hwindow
    exact Int64.lt_iff_toInt_lt.mp hwindow.2
  rw [Int64.lt_iff_toInt_lt, Int64.toInt_zero] at hwidth
  have hprevious : Representable (PlainOp.sub request.bucketNs 1).exact := by
    have hbound := request.bucketNs.toInt_lt
    rw [PlainOp.exact, Int64.toInt_one]
    exact ⟨by omega, by omega⟩
  rw [allFit_cons, and_iff_right hprevious]
  cases hcount : bucketCount request e.policy.limits with
  | error error => exact iff_of_true allFit_nil fun count h => by cases h
  | ok count =>
    have hspan := (bucketCount_ok hwidth hordered hcount).1
    have hoffsets : AllFit (e.records.flatMap (offsetOps request)) := by
      rw [allFit_flatMap]
      intro record _
      exact offsetOps_fit hspan record
    dsimp only
    rw [allFit_append, and_iff_left hoffsets, bucketsOps_fit_iff hwidth hordered hcount]
    constructor
    · intro h other hother
      cases hother
      exact h
    · intro h
      exact h count rfl

/-- Every exchange that is looked at is within its bounds, and so is the age of the baseline. -/
def AttributionWithin (e : Engine) (request : AttributionRequest) : Prop :=
  request.window.valid = true → request.generation.valid = true → ∀ path, e.catalog.path request.path = .ok path →
    (∀ record ∈ e.attributed request, ExchangeWithin e.clocks path.hops record) ∧
      ((e.attributeExchanges request).isOk = true → BaselineWithin e.baselines request)

theorem attributionOps_fit_iff (hsound : e.clocks.Sound) {request : AttributionRequest} :
    AllFit (e.attributionOps request) ↔ e.AttributionWithin request := by
  unfold attributionOps AttributionWithin
  rw [allFit_ite]
  simp only [Bool.and_eq_true, and_imp]
  refine imp_congr_right fun _ => imp_congr_right fun _ => ?_
  cases e.catalog.path request.path with
  | error error => exact iff_of_true allFit_nil fun path h => by cases h
  | ok path =>
    dsimp only
    rw [allFit_append, allFit_flatMap, allFit_ite, baselineOps_fit_iff]
    constructor
    · rintro ⟨hexchanges, hbaseline⟩ other hother
      cases hother
      exact ⟨fun record hrecord => (exchangeOps_fit_iff hsound).mp (hexchanges record hrecord), hbaseline⟩
    · intro h
      obtain ⟨hexchanges, hbaseline⟩ := h path rfl
      exact ⟨fun record hrecord => (exchangeOps_fit_iff hsound).mpr (hexchanges record hrecord), hbaseline⟩

def Within (e : Engine) : PlainRequest → Prop
  | .submit request =>
    (∀ record ∈ request.records, Representable (record.response.ns.toInt - record.request.ns.toInt)) ∧
      e.IngestWithin request
  | .ingest request => e.IngestWithin request
  | .history request => e.HistoryWithin request
  | .attribution request => e.AttributionWithin request

theorem plainOps_fit_iff (hsound : e.clocks.Sound) (request : PlainRequest) :
    AllFit (e.plainOps request) ↔ e.Within request := by
  cases request with
  | submit request =>
    unfold plainOps submitOps Within
    rw [allFit_append, ingestOps_fit_iff hsound]
    refine and_congr_left fun _ => ?_
    constructor
    · intro h record hrecord
      exact h _ (List.mem_map_of_mem hrecord)
    · intro h op hop
      obtain ⟨record, hrecord, rfl⟩ := List.mem_map.mp hop
      exact h record hrecord
  | ingest request => exact ingestOps_fit_iff hsound
  | history request => exact historyOps_fit_iff
  | attribution request => exact attributionOps_fit_iff hsound

end Engine

/-- In every state of every run, a request is answered without signed overflow exactly when the numbers that are
subtracted and added for it are within their bounds. -/
theorem plain_operations_fit_iff {config : RuntimeConfig} {now : Nanos} {d : Directory} {start : System}
    (h : create config now d = .ok start) (calls : List (Nanos × Call)) (request : PlainRequest) :
    AllFit ((calls.foldl System.step start).engine.plainOps request) ↔
      (calls.foldl System.step start).engine.Within request := by
  obtain ⟨clockCalls, hclocks⟩ := reachable_clocks h calls
  apply Engine.plainOps_fit_iff
  rw [hclocks]
  exact ClockRegistry.after_sound config.policy clockCalls

/-- The definitions of the sample deployment. -/
def sampleDefinitions : List (Nanos × Call) :=
  [(0, .defineGeneration sampleGeneration), (0, .defineHop sampleHop), (0, .definePath samplePath),
    (0, .defineSource (sampleSource 1))]

theorem sample_history_within :
    (sampleDefinitions.foldl System.step (storeless false)).engine.Within (.history sampleHistory) :=
  (plain_operations_fit_iff (storeless_created false) sampleDefinitions (.history sampleHistory)).mp
    (by decide +kernel)

/-- An exchange from the first to the last reading a clock can give, with the latency that wraps around. -/
def endlessRecord : MeasurementRecord :=
  { sampleRecord 1 7 with
    request := ⟨Int64.minValue, referenceClockDomain⟩
    response := ⟨Int64.maxValue, referenceClockDomain⟩
    rttNs := -1 }

def endlessBatch : IngestRequest := { records := [endlessRecord], receivedAt := ⟨2000000, referenceClockDomain⟩ }

/-- Two buckets of five nanoseconds for the last nine of the range. -/
def lastHistory : HistoryRequest :=
  { sampleHistory with
    window := ⟨⟨Int64.maxValue - 9, referenceClockDomain⟩, ⟨Int64.maxValue, referenceClockDomain⟩⟩
    bucketNs := 5 }

def sampleSystem : System := sampleDefinitions.foldl System.step (storeless false)

/-- The gate accepts a record whose latency overflows, and the end of the last bucket overflows. -/
theorem endless_latency_overflows :
    ¬AllFit (sampleSystem.engine.plainOps (.ingest endlessBatch)) ∧
      (sampleSystem.ingest 0 endlessBatch).1.isOk = true ∧
      (sampleSystem.ingest 0 endlessBatch).2.engine.records.map (·.rttNs) = [-1] ∧
      ¬AllFit (sampleSystem.engine.plainOps (.history lastHistory)) ∧
      (sampleSystem.engine.history lastHistory).isOk = true := by
  refine ⟨?_, ?_, ?_, ?_, ?_⟩
  · decide +kernel
  · decide +kernel
  · decide +kernel
  · decide +kernel
  · decide +kernel

end LatencyObservatory.Runtime
