import LatencyObservatory.Attribution.Readings

/-!
# The exchanges behind a decomposition

Whether an included exchange is complete, and whether it refuses the clocks, is decided by the exchange and the
registry alone. The record loop of `attribute` is described by the exchanges it has seen: its counters count them,
and its value lists are read off the complete ones.
-/

namespace LatencyObservatory.Attribution

open LatencyObservatory.Core LatencyObservatory.Model LatencyObservatory.Stats LatencyObservatory.Baselines

/-! ### One exchange -/

section Exchange

variable (clocks : ClockRegistry) (record : MeasurementRecord)

/-- The two domains are compared at the exchange's receive time, for its generation and session. -/
def comparable (first second : ClockDomainId) : Bool :=
  match clocks.compare first second record.stamp.receivedAt record.generation record.epoch record.incarnation with
  | .ok comparability => comparability.comparable
  | .error _ => false

/-- The exchange domain is the local reference, or comparable with it. -/
def exchangeComparable : Bool :=
  record.domain == referenceClockDomain || comparable clocks record record.domain referenceClockDomain

/-- A domain that a hop dwell was read in is the exchange domain, or comparable with it. -/
def hopComparable (domain : ClockDomainId) : Bool :=
  domain == record.domain || comparable clocks record domain record.domain

/-- The hop at a position has a dwell whose entry clock is comparable. -/
def readable (position : Nat) : Bool :=
  (observationAt position record).any fun observation =>
    observation.dwellNs.isSome && hopComparable clocks record observation.entry.domain

/-- The hop at a position refuses the clocks: its dwell is not comparable, or its evidence says why there is
none. -/
def refusesAt (position : Nat) : Bool :=
  (observationAt position record).any fun observation =>
    if observation.dwellNs.isSome then !hopComparable clocks record observation.entry.domain
    else observation.evidence.state == .refused || observation.evidence.state == .conflicting ||
      clockRefusalReason observation.evidence

/-- The exchange refuses the clocks for a path of `n` hops. -/
def refusesClocks (n : Nat) : Bool :=
  !exchangeComparable clocks record || (List.range n).any (refusesAt clocks record)

end Exchange

/-- The time between the request and the response. -/
def endToEndOf (record : MeasurementRecord) : Nanos :=
  record.response.ns - record.request.ns

/-- The checked sum of the dwells of an exchange. -/
def accountedOf (n : Nat) (record : MeasurementRecord) : Option Nanos :=
  accountedSum 0 ((List.range n).map (dwellAt · record))

/-- What remains of the exchange after its dwells. -/
def residualOf (n : Nat) (record : MeasurementRecord) : Nanos :=
  endToEndOf record - (accountedOf n record).getD 0

/-- The exchange is complete for a path of `n` hops. -/
def isComplete (clocks : ClockRegistry) (n : Nat) (record : MeasurementRecord) : Bool :=
  exchangeComparable clocks record && (List.range n).all (readable clocks record) && endToEndOf record ≥ 0 &&
    (accountedOf n record).isSome

section Scan

variable {clocks : ClockRegistry} {record : MeasurementRecord}

theorem refusal_isNone_iff (first second : ClockDomainId) (detail : Bytes) :
    (ExchangeScan.refusal (clocks.compare first second record.stamp.receivedAt record.generation record.epoch
      record.incarnation) detail).isNone = comparable clocks record first second := by
  unfold ExchangeScan.refusal comparable
  cases clocks.compare first second record.stamp.receivedAt record.generation record.epoch record.incarnation with
  | error e => rfl
  | ok comparability => by_cases hcomparable : comparability.comparable = true <;> simp [hcomparable]

theorem scanHop_flags {s : ExchangeScan} {tally : HopTally} {position : Nat} {index : HopIndex}
    (hindex : HopIndex.fromValue (UInt32.ofNat position) = .ok index) :
    (s.scanHop clocks record tally index).complete = (s.complete && readable clocks record position) ∧
      (s.scanHop clocks record tally index).clocksRefused = (s.clocksRefused || refusesAt clocks record position) := by
  have hobservation : observationAt position record = record.hopAt index := by
    unfold observationAt
    rw [hindex]
  unfold ExchangeScan.scanHop readable refusesAt
  rw [hobservation]
  cases record.hopAt index with
  | none => simp [ExchangeScan.absent, ExchangeScan.push]
  | some observation =>
    cases hdwell : observation.dwellNs with
    | none => simp [ExchangeScan.absent, ExchangeScan.push, hdwell, Bool.or_assoc]
    | some dwell =>
      simp only [Option.any_some, hdwell, Option.isSome_some, Bool.true_and, if_true]
      unfold hopComparable
      by_cases hsame : observation.entry.domain = record.domain
      · simp [hsame, ExchangeScan.push]
      · have hrefusal := @refusal_isNone_iff clocks record observation.entry.domain record.domain observation.hop.toHex
        rw [if_neg hsame]
        cases hfound : ExchangeScan.refusal (clocks.compare observation.entry.domain record.domain
            record.stamp.receivedAt record.generation record.epoch record.incarnation) observation.hop.toHex with
        | none =>
          rw [hfound, Option.isNone_none] at hrefusal
          simp [← hrefusal, ExchangeScan.push]
        | some evidence =>
          rw [hfound, Option.isNone_some] at hrefusal
          simp [hsame, ← hrefusal, ExchangeScan.refuse]

theorem scanHops_flags {position : Nat} {tallies : List HopTally} (s : ExchangeScan)
    (hbound : position + tallies.length ≤ HopIndex.maxExclusive) :
    (s.scanHops clocks record position tallies).complete =
        (s.complete && (List.range' position tallies.length).all (readable clocks record)) ∧
      (s.scanHops clocks record position tallies).clocksRefused =
        (s.clocksRefused || (List.range' position tallies.length).any (refusesAt clocks record)) := by
  induction tallies generalizing position s with
  | nil => simp [ExchangeScan.scanHops]
  | cons tally rest ih =>
    rw [List.length_cons] at hbound
    obtain ⟨index, hindex, -⟩ := @fromValue_ofNat position (by omega)
    unfold ExchangeScan.scanHops
    rw [hindex]
    obtain ⟨hcomplete, hrefused⟩ := @scanHop_flags clocks record s tally position index hindex
    obtain ⟨hcomplete', hrefused'⟩ := @ih (position + 1) (s.scanHop clocks record tally index) (by omega)
    simp only
    rw [hcomplete', hrefused', hcomplete, hrefused, List.length_cons, List.range'_succ, List.all_cons, List.any_cons,
      Bool.and_assoc, Bool.or_assoc]
    exact ⟨rfl, rfl⟩

theorem exchangeOffset_isNone (clocks : ClockRegistry) (record : MeasurementRecord) :
    (AttributionLoop.exchangeOffset clocks record).2.isNone = exchangeComparable clocks record := by
  unfold AttributionLoop.exchangeOffset exchangeComparable
  by_cases hsame : record.domain = referenceClockDomain
  · simp [hsame]
  · rw [if_neg hsame]
    have hrefusal := @refusal_isNone_iff clocks record record.domain referenceClockDomain record.domain.toHex
    unfold comparable at hrefusal ⊢
    cases hcompare : clocks.compare record.domain referenceClockDomain record.stamp.receivedAt record.generation
        record.epoch record.incarnation with
    | error e => simp [hsame, ExchangeScan.refusal]
    | ok comparability =>
      by_cases hcomparable : comparability.comparable = true <;> simp [hsame, hcomparable, ExchangeScan.refusal]

end Scan

/-- What the scan of an exchange over `n` hops leaves. -/
structure ScannedExchange (clocks : ClockRegistry) (s : AttributionLoop) (record : MeasurementRecord)
    (scan : ExchangeScan) : Prop where
  length : scan.hops.length = s.hops.length
  scanned : ∀ (k : Nat) (before after : HopTally), s.hops[k]? = some before → scan.hops[k]? = some after →
    Scanned k record before after
  complete : scan.complete =
    (exchangeComparable clocks record && (List.range s.hops.length).all (readable clocks record))
  refused : scan.clocksRefused = (s.clocksRefused || refusesClocks clocks record s.hops.length)
  timeline : scan.complete = true → scan.timeline = (List.range s.hops.length).map (dwellAt · record) ∧
    scan.queueTimeline = (List.range s.hops.length).map (queueDwellAt · record)

theorem contribute_eq (clocks : ClockRegistry) {s : AttributionLoop} (record : MeasurementRecord)
    (hbound : s.hops.length ≤ HopIndex.maxExclusive) :
    ∃ scan, ScannedExchange clocks s record scan ∧ s.contribute clocks record =
      let started := { s with
        included := s.included + 1
        sources := addSource s.sources record.source
        hops := scan.hops
        clocksRefused := scan.clocksRefused
        refusalEvidence := scan.refusalEvidence }
      if !scan.complete || endToEndOf record < 0 then { started with incomplete := started.incomplete + 1 }
      else started.settle scan (endToEndOf record) := by
  have hshift : ∀ offset : Nanos, (record.response.ns - offset) - (record.request.ns - offset) = endToEndOf record := by
    intro offset
    unfold endToEndOf
    grind
  have hscan : ∀ started : ExchangeScan, started.hops = [] → started.timeline = [] → started.queueTimeline = [] →
      started.complete = exchangeComparable clocks record →
      started.clocksRefused = (s.clocksRefused || !exchangeComparable clocks record) →
      ScannedExchange clocks s record (started.scanHops clocks record 0 s.hops) := by
    intro started hhops htimeline hqueue hcomplete hrefused
    obtain ⟨after, timeline, queueTimeline, hhops', htimeline', hqueue', hlength, hscanned, hdone⟩ :=
      scanHops_spec clocks record 0 s.hops started
    obtain ⟨hcomplete', hrefused'⟩ := @scanHops_flags clocks record 0 s.hops started (by omega)
    simp only [Nat.zero_add] at hscanned
    rw [hhops, List.nil_append] at hhops'
    rw [htimeline, List.nil_append] at htimeline'
    rw [hqueue, List.nil_append] at hqueue'
    rw [← List.range_eq_range'] at hcomplete' hrefused' hdone
    refine ⟨by rw [hhops', hlength], ?_, by rw [hcomplete', hcomplete], ?_, ?_⟩
    · rw [hhops']
      exact hscanned
    · rw [hrefused', hrefused, refusesClocks, Bool.or_assoc]
    · intro hall
      obtain ⟨-, hdwells, hqueueDwells⟩ := hdone hall
      rw [htimeline', hqueue', hdwells, hqueueDwells]
      exact ⟨rfl, rfl⟩
  have hcomparable := exchangeOffset_isNone clocks record
  unfold AttributionLoop.contribute
  generalize AttributionLoop.exchangeOffset clocks record = found at hcomparable ⊢
  obtain ⟨offset, refused⟩ := found
  cases refused with
  | none =>
    have hyes : exchangeComparable clocks record = true := hcomparable.symm
    refine ⟨_, hscan { complete := true, clocksRefused := s.clocksRefused, refusalEvidence := s.refusalEvidence } rfl rfl
      rfl hyes.symm (by simp [hyes]), ?_⟩
    simp only [hshift]
  | some evidence =>
    have hno : exchangeComparable clocks record = false := hcomparable.symm
    refine ⟨_, hscan (ExchangeScan.refuse
      { complete := true, clocksRefused := s.clocksRefused, refusalEvidence := s.refusalEvidence } evidence) rfl rfl rfl
      hno.symm (by simp [hno, ExchangeScan.refuse]), ?_⟩
    simp only [hshift]

/-! ### All exchanges -/

/-- The loop has seen these exchanges, on a path of `n` hops. -/
structure AttributionLoop.Saw (clocks : ClockRegistry) (n : Nat) (records : List MeasurementRecord)
    (s : AttributionLoop) : Prop where
  length : s.hops.length = n
  included : s.included = records.length
  complete : s.complete = (records.filter (isComplete clocks n)).length
  incomplete : s.incomplete = (records.filter fun record => !isComplete clocks n record).length
  endToEnd : s.endToEnd = (records.filter (isComplete clocks n)).map endToEndOf
  residuals : s.residuals = (records.filter (isComplete clocks n)).map (residualOf n)
  negative : s.negativeResiduals = (records.filter (isComplete clocks n)).countP fun record => residualOf n record < 0
  refused : s.clocksRefused = records.any fun record => refusesClocks clocks record n
  sources : s.sources = collectSources records []
  values : ∀ (k : Nat) (tally : HopTally), s.hops[k]? = some tally →
    tally.values = (records.filter (isComplete clocks n)).filterMap (dwellAt k)

namespace AttributionLoop

variable {clocks : ClockRegistry} {n : Nat} {records : List MeasurementRecord} {s : AttributionLoop}

theorem saw_start (clocks : ClockRegistry) (hops : List HopId) :
    Saw clocks hops.length [] { hops := hops.map fun hop => { hop } } := by
  refine ⟨by simp, rfl, rfl, rfl, rfl, rfl, rfl, rfl, rfl, ?_⟩
  intro k tally hk
  rw [List.getElem?_map, Option.map_eq_some_iff] at hk
  obtain ⟨hop, -, rfl⟩ := hk
  rfl

theorem Saw.scannedValues (h : s.Saw clocks n records) {record : MeasurementRecord} {scan : ExchangeScan}
    (hscan : ScannedExchange clocks s record scan) (k : Nat) (tally : HopTally) (hk : scan.hops[k]? = some tally) :
    tally.values = (records.filter (isComplete clocks n)).filterMap (dwellAt k) := by
  have hlt : k < s.hops.length := by
    rw [← hscan.length]
    exact (List.getElem?_eq_some_iff.mp hk).1
  have hbefore := List.getElem?_eq_getElem hlt
  rw [(hscan.scanned k _ tally hbefore hk).values]
  exact h.values k _ hbefore

theorem settled_hops {record : MeasurementRecord} {scan : ExchangeScan} (hscan : ScannedExchange clocks s record scan)
    (hcomplete : scan.complete = true) (k : Nat) (tally : HopTally)
    (hk : ((scan.hops.zip (scan.timeline.zip scan.queueTimeline)).map fun entry =>
      entry.1.record entry.2.1 entry.2.2)[k]? = some tally) :
    ∃ scanned, scan.hops[k]? = some scanned ∧ tally = scanned.record (dwellAt k record) (queueDwellAt k record) := by
  obtain ⟨htimeline, hqueue⟩ := hscan.timeline hcomplete
  rw [htimeline, hqueue, List.getElem?_map, Option.map_eq_some_iff] at hk
  obtain ⟨⟨scanned, dwell, queueDwell⟩, hzip, rfl⟩ := hk
  rw [List.getElem?_zip_eq_some, List.getElem?_zip_eq_some] at hzip
  obtain ⟨hscanned, hdwell, hqueueDwell⟩ := hzip
  have hlt : k < s.hops.length := by
    rw [← hscan.length]
    exact (List.getElem?_eq_some_iff.mp hscanned).1
  simp only [List.getElem?_map, List.getElem?_range hlt, Option.map_some, Option.some.injEq] at hdwell hqueueDwell
  exact ⟨scanned, hscanned, by rw [hdwell, hqueueDwell]⟩

theorem Saw.contribute (h : s.Saw clocks n records) (hn : n ≤ HopIndex.maxExclusive) (record : MeasurementRecord) :
    (s.contribute clocks record).Saw clocks n (records ++ [record]) := by
  obtain ⟨scan, hscan, heq⟩ := @contribute_eq clocks s record (by rw [h.length]; exact hn)
  have hsources : addSource s.sources record.source = collectSources (records ++ [record]) [] := by
    rw [h.sources, collectSources, collectSources, List.foldl_append]
    rfl
  have hrefused : scan.clocksRefused = (records ++ [record]).any fun record => refusesClocks clocks record n := by
    rw [hscan.refused, h.refused, h.length, List.any_append]
    simp
  have hlength : scan.hops.length = n := by rw [hscan.length, h.length]
  have hscanComplete : scan.complete = (exchangeComparable clocks record && (List.range n).all (readable clocks record)) := by
    rw [hscan.complete, h.length]
  have hincluded : s.included + 1 = (records ++ [record]).length := by
    rw [h.included, List.length_append, List.length_singleton]
  rw [heq]
  simp only
  by_cases hearly : (!scan.complete || decide (endToEndOf record < 0)) = true
  · rw [if_pos hearly]
    have hnot : isComplete clocks n record = false := by
      unfold isComplete
      rw [← hscanComplete]
      simp only [Bool.or_eq_true, Bool.not_eq_true', decide_eq_true_eq] at hearly
      rcases hearly with hopen | hnegative
      · rw [hopen]
        simp
      · simp [hnegative]
    have hfilter : (records ++ [record]).filter (isComplete clocks n) = records.filter (isComplete clocks n) := by
      simp [hnot]
    refine ⟨hlength, hincluded, ?_, ?_, ?_, ?_, ?_, hrefused, hsources, ?_⟩
    · rw [hfilter, h.complete]
    · simp [hnot, h.incomplete]
    · rw [hfilter, h.endToEnd]
    · rw [hfilter, h.residuals]
    · rw [hfilter, h.negative]
    · rw [hfilter]
      exact h.scannedValues hscan
  · rw [if_neg hearly]
    simp only [Bool.or_eq_true, Bool.not_eq_true', decide_eq_true_eq, not_or, Bool.not_eq_false] at hearly
    obtain ⟨hdone, hlate⟩ := hearly
    have htimeline := (hscan.timeline hdone).1
    rw [h.length] at htimeline
    have hsum : isComplete clocks n record = (accountedSum 0 scan.timeline).isSome := by
      unfold isComplete accountedOf
      rw [← hscanComplete, hdone, htimeline]
      simp [Int64.not_lt.mp hlate]
    unfold AttributionLoop.settle
    cases hfound : accountedSum 0 scan.timeline with
    | none =>
      rw [hfound, Option.isSome_none] at hsum
      have hfilter : (records ++ [record]).filter (isComplete clocks n) = records.filter (isComplete clocks n) := by
        simp [hsum]
      refine ⟨hlength, hincluded, ?_, ?_, ?_, ?_, ?_, hrefused, hsources, ?_⟩
      · rw [hfilter, h.complete]
      · simp [hsum, h.incomplete]
      · rw [hfilter, h.endToEnd]
      · rw [hfilter, h.residuals]
      · rw [hfilter, h.negative]
      · rw [hfilter]
        exact h.scannedValues hscan
    | some accounted =>
      rw [hfound, Option.isSome_some] at hsum
      have hfilter : (records ++ [record]).filter (isComplete clocks n) =
          records.filter (isComplete clocks n) ++ [record] := by
        simp [hsum]
      have hresidual : residualOf n record = endToEndOf record - accounted := by
        unfold residualOf accountedOf
        rw [← htimeline, hfound, Option.getD_some]
      refine ⟨?_, hincluded, ?_, ?_, ?_, ?_, ?_, hrefused, hsources, ?_⟩
      · simp [(hscan.timeline hdone).1, (hscan.timeline hdone).2, hlength, h.length]
      · simp [hfilter, h.complete]
      · simp [hsum, h.incomplete]
      · simp [hfilter, h.endToEnd]
      · simp [hfilter, h.residuals, hresidual]
      · rw [hfilter, List.countP_append, List.countP_singleton, hresidual, ← h.negative]
        by_cases hnegative : endToEndOf record - accounted < 0 <;> simp [hnegative]
      · intro k tally hk
        obtain ⟨scanned, hscanned, rfl⟩ := settled_hops hscan hdone k tally hk
        rw [hfilter, List.filterMap_append, ← h.scannedValues hscan k scanned hscanned]
        show scanned.values ++ _ = _
        cases hdwell : dwellAt k record <;> simp [hdwell]

theorem foldl_saw (request : AttributionRequest) (h : s.Saw clocks n records) (hn : n ≤ HopIndex.maxExclusive)
    (rest : List MeasurementRecord) :
    (rest.foldl (step clocks request) s).Saw clocks n (records ++ request.included rest) := by
  apply @foldl_included records s clocks request (Saw clocks n) _ _ h
  · intro records s h
    exact ⟨h.length, h.included, h.complete, h.incomplete, h.endToEnd, h.residuals, h.negative, h.refused, h.sources,
      h.values⟩
  · intro records s record h
    exact h.contribute hn record

end AttributionLoop

/-! ### The result -/

/-- A decomposition was produced, observed or partial. -/
def AttributionKind.produced (kind : AttributionKind) : Bool :=
  kind == .observedDecomposition || kind == .partialDecomposition

theorem verdict_produced {policy : RuntimePolicy} {declared : Bool} {s : AttributionLoop} {evidence : Evidence}
    (h : (verdict policy declared s evidence).1.produced = true) :
    declared = true ∧ s.clocksRefused = false ∧ s.complete ≠ 0 ∧
      ((verdict policy declared s evidence).1 = .observedDecomposition → s.incomplete = 0) ∧
      ((verdict policy declared s evidence).1 = .partialDecomposition →
        policy.attribution.allowPartialDecomposition = true) := by
  unfold verdict at h ⊢
  by_cases hincluded : s.included = 0
  · rw [if_pos hincluded] at h
    cases h
  · rw [if_neg hincluded] at h ⊢
    cases declared with
    | false => cases h
    | true =>
      cases hrefused : s.clocksRefused with
      | true =>
        rw [hrefused] at h
        cases h
      | false =>
        rw [hrefused] at h
        by_cases hcomplete : s.complete = 0
        · rw [if_pos hcomplete] at h
          cases h
        · by_cases hincomplete : s.incomplete = 0
          · simp [hcomplete, hincomplete]
          · cases hallowed : policy.attribution.allowPartialDecomposition with
            | false => simp [hcomplete, hincomplete, hallowed, AttributionKind.produced] at h
            | true => simp [hcomplete, hincomplete]

/-- What a decomposition says of the loop, whatever its evidence. -/
structure AttributionLoop.Decomposed (catalog : Catalog) (request : AttributionRequest) (policy : RuntimePolicy)
    (s : AttributionLoop) (result : AttributionResult) : Prop where
  kind : ∃ evidence, result.kind = (verdict policy (hopSemanticsDeclared catalog s.sources) s evidence).1
  complete : result.exchangesComplete = s.complete
  incomplete : result.exchangesIncomplete = s.incomplete
  negative : result.negativeResiduals = s.negativeResiduals
  endToEnd : ∃ d, aggregate s.endToEnd request.histogram request.probes policy.limits = .ok d ∧
    result.endToEndMeanNs = d.meanNs
  residual : ∃ d, aggregate s.residuals request.histogram request.probes policy.limits = .ok d ∧
    result.residualMinNs = d.minNs ∧ result.residualMaxNs = d.maxNs ∧ result.residualMeanNs = d.meanNs
  hops : ∃ hops, Attribution.contributions request policy.limits 0 s.hops = .ok hops ∧
    result.contributions = (if result.kind.produced then hops.map (share (hops.foldl accountHop (0, false)).1) else hops) ∧
    (result.kind.produced = true → ∃ evidence,
      result.accountedMeanNs = (publishMeans policy (hops.foldl accountHop (0, false)).1 s.complete
        result.endToEndMeanNs evidence).1 ∧
      result.unaccountedMeanNs = (publishMeans policy (hops.foldl accountHop (0, false)).1 s.complete
        result.endToEndMeanNs evidence).2.1)

theorem decompose_decomposed {catalog : Catalog} {request : AttributionRequest} {policy : RuntimePolicy}
    {s : AttributionLoop} {result : AttributionResult} (h : decompose catalog request policy s = .ok result) :
    s.Decomposed catalog request policy result := by
  unfold decompose at h
  obtain ⟨endToEnd, hendToEnd, h⟩ := bind_eq_ok_iff.mp h
  obtain ⟨residual, hresidual, h⟩ := bind_eq_ok_iff.mp h
  obtain ⟨hops, hhops, h⟩ := bind_eq_ok_iff.mp h
  simp only [pure, Except.pure, Except.ok.injEq] at h
  generalize hnoted : (((if (hops.foldl accountHop (0, false)).2 = true then s.evidence.addReason .arithmeticOverflow
    else s.evidence).setState .observed).setFreshness .fresh).setConfidence .high = started at h
  have hproduced : ∀ kind : AttributionKind, (kind = .observedDecomposition ∨ kind = .partialDecomposition) ↔
      kind.produced = true := by
    intro kind
    simp [AttributionKind.produced]
  simp only [hproduced] at h
  subst h
  refine ⟨⟨started, rfl⟩, rfl, rfl, rfl, ⟨endToEnd, hendToEnd, rfl⟩, ⟨residual, hresidual, rfl, rfl, rfl⟩, hops, hhops,
    rfl, ?_⟩
  intro hyes
  simp only at hyes ⊢
  rw [if_pos hyes]
  exact ⟨_, rfl, rfl⟩

theorem AttributionLoop.Decomposed.compareBaseline {records : List MeasurementRecord} {catalog : Catalog}
    {baselines : BaselineStore} {request : AttributionRequest} {policy : RuntimePolicy} {s : AttributionLoop}
    {before result : AttributionResult} (hbefore : s.Decomposed catalog request policy before)
    (h : compareBaseline records catalog baselines request policy before = .ok result) :
    s.Decomposed catalog request policy result := by
  unfold Attribution.compareBaseline at h
  have hsame : ∀ evidence comparison, s.Decomposed catalog request policy
      { before with evidence := evidence, comparison := comparison } := by
    intro evidence comparison
    exact ⟨hbefore.kind, hbefore.complete, hbefore.incomplete, hbefore.negative, hbefore.endToEnd, hbefore.residual,
      hbefore.hops⟩
  split_ifs at h
  · cases h
    exact hbefore
  · split at h
    · cases h
      exact hsame _ _
    · obtain ⟨summary, -, h⟩ := bind_eq_ok_iff.mp h
      simp only [pure, Except.pure, Except.ok.injEq] at h
      subst h
      exact hsame _ _

theorem contributions_forall₂ {request : AttributionRequest} {limits : Limits} {position : Nat}
    {tallies : List HopTally} {found : List HopContribution} (hposition : position ≤ HopIndex.maxExclusive)
    (h : contributions request limits position tallies = .ok found) :
    position + tallies.length ≤ HopIndex.maxExclusive ∧ List.Forall₂ (fun tally c => c.sharePpm = 0 ∧
      ∃ d, aggregate tally.values request.histogram request.probes limits = .ok d ∧ c.sumDwellNs = d.sumNs)
      tallies found := by
  induction tallies generalizing position found with
  | nil =>
    cases h
    exact ⟨hposition, .nil⟩
  | cons tally rest ih =>
    unfold contributions at h
    obtain ⟨d, hd, h⟩ := bind_eq_ok_iff.mp h
    obtain ⟨q, -, h⟩ := bind_eq_ok_iff.mp h
    by_cases hlt : position < HopIndex.maxExclusive
    · obtain ⟨index, hindex, -⟩ := fromValue_ofNat hlt
      rw [hindex] at h
      obtain ⟨others, hothers, h⟩ := bind_eq_ok_iff.mp h
      cases h
      obtain ⟨hlength, hrest⟩ := ih hlt hothers
      rw [List.length_cons]
      exact ⟨by omega, .cons ⟨rfl, d, hd, rfl⟩ hrest⟩
    · have hlast : position = HopIndex.maxExclusive := by omega
      subst hlast
      have herror : HopIndex.fromValue (UInt32.ofNat HopIndex.maxExclusive) =
          .error ⟨.outOfRange, "hop index exceeds the supported maximum", decimal 4096⟩ := rfl
      rw [herror] at h
      cases h

theorem contributions_share {request : AttributionRequest} {limits : Limits} {tallies : List HopTally}
    {found : List HopContribution} (h : contributions request limits 0 tallies = .ok found) :
    ∀ c ∈ found, c.sharePpm = 0 := by
  intro c hc
  obtain ⟨⟨k, hk⟩, rfl⟩ := List.mem_iff_get.mp hc
  obtain ⟨hlengths, hpairs⟩ := List.forall₂_iff_get.mp (contributions_forall₂ (Nat.zero_le _) h).2
  exact (hpairs k (by omega) hk).1

/-- A returned result is the decomposition of a loop that has seen the included exchanges. -/
theorem attributeExchanges_saw {records : List MeasurementRecord} {catalog : Catalog} {clocks : ClockRegistry}
    {baselines : BaselineStore} {request : AttributionRequest} {policy : RuntimePolicy} {result : AttributionResult}
    (h : attributeExchanges records catalog clocks baselines request policy = .ok result) :
    ∃ path s, catalog.path request.path = .ok path ∧ path.hops.length ≤ HopIndex.maxExclusive ∧
      AttributionLoop.Saw clocks path.hops.length (request.included records) s ∧
      s.Decomposed catalog request policy result := by
  unfold attributeExchanges at h
  obtain ⟨-, h⟩ := guard_eq_ok_iff.mp h
  obtain ⟨-, h⟩ := guard_eq_ok_iff.mp h
  obtain ⟨path, hpath, h⟩ := bind_eq_ok_iff.mp h
  obtain ⟨decomposed, hdecomposed, h⟩ := bind_eq_ok_iff.mp h
  have hresult := (decompose_decomposed hdecomposed).compareBaseline h
  have hlength : ∀ records : List MeasurementRecord,
      (records.foldl (AttributionLoop.step clocks request) { hops := path.hops.map fun hop => { hop } }).hops.length =
        path.hops.length := by
    intro records
    exact (AttributionLoop.foldl_drawn clocks request (AttributionLoop.drawn_start path.hops) records).length
  have hbound : path.hops.length ≤ HopIndex.maxExclusive := by
    obtain ⟨hops, hhops, -⟩ := hresult.hops
    have hfits := (contributions_forall₂ (Nat.zero_le _) hhops).1
    rw [hlength, Nat.zero_add] at hfits
    exact hfits
  have hsaw := AttributionLoop.foldl_saw request (AttributionLoop.saw_start clocks path.hops) hbound records
  rw [List.nil_append] at hsaw
  exact ⟨path, _, hpath, hbound, hsaw, hresult⟩

end LatencyObservatory.Attribution
