import LatencyObservatory.Attribution.Attribute
import LatencyObservatory.Stats.Readings

/-!
# What a hop contribution is aggregated from

The hop loop of `attribute` looks at a position of the path like `summarize` does: every value of a
contribution is one that stands at its index in an included exchange.
-/

namespace LatencyObservatory.Attribution

open LatencyObservatory.Core LatencyObservatory.Model LatencyObservatory.Stats LatencyObservatory.Baselines

/-- The observation at a position of the path. -/
def observationAt (position : Nat) (record : MeasurementRecord) : Option HopObservation :=
  match HopIndex.fromValue (UInt32.ofNat position) with
  | .ok index => record.hopAt index
  | .error _ => none

theorem observationAt_index (index : HopIndex) (record : MeasurementRecord) :
    observationAt index.value.toNat record = record.hopAt index := by
  have hvalid : HopIndex.fromValue (UInt32.ofNat index.value.toNat) = .ok index := by
    rw [UInt32.ofNat_toNat]
    exact dif_pos index.lt_maxExclusive
  unfold observationAt
  rw [hvalid]

def dwellAt (position : Nat) (record : MeasurementRecord) : Option Nanos :=
  (observationAt position record).bind HopObservation.dwellNs

def queueDwellAt (position : Nat) (record : MeasurementRecord) : Option Nanos :=
  (observationAt position record).bind HopObservation.queueDwellNs

def uncertaintyAt (position : Nat) (record : MeasurementRecord) : Option Nanos :=
  (observationAt position record).bind HopObservation.dwellUncertaintyNs

/-- The largest uncertainty that was reported. -/
def mergedUncertainty (position : Nat) (records : List MeasurementRecord) : Option Nanos :=
  records.foldl (fun known record => ExchangeScan.mergeUncertainty known (uncertaintyAt position record)) none

/-! ### One exchange -/

/-- The scan of one exchange leaves the values of a hop alone; its uncertainty may meet that of a dwell. -/
structure Scanned (position : Nat) (record : MeasurementRecord) (before after : HopTally) : Prop where
  hop : after.hop = before.hop
  values : after.values = before.values
  queueValues : after.queueValues = before.queueValues
  uncertainty : after.uncertainty = before.uncertainty ∨
    ((dwellAt position record).isSome ∧
      after.uncertainty = ExchangeScan.mergeUncertainty before.uncertainty (uncertaintyAt position record))

theorem Scanned.unchanged (position : Nat) (record : MeasurementRecord) (tally : HopTally) :
    Scanned position record tally tally :=
  ⟨rfl, rfl, rfl, Or.inl rfl⟩

/-- What a scan adds to its lists: a tally, and in a complete exchange the values of the position. -/
def Pushed (position : Nat) (record : MeasurementRecord) (tally : HopTally) (before after : ExchangeScan) : Prop :=
  ∃ tally' dwell queueDwell, after.hops = before.hops ++ [tally'] ∧
    after.timeline = before.timeline ++ [dwell] ∧ after.queueTimeline = before.queueTimeline ++ [queueDwell] ∧
    Scanned position record tally tally' ∧
    (after.complete = true → before.complete = true ∧ dwell = dwellAt position record ∧
      queueDwell = queueDwellAt position record)

theorem scanHop_pushed {clocks : ClockRegistry} {record : MeasurementRecord} {s : ExchangeScan} {tally : HopTally}
    {position : Nat} {index : HopIndex} (hindex : HopIndex.fromValue (UInt32.ofNat position) = .ok index) :
    Pushed position record tally s (s.scanHop clocks record tally index) := by
  have hobservation : observationAt position record = record.hopAt index := by
    unfold observationAt
    rw [hindex]
  unfold ExchangeScan.scanHop
  cases hhop : record.hopAt index with
  | none => exact ⟨_, none, none, rfl, rfl, rfl, ⟨rfl, rfl, rfl, Or.inl rfl⟩, by simp [ExchangeScan.absent]⟩
  | some observation =>
    rw [hhop] at hobservation
    simp only
    cases hdwell : observation.dwellNs with
    | none => exact ⟨_, none, none, rfl, rfl, rfl, ⟨rfl, rfl, rfl, Or.inl rfl⟩, by simp [ExchangeScan.absent]⟩
    | some dwell =>
      have hsome : dwellAt position record = some dwell := by
        unfold dwellAt
        rw [hobservation]
        exact hdwell
      simp only
      split
      · exact ⟨_, none, none, rfl, rfl, rfl, .unchanged _ _ _, by simp [ExchangeScan.refuse]⟩
      · refine ⟨_, some dwell, observation.queueDwellNs, rfl, rfl, rfl, ⟨rfl, rfl, rfl, Or.inr ⟨?_, ?_⟩⟩, ?_⟩
        · rw [hsome]
          rfl
        · unfold uncertaintyAt
          rw [hobservation]
          rfl
        · intro hcomplete
          refine ⟨hcomplete, hsome.symm, ?_⟩
          unfold queueDwellAt
          rw [hobservation]
          rfl

/-- The hop loop gives every hop its tally, and in a complete exchange the values of its position. -/
theorem scanHops_spec (clocks : ClockRegistry) (record : MeasurementRecord) (position : Nat)
    (tallies : List HopTally) (s : ExchangeScan) :
    ∃ hops timeline queueTimeline, (s.scanHops clocks record position tallies).hops = s.hops ++ hops ∧
      (s.scanHops clocks record position tallies).timeline = s.timeline ++ timeline ∧
      (s.scanHops clocks record position tallies).queueTimeline = s.queueTimeline ++ queueTimeline ∧
      hops.length = tallies.length ∧
      (∀ (k : Nat) (before after : HopTally), tallies[k]? = some before → hops[k]? = some after →
        Scanned (position + k) record before after) ∧
      ((s.scanHops clocks record position tallies).complete = true → s.complete = true ∧
        timeline = (List.range' position tallies.length).map (dwellAt · record) ∧
        queueTimeline = (List.range' position tallies.length).map (queueDwellAt · record)) := by
  induction tallies generalizing position s with
  | nil => exact ⟨[], [], [], by simp [ExchangeScan.scanHops]⟩
  | cons tally rest ih =>
    unfold ExchangeScan.scanHops
    cases hindex : HopIndex.fromValue (UInt32.ofNat position) with
    | error e =>
      -- Past the supported indices every hop is pushed as it is, and the exchange is not complete.
      have hpush : ∀ (rest : List HopTally) (s : ExchangeScan),
          (rest.foldl (fun s tally => s.push tally none none) s).hops = s.hops ++ rest ∧
            (rest.foldl (fun s tally => s.push tally none none) s).timeline =
              s.timeline ++ rest.map (fun _ => none) ∧
            (rest.foldl (fun s tally => s.push tally none none) s).queueTimeline =
              s.queueTimeline ++ rest.map (fun _ => none) := by
        intro rest
        induction rest with
        | nil => simp
        | cons tally rest ih =>
          intro s
          obtain ⟨hhops, htimeline, hqueue⟩ := ih (s.push tally none none)
          rw [List.foldl_cons, hhops, htimeline, hqueue]
          simp [ExchangeScan.push]
      obtain ⟨hhops, htimeline, hqueue⟩ := hpush rest (s.push tally none none)
      refine ⟨tally :: rest, none :: rest.map (fun _ => none), none :: rest.map (fun _ => none), ?_, ?_, ?_, rfl, ?_,
        by simp⟩
      · simp only [hhops]
        simp [ExchangeScan.push]
      · simp only [htimeline]
        simp [ExchangeScan.push]
      · simp only [hqueue]
        simp [ExchangeScan.push]
      · intro k before after hbefore hafter
        rw [hbefore, Option.some.injEq] at hafter
        subst hafter
        exact .unchanged _ _ _
    | ok index =>
      simp only
      obtain ⟨tally', dwell, queueDwell, hhops, htimeline, hqueue, hscanned, hcomplete⟩ :=
        @scanHop_pushed clocks record s tally position index hindex
      obtain ⟨hops, timeline, queueTimeline, hhops', htimeline', hqueue', hlength, hall, hcomplete'⟩ :=
        ih (position + 1) (s.scanHop clocks record tally index)
      refine ⟨tally' :: hops, dwell :: timeline, queueDwell :: queueTimeline, ?_, ?_, ?_, by simp [hlength], ?_, ?_⟩
      · rw [hhops', hhops, List.append_assoc, List.singleton_append]
      · rw [htimeline', htimeline, List.append_assoc, List.singleton_append]
      · rw [hqueue', hqueue, List.append_assoc, List.singleton_append]
      · intro k before after hbefore hafter
        cases k with
        | zero =>
          rw [List.getElem?_cons_zero, Option.some.injEq] at hbefore hafter
          subst hbefore hafter
          exact hscanned
        | succ k =>
          rw [List.getElem?_cons_succ] at hbefore hafter
          have hrest := hall k before after hbefore hafter
          rw [Nat.add_right_comm, Nat.add_assoc] at hrest
          exact hrest
      · intro hdone
        obtain ⟨hnext, rfl, rfl⟩ := hcomplete' hdone
        obtain ⟨hfirst, rfl, rfl⟩ := hcomplete hnext
        exact ⟨hfirst, by simp [List.range'_succ], by simp [List.range'_succ]⟩

/-! ### All exchanges -/

/-- Everything a hop has collected was drawn from these exchanges, at its position. -/
structure Drawn (position : Nat) (records : List MeasurementRecord) (tally : HopTally) : Prop where
  values : ∃ exchanges : List MeasurementRecord, exchanges.Sublist records ∧
    tally.values = exchanges.filterMap (dwellAt position) ∧
    tally.queueValues = exchanges.filterMap (queueDwellAt position)
  uncertainty : ∃ measured : List MeasurementRecord, measured.Sublist records ∧
    (∀ record ∈ measured, (dwellAt position record).isSome) ∧
    tally.uncertainty = mergedUncertainty position measured

/-- The hops of a loop over the path. -/
structure AttributionLoop.Drawn (hops : List HopId) (records : List MeasurementRecord) (s : AttributionLoop) : Prop where
  length : s.hops.length = hops.length
  hop : ∀ (k : Nat) (tally : HopTally), s.hops[k]? = some tally → hops[k]? = some tally.hop
  drawn : ∀ (k : Nat) (tally : HopTally), s.hops[k]? = some tally → Attribution.Drawn k records tally

/-- The exchanges that the decomposition looks at. -/
def AttributionRequest.included (request : AttributionRequest) (records : List MeasurementRecord) :
    List MeasurementRecord :=
  records.filter fun record => decide (record.path = request.path) && request.includes record

theorem Drawn.more {position : Nat} {records : List MeasurementRecord} {tally : HopTally}
    (h : Drawn position records tally) (more : List MeasurementRecord) : Drawn position (records ++ more) tally := by
  obtain ⟨⟨exchanges, hexchanges, hvalues⟩, ⟨measured, hmeasured, huncertainty⟩⟩ := h
  exact ⟨⟨exchanges, hexchanges.trans (List.sublist_append_left _ _), hvalues⟩,
    ⟨measured, hmeasured.trans (List.sublist_append_left _ _), huncertainty⟩⟩

theorem Drawn.scanned {position : Nat} {records : List MeasurementRecord} {record : MeasurementRecord}
    {before after : HopTally} (h : Drawn position records before) (hscanned : Scanned position record before after) :
    Drawn position (records ++ [record]) after := by
  refine ⟨?_, ?_⟩
  · rw [hscanned.values, hscanned.queueValues]
    exact (h.more [record]).values
  · rcases hscanned.uncertainty with hsame | ⟨hdwell, hmerged⟩
    · rw [hsame]
      exact (h.more [record]).uncertainty
    · obtain ⟨measured, hmeasured, hall, huncertainty⟩ := h.uncertainty
      refine ⟨measured ++ [record], hmeasured.append (List.Sublist.refl _), ?_, ?_⟩
      · intro r hr
        rcases List.mem_append.mp hr with hr | hr
        · exact hall r hr
        · rw [List.mem_singleton] at hr
          rw [hr]
          exact hdwell
      · rw [hmerged, huncertainty]
        simp [mergedUncertainty]

theorem Drawn.recorded {position : Nat} {records : List MeasurementRecord} {record : MeasurementRecord}
    {before after : HopTally} (h : Drawn position records before) (hscanned : Scanned position record before after) :
    Drawn position (records ++ [record])
      (after.record (dwellAt position record) (queueDwellAt position record)) := by
  refine ⟨?_, (h.scanned hscanned).uncertainty⟩
  obtain ⟨exchanges, hexchanges, hvalues, hqueueValues⟩ := h.values
  refine ⟨exchanges ++ [record], hexchanges.append (List.Sublist.refl _), ?_, ?_⟩
  · show after.values ++ _ = _
    rw [hscanned.values, hvalues, List.filterMap_append]
    cases hdwell : dwellAt position record <;> simp [hdwell]
  · show after.queueValues ++ _ = _
    rw [hscanned.queueValues, hqueueValues, List.filterMap_append]
    cases hdwell : queueDwellAt position record <;> simp [hdwell]

namespace AttributionLoop

variable {hops : List HopId} {records : List MeasurementRecord} {record : MeasurementRecord} {s : AttributionLoop}

theorem Drawn.scannedHops (h : s.Drawn hops records) {after : List HopTally} (hlength : after.length = s.hops.length)
    (hscanned : ∀ (k : Nat) (tally tally' : HopTally), s.hops[k]? = some tally → after[k]? = some tally' →
      Scanned k record tally tally') (k : Nat) (tally' : HopTally) (hk : after[k]? = some tally') :
    ∃ tally, hops[k]? = some tally'.hop ∧ Attribution.Drawn k records tally ∧ Scanned k record tally tally' := by
  have hlt : k < s.hops.length := by
    rw [← hlength]
    exact (List.getElem?_eq_some_iff.mp hk).1
  have hbefore := List.getElem?_eq_getElem hlt
  have hpair := hscanned k _ tally' hbefore hk
  refine ⟨s.hops[k], ?_, h.drawn k _ hbefore, hpair⟩
  rw [hpair.hop]
  exact h.hop k _ hbefore

theorem contribute_hops (clocks : ClockRegistry) (s : AttributionLoop) (record : MeasurementRecord) :
    ∃ started : ExchangeScan, started.hops = [] ∧ started.timeline = [] ∧ started.queueTimeline = [] ∧
      ((s.contribute clocks record).hops = (started.scanHops clocks record 0 s.hops).hops ∨
        ((started.scanHops clocks record 0 s.hops).complete = true ∧
          (s.contribute clocks record).hops = ((started.scanHops clocks record 0 s.hops).hops.zip
            ((started.scanHops clocks record 0 s.hops).timeline.zip
              (started.scanHops clocks record 0 s.hops).queueTimeline)).map fun entry =>
                entry.1.record entry.2.1 entry.2.2)) := by
  have hshape : ∀ (s' : AttributionLoop) (scan : ExchangeScan) (endToEnd : Nanos), s'.hops = scan.hops →
      ((if !scan.complete || endToEnd < 0 then { s' with incomplete := s'.incomplete + 1 }
        else s'.settle scan endToEnd).hops = scan.hops ∨
      (scan.complete = true ∧ (if !scan.complete || endToEnd < 0 then { s' with incomplete := s'.incomplete + 1 }
        else s'.settle scan endToEnd).hops =
          (scan.hops.zip (scan.timeline.zip scan.queueTimeline)).map fun entry =>
            entry.1.record entry.2.1 entry.2.2)) := by
    intro s' scan endToEnd hhops
    split_ifs with hdone
    · exact Or.inl hhops
    · unfold AttributionLoop.settle
      split
      · exact Or.inl hhops
      · refine Or.inr ⟨?_, rfl⟩
        simp only [Bool.or_eq_true, Bool.not_eq_true', not_or, Bool.not_eq_false] at hdone
        exact hdone.1
  unfold AttributionLoop.contribute
  rcases exchangeOffset clocks record with ⟨offset, refused⟩
  cases refused with
  | none => exact ⟨_, rfl, rfl, rfl, hshape _ _ _ rfl⟩
  | some evidence => exact ⟨_, rfl, rfl, rfl, hshape _ _ _ rfl⟩

theorem Drawn.contribute (h : s.Drawn hops records) (clocks : ClockRegistry) (record : MeasurementRecord) :
    (s.contribute clocks record).Drawn hops (records ++ [record]) := by
  obtain ⟨started, hnone, hnone', hnone'', hcases⟩ := contribute_hops clocks s record
  obtain ⟨after, timeline, queueTimeline, hhops, htimeline, hqueue, hlength, hscanned, hcomplete⟩ :=
    scanHops_spec clocks record 0 s.hops started
  simp only [Nat.zero_add] at hscanned
  rw [hnone, List.nil_append] at hhops
  rw [hnone', List.nil_append] at htimeline
  rw [hnone'', List.nil_append] at hqueue
  rcases hcases with hkept | ⟨hall, hrecorded⟩
  · rw [hhops] at hkept
    refine ⟨by rw [hkept, hlength, h.length], ?_, ?_⟩
    · intro k tally' hk
      rw [hkept] at hk
      obtain ⟨tally, hhop, -, -⟩ := h.scannedHops hlength hscanned k tally' hk
      exact hhop
    · intro k tally' hk
      rw [hkept] at hk
      obtain ⟨tally, -, hdrawn, hpair⟩ := h.scannedHops hlength hscanned k tally' hk
      exact hdrawn.scanned hpair
  · obtain ⟨-, hdwells, hqueueDwells⟩ := hcomplete hall
    rw [hhops, htimeline, hqueue, hdwells, hqueueDwells] at hrecorded
    have hentry : ∀ (k : Nat) (tally : HopTally), (s.contribute clocks record).hops[k]? = some tally →
        ∃ tally', after[k]? = some tally' ∧ tally = tally'.record (dwellAt k record) (queueDwellAt k record) := by
      intro k tally hk
      rw [hrecorded, List.getElem?_map, Option.map_eq_some_iff] at hk
      obtain ⟨⟨tally', dwell, queueDwell⟩, hzip, rfl⟩ := hk
      rw [List.getElem?_zip_eq_some, List.getElem?_zip_eq_some] at hzip
      obtain ⟨htally, hdwell, hqueueDwell⟩ := hzip
      have hlt : k < s.hops.length := by
        rw [← hlength]
        exact (List.getElem?_eq_some_iff.mp htally).1
      simp only [List.getElem?_map, List.getElem?_range' hlt, Option.map_some, Nat.zero_add, Nat.one_mul,
        Option.some.injEq] at hdwell hqueueDwell
      exact ⟨tally', htally, by rw [hdwell, hqueueDwell]⟩
    refine ⟨by simp [hrecorded, hlength, h.length], ?_, ?_⟩
    · intro k tally hk
      obtain ⟨tally', hk', rfl⟩ := hentry k tally hk
      obtain ⟨-, hhop, -, -⟩ := h.scannedHops hlength hscanned k tally' hk'
      exact hhop
    · intro k tally hk
      obtain ⟨tally', hk', rfl⟩ := hentry k tally hk
      obtain ⟨tally, -, hdrawn, hpair⟩ := h.scannedHops hlength hscanned k tally' hk'
      exact hdrawn.recorded hpair

theorem drawn_start (hops : List HopId) :
    Drawn hops [] ({ hops := hops.map fun hop => { hop } } : AttributionLoop) := by
  refine ⟨by simp, ?_, ?_⟩
  · intro k tally hk
    rw [List.getElem?_map, Option.map_eq_some_iff] at hk
    obtain ⟨hop, hhop, rfl⟩ := hk
    exact hhop
  · intro k tally hk
    rw [List.getElem?_map, Option.map_eq_some_iff] at hk
    obtain ⟨hop, hhop, rfl⟩ := hk
    exact ⟨⟨[], List.nil_sublist _, rfl, rfl⟩, ⟨[], List.nil_sublist _, by simp, rfl⟩⟩

theorem foldl_included {clocks : ClockRegistry} {request : AttributionRequest}
    {P : List MeasurementRecord → AttributionLoop → Prop}
    (hconsidered : ∀ records s, P records s → P records { s with considered := s.considered + 1 })
    (hcontribute : ∀ records s record, P records s → P (records ++ [record]) (s.contribute clocks record))
    (h : P records s) (rest : List MeasurementRecord) :
    P (records ++ request.included rest) (rest.foldl (step clocks request) s) := by
  induction rest generalizing s records with
  | nil =>
    rw [List.foldl_nil, AttributionRequest.included, List.filter_nil, List.append_nil]
    exact h
  | cons record rest ih =>
    rw [List.foldl_cons, AttributionRequest.included, List.filter_cons]
    unfold step
    by_cases hpath : record.path = request.path
    · rw [if_neg (not_not.mpr hpath)]
      simp only [hpath, decide_true, Bool.true_and]
      have hcounted := hconsidered records s h
      by_cases hincluded : request.includes record = true
      · rw [if_pos hincluded, if_pos hincluded]
        have hmore := ih (hcontribute _ _ record hcounted)
        rw [List.append_assoc] at hmore
        exact hmore
      · rw [if_neg hincluded, if_neg hincluded]
        exact ih hcounted
    · rw [if_pos hpath, if_neg (by simp [hpath])]
      exact ih h

theorem foldl_drawn (clocks : ClockRegistry) (request : AttributionRequest) (h : s.Drawn hops records)
    (rest : List MeasurementRecord) :
    (rest.foldl (step clocks request) s).Drawn hops (records ++ request.included rest) := by
  apply @foldl_included records s clocks request (fun records s => s.Drawn hops records) _ _ h
  · intro records s h
    exact ⟨h.length, h.hop, h.drawn⟩
  · intro records s record h
    exact h.contribute clocks record

end AttributionLoop

/-! ### The result -/

/-- The means of a contribution are those of these values. -/
structure HopContribution.Aggregates (c : HopContribution) (request : AttributionRequest) (limits : Limits)
    (values queueValues : List Nanos) (uncertainty : Option Nanos) : Prop where
  dwell : ∃ d, aggregate values request.histogram request.probes limits = .ok d ∧ c.meanDwellNs = d.meanNs ∧
    c.sumDwellNs = d.sumNs
  queueDwell : ∃ d, aggregate queueValues request.histogram request.probes limits = .ok d ∧
    c.meanQueueDwellNs = d.meanNs
  uncertainty : c.uncertaintyNs = uncertainty

theorem HopContribution.Aggregates.share {c : HopContribution} {request : AttributionRequest} {limits : Limits}
    {values queueValues : List Nanos} {uncertainty : Option Nanos} (accounted : UInt64)
    (h : c.Aggregates request limits values queueValues uncertainty) :
    (share accounted c).Aggregates request limits values queueValues uncertainty ∧
      (share accounted c).index = c.index ∧ (share accounted c).hop = c.hop := by
  unfold Attribution.share
  split
  · split_ifs
    · exact ⟨h, rfl, rfl⟩
    · exact ⟨⟨h.dwell, h.queueDwell, h.uncertainty⟩, rfl, rfl⟩
  · exact ⟨h, rfl, rfl⟩

theorem contributions_mem {request : AttributionRequest} {limits : Limits} {position : Nat} {tallies : List HopTally}
    {found : List HopContribution} (hposition : position ≤ HopIndex.maxExclusive)
    (h : contributions request limits position tallies = .ok found) {c : HopContribution} (hc : c ∈ found) :
    ∃ k tally, tallies[k]? = some tally ∧ c.index.value.toNat = position + k ∧ c.hop = tally.hop ∧
      c.Aggregates request limits tally.values tally.queueValues tally.uncertainty := by
  induction tallies generalizing position found with
  | nil =>
    cases h
    cases hc
  | cons tally rest ih =>
    unfold contributions at h
    obtain ⟨d, hd, h⟩ := bind_eq_ok_iff.mp h
    obtain ⟨q, hq, h⟩ := bind_eq_ok_iff.mp h
    by_cases hlt : position < HopIndex.maxExclusive
    · obtain ⟨index, hindex, hvalue⟩ := fromValue_ofNat hlt
      rw [hindex] at h
      obtain ⟨others, hothers, h⟩ := bind_eq_ok_iff.mp h
      cases h
      rcases List.mem_cons.mp hc with rfl | hrest
      · exact ⟨0, tally, rfl, hvalue, rfl, ⟨d, hd, rfl, rfl⟩, ⟨q, hq, rfl⟩, rfl⟩
      · obtain ⟨k, tally', hk, hindex', hhop, haggregates⟩ := ih hlt hothers hrest
        refine ⟨k + 1, tally', by rw [List.getElem?_cons_succ]; exact hk, ?_, hhop, haggregates⟩
        omega
    · have hlast : position = HopIndex.maxExclusive := by omega
      subst hlast
      have herror : HopIndex.fromValue (UInt32.ofNat HopIndex.maxExclusive) =
          .error ⟨.outOfRange, "hop index exceeds the supported maximum", decimal 4096⟩ := rfl
      rw [herror] at h
      cases h

theorem decompose_mem {catalog : Catalog} {request : AttributionRequest} {policy : RuntimePolicy} {s : AttributionLoop}
    {result : AttributionResult} (h : decompose catalog request policy s = .ok result) :
    result.comparison = none ∧ ∀ c ∈ result.contributions, ∃ k tally, s.hops[k]? = some tally ∧
      c.index.value.toNat = k ∧ c.hop = tally.hop ∧
      c.Aggregates request policy.limits tally.values tally.queueValues tally.uncertainty := by
  unfold decompose at h
  obtain ⟨endToEnd, -, h⟩ := bind_eq_ok_iff.mp h
  obtain ⟨residual, -, h⟩ := bind_eq_ok_iff.mp h
  obtain ⟨hops, hhops, h⟩ := bind_eq_ok_iff.mp h
  simp only [pure, Except.pure, Except.ok.injEq] at h
  have hcases : result.contributions = hops.map (share (hops.foldl accountHop (0, false)).1) ∨
      result.contributions = hops := by
    rw [← h]
    exact ite_eq_or_eq _ _ _
  refine ⟨by rw [← h], fun c hc => ?_⟩
  have hfound : ∀ c ∈ hops, ∃ k tally, s.hops[k]? = some tally ∧
      c.index.value.toNat = k ∧ c.hop = tally.hop ∧
      c.Aggregates request policy.limits tally.values tally.queueValues tally.uncertainty := by
    intro c hc
    obtain ⟨k, tally, hk, hindex, hhop, haggregates⟩ := contributions_mem (Nat.zero_le _) hhops hc
    rw [Nat.zero_add] at hindex
    exact ⟨k, tally, hk, hindex, hhop, haggregates⟩
  rcases hcases with hshared | hplain
  · rw [hshared] at hc
    obtain ⟨c', hc', rfl⟩ := List.mem_map.mp hc
    obtain ⟨k, tally, hk, hindex, hhop, haggregates⟩ := hfound c' hc'
    obtain ⟨hshared, hindex', hhop'⟩ := haggregates.share (hops.foldl accountHop (0, false)).1
    exact ⟨k, tally, hk, by rw [hindex', hindex], hhop'.trans hhop, hshared⟩
  · rw [hplain] at hc
    exact hfound c hc

theorem compareBaseline_cases {records : List MeasurementRecord} {catalog : Catalog} {baselines : BaselineStore}
    {request : AttributionRequest} {policy : RuntimePolicy} {before result : AttributionResult}
    (h : compareBaseline records catalog baselines request policy before = .ok result) :
    result.contributions = before.contributions ∧ (result.comparison = before.comparison ∨
      ∃ reference summary, baselines.get request.baseline = .ok reference ∧
        summarize records catalog
          { path := request.path, generation := request.generation, mode := request.mode, window := request.window
            histogram := request.histogram, probes := request.probes } policy = .ok summary ∧
        result.comparison = some (compare reference summary policy)) := by
  unfold compareBaseline at h
  split_ifs at h
  · cases h
    exact ⟨rfl, Or.inl rfl⟩
  · split at h
    · cases h
      exact ⟨rfl, Or.inl rfl⟩
    · rename_i reference hreference
      obtain ⟨summary, hsummary, h⟩ := bind_eq_ok_iff.mp h
      cases h
      exact ⟨rfl, Or.inr ⟨reference, summary, hreference, hsummary, rfl⟩⟩

/-- Every contribution stands where the path has its hop, and is drawn from the included exchanges at its
index; a comparison is that of a summary of the same exchanges. -/
theorem attributeExchanges_drawn {records : List MeasurementRecord} {catalog : Catalog} {clocks : ClockRegistry}
    {baselines : BaselineStore} {request : AttributionRequest} {policy : RuntimePolicy} {result : AttributionResult}
    (h : attributeExchanges records catalog clocks baselines request policy = .ok result) :
    (∀ c ∈ result.contributions,
      (∃ path, catalog.path request.path = .ok path ∧ path.hops[c.index.value.toNat]? = some c.hop) ∧
      ∃ tally, Drawn c.index.value.toNat (request.included records) tally ∧
        c.Aggregates request policy.limits tally.values tally.queueValues tally.uncertainty) ∧
    ∀ comparison, result.comparison = some comparison →
      ∃ reference summary, baselines.get request.baseline = .ok reference ∧
        summarize records catalog
          { path := request.path, generation := request.generation, mode := request.mode, window := request.window
            histogram := request.histogram, probes := request.probes } policy = .ok summary ∧
        comparison = compare reference summary policy := by
  unfold attributeExchanges at h
  obtain ⟨-, h⟩ := guard_eq_ok_iff.mp h
  obtain ⟨-, h⟩ := guard_eq_ok_iff.mp h
  obtain ⟨path, hpath, h⟩ := bind_eq_ok_iff.mp h
  obtain ⟨decomposed, hdecomposed, h⟩ := bind_eq_ok_iff.mp h
  obtain ⟨hcontributions, hcomparison⟩ := compareBaseline_cases h
  obtain ⟨hnone, hmem⟩ := decompose_mem hdecomposed
  refine ⟨?_, ?_⟩
  · intro c hc
    rw [hcontributions] at hc
    obtain ⟨k, tally, hk, hindex, hhop, haggregates⟩ := hmem c hc
    have hdrawn := AttributionLoop.foldl_drawn clocks request (AttributionLoop.drawn_start path.hops) records
    rw [hindex, hhop]
    exact ⟨⟨path, hpath, hdrawn.hop k tally hk⟩, tally, hdrawn.drawn k tally hk, haggregates⟩
  · intro comparison hsome
    rcases hcomparison with hsame | ⟨reference, summary, hreference, hsummary, hcompared⟩
    · rw [hsame, hnone] at hsome
      cases hsome
    · rw [hcompared, Option.some.injEq] at hsome
      exact ⟨reference, summary, hreference, hsummary, hsome.symm⟩

end LatencyObservatory.Attribution
