import LatencyObservatory.Attribution.Readings
import LatencyObservatory.Ingest.Acceptance
import LatencyObservatory.Runtime.Reachable

/-!
# Hops and their dwells

The gate compares the hops of a record with the path as it is defined when the record arrives; the queries
and the baseline comparison look hops up by their index in the path as it is defined when they are asked.
As long as no definition moves a hop that has measurements, and no hop that the gate does not compare sits
in another's place, every dwell is that of the hop it is reported for.
-/

namespace LatencyObservatory.Runtime

open LatencyObservatory.Core LatencyObservatory.Model LatencyObservatory.Ingest LatencyObservatory.Stats
open LatencyObservatory.Baselines LatencyObservatory.Attribution

/-! ### Places -/

/-- The path has the hop at this index. -/
def Located (catalog : Catalog) (path : PathId) (index : HopIndex) (hop : HopId) : Prop :=
  ∃ definition, catalog.paths[path]? = some definition ∧ definition.hops[index.value.toNat]? = some hop

/-- The observation has a value for the queries to aggregate. -/
def carries (observation : HopObservation) : Bool :=
  observation.dwellNs.isSome || observation.queueDwellNs.isSome

/-- Every observation that carries a value stands where the path has its hop. -/
def Placed (catalog : Catalog) (record : MeasurementRecord) : Prop :=
  ∀ observation ∈ record.hops, carries observation = true →
    Located catalog record.path observation.index observation.hop

def PlacedBaseline (catalog : Catalog) (baseline : Baseline) : Prop :=
  ∀ hop ∈ baseline.hops, Located catalog baseline.path hop.index hop.hop

/-- Everything the engine has loaded stands where the paths have it. -/
def Engine.LoadedInPlace (e : Engine) : Prop :=
  (∀ record ∈ e.records, Placed e.catalog record) ∧
    ∀ (id : BaselineId) (baseline : Baseline), e.baselines.baselines[id]? = some baseline →
      PlacedBaseline e.catalog baseline

/-- The gate does not compare the hop with the path: the hop is not defined, or a clock domain is missing. -/
def unchecked (catalog : Catalog) (hop : HopObservation) : Bool :=
  match catalog.hop hop.hop with
  | .error _ => true
  | .ok _ => !(hop.entry.domain.valid && hop.exit.domain.valid)

/-- A submitted hop that the gate does not compare is in its place, or undefined and without a value. -/
def HopInPlace (catalog : Catalog) (path : PathId) (hop : HopObservation) : Prop :=
  unchecked catalog hop = true → Located catalog path hop.index hop.hop ∨
    (catalog.hops[hop.hop]? = none ∧ carries hop = false)

/-- The call moves no hop that has a value, and brings none in another's place: a path that is defined
again keeps its hops and may only get more of them, unless nothing is stored for it. -/
def Call.InPlace (e : Engine) : Call → Prop
  | .definePath definition =>
    (∃ error, (e.catalog.definePath definition).1 = .error error) ∨
      (∀ path, e.catalog.paths[(.deriveFrom definition.name.str : PathId)]? = some path →
        path.hops <+: definition.hops) ∨
      ((∀ record ∈ e.records, record.path ≠ .deriveFrom definition.name.str) ∧
        ∀ (id : BaselineId) (baseline : Baseline), e.baselines.baselines[id]? = some baseline →
          baseline.path ≠ .deriveFrom definition.name.str)
  | .ingest request => ∀ record ∈ request.records,
      (∃ found, e.gate.admissible (IngestGate.stamp request record) = some found) →
        ∀ hop ∈ record.hops, HopInPlace e.catalog record.path hop
  | _ => True

/-! ### What a query aggregates -/

/-- The hops of a baseline were aggregated from measurements of their own. -/
def Measured (limits : Limits) (records : List MeasurementRecord) (baseline : Baseline) : Prop :=
  ∃ (request : SummaryRequest) (earlier : List MeasurementRecord), earlier <+: records ∧
    ∀ hop ∈ baseline.hops,
      aggregate ((request.readings hop.index earlier).filterMap HopObservation.dwellNs) baseline.histogram
        baseline.probes limits = .ok hop.dwell ∧
      aggregate ((request.readings hop.index earlier).filterMap HopObservation.queueDwellNs) baseline.histogram
        baseline.probes limits = .ok hop.queueDwell ∧
      ∀ observation ∈ request.readings hop.index earlier, carries observation = true → observation.hop = hop.hop

/-- Every dwell that a query aggregates for a hop is one of its own. What a loaded baseline was measured
from is not known; of it only the hop it names is compared. -/
structure Engine.Attributed (e : Engine) (loaded : BaselineStore) : Prop where
  summaries : ∀ request summary, e.summarize request = .ok summary → ∀ hop ∈ summary.hops,
    aggregate ((request.readings hop.index e.records).filterMap HopObservation.dwellNs) request.histogram
      request.probes e.policy.limits = .ok hop.dwell ∧
    aggregate ((request.readings hop.index e.records).filterMap HopObservation.queueDwellNs) request.histogram
      request.probes e.policy.limits = .ok hop.queueDwell ∧
    ∀ observation ∈ request.readings hop.index e.records, carries observation = true → observation.hop = hop.hop
  contributions : ∀ request result, e.attributeExchanges request = .ok result → ∀ c ∈ result.contributions,
    (∃ tally, Drawn c.index.value.toNat (request.included e.records) tally ∧
      c.Aggregates request e.policy.limits tally.values tally.queueValues tally.uncertainty) ∧
    ∀ record ∈ request.included e.records, ∀ observation,
      observationAt c.index.value.toNat record = some observation → carries observation = true →
        observation.hop = c.hop
  comparisons : ∀ request summary id baseline, e.summarize request = .ok summary →
    e.baselines.get id = .ok baseline → (compare baseline summary e.policy).applicable = true →
      ∃ anomalies, (compare baseline summary e.policy).anomalies =
          classifyAnomaly summary.endToEnd baseline.endToEnd default .none e.policy :: anomalies ∧
        ∀ anomaly ∈ anomalies, ∃ hop ∈ summary.hops, ∃ reference ∈ baseline.hops,
          anomaly = classifyAnomaly hop.dwell reference.dwell hop.index hop.hop e.policy ∧
          reference.hop = hop.hop ∧
          (loaded.baselines[id]? = some baseline ∨ Measured e.policy.limits e.records baseline)

/-! ### The invariant -/

/-- What is stored stands where the paths have it. -/
structure Fitting (limits : Limits) (loaded : BaselineStore) (m : Memory) : Prop where
  integral : m.catalog.Integral
  records : ∀ record ∈ m.records, Placed m.catalog record
  baselines : ∀ (id : BaselineId) (baseline : Baseline), m.baselines.baselines[id]? = some baseline →
    PlacedBaseline m.catalog baseline ∧ (loaded.baselines[id]? = some baseline ∨ Measured limits m.records baseline)

theorem Measured.more {limits : Limits} {records : List MeasurementRecord} {baseline : Baseline}
    (h : Measured limits records baseline) (more : List MeasurementRecord) :
    Measured limits (records ++ more) baseline := by
  obtain ⟨request, earlier, hpre, hhops⟩ := h
  exact ⟨request, earlier, hpre.trans (List.prefix_append _ _), hhops⟩

theorem Located.definition {c : Call} {e : Engine} {x : Catalog.DefineCall} (hx : c.definition = some x)
    (hallowed : c.InPlace e) (hintegral : e.catalog.Integral) {path : PathId} {index : HopIndex} {hop : HopId}
    (hused : (∃ record ∈ e.records, record.path = path) ∨
      ∃ (id : BaselineId) (baseline : Baseline), e.baselines.baselines[id]? = some baseline ∧ baseline.path = path)
    (h : Located e.catalog path index hop) : Located (e.catalog.call x).2 path index hop := by
  obtain ⟨definition, hdefinition, hhop⟩ := h
  by_cases hpath : ∃ redefinition, x = .path redefinition
  · obtain ⟨redefinition, rfl⟩ := hpath
    have hc : c = .definePath redefinition := by
      cases c <;> simp_all [Call.definition]
    subst hc
    rcases hallowed with ⟨error, herror⟩ | hkept | ⟨hrecords, hbaselines⟩
    · have hsame : (e.catalog.definePath redefinition).2 = e.catalog := by
        apply (Catalog.definePath_sound hintegral redefinition).atomic
        simp [Catalog.settle, herror, Except.map]
      refine ⟨definition, ?_, hhop⟩
      show (e.catalog.definePath redefinition).2.paths[path]? = some definition
      rw [hsame]
      exact hdefinition
    · rcases e.catalog.definePath_paths redefinition hdefinition with hsame | ⟨hid, hnew⟩
      · exact ⟨definition, hsame, hhop⟩
      · refine ⟨_, hnew, ?_⟩
        have hpre := hkept definition (by rw [← hid]; exact hdefinition)
        exact (List.prefix_iff_getElem?.mp hpre _ (List.getElem?_eq_some_iff.mp hhop).1).trans
          (by rw [List.getElem?_eq_getElem (List.getElem?_eq_some_iff.mp hhop).1] at hhop; exact hhop)
    · rcases e.catalog.definePath_paths redefinition hdefinition with hsame | ⟨hid, hnew⟩
      · exact ⟨definition, hsame, hhop⟩
      · rcases hused with ⟨record, hrecord, hrecordPath⟩ | ⟨id, baseline, hbaseline, hbaselinePath⟩
        · exact absurd (hrecordPath.trans hid) (hrecords record hrecord)
        · exact absurd (hbaselinePath.trans hid) (hbaselines id baseline hbaseline)
  · refine ⟨definition, ?_, hhop⟩
    rw [e.catalog.call_paths fun redefinition hsame => hpath ⟨redefinition, hsame⟩]
    exact hdefinition

theorem placed_of_accepted {e : Engine} {request : IngestRequest} {admission : Admission}
    (htaken : e.gate.admitBatch request = .ok admission) (hallowed : (Call.ingest request).InPlace e)
    {record : MeasurementRecord} (hrecord : record ∈ admission.acceptedCurrent ++ admission.acceptedHistory) :
    Placed e.catalog record := by
  obtain ⟨hcurrent, hhistory⟩ := mem_accepted_iff htaken record
  have hpassage : ∃ p ∈ e.gate.batchPassages request, p.2.verdict e.policy p.1 ≠ .rejected ∧
      record = p.2.stored e.policy p.1 := by
    rcases List.mem_append.mp hrecord with hmem | hmem
    · obtain ⟨p, hp, hverdict, hstored⟩ := hcurrent.mp hmem
      have hverdict' : p.2.verdict e.policy p.1 = .acceptedCurrent := hverdict
      exact ⟨p, hp, by rw [hverdict']; decide, hstored⟩
    · obtain ⟨p, hp, hverdict, hstored⟩ := hhistory.mp hmem
      have hverdict' : p.2.verdict e.policy p.1 = .acceptedHistorical := hverdict
      exact ⟨p, hp, by rw [hverdict']; decide, hstored⟩
  obtain ⟨⟨fences, x⟩, hp, hverdict, rfl⟩ := hpassage
  obtain ⟨submitted, hsubmitted, rfl⟩ := IngestGate.mem_batchPassages hp
  obtain ⟨⟨found, hfound⟩, hfrom⟩ := stored_acceptedFrom hverdict
  obtain ⟨path, hpath, hhops⟩ := hfrom.hops
  intro observation hobservation hcarries
  rw [hfrom.path]
  obtain ⟨hop, hhop, hconflicts, hderives⟩ := hhops observation hobservation
  rw [hderives.index, hderives.hop]
  have hpath' : e.catalog.paths[submitted.path]? = some path := Catalog.lookup_ok_iff.mp hpath
  have hplace := hallowed submitted hsubmitted ⟨found, hfound⟩ hop hhop
  cases hunchecked : unchecked e.catalog hop with
  | true =>
    rcases hplace hunchecked with hlocated | ⟨hundefined, hempty⟩
    · exact hlocated
    · -- An undefined hop keeps the dwells it came with, and it came with none.
      have hlookup : ∃ error, e.catalog.hop hop.hop = .error error := by
        unfold Catalog.hop Catalog.lookup
        rw [hundefined]
        exact ⟨_, rfl⟩
      obtain ⟨error, herror⟩ := hlookup
      obtain ⟨hdwell, hqueueDwell⟩ := hderives.undefined error herror
      unfold carries at hcarries hempty
      rw [hdwell, hqueueDwell, hempty] at hcarries
      cases hcarries
  | false =>
    refine ⟨path, hpath', ?_⟩
    unfold unchecked at hunchecked
    unfold hopConflicts at hconflicts
    cases hdefined : e.catalog.hop hop.hop with
    | error error =>
      rw [hdefined] at hunchecked
      cases hunchecked
    | ok definition =>
      rw [hdefined] at hunchecked
      simp only [Bool.not_eq_false'] at hunchecked
      have hconflicts' : (match e.catalog.hop hop.hop with
        | .error _ => false
        | .ok _ => hop.entry.domain.valid && hop.exit.domain.valid &&
            path.hops[hop.index.value.toNat]? != some hop.hop) = false := hconflicts
      rw [hdefined] at hconflicts'
      simpa [hunchecked] using hconflicts'

theorem add_entries {store store' : BaselineStore} {added baseline : Baseline} {id id' : BaselineId}
    (h : store.add added = .ok (id', store')) (hfound : store'.baselines[id]? = some baseline) :
    store.baselines[id]? = some baseline ∨
      (baseline.hops = added.hops ∧ baseline.path = added.path ∧ baseline.histogram = added.histogram ∧
        baseline.probes = added.probes) := by
  unfold BaselineStore.add at h
  obtain ⟨-, h⟩ := guard_eq_ok_iff.mp h
  obtain ⟨-, h⟩ := guard_eq_ok_iff.mp h
  obtain ⟨-, h⟩ := guard_eq_ok_iff.mp h
  obtain ⟨-, h⟩ := guard_eq_ok_iff.mp h
  obtain ⟨-, h⟩ := guard_eq_ok_iff.mp h
  simp only [Except.ok.injEq, Prod.mk.injEq] at h
  obtain ⟨rfl, rfl⟩ := h
  generalize (if added.id.valid then added.id else .deriveFrom added.canonical : BaselineId) = key at hfound
  rw [Std.ExtTreeMap.getElem?_insert] at hfound
  split_ifs at hfound
  · rw [Option.some.injEq] at hfound
    subst hfound
    exact Or.inr ⟨rfl, rfl, rfl, rfl⟩
  · exact Or.inl hfound

theorem Fitting.measured {limits : Limits} {loaded : BaselineStore} {e : Engine} (h : Fitting limits loaded e.memory)
    (hlimits : e.policy.limits = limits) {request : SummaryRequest} {summary : PathSummary}
    (hsummary : e.summarize request = .ok summary) {hop : HopSummary} (hhop : hop ∈ summary.hops) :
    Located e.catalog request.path hop.index hop.hop ∧
      aggregate ((request.readings hop.index e.records).filterMap HopObservation.dwellNs) request.histogram
        request.probes limits = .ok hop.dwell ∧
      aggregate ((request.readings hop.index e.records).filterMap HopObservation.queueDwellNs) request.histogram
        request.probes limits = .ok hop.queueDwell ∧
      ∀ observation ∈ request.readings hop.index e.records, carries observation = true →
        observation.hop = hop.hop := by
  obtain ⟨⟨path, hpath, hplace⟩, hdwell, hqueueDwell⟩ := summarize_hop hsummary hhop
  have hstored : e.catalog.paths[request.path]? = some path := Catalog.lookup_ok_iff.mp hpath
  rw [hlimits] at hdwell hqueueDwell
  refine ⟨⟨path, hstored, hplace⟩, hdwell, hqueueDwell, ?_⟩
  intro observation hobservation hcarries
  obtain ⟨record, hrecord, hat⟩ := List.mem_filterMap.mp hobservation
  obtain ⟨hmem, hclass⟩ := List.mem_filter.mp hrecord
  have hincluded := classifyRecord_included_iff.mp (of_decide_eq_true hclass)
  have hindex : observation.index = hop.index := by
    have := List.find?_some hat
    simpa using this
  obtain ⟨definition, hdefinition, hown⟩ := h.records record hmem observation (List.mem_of_find?_eq_some hat) hcarries
  have hdefinition' : e.catalog.paths[request.path]? = some definition := by
    rw [← hincluded.1]
    exact hdefinition
  rw [hstored, Option.some.injEq] at hdefinition'
  subst hdefinition'
  rw [hindex, hplace, Option.some.injEq] at hown
  exact hown.symm

theorem Fitting.change {limits : Limits} {loaded : BaselineStore} {e : Engine} {c : Call} {m : Memory}
    (hlimits : e.policy.limits = limits) (hallowed : c.InPlace e) (hchange : Change e c m)
    (h : Fitting limits loaded e.memory) : Fitting limits loaded m := by
  cases hchange with
  | none => exact h
  | definition _ x hx =>
    refine ⟨(Catalog.call_sound h.integral x).integral, ?_, ?_⟩
    · intro record hrecord observation hobservation hcarries
      exact (h.records record hrecord observation hobservation hcarries).definition hx hallowed h.integral
        (Or.inl ⟨record, hrecord, rfl⟩)
    · intro id baseline hbaseline
      obtain ⟨hplaced, horigin⟩ := h.baselines id baseline hbaseline
      refine ⟨fun hop hhop => ?_, horigin⟩
      exact (hplaced hop hhop).definition hx hallowed h.integral (Or.inr ⟨id, baseline, hbaseline, rfl⟩)
  | clockDomain definition => exact ⟨h.integral, h.records, h.baselines⟩
  | clockSync sync => exact ⟨h.integral, h.records, h.baselines⟩
  | batch request admission stored htaken hstored =>
    refine ⟨h.integral, ?_, ?_⟩
    · intro record hrecord
      rcases List.mem_append.mp hrecord with hold | hnew
      · exact h.records record hold
      · exact placed_of_accepted htaken hallowed (hstored.subset hnew)
    · intro id baseline hbaseline
      obtain ⟨hplaced, horigin⟩ := h.baselines id baseline hbaseline
      exact ⟨hplaced, horigin.imp_right fun hmeasured => hmeasured.more stored⟩
  | baseline request now summary added baselines hsummary hadd =>
    refine ⟨h.integral, h.records, ?_⟩
    intro id baseline hbaseline
    rcases add_entries hadd hbaseline with hold | ⟨hhops, hpath, hhistogram, hprobes⟩
    · exact h.baselines id baseline hold
    · have hmeasured : ∀ hop ∈ summary.hops, _ := fun hop hhop => h.measured hlimits hsummary hhop
      refine ⟨?_, Or.inr ⟨request.summary, e.records, List.prefix_rfl, ?_⟩⟩
      · intro hop hhop
        rw [hhops] at hhop
        rw [hpath]
        exact (hmeasured hop hhop).1
      · intro hop hhop
        rw [hhops] at hhop
        rw [hhistogram, hprobes]
        exact (hmeasured hop hhop).2

/-! ### The queries -/

@[simp] theorem mismatchIf_applicable (c : BaselineComparison) (condition : Bool) (kind : MismatchKind)
    (detail : String) : (c.mismatchIf condition kind detail).applicable = c.applicable := by
  unfold BaselineComparison.mismatchIf
  split_ifs <;> rfl

@[simp] theorem checkAge_applicable (c : BaselineComparison) (policy : FreshnessPolicy) (age : Nanos) :
    (c.checkAge policy age).applicable = c.applicable := by
  unfold BaselineComparison.checkAge
  split_ifs
  · rfl
  · split <;> rfl

theorem mismatchIf_nil {c : BaselineComparison} {condition : Bool} {kind : MismatchKind} {detail : String}
    (h : (c.mismatchIf condition kind detail).mismatches = []) : condition = false ∧ c.mismatches = [] := by
  unfold BaselineComparison.mismatchIf at h
  cases condition with
  | true => simp [BaselineComparison.addMismatch] at h
  | false => exact ⟨rfl, h⟩

theorem checkAge_nil {c : BaselineComparison} {policy : FreshnessPolicy} {age : Nanos}
    (h : (c.checkAge policy age).mismatches = []) : c.mismatches = [] := by
  unfold BaselineComparison.checkAge at h
  split_ifs at h
  · simp [BaselineComparison.addMismatch] at h
  · split at h
    · simp [BaselineComparison.addMismatch] at h
    · simp [BaselineComparison.addMismatch] at h
    · exact h

theorem compare_applicable {reference : Baseline} {current : PathSummary} {policy : RuntimePolicy}
    (h : (compare reference current policy).applicable = true) :
    reference.path = current.path ∧ (compare reference current policy).anomalies =
      classifyAnomaly current.endToEnd reference.endToEnd default .none policy ::
        current.hops.filterMap fun hop =>
          (reference.hops.find? fun candidate => candidate.index == hop.index).map fun candidate =>
            classifyAnomaly hop.dwell candidate.dwell hop.index hop.hop policy := by
  unfold Baselines.compare at h ⊢
  by_cases hvalid : (!reference.id.valid) = true
  · rw [if_pos hvalid] at h
    cases h
  · rw [if_neg hvalid] at h ⊢
    simp only at h ⊢
    by_cases hmismatch : (!(checkMismatches reference current policy).mismatches.isEmpty) = true
    · rw [if_pos hmismatch] at h
      simp [checkMismatches] at h
    · rw [if_neg hmismatch]
      refine ⟨?_, rfl⟩
      simp only [Bool.not_eq_true', Bool.not_eq_false, List.isEmpty_iff] at hmismatch
      unfold checkMismatches at hmismatch
      have h₈ := checkAge_nil (mismatchIf_nil hmismatch).2
      have h₂ := (mismatchIf_nil (mismatchIf_nil (mismatchIf_nil (mismatchIf_nil (mismatchIf_nil (mismatchIf_nil
        h₈).2).2).2).2).2).2
      simpa using (mismatchIf_nil h₂).1

theorem Fitting.attributed {loaded : BaselineStore} {e : Engine} (h : Fitting e.policy.limits loaded e.memory) :
    e.Attributed loaded := by
  refine ⟨?_, ?_, ?_⟩
  · intro request summary hsummary hop hhop
    exact (h.measured rfl hsummary hhop).2
  · intro request result hresult c hc
    obtain ⟨hcontributions, -⟩ := attributeExchanges_drawn hresult
    obtain ⟨⟨path, hpath, hplace⟩, hdrawn⟩ := hcontributions c hc
    have hstored : e.catalog.paths[request.path]? = some path := Catalog.lookup_ok_iff.mp hpath
    refine ⟨hdrawn, ?_⟩
    intro record hrecord observation hat hcarries
    obtain ⟨hmem, hincluded⟩ := List.mem_filter.mp hrecord
    have hrecordPath : record.path = request.path := by
      simp only [Bool.and_eq_true, decide_eq_true_eq] at hincluded
      exact hincluded.1
    rw [observationAt_index] at hat
    have hindex : observation.index = c.index := by
      have := List.find?_some hat
      simpa using this
    obtain ⟨definition, hdefinition, hhop⟩ :=
      h.records record hmem observation (List.mem_of_find?_eq_some hat) hcarries
    have hdefinition' : e.catalog.paths[request.path]? = some definition := by
      rw [← hrecordPath]
      exact hdefinition
    rw [hstored, Option.some.injEq] at hdefinition'
    subst hdefinition'
    rw [hindex, hplace, Option.some.injEq] at hhop
    exact hhop.symm
  · intro request summary id baseline hsummary hbaseline happlicable
    obtain ⟨hpath, hanomalies⟩ := compare_applicable happlicable
    refine ⟨_, hanomalies, ?_⟩
    intro anomaly hanomaly
    obtain ⟨hop, hhop, hfound⟩ := List.mem_filterMap.mp hanomaly
    obtain ⟨reference, hreference, rfl⟩ := Option.map_eq_some_iff.mp hfound
    have hmem := List.mem_of_find?_eq_some hreference
    have hindex : reference.index = hop.index := by
      have := List.find?_some hreference
      simpa using this
    have hstored : e.baselines.baselines[id]? = some baseline := Catalog.lookup_ok_iff.mp hbaseline
    obtain ⟨hplaced, horigin⟩ := h.baselines id baseline hstored
    refine ⟨hop, hhop, reference, hmem, rfl, ?_, horigin⟩
    obtain ⟨definition, hdefinition, hat⟩ := hplaced reference hmem
    obtain ⟨⟨definition', hdefinition', hat'⟩, -⟩ := h.measured rfl hsummary hhop
    have hsame : baseline.path = request.path := hpath.trans (summarize_path hsummary)
    have hdefinition'' : e.catalog.paths[baseline.path]? = some definition := hdefinition
    rw [hsame, hdefinition', Option.some.injEq] at hdefinition''
    subst hdefinition''
    rw [hindex, hat', Option.some.injEq] at hat
    exact hat.symm

/-- Every dwell is attributed to the hop that was observed, in every state of every run whose calls keep
the hops in place. -/
theorem run_attributed {config : RuntimeConfig} {now : Nanos} {d : Store.Directory} {start : System}
    (h : create config now d = .ok start) (hloaded : start.engine.LoadedInPlace) (calls : List (Nanos × Call))
    (hcalls : ∀ p ∈ Lib.steps System.step start calls, p.2.2.InPlace p.1.engine) :
    (calls.foldl System.step start).engine.Attributed start.engine.baselines := by
  have hintegral := reachable_integral h []
  have hconfig : start.engine.config = config := (@create_inv (fun _ => True) _ _ _ _ h (fun _ _ _ _ _ => trivial) trivial).2
  have hfitting : Fitting config.policy.limits start.engine.baselines start.engine.memory := by
    refine ⟨hintegral, hloaded.1, ?_⟩
    intro id baseline hbaseline
    exact ⟨hloaded.2 id baseline hbaseline, Or.inl hbaseline⟩
  obtain ⟨hfinal, hconfig'⟩ := @System.run_inv_from (Fitting config.policy.limits start.engine.baselines) config start
    hfitting hconfig (fun e c => c.InPlace e)
    (fun e c m hsame hallowed hchange hbefore => hbefore.change (by rw [Engine.policy, hsame]) hallowed hchange) calls hcalls
  apply Fitting.attributed
  rw [Engine.policy, hconfig']
  exact hfinal

/-! ### A path that is defined again -/

/-- A hop that the path gets in the place of the first one. -/
def replacementHop : HopDef := { name := ⟨text "core"⟩, revision := .first }

/-- The sample exchange with an observation of its hop. -/
def measuredRecord : MeasurementRecord :=
  { sampleRecord 1 7 with
    hops := [{ index := default
               hop := .deriveFrom sampleHop.name.str
               entry := ⟨2, referenceClockDomain⟩
               exit := ⟨7, referenceClockDomain⟩ }] }

/-- The sample deployment with one measurement. -/
def measuredCalls : List (Nanos × Call) :=
  [(0, .defineGeneration sampleGeneration), (0, .defineHop sampleHop), (0, .defineHop replacementHop),
    (0, .definePath samplePath), (0, .defineSource (sampleSource 1)),
    (0, .ingest { records := [measuredRecord], receivedAt := ⟨2000000, referenceClockDomain⟩ })]

def measuredEngine (more : List (Nanos × Call)) : Engine :=
  ((measuredCalls ++ more).foldl System.step (storeless false)).engine

def measuredSummary : SummaryRequest :=
  { path := measuredRecord.path
    generation := measuredRecord.generation
    window := ⟨⟨0, referenceClockDomain⟩, ⟨3000000, referenceClockDomain⟩⟩ }

/-- The path at its next revision, with the other hop behind the first one. -/
def extendedPath : PathDef :=
  { samplePath with revision := ⟨2⟩, hops := samplePath.hops ++ [.deriveFrom replacementHop.name.str] }

/-- A path that gets one more hop keeps its dwells. -/
theorem extended_path_attributed :
    (measuredEngine [(0, .definePath extendedPath)]).Attributed (storeless false).engine.baselines := by
  have hloaded : (storeless false).engine.LoadedInPlace := by
    refine ⟨?_, ?_⟩
    · intro record hrecord
      cases hrecord
    · intro id baseline hbaseline
      cases Std.ExtTreeMap.getElem?_empty.symm.trans hbaseline
  unfold measuredEngine
  apply run_attributed (storeless_created false) hloaded
  simp only [measuredCalls, List.cons_append, List.nil_append, Lib.steps, List.forall_mem_cons]
  refine ⟨trivial, trivial, trivial, Or.inr (Or.inl ?_), trivial, ?_, Or.inr (Or.inl ?_), by simp⟩
  · have hnew : ((measuredCalls.take 3).foldl System.step (storeless false)).engine.catalog.paths[
        (.deriveFrom samplePath.name.str : PathId)]? = none := by
      decide +kernel
    intro path hpath
    cases hnew.symm.trans hpath
  · have hchecked : unchecked ((measuredCalls.take 5).foldl System.step (storeless false)).engine.catalog
        (measuredRecord.hops.head (by decide)) = false := by
      decide +kernel
    intro record hrecord _ hop hhop hunchecked
    rw [List.mem_singleton] at hrecord
    subst hrecord
    rw [List.mem_singleton.mp hhop] at hunchecked
    cases hchecked.symm.trans hunchecked
  · have hstored : (measuredCalls.foldl System.step (storeless false)).engine.catalog.paths[
        (.deriveFrom samplePath.name.str : PathId)]? =
          some { samplePath with id := .deriveFrom samplePath.name.str } := by
      decide +kernel
    intro path hpath
    cases hstored.symm.trans hpath
    exact List.prefix_append _ _

/-- The path at its next revision, with the other hop in the place of the first one. -/
def redefinedPath : PathDef :=
  { samplePath with revision := ⟨2⟩, hops := [.deriveFrom replacementHop.name.str] }

/-- The dwell of 5 ns that was observed at the first hop is reported for the other one. -/
theorem redefined_path_misattributed :
    create { readonly := false } 0 ⟨.missing, none, []⟩ = .ok (storeless false) ∧
      ((measuredEngine [(0, .definePath redefinedPath)]).summarize measuredSummary).toOption.map
          (fun summary => summary.hops.map fun hop => (hop.index, hop.hop, hop.dwell.count)) =
        some [(default, .deriveFrom replacementHop.name.str, 1)] ∧
      (measuredSummary.readings default (measuredEngine [(0, .definePath redefinedPath)]).records).map
          (fun observation => (observation.hop, observation.dwellNs)) =
        [(.deriveFrom sampleHop.name.str, some 5)] ∧
      ¬ (measuredEngine [(0, .definePath redefinedPath)]).Attributed (storeless false).engine.baselines := by
  have hsummary : ((measuredEngine [(0, .definePath redefinedPath)]).summarize measuredSummary).toOption.map
      (fun summary => summary.hops.map fun hop => (hop.index, hop.hop, hop.dwell.count)) =
        some [(default, .deriveFrom replacementHop.name.str, 1)] := by
    decide +kernel
  have hreadings : (measuredSummary.readings default (measuredEngine [(0, .definePath redefinedPath)]).records).map
      (fun observation => (observation.hop, observation.dwellNs)) = [(.deriveFrom sampleHop.name.str, some 5)] := by
    decide +kernel
  refine ⟨storeless_created false, hsummary, hreadings, ?_⟩
  intro hattributed
  cases hresult : (measuredEngine [(0, .definePath redefinedPath)]).summarize measuredSummary with
  | error e =>
    rw [hresult] at hsummary
    cases hsummary
  | ok summary =>
    rw [hresult] at hsummary
    simp only [Except.toOption, Option.map_some, Option.some.injEq] at hsummary
    obtain ⟨hop, rest, hhops, hhop, -⟩ := List.map_eq_cons_iff.mp hsummary
    obtain ⟨observation, rest', hobservations, hobservation, -⟩ := List.map_eq_cons_iff.mp hreadings
    simp only [Prod.mk.injEq] at hhop hobservation
    obtain ⟨-, -, hown⟩ := hattributed.summaries measuredSummary summary hresult hop (by rw [hhops]; exact List.mem_cons_self)
    rw [hhop.1, hobservations, hhop.2.1] at hown
    have hsame := hown observation List.mem_cons_self (by simp [carries, hobservation.2])
    rw [hobservation.1] at hsame
    revert hsame
    decide +kernel

end LatencyObservatory.Runtime
