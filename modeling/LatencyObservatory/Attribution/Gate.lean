import LatencyObservatory.Attribution.Exchanges
import LatencyObservatory.Stats.Accounting

/-!
# The gate of a decomposition

A decomposition is produced behind gates on semantics, clocks and coverage. The clock gate looks at the entry
domain of the dwells at the declared hops; the exit domain of a dwell, and the dwells that no declared hop reads,
pass it unseen.
-/

namespace LatencyObservatory.Attribution

open LatencyObservatory.Core LatencyObservatory.Model LatencyObservatory.Stats LatencyObservatory.Baselines

/-! ### What a produced decomposition should say -/

/-- Every clock domain of a hop dwell, entry and exit, is comparable with the exchange domain. -/
def DwellsComparable (clocks : ClockRegistry) (record : MeasurementRecord) : Prop :=
  ∀ observation ∈ record.hops, observation.dwellNs.isSome = true →
    comparable clocks record observation.entry.domain record.domain = true ∧
      comparable clocks record observation.exit.domain record.domain = true

/-- The gates that a produced decomposition has passed. -/
structure Gated (records : List MeasurementRecord) (catalog : Catalog) (clocks : ClockRegistry)
    (request : AttributionRequest) (policy : RuntimePolicy) (result : AttributionResult) : Prop where
  declared : ∃ record ∈ request.included records, ∃ source, catalog.source record.source = .ok source ∧
    source.semantics.has .hopDwell = true
  exchange : ∀ record ∈ request.included records, record.domain = referenceClockDomain ∨
    comparable clocks record record.domain referenceClockDomain = true
  dwells : ∀ record ∈ request.included records, DwellsComparable clocks record
  observed : result.kind = .observedDecomposition → result.exchangesIncomplete = 0
  partly : result.kind = .partialDecomposition →
    policy.attribution.allowPartialDecomposition = true ∧ 1 ≤ result.exchangesComplete

/-- The domains of hop dwells that the clock gate does not look at: the exits, and the entries of observations
that stand at none of the `n` declared hops. -/
def UnseenComparable (clocks : ClockRegistry) (n : Nat) (record : MeasurementRecord) : Prop :=
  ∀ observation ∈ record.hops, observation.dwellNs.isSome = true →
    comparable clocks record observation.exit.domain record.domain = true ∧
      ((∀ k < n, observationAt k record ≠ some observation) →
        comparable clocks record observation.entry.domain record.domain = true)

/-! ### What the gates let through -/

theorem mem_addSource {sources : List SourceId} {source id : SourceId} (h : id ∈ addSource sources source) :
    id ∈ sources ∨ id = source := by
  unfold addSource at h
  split_ifs at h
  · exact Or.inl h
  · simpa using h

theorem mem_collectSources {records : List MeasurementRecord} {sources : List SourceId} {id : SourceId}
    (h : id ∈ collectSources records sources) : id ∈ sources ∨ ∃ record ∈ records, record.source = id := by
  induction records generalizing sources with
  | nil => exact Or.inl h
  | cons record rest ih =>
    rcases ih h with hadded | ⟨other, hother, hid⟩
    · rcases mem_addSource hadded with hbefore | rfl
      · exact Or.inl hbefore
      · exact Or.inr ⟨record, List.mem_cons_self, rfl⟩
    · exact Or.inr ⟨other, List.mem_cons_of_mem _ hother, hid⟩

theorem hopSemanticsDeclared_collect {catalog : Catalog} {records : List MeasurementRecord}
    (h : hopSemanticsDeclared catalog (collectSources records []) = true) :
    ∃ record ∈ records, ∃ source, catalog.source record.source = .ok source ∧
      source.semantics.has .hopDwell = true := by
  unfold hopSemanticsDeclared at h
  obtain ⟨id, hid, hdeclares⟩ := List.any_eq_true.mp h
  rcases mem_collectSources hid with hnone | ⟨record, hrecord, rfl⟩
  · cases hnone
  · cases hsource : catalog.source record.source with
    | error e =>
      rw [hsource] at hdeclares
      cases hdeclares
    | ok source =>
      rw [hsource] at hdeclares
      exact ⟨record, hrecord, source, hsource, hdeclares⟩

section Record

variable {clocks : ClockRegistry} {record : MeasurementRecord}

theorem valid_of_comparable {first second : ClockDomainId} (h : comparable clocks record first second = true) :
    first.valid = true ∧ second.valid = true := by
  unfold comparable ClockRegistry.compare at h
  by_cases hinvalid : (!first.valid || !second.valid) = true
  · rw [if_pos hinvalid] at h
    cases h
  · simpa using hinvalid

theorem comparable_self (h : exchangeComparable clocks record = true) :
    comparable clocks record record.domain record.domain = true := by
  have hvalid : record.domain.valid = true := by
    unfold exchangeComparable at h
    rw [Bool.or_eq_true, beq_iff_eq] at h
    rcases h with hreference | hcomparable
    · rw [hreference]
      exact StrongId.deriveFrom_valid _
    · exact (valid_of_comparable hcomparable).1
  unfold comparable ClockRegistry.compare
  simp [hvalid]

theorem entry_comparable {n : Nat} (h : refusesClocks clocks record n = false) {k : Nat} (hk : k < n)
    {observation : HopObservation} (hfound : observationAt k record = some observation)
    (hdwell : observation.dwellNs.isSome = true) :
    comparable clocks record observation.entry.domain record.domain = true := by
  unfold refusesClocks at h
  rw [Bool.or_eq_false_iff, Bool.not_eq_false'] at h
  obtain ⟨hexchange, hhops⟩ := h
  have hhop : refusesAt clocks record k = false := by
    rw [List.any_eq_false] at hhops
    exact Bool.eq_false_iff.mpr (hhops k (List.mem_range.mpr hk))
  unfold refusesAt at hhop
  rw [hfound, Option.any_some, if_pos hdwell, Bool.not_eq_false'] at hhop
  unfold hopComparable at hhop
  rw [Bool.or_eq_true, beq_iff_eq] at hhop
  rcases hhop with hsame | hcomparable
  · rw [hsame]
    exact comparable_self hexchange
  · exact hcomparable

theorem dwellsComparable_iff {n : Nat} (h : refusesClocks clocks record n = false) :
    DwellsComparable clocks record ↔ UnseenComparable clocks n record := by
  constructor
  · intro hall observation hmem hdwell
    obtain ⟨hentry, hexit⟩ := hall observation hmem hdwell
    exact ⟨hexit, fun _ => hentry⟩
  · intro hunseen observation hmem hdwell
    obtain ⟨hexit, hentry⟩ := hunseen observation hmem hdwell
    refine ⟨?_, hexit⟩
    by_cases hread : ∃ k < n, observationAt k record = some observation
    · obtain ⟨k, hk, hfound⟩ := hread
      exact entry_comparable h hk hfound hdwell
    · apply hentry
      intro k hk hfound
      exact hread ⟨k, hk, hfound⟩

end Record

/-- **The attribution gate.** A produced decomposition has passed every gate exactly when the clock domains that the
gate does not look at are comparable as well. -/
theorem gated_iff_unseen_comparable {records : List MeasurementRecord} {catalog : Catalog} {clocks : ClockRegistry}
    {baselines : BaselineStore} {request : AttributionRequest} {policy : RuntimePolicy} {result : AttributionResult}
    {path : PathDef} (hpath : catalog.path request.path = .ok path)
    (h : attributeExchanges records catalog clocks baselines request policy = .ok result)
    (hproduced : result.kind.produced = true) :
    Gated records catalog clocks request policy result ↔
      ∀ record ∈ request.included records, UnseenComparable clocks path.hops.length record := by
  obtain ⟨path', s, hpath', -, hsaw, hresult⟩ := attributeExchanges_saw h
  rw [hpath', Except.ok.injEq] at hpath
  subst hpath
  obtain ⟨evidence, hkind⟩ := hresult.kind
  rw [hkind] at hproduced
  obtain ⟨hdeclared, hrefused, hcomplete, hobserved, hpartly⟩ := verdict_produced hproduced
  rw [← hkind] at hobserved hpartly
  rw [hsaw.sources] at hdeclared
  have hpass : ∀ record ∈ request.included records, refusesClocks clocks record path'.hops.length = false := by
    intro record hrecord
    rw [hsaw.refused, List.any_eq_false] at hrefused
    exact Bool.eq_false_iff.mpr (hrefused record hrecord)
  constructor
  · intro hgated record hrecord
    exact (dwellsComparable_iff (hpass record hrecord)).mp (hgated.dwells record hrecord)
  · intro hunseen
    refine ⟨hopSemanticsDeclared_collect hdeclared, ?_, ?_, ?_, ?_⟩
    · intro record hrecord
      have hexchange : exchangeComparable clocks record = true := by
        have hnot := hpass record hrecord
        unfold refusesClocks at hnot
        rw [Bool.or_eq_false_iff, Bool.not_eq_false'] at hnot
        exact hnot.1
      unfold exchangeComparable at hexchange
      rw [Bool.or_eq_true, beq_iff_eq] at hexchange
      exact hexchange
    · intro record hrecord
      exact (dwellsComparable_iff (hpass record hrecord)).mpr (hunseen record hrecord)
    · intro hkind
      rw [hresult.incomplete]
      exact hobserved hkind
    · intro hkind
      rw [hresult.complete]
      exact ⟨hpartly hkind, Nat.one_le_iff_ne_zero.mpr hcomplete⟩

/-! ### Exchanges of one hop -/

/-- The source declares hop dwells. -/
def dwellCatalog : Catalog :=
  ((Ingest.sampleCatalog 1).defineSource { Ingest.sampleSource 2 with semantics := .hopDwell }).2

def dwellRequest : AttributionRequest :=
  { path := (Ingest.sampleRecord 1 7).path
    generation := (Ingest.sampleRecord 1 7).generation
    window := ⟨⟨0, referenceClockDomain⟩, ⟨3000000, referenceClockDomain⟩⟩ }

theorem dwellCatalog_path : ∃ path, dwellCatalog.path dwellRequest.path = .ok path ∧ path.hops.length = 1 := by
  have hhops : (dwellCatalog.path dwellRequest.path).map (fun path => path.hops.length) = .ok 1 := by decide +kernel
  cases hfound : dwellCatalog.path dwellRequest.path with
  | error e =>
    rw [hfound] at hhops
    cases hhops
  | ok path =>
    rw [hfound] at hhops
    exact ⟨path, rfl, Except.ok.inj hhops⟩

def dwellAttribution (records : List MeasurementRecord) : Except Error AttributionResult :=
  attributeExchanges records dwellCatalog Ingest.sampleClocks { limits := {}, policy := defaultPolicy } dwellRequest
    defaultPolicy

/-- An exchange of 10 ns with a dwell of 4 ns that ends on the given clock. -/
def dwellExchange (exit : ClockDomainId) : MeasurementRecord :=
  measuredExchange [{ entry := ⟨2, referenceClockDomain⟩, exit := ⟨6, exit⟩, dwellNs := some 4 }]

/-- A decomposition is produced over a dwell that ends on a clock nobody registered. -/
theorem unregistered_exit_decomposed :
    ∃ result, dwellAttribution [dwellExchange ⟨5⟩] = .ok result ∧ result.kind = .observedDecomposition ∧
      ¬Gated [dwellExchange ⟨5⟩] dwellCatalog Ingest.sampleClocks dwellRequest defaultPolicy result := by
  have hanswered : (dwellAttribution [dwellExchange ⟨5⟩]).map AttributionResult.kind =
      .ok .observedDecomposition := by decide +kernel
  cases hresult : dwellAttribution [dwellExchange ⟨5⟩] with
  | error e =>
    rw [hresult] at hanswered
    cases hanswered
  | ok result =>
    rw [hresult] at hanswered
    refine ⟨result, rfl, Except.ok.inj hanswered, ?_⟩
    intro hgated
    have hincluded : dwellExchange ⟨5⟩ ∈ dwellRequest.included [dwellExchange ⟨5⟩] := by decide +kernel
    have hexit := (hgated.dwells _ hincluded _ List.mem_cons_self rfl).2
    revert hexit
    decide +kernel

/-- With both ends on the reference clock the decomposition has passed the gate. -/
theorem reference_exit_gated :
    ∃ result, dwellAttribution [dwellExchange referenceClockDomain] = .ok result ∧
      Gated [dwellExchange referenceClockDomain] dwellCatalog Ingest.sampleClocks dwellRequest defaultPolicy result := by
  have hanswered : (dwellAttribution [dwellExchange referenceClockDomain]).map AttributionResult.kind =
      .ok .observedDecomposition := by decide +kernel
  obtain ⟨path, hpath, hlength⟩ := dwellCatalog_path
  cases hresult : dwellAttribution [dwellExchange referenceClockDomain] with
  | error e =>
    rw [hresult] at hanswered
    cases hanswered
  | ok result =>
    rw [hresult] at hanswered
    have hkind : result.kind = .observedDecomposition := Except.ok.inj hanswered
    refine ⟨result, rfl, (gated_iff_unseen_comparable hpath hresult (by rw [hkind]; rfl)).mpr ?_⟩
    rw [hlength]
    have hincluded : dwellRequest.included [dwellExchange referenceClockDomain] =
        [dwellExchange referenceClockDomain] := by decide +kernel
    rw [hincluded]
    intro record hrecord observation hobservation hdwell
    rw [List.mem_singleton] at hrecord
    subst hrecord
    rw [show (dwellExchange referenceClockDomain).hops = [_] from rfl, List.mem_singleton] at hobservation
    subst hobservation
    exact ⟨by decide +kernel, fun _ => by decide +kernel⟩

end LatencyObservatory.Attribution
