import LatencyObservatory.Core.Checked
import LatencyObservatory.Ingest.Acceptance
import LatencyObservatory.Ingest.Replay
import LatencyObservatory.Model.Comparability

/-!
# The hops of accepted records

The hop loop of `classify` compares an observation with the path only if the hop is defined and both of its
readings name a clock domain, and `derive_dwells` overwrites the submitted dwells only of defined hops. Both
exits are taken before the record is judged, so the laws of accepted records hold up to them. The two
equivalences of this module say what exactly is left to the submitter.
-/

namespace LatencyObservatory.Ingest

open LatencyObservatory.Core LatencyObservatory.Model

/-! ### Conformity with the path -/

theorem strictlyIncreasing_iff (hops : List HopObservation) :
    strictlyIncreasingHopIndices hops = true ↔ hops.Pairwise fun a b => a.index.value < b.index.value := by
  have htrans : IsTrans HopObservation fun a b => a.index.value < b.index.value :=
    ⟨fun a b c hab hbc => UInt32.lt_trans hab hbc⟩
  rw [← List.isChain_iff_pairwise]
  induction hops with
  | nil => simp [strictlyIncreasingHopIndices]
  | cons first rest ih =>
    cases rest with
    | nil => simp [strictlyIncreasingHopIndices]
    | cons second rest =>
      rw [strictlyIncreasingHopIndices, Bool.and_eq_true, decide_eq_true_eq, List.isChain_cons_cons]
      exact and_congr_right fun _ => ih

/-- The observation names the hop that the path declares at its index. -/
def InPosition (path : PathDef) (hop : HopObservation) : Prop :=
  hop.index.value.toNat < path.hops.length ∧ path.hops[hop.index.value.toNat]? = some hop.hop

/-- The hop is defined and both readings name a clock domain. -/
def Comparable (catalog : Catalog) (hop : HopObservation) : Prop :=
  (∃ definition, catalog.hop hop.hop = .ok definition) ∧ hop.entry.domain.valid = true ∧
    hop.exit.domain.valid = true

/-- The hops of a record are in the order of its path, each in its position. -/
structure Conforms (catalog : Catalog) (record : MeasurementRecord) : Prop where
  increasing : record.hops.Pairwise fun a b => a.index.value < b.index.value
  positions : ∃ path, catalog.path record.path = .ok path ∧ ∀ hop ∈ record.hops, InPosition path hop

theorem inPosition_iff {path : PathDef} {hop : HopObservation} :
    InPosition path hop ↔ path.hops[hop.index.value.toNat]? = some hop.hop := by
  unfold InPosition
  refine ⟨fun h => h.2, fun h => ⟨?_, h⟩⟩
  exact (List.getElem?_eq_some_iff.mp h).1

theorem hopConflicts_eq_false_iff {catalog : Catalog} {path : PathDef} {hop : HopObservation} :
    hopConflicts catalog path hop = false ↔ (Comparable catalog hop → InPosition path hop) := by
  unfold hopConflicts Comparable
  rw [inPosition_iff]
  cases catalog.hop hop.hop with
  | error e => simp
  | ok definition => simp [and_imp]

theorem InPosition.congr {path : PathDef} {hop hop' : HopObservation} (hindex : hop'.index = hop.index)
    (hhop : hop'.hop = hop.hop) : InPosition path hop' ↔ InPosition path hop := by
  unfold InPosition
  rw [hindex, hhop]

theorem checkExchange_increasing {record : MeasurementRecord} {d : Draft}
    (h : (checkExchange record d).fatal = false) : strictlyIncreasingHopIndices record.hops = true := by
  have hcondition := Draft.rejectIf_condition h
  cases hempty : record.hops.isEmpty with
  | true =>
    rw [List.isEmpty_iff] at hempty
    rw [hempty]
    rfl
  | false =>
    rw [hempty] at hcondition
    simpa using hcondition

/-- An accepted record conforms to its path exactly when the observations that the gate does not compare with
the path, those of undefined hops and those without both clock domains, happen to be in their positions. -/
theorem accepted_conforms_iff {policy : RuntimePolicy} {fences : Fences} {x : Submission}
    (h : x.verdict policy fences ≠ .rejected) :
    Conforms x.catalog (x.stored policy fences) ↔
      ∃ path, x.catalog.path x.record.path = .ok path ∧
        ∀ hop ∈ x.record.hops, ¬ Comparable x.catalog hop → InPosition path hop := by
  obtain ⟨path, source, evidence, -, hpath, hsound, hstoredPath, hstoredHops⟩ := stored_hops h
  have hposition : ∀ hop, InPosition path (storedHop x.catalog x.clocks x.record evidence hop) ↔
      InPosition path hop := by
    intro hop
    have hderives := storedHop_derives x.catalog x.clocks x.record evidence hop
    exact InPosition.congr hderives.index hderives.hop
  constructor
  · rintro ⟨-, path', hpath', hall⟩
    rw [hstoredPath, hpath] at hpath'
    cases hpath'
    refine ⟨path, hpath, fun hop hhop _ => ?_⟩
    rw [← hposition]
    refine hall _ ?_
    rw [hstoredHops]
    exact List.mem_map_of_mem hhop
  · rintro ⟨path', hpath', hall⟩
    rw [hpath] at hpath'
    cases hpath'
    refine ⟨?_, path, ?_, ?_⟩
    · -- Deriving the dwells keeps the indices, and the submitted ones were checked.
      have hdraft : (checkExchange x.record ⟨Evidence.observed .unknown .high, false⟩).fatal = false := by
        have hkept := checkHops_not_fatal hsound
        unfold IngestGate.draft at hsound
        rw [hkept] at hsound
        exact hsound
      have hincreasing := (strictlyIncreasing_iff _).mp (checkExchange_increasing hdraft)
      rw [hstoredHops, List.pairwise_map]
      refine hincreasing.imp fun {a b} hab => ?_
      rw [(storedHop_derives x.catalog x.clocks x.record evidence a).index,
        (storedHop_derives x.catalog x.clocks x.record evidence b).index]
      exact hab
    · rw [hstoredPath]
      exact hpath
    · intro after hafter
      rw [hstoredHops] at hafter
      obtain ⟨before, hbefore, rfl⟩ := List.mem_map.mp hafter
      rw [hposition]
      by_cases hcomparable : Comparable x.catalog before
      · exact hopConflicts_eq_false_iff.mp (checkHops_conflicts hsound before hbefore) hcomparable
      · exact hall before hbefore hcomparable

/-! The sample exchange with an observation of the hop `edge` at index 0, or of a hop that is not defined and far
beyond the end of the path. -/

def edgeObservation : HopObservation :=
  { hop := .deriveFrom sampleHop.name.str
    entry := ⟨2, referenceClockDomain⟩
    exit := ⟨7, referenceClockDomain⟩ }

def ghostObservation : HopObservation :=
  { index := ⟨9, by decide⟩, hop := .deriveFrom (text "ghost"), dwellNs := some 42 }

def observedSubmission (hop : HopObservation) : Submission :=
  sampleSubmission 1 { sampleRecord 1 7 with hops := [hop] }

theorem edge_observation_conforms :
    (observedSubmission edgeObservation).verdict defaultPolicy ∅ ≠ .rejected ∧
      Conforms (observedSubmission edgeObservation).catalog ((observedSubmission edgeObservation).stored defaultPolicy ∅) := by
  have haccepted : (observedSubmission edgeObservation).verdict defaultPolicy ∅ ≠ .rejected := by decide +kernel
  refine ⟨haccepted, (accepted_conforms_iff haccepted).mpr ?_⟩
  have hpath : (sampleCatalog 1).paths[(.deriveFrom samplePath.name.str : PathId)]? =
      some { samplePath with id := .deriveFrom samplePath.name.str } := by decide +kernel
  refine ⟨_, Catalog.lookup_ok_iff.mpr hpath, ?_⟩
  intro hop hhop _
  rw [List.mem_singleton.mp hhop]
  exact ⟨by decide, rfl⟩

/-- The observation is stored, although no such hop is declared and the path has one position only. -/
theorem ghost_observation_accepted :
    ¬ ((observedSubmission ghostObservation).verdict defaultPolicy ∅ ≠ .rejected →
      Conforms (observedSubmission ghostObservation).catalog
        ((observedSubmission ghostObservation).stored defaultPolicy ∅)) := by
  intro hconforms
  obtain ⟨path, hpath, hall⟩ := (hconforms (by decide +kernel)).positions
  have hlength : ((sampleCatalog 1).paths[(.deriveFrom samplePath.name.str : PathId)]?.map (·.hops.length)) =
      some 1 := by decide +kernel
  have hfound : (sampleCatalog 1).paths[(.deriveFrom samplePath.name.str : PathId)]? = some path :=
    Catalog.lookup_ok_iff.mp hpath
  rw [hfound, Option.map_some, Option.some.injEq] at hlength
  have hnine : ((observedSubmission ghostObservation).stored defaultPolicy ∅).hops.map (·.index.value.toNat) = [9] := by
    decide +kernel
  obtain ⟨hop, hhop, hindex⟩ : ∃ hop ∈ ((observedSubmission ghostObservation).stored defaultPolicy ∅).hops,
      hop.index.value.toNat = 9 := by
    rw [← List.mem_map, hnine]
    exact List.mem_singleton_self 9
  have hinside := (hall hop hhop).1
  omega

/-! ### Durations between two readings -/

/-- The comparison of two domains that the derivation asks for. -/
def compareFor (clocks : ClockRegistry) (record : MeasurementRecord) (entry exit : Timestamp) :
    Except Error ClockComparability :=
  clocks.compare entry.domain exit.domain record.stamp.receivedAt record.generation record.epoch record.incarnation

/-- The exact duration between two readings of different domains. -/
def exactDuration (c : ClockComparability) (entry exit : Timestamp) : Int :=
  (exit.ns.toInt - c.offsetSecondNs.toInt) - (entry.ns.toInt - c.offsetFirstNs.toInt)

/-- The value is the duration between the readings: inside one domain their difference, across two domains
the difference on the common timeline. -/
structure Measures (clocks : ClockRegistry) (record : MeasurementRecord) (entry exit : Timestamp) (d : Nanos) :
    Prop where
  entryValid : entry.valid = true
  exitValid : exit.valid = true
  nonneg : 0 ≤ d.toInt
  value : (entry.domain = exit.domain ∧ d.toInt = exit.ns.toInt - entry.ns.toInt) ∨
    (entry.domain ≠ exit.domain ∧ ∃ c, compareFor clocks record entry exit = .ok c ∧ c.comparable = true ∧
      d.toInt = exactDuration c entry exit)

/-- What the derivation does not check about two readings it derives a duration from: that they name a domain,
and that the arithmetic stays in range. -/
structure Exact (clocks : ClockRegistry) (record : MeasurementRecord) (entry exit : Timestamp) : Prop where
  same : entry.domain = exit.domain → entry.ns ≤ exit.ns →
    entry.valid = true ∧ exit.ns.toInt - entry.ns.toInt < 2 ^ 63
  across : entry.domain ≠ exit.domain → ∀ c, compareFor clocks record entry exit = .ok c → c.comparable = true →
    entry.ns - c.offsetFirstNs ≤ exit.ns - c.offsetSecondNs →
    0 ≤ exactDuration c entry exit ∧ exactDuration c entry exit < 2 ^ 63

section Durations

variable {clocks : ClockRegistry} {record : MeasurementRecord} {entry exit : Timestamp} {detail : Bytes}
  {evidence : Evidence}

theorem deriveDwell_iff (d : Nanos) :
    (deriveDwell clocks record entry exit detail evidence).1.map (·.1) = some d ↔
      (entry.domain = exit.domain ∧ entry.ns ≤ exit.ns ∧ d = exit.ns - entry.ns) ∨
      (entry.domain ≠ exit.domain ∧ ∃ c, compareFor clocks record entry exit = .ok c ∧ c.comparable = true ∧
        entry.ns - c.offsetFirstNs ≤ exit.ns - c.offsetSecondNs ∧
        d = (exit.ns - c.offsetSecondNs) - (entry.ns - c.offsetFirstNs)) := by
  unfold deriveDwell compareFor
  by_cases hsame : entry.domain = exit.domain
  · rw [if_pos hsame]
    by_cases horder : exit.ns < entry.ns
    · rw [if_pos horder]
      refine iff_of_false (by simp) ?_
      rintro (⟨-, hle, -⟩ | ⟨hne, -⟩)
      · exact absurd hle (Int64.not_le.mpr horder)
      · exact hne hsame
    · rw [if_neg horder]
      simp only [Option.map_some, Option.some.injEq]
      constructor
      · rintro rfl
        exact Or.inl ⟨hsame, Int64.not_lt.mp horder, rfl⟩
      · rintro (⟨-, -, rfl⟩ | ⟨hne, -⟩)
        · rfl
        · exact absurd hsame hne
  · rw [if_neg hsame]
    cases hcompare : clocks.compare entry.domain exit.domain record.stamp.receivedAt record.generation record.epoch
        record.incarnation with
    | error e => simp [hsame]
    | ok c =>
      cases hcomparable : c.comparable with
      | false => simp [hsame, hcomparable]
      | true =>
        by_cases horder : exit.ns - c.offsetSecondNs < entry.ns - c.offsetFirstNs
        · simp [hsame, hcomparable, horder, Int64.not_le.mpr horder]
        · simp only [hcomparable, Bool.not_true, Bool.false_eq_true, if_false, if_neg horder, Option.map_some,
            Option.some.injEq]
          constructor
          · rintro rfl
            exact Or.inr ⟨hsame, c, rfl, hcomparable, Int64.not_lt.mp horder, rfl⟩
          · rintro (⟨heq, -⟩ | ⟨-, c', hsome, -, -, rfl⟩)
            · exact absurd heq hsame
            · cases hsome
              rfl

/-- The machine's duration is the exact one as soon as that one is in range: the parts may wrap around. -/
theorem toInt_duration (c : ClockComparability) (entry exit : Timestamp)
    (h : Representable (exactDuration c entry exit)) :
    ((exit.ns - c.offsetSecondNs) - (entry.ns - c.offsetFirstNs)).toInt = exactDuration c entry exit := by
  obtain ⟨hlow, hhigh⟩ := h
  unfold exactDuration at hlow hhigh ⊢
  simp only [Int64.toInt_sub, Int.bmod_def]
  omega

/-- Every derived value is the duration it stands for exactly when the readings are `Exact`. -/
theorem deriveDwell_measures_iff :
    (∀ d, (deriveDwell clocks record entry exit detail evidence).1.map (·.1) = some d →
      Measures clocks record entry exit d) ↔ Exact clocks record entry exit := by
  simp only [deriveDwell_iff]
  constructor
  · intro hall
    constructor
    · intro hsame horder
      have hmeasures := hall _ (Or.inl ⟨hsame, horder, rfl⟩)
      refine ⟨hmeasures.entryValid, ?_⟩
      rcases hmeasures.value with ⟨-, hvalue⟩ | ⟨hne, -⟩
      · rw [← hvalue]
        exact Int64.toInt_lt _
      · exact absurd hsame hne
    · intro hne c hcompare hcomparable horder
      have hmeasures := hall _ (Or.inr ⟨hne, c, hcompare, hcomparable, horder, rfl⟩)
      rcases hmeasures.value with ⟨hsame, -⟩ | ⟨-, c', hcompare', -, hvalue⟩
      · exact absurd hsame hne
      · rw [hcompare] at hcompare'
        cases hcompare'
        rw [← hvalue]
        exact ⟨hmeasures.nonneg, Int64.toInt_lt _⟩
  · rintro hexact d (⟨hsame, horder, rfl⟩ | ⟨hne, c, hcompare, hcomparable, horder, rfl⟩)
    · obtain ⟨hvalid, hrange⟩ := hexact.same hsame horder
      have hvalue : (exit.ns - entry.ns).toInt = exit.ns.toInt - entry.ns.toInt := by
        rw [Int64.le_iff_toInt_le] at horder
        exact toInt_sub_of_representable ⟨by omega, hrange⟩
      refine ⟨hvalid, ?_, ?_, Or.inl ⟨hsame, hvalue⟩⟩
      · show exit.domain.valid = true
        rw [← hsame]
        exact hvalid
      · rw [Int64.le_iff_toInt_le] at horder
        omega
    · obtain ⟨hnonneg, hrange⟩ := hexact.across hne c hcompare hcomparable horder
      have hvalue := toInt_duration c entry exit ⟨by omega, hrange⟩
      -- Only domains that are named can be compared.
      have hvalid : entry.domain.valid = true ∧ exit.domain.valid = true := by
        have houtcome := clocks.compare_outcome entry.domain exit.domain record.stamp.receivedAt record.generation
          record.epoch record.incarnation
        have hcompare : clocks.compare entry.domain exit.domain record.stamp.receivedAt record.generation
          record.epoch record.incarnation = .ok c := hcompare
        rw [hcompare] at houtcome
        cases houtcome with
        | same _ _ hsame => exact absurd hsame hne
        | joined _ _ _ hvalid _ _ => exact hvalid
        | refused _ hfalse _ =>
          rw [hfalse] at hcomparable
          cases hcomparable
      refine ⟨hvalid.1, hvalid.2, ?_, Or.inr ⟨hne, c, hcompare, hcomparable, hvalue⟩⟩
      rw [hvalue]
      exact hnonneg

end Durations

/-! ### Dwells and queue residencies -/

/-- The residency in a queue may be attributed: the hop declares the queue, the observation names it and dates
its ends, and the queue declares the semantics. -/
structure QueueMeasured (catalog : Catalog) (definition : HopDef) (hop : HopObservation) (queue : QueueDef) :
    Prop where
  declared : definition.hasQueue = true
  named : hop.queue = definition.queue
  known : catalog.queue hop.queue = .ok queue
  semantics : queue.semantics.has .queueDwell = true
  entryValid : hop.queueEntry.valid = true
  exitValid : hop.queueExit.valid = true

/-- Everything `derive_dwells` can do to the queue residency of a defined hop. -/
inductive QueueOutcome (catalog : Catalog) (clocks : ClockRegistry) (record : MeasurementRecord)
    (definition : HopDef) (hop : HopObservation) : Option Nanos → Prop
  | derived (queue : QueueDef) (evidence : Evidence) (measured : QueueMeasured catalog definition hop queue) :
      QueueOutcome catalog clocks record definition hop
        ((deriveDwell clocks record hop.queueEntry hop.queueExit queue.name.str evidence).1.map (·.1))
  | kept (undeclared : definition.hasQueue = false) (unnamed : hop.queue.valid = false) :
      QueueOutcome catalog clocks record definition hop hop.queueDwellNs
  | dropped (known : definition.hasQueue = true ∨ hop.queue.valid = true)
      (unmeasured : ∀ queue, ¬ QueueMeasured catalog definition hop queue) :
      QueueOutcome catalog clocks record definition hop none

section Hops

variable {catalog : Catalog} {clocks : ClockRegistry} {record : MeasurementRecord} {definition : HopDef}
  {hop : HopObservation}

theorem deriveHopDwell_eq (clocks : ClockRegistry) (record : MeasurementRecord) (hop : HopObservation) :
    ∃ uncertainty evidence, (deriveHopDwell clocks record hop).1 = { hop with
      dwellNs := (deriveDwell clocks record hop.entry hop.exit hop.hop.toHex hop.evidence).1.map (·.1)
      dwellUncertaintyNs := uncertainty
      evidence := evidence } := by
  unfold deriveHopDwell
  split
  · rename_i dwell uncertainty evidence heq
    rw [heq]
    exact ⟨some uncertainty, evidence, rfl⟩
  · rename_i evidence heq
    rw [heq]
    exact ⟨hop.dwellUncertaintyNs, evidence, rfl⟩

theorem deriveQueueDwell_eq (catalog : Catalog) (clocks : ClockRegistry) (record : MeasurementRecord)
    (definition : HopDef) (hop : HopObservation) :
    ∃ residency uncertainty evidence, QueueOutcome catalog clocks record definition hop residency ∧
      (deriveQueueDwell catalog clocks record definition hop).1 = { hop with
        queueDwellNs := residency
        queueDwellUncertaintyNs := uncertainty
        evidence := evidence } := by
  unfold deriveQueueDwell
  by_cases hqueue : definition.hasQueue = true
  · rw [if_pos hqueue]
    have hdropped : ∀ evidence, (∀ queue, ¬ QueueMeasured catalog definition hop queue) →
        ∃ residency uncertainty evidence', QueueOutcome catalog clocks record definition hop residency ∧
          (dropQueueDwell hop evidence).1 = { hop with
            queueDwellNs := residency, queueDwellUncertaintyNs := uncertainty, evidence := evidence' } := by
      intro evidence hunmeasured
      exact ⟨none, hop.queueDwellUncertaintyNs, _, .dropped (Or.inl hqueue) hunmeasured, rfl⟩
    by_cases hnamed : (!hop.queue.valid || hop.queue != definition.queue) = true
    · rw [if_pos hnamed]
      refine hdropped _ fun queue hmeasured => ?_
      have hvalid : definition.queue.valid = true := hmeasured.declared
      simp [hmeasured.named, hvalid] at hnamed
    rw [if_neg hnamed]
    have hsame : hop.queue = definition.queue := by
      rw [Bool.not_eq_true, Bool.or_eq_false_iff] at hnamed
      simpa using hnamed.2
    cases hknown : catalog.queue hop.queue with
    | error e =>
      refine hdropped _ fun queue hmeasured => ?_
      rw [hmeasured.known] at hknown
      cases hknown
    | ok queue =>
      dsimp only
      by_cases hsemantics : (!queue.semantics.has .queueDwell) = true
      · rw [if_pos hsemantics]
        refine hdropped _ fun queue' hmeasured => ?_
        have hfound := hmeasured.known
        rw [hknown] at hfound
        cases hfound
        rw [hmeasured.semantics] at hsemantics
        cases hsemantics
      rw [if_neg hsemantics]
      by_cases hdated : (!hop.queueEntry.valid || !hop.queueExit.valid) = true
      · rw [if_pos hdated]
        refine hdropped _ fun queue' hmeasured => ?_
        rw [hmeasured.entryValid, hmeasured.exitValid] at hdated
        cases hdated
      rw [if_neg hdated]
      have hmeasured : QueueMeasured catalog definition hop queue := by
        rw [Bool.not_eq_true, Bool.or_eq_false_iff, Bool.not_eq_false', Bool.not_eq_false'] at hdated
        exact ⟨hqueue, hsame, hknown, by simpa using hsemantics, hdated.1, hdated.2⟩
      refine ⟨(deriveDwell clocks record hop.queueEntry hop.queueExit queue.name.str hop.evidence).1.map (·.1), ?_⟩
      split
      · rename_i dwell uncertainty evidence heq
        refine ⟨some uncertainty, evidence, .derived queue hop.evidence hmeasured, ?_⟩
        rw [heq]
        rfl
      · rename_i evidence heq
        refine ⟨hop.queueDwellUncertaintyNs, evidence, .derived queue hop.evidence hmeasured, ?_⟩
        rw [heq]
        rfl
  · rw [if_neg hqueue]
    by_cases hvalid : hop.queue.valid = true
    · rw [if_pos hvalid]
      refine ⟨none, hop.queueDwellUncertaintyNs, _, .dropped (Or.inr hvalid) ?_, rfl⟩
      intro queue hmeasured
      exact hqueue hmeasured.declared
    · rw [if_neg hvalid]
      rw [Bool.not_eq_true] at hqueue hvalid
      exact ⟨hop.queueDwellNs, hop.queueDwellUncertaintyNs, hop.evidence, .kept hqueue hvalid, rfl⟩

end Hops

/-- A stored observation whose dwell and queue residency are the runtime's own. -/
structure Derived (catalog : Catalog) (clocks : ClockRegistry) (record : MeasurementRecord) (hop : HopObservation) :
    Prop where
  dwell : ∀ d, hop.dwellNs = some d → Measures clocks record hop.entry hop.exit d
  queueDwell : ∀ d, hop.queueDwellNs = some d → ∃ definition queue, catalog.hop hop.hop = .ok definition ∧
    QueueMeasured catalog definition hop queue ∧ Measures clocks record hop.queueEntry hop.queueExit d

/-- What is left to the submitter of an observation. That of an undefined hop stays as it comes; for a defined one
the readings must be exact, and a residency must not be filled in where neither side knows a queue. -/
inductive Derivable (catalog : Catalog) (clocks : ClockRegistry) (record : MeasurementRecord)
    (hop : HopObservation) : Prop
  | undefined (error : Error) (unknown : catalog.hop hop.hop = .error error)
      (dwell : ∀ d, hop.dwellNs = some d → Measures clocks record hop.entry hop.exit d)
      (queueDwell : hop.queueDwellNs = none)
  | defined (definition : HopDef) (known : catalog.hop hop.hop = .ok definition)
      (dwell : Exact clocks record hop.entry hop.exit)
      (residency : ∀ queue, QueueMeasured catalog definition hop queue →
        Exact clocks record hop.queueEntry hop.queueExit)
      (unknownQueue : definition.hasQueue = false → hop.queue.valid = false → hop.queueDwellNs = none)

theorem QueueMeasured.congr {catalog : Catalog} {definition : HopDef} {hop hop' : HopObservation} {queue : QueueDef}
    (h : QueueMeasured catalog definition hop queue) (hqueue : hop'.queue = hop.queue)
    (hentry : hop'.queueEntry = hop.queueEntry) (hexit : hop'.queueExit = hop.queueExit) :
    QueueMeasured catalog definition hop' queue where
  declared := h.declared
  named := hqueue.trans h.named
  known := by rw [hqueue]; exact h.known
  semantics := h.semantics
  entryValid := by rw [hentry]; exact h.entryValid
  exitValid := by rw [hexit]; exact h.exitValid

/-- The residency of a defined hop is the runtime's own if it is exact where it is derived, and absent where
neither side knows a queue. -/
theorem residency_derived_iff {catalog : Catalog} {clocks : ClockRegistry} {record : MeasurementRecord}
    {definition : HopDef} {hop : HopObservation} {residency : Option Nanos}
    (hdefined : catalog.hop hop.hop = .ok definition)
    (houtcome : QueueOutcome catalog clocks record definition hop residency) :
    (∀ d, residency = some d → ∃ definition queue, catalog.hop hop.hop = .ok definition ∧
      QueueMeasured catalog definition hop queue ∧ Measures clocks record hop.queueEntry hop.queueExit d) ↔
      (∀ queue, QueueMeasured catalog definition hop queue → Exact clocks record hop.queueEntry hop.queueExit) ∧
        (definition.hasQueue = false → hop.queue.valid = false → hop.queueDwellNs = none) := by
  have hown : ∀ {definition' : HopDef}, catalog.hop hop.hop = .ok definition' → definition' = definition := by
    intro definition' hknown
    rw [hdefined] at hknown
    cases hknown
    rfl
  cases houtcome with
  | derived queue evidence hmeasured =>
    constructor
    · intro hall
      refine ⟨fun _ _ => ?_, fun hnone => ?_⟩
      · refine (@deriveDwell_measures_iff clocks record _ _ queue.name.str evidence).mp ?_
        intro d hd
        obtain ⟨-, -, -, -, hmeasures⟩ := hall d hd
        exact hmeasures
      · rw [hmeasured.declared] at hnone
        cases hnone
    · rintro ⟨hexact, -⟩ d hd
      exact ⟨definition, queue, hdefined, hmeasured, deriveDwell_measures_iff.mpr (hexact queue hmeasured) d hd⟩
  | kept hundeclared hunnamed =>
    constructor
    · intro hall
      refine ⟨fun queue hmeasured => ?_, fun _ _ => ?_⟩
      · rw [hmeasured.declared] at hundeclared
        cases hundeclared
      · by_contra hsome
        obtain ⟨d, hd⟩ := Option.ne_none_iff_exists'.mp hsome
        obtain ⟨definition', queue, hknown, hmeasured, -⟩ := hall d hd
        rw [hown hknown] at hmeasured
        rw [hmeasured.declared] at hundeclared
        cases hundeclared
    · rintro ⟨-, hnone⟩ d hd
      rw [hnone hundeclared hunnamed] at hd
      cases hd
  | dropped hknown hunmeasured =>
    refine iff_of_true (fun d hd => by cases hd) ⟨fun queue hmeasured => absurd hmeasured (hunmeasured queue), ?_⟩
    intro hundeclared hunnamed
    rw [hundeclared, hunnamed] at hknown
    simp at hknown

theorem storedHop_derived_iff (catalog : Catalog) (clocks : ClockRegistry) (record : MeasurementRecord)
    (evidence : Evidence) (hop : HopObservation) :
    Derived catalog clocks record (storedHop catalog clocks record evidence hop) ↔
      Derivable catalog clocks record hop := by
  unfold storedHop
  obtain ⟨dated, hdated⟩ := inheritFreshness_eq evidence { hop with evidence := hopEvidence catalog hop }
  rw [hdated]
  unfold deriveHop
  dsimp only
  cases hdefined : catalog.hop hop.hop with
  | error error =>
    dsimp only
    constructor
    · intro hderived
      refine .undefined error hdefined hderived.dwell ?_
      by_contra hsome
      obtain ⟨d, hd⟩ := Option.ne_none_iff_exists'.mp hsome
      obtain ⟨definition, queue, hknown, -, -⟩ := hderived.queueDwell d hd
      have hknown : catalog.hop hop.hop = .ok definition := hknown
      rw [hdefined] at hknown
      cases hknown
    · intro hderivable
      cases hderivable with
      | undefined error' _ hdwell hqueueDwell =>
        refine ⟨hdwell, fun d hd => ?_⟩
        have hd : hop.queueDwellNs = some d := hd
        rw [hqueueDwell] at hd
        cases hd
      | defined definition hknown _ _ _ =>
        rw [hdefined] at hknown
        cases hknown
  | ok definition =>
    dsimp only
    obtain ⟨uncertainty, evidence₁, hdwelt⟩ := deriveHopDwell_eq clocks record { hop with evidence := dated }
    rw [hdwelt]
    obtain ⟨residency, uncertainty', evidence₂, houtcome, hqueued⟩ := deriveQueueDwell_eq catalog clocks record
      definition { hop with
        dwellNs := (deriveDwell clocks record hop.entry hop.exit hop.hop.toHex dated).1.map (·.1)
        dwellUncertaintyNs := uncertainty
        evidence := evidence₁ }
    rw [hqueued]
    have hresidency := @residency_derived_iff _ _ _ _ { hop with
        dwellNs := (deriveDwell clocks record hop.entry hop.exit hop.hop.toHex dated).1.map (·.1)
        dwellUncertaintyNs := uncertainty
        evidence := evidence₁ } _ hdefined houtcome
    constructor
    · intro hderived
      obtain ⟨hexact, hnone⟩ := hresidency.mp fun d hd => by
        obtain ⟨definition', queue, hknown, hmeasured, hmeasures⟩ := hderived.queueDwell d hd
        exact ⟨definition', queue, hknown, hmeasured.congr rfl rfl rfl, hmeasures⟩
      exact .defined definition hdefined (deriveDwell_measures_iff.mp hderived.dwell)
        (fun queue hmeasured => hexact queue (hmeasured.congr rfl rfl rfl)) hnone
    · intro hderivable
      cases hderivable with
      | undefined error hunknown _ _ =>
        rw [hdefined] at hunknown
        cases hunknown
      | defined definition' hknown hdwell hexact hnone =>
        rw [hdefined] at hknown
        cases hknown
        refine ⟨deriveDwell_measures_iff.mpr hdwell, fun d hd => ?_⟩
        obtain ⟨definition', queue, hknown, hmeasured, hmeasures⟩ := hresidency.mpr
          ⟨fun queue hmeasured => hexact queue (hmeasured.congr rfl rfl rfl), hnone⟩ d hd
        exact ⟨definition', queue, hknown, hmeasured.congr rfl rfl rfl, hmeasures⟩

/-- **Derived dwells.** All dwells and residencies of an accepted record are the runtime's own exactly when each
submitted observation is `Derivable`. -/
theorem accepted_derived_iff {policy : RuntimePolicy} {fences : Fences} {x : Submission}
    (h : x.verdict policy fences ≠ .rejected) :
    (∀ hop ∈ (x.stored policy fences).hops, Derived x.catalog x.clocks x.record hop) ↔
      ∀ hop ∈ x.record.hops, Derivable x.catalog x.clocks x.record hop := by
  obtain ⟨path, source, evidence, -, -, -, -, hstoredHops⟩ := stored_hops h
  rw [hstoredHops]
  constructor
  · intro hall hop hhop
    exact (storedHop_derived_iff _ _ _ evidence hop).mp (hall _ (List.mem_map_of_mem hhop))
  · intro hall after hafter
    obtain ⟨hop, hhop, rfl⟩ := List.mem_map.mp hafter
    exact (storedHop_derived_iff _ _ _ evidence hop).mpr (hall hop hhop)

theorem edge_observation_derived :
    (observedSubmission edgeObservation).verdict defaultPolicy ∅ ≠ .rejected ∧
      ∀ hop ∈ ((observedSubmission edgeObservation).stored defaultPolicy ∅).hops,
        Derived (observedSubmission edgeObservation).catalog (observedSubmission edgeObservation).clocks
          (observedSubmission edgeObservation).record hop := by
  have haccepted : (observedSubmission edgeObservation).verdict defaultPolicy ∅ ≠ .rejected := by decide +kernel
  refine ⟨haccepted, (accepted_derived_iff haccepted).mpr ?_⟩
  intro hop hhop
  rw [List.mem_singleton.mp hhop]
  have hdefined : (sampleCatalog 1).hops[(.deriveFrom sampleHop.name.str : HopId)]? =
      some { sampleHop with id := .deriveFrom sampleHop.name.str } := by decide +kernel
  refine .defined _ (Catalog.lookup_ok_iff.mpr hdefined) ⟨?_, ?_⟩ ?_ fun _ _ => rfl
  · intro _ _
    exact ⟨StrongId.deriveFrom_valid _, by decide⟩
  · intro hne
    exact absurd rfl hne
  · intro queue hmeasured
    exact absurd hmeasured.declared (by decide)

/-- The submitter's 42 ns are stored as the dwell of a hop that is not defined, without any reading. -/
theorem ghost_dwell_stored :
    ¬ ((observedSubmission ghostObservation).verdict defaultPolicy ∅ ≠ .rejected →
      ∀ hop ∈ ((observedSubmission ghostObservation).stored defaultPolicy ∅).hops,
        Derived (observedSubmission ghostObservation).catalog (observedSubmission ghostObservation).clocks
          (observedSubmission ghostObservation).record hop) := by
  intro hderived
  have hstored : ((observedSubmission ghostObservation).stored defaultPolicy ∅).hops.map
      (fun hop => (hop.entry.valid, hop.dwellNs)) = [(false, some 42)] := by decide +kernel
  obtain ⟨hop, hhop, hvalues⟩ : ∃ hop ∈ ((observedSubmission ghostObservation).stored defaultPolicy ∅).hops,
      (hop.entry.valid, hop.dwellNs) = (false, some 42) := by
    rw [← List.mem_map, hstored]
    exact List.mem_singleton_self _
  rw [Prod.mk.injEq] at hvalues
  have hvalid := ((hderived (by decide +kernel) hop hhop).dwell 42 hvalues.2).entryValid
  rw [hvalues.1] at hvalid
  cases hvalid

end LatencyObservatory.Ingest
