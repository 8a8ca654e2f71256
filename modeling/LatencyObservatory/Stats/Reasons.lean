import LatencyObservatory.Core.Merge
import LatencyObservatory.Stats.Order

/-!
# The evidence of a summary

The evidence of the path and of each of its hops is a fold of contributions, one or two for each included
exchange.
-/

namespace LatencyObservatory.Stats

open LatencyObservatory.Core LatencyObservatory.Model

/-! ### The hops of the path -/

theorem fromValue_ofNat {n : Nat} (h : n < HopIndex.maxExclusive) :
    ∃ index, HopIndex.fromValue (UInt32.ofNat n) = .ok index ∧ index.value.toNat = n := by
  have hvalue : (UInt32.ofNat n).toNat = n := by
    rw [UInt32.toNat_ofNat', Nat.mod_eq_of_lt]
    unfold HopIndex.maxExclusive at h
    omega
  have hlt : (UInt32.ofNat n).toNat < HopIndex.maxExclusive := by
    rw [hvalue]
    exact h
  exact ⟨⟨UInt32.ofNat n, hlt⟩, dif_pos hlt, hvalue⟩

theorem startHops_getElem? {histogram : HistogramSpec} {position : Nat} {hops : List HopId}
    {accumulators : List HopAccumulator} (h : startHops histogram position hops = .ok accumulators) (k : Nat) :
    accumulators[k]? = (hops[k]?).bind fun hop =>
      (HopIndex.fromValue (UInt32.ofNat (position + k))).toOption.map fun index => .start index hop histogram := by
  induction hops generalizing position accumulators k with
  | nil =>
    simp only [startHops, Except.ok.injEq] at h
    simp [← h]
  | cons hop rest ih =>
    unfold startHops at h
    cases hindex : HopIndex.fromValue (UInt32.ofNat position) with
    | error e =>
      rw [hindex] at h
      cases h
    | ok index =>
      rw [hindex] at h
      obtain ⟨tail, htail, h⟩ := bind_eq_ok_iff.mp h
      simp only [pure, Except.pure, Except.ok.injEq] at h
      subst h
      cases k with
      | zero => simp [hindex, Except.toOption]
      | succ k =>
        rw [List.getElem?_cons_succ, ih htail k, List.getElem?_cons_succ, Nat.add_assoc, Nat.add_comm 1 k]

theorem startHops_ok_iff {histogram : HistogramSpec} {position : Nat} {hops : List HopId}
    (hposition : position ≤ HopIndex.maxExclusive) :
    (∃ accumulators, startHops histogram position hops = .ok accumulators) ↔
      position + hops.length ≤ HopIndex.maxExclusive := by
  induction hops generalizing position with
  | nil => simpa [startHops] using hposition
  | cons hop rest ih =>
    unfold startHops
    rw [List.length_cons]
    by_cases hlt : position < HopIndex.maxExclusive
    · obtain ⟨index, hindex, -⟩ := fromValue_ofNat hlt
      rw [hindex]
      have hrest := @ih (position + 1) hlt
      constructor
      · rintro ⟨accumulators, h⟩
        obtain ⟨tail, htail, -⟩ := bind_eq_ok_iff.mp h
        have := hrest.mp ⟨tail, htail⟩
        omega
      · intro h
        obtain ⟨tail, htail⟩ := hrest.mpr (by omega)
        exact ⟨_, bind_eq_ok_iff.mpr ⟨tail, htail, rfl⟩⟩
    · have hlast : position = HopIndex.maxExclusive := by omega
      subst hlast
      constructor
      · rintro ⟨accumulators, h⟩
        have herror : HopIndex.fromValue (UInt32.ofNat HopIndex.maxExclusive) =
            .error ⟨.outOfRange, "hop index exceeds the supported maximum", decimal 4096⟩ := rfl
        rw [herror] at h
        cases h
      · intro h
        omega

/-- A hop observation is declared if its index lies on the path. -/
def declares (path : PathDef) (observation : HopObservation) : Bool :=
  observation.index.value.toNat < path.hops.length

theorem any_index_eq {histogram : HistogramSpec} {path : PathDef} {accumulators : List HopAccumulator}
    (h : startHops histogram 0 path.hops = .ok accumulators) (observation : HopObservation) :
    (accumulators.any fun a => a.summary.index == observation.index) = declares path observation := by
  have hlength : path.hops.length ≤ HopIndex.maxExclusive := by
    have := (startHops_ok_iff (Nat.zero_le _)).mp ⟨accumulators, h⟩
    omega
  unfold declares
  rw [Bool.eq_iff_iff, List.any_eq_true, decide_eq_true_eq]
  constructor
  · rintro ⟨a, ha, hindex⟩
    obtain ⟨k, hk⟩ := List.getElem?_of_mem ha
    rw [startHops_getElem? h k, Nat.zero_add] at hk
    obtain ⟨hop, hhop, hk⟩ := Option.bind_eq_some_iff.mp hk
    have hlt := (List.getElem?_eq_some_iff.mp hhop).1
    obtain ⟨index, hvalid, hvalue⟩ := @fromValue_ofNat k (by omega)
    rw [hvalid] at hk
    simp only [Except.toOption, Option.map_some, Option.some.injEq] at hk
    rw [← hk, beq_iff_eq] at hindex
    have hsame : index = observation.index := hindex
    rw [← hsame, hvalue]
    exact hlt
  · intro hlt
    have hself : UInt32.ofNat observation.index.value.toNat = observation.index.value := UInt32.ofNat_toNat
    have hk := startHops_getElem? h observation.index.value.toNat
    rw [Nat.zero_add, hself, List.getElem?_eq_getElem hlt] at hk
    have hvalid : HopIndex.fromValue observation.index.value = .ok observation.index :=
      dif_pos observation.index.lt_maxExclusive
    rw [hvalid] at hk
    exact ⟨_, List.mem_of_getElem? hk, by simp [HopAccumulator.start]⟩

/-! ### Contributions -/

/-- What one exchange adds to the evidence of the path: its own, and a reason for every hop that the path
does not declare. -/
def pathContribution (path : PathDef) (record : MeasurementRecord) : Evidence × List Reason :=
  (record.evidence, (record.hops.filter fun observation => !declares path observation).map
    fun observation => ⟨.hopConflicting, observation.hop.toHex⟩)

/-- What one exchange says about a hop. -/
def hopEvidence (index : HopIndex) (hop : HopId) (record : MeasurementRecord) : Evidence :=
  match record.hopAt index with
  | none => .missing .hopMissing hop.toHex
  | some observation => observation.evidence

/-- The evidence of an observation without a dwell is merged twice. -/
def hopContributions (index : HopIndex) (hop : HopId) (record : MeasurementRecord) : List (Evidence × List Reason) :=
  if (record.hopAt index).any fun observation => observation.dwellNs.isNone then
    [(hopEvidence index hop record, []), (hopEvidence index hop record, [])]
  else [(hopEvidence index hop record, [])]

theorem foldl_noteUndeclared {path : PathDef} {hops : List HopAccumulator}
    (h : ∀ observation, (hops.any fun a => a.summary.index == observation.index) = declares path observation)
    (observations : List HopObservation) (evidence : Evidence) :
    observations.foldl (noteUndeclared hops) evidence =
      evidence.addReasons ((observations.filter fun observation => !declares path observation).map
        fun observation => ⟨.hopConflicting, observation.hop.toHex⟩) := by
  induction observations generalizing evidence with
  | nil => rfl
  | cons observation rest ih =>
    rw [List.foldl_cons, ih, List.filter_cons]
    unfold noteUndeclared
    rw [h observation]
    cases declares path observation <;> rfl

theorem observe_evidence (record : MeasurementRecord) (a : HopAccumulator) :
    (a.observe record).summary.evidence =
      (hopContributions a.summary.index a.summary.hop record).foldl Evidence.absorb a.summary.evidence := by
  unfold HopAccumulator.observe hopContributions hopEvidence
  cases hhop : record.hopAt a.summary.index with
  | none => simp [HopAccumulator.missing, hhop, Evidence.absorb, Evidence.addReasons]
  | some observation =>
    cases hdwell : observation.dwellNs <;> cases hqueue : observation.queueDwellNs <;>
      by_cases hvalid : observation.queue.valid = true <;>
      simp [HopAccumulator.dwell, HopAccumulator.queueDwell, hhop, hdwell, hqueue, hvalid, Evidence.absorb,
        Evidence.addReasons]

theorem foldl_observe_evidence (records : List MeasurementRecord) (a : HopAccumulator) :
    (records.foldl (fun a record => a.observe record) a).summary.evidence =
      (records.flatMap (hopContributions a.summary.index a.summary.hop)).foldl Evidence.absorb a.summary.evidence := by
  induction records generalizing a with
  | nil => rfl
  | cons record rest ih =>
    have hindex : (a.observe record).summary.index = a.summary.index := by
      rw [HopAccumulator.observe_eq]
      rfl
    have hhop : (a.observe record).summary.hop = a.summary.hop := by
      rw [HopAccumulator.observe_eq]
      rfl
    rw [List.foldl_cons, ih, observe_evidence, hindex, hhop, List.flatMap_cons, List.foldl_append]

theorem summaryLoop_evidence {request : SummaryRequest} {policy : RuntimePolicy} {path : PathDef}
    {hops : List HopAccumulator} (h : startHops request.histogram 0 path.hops = .ok hops)
    (records : List MeasurementRecord) :
    (summaryLoop request policy hops records).evidence =
      ((request.included records).map (pathContribution path)).foldl Evidence.absorb (.observed .fresh .high) := by
  have hany := any_index_eq h
  have hloop : ∀ s : SummaryLoop,
      (∀ observation, (s.hops.any fun a => a.summary.index == observation.index) = declares path observation) →
      (records.foldl (SummaryLoop.step request) s).evidence =
        ((request.included records).map (pathContribution path)).foldl Evidence.absorb s.evidence := by
    induction records with
    | nil =>
      intro s _
      rfl
    | cons record rest ih =>
      intro s hs
      have hnext : ∀ observation, ((SummaryLoop.step request s record).hops.any
          fun a => a.summary.index == observation.index) = declares path observation := by
        intro observation
        have hhops := SummaryLoop.foldl_hops request s [record]
        rw [List.foldl_cons, List.foldl_nil] at hhops
        rw [hhops, List.any_map, ← hs observation]
        apply congrArg s.hops.any
        funext a
        obtain ⟨evidence, hmeasured⟩ := a.foldl_observe (request.included [record])
        rw [Function.comp_apply, hmeasured]
        rfl
      rw [List.foldl_cons, ih _ hnext, request.included_cons, List.map_append, List.foldl_append]
      apply congrArg fun start => ((request.included rest).map (pathContribution path)).foldl Evidence.absorb start
      unfold SummaryLoop.step SummaryRequest.included
      cases hclass : request.classify record with
      | included =>
        simp only [List.filter_cons, hclass, decide_true, if_true, List.filter_nil, List.map_cons, List.map_nil,
          List.foldl_cons, List.foldl_nil, SummaryLoop.contribute]
        exact foldl_noteUndeclared hs record.hops _
      | _ => simp [hclass]
  exact hloop (summaryStart request policy hops) hany

end LatencyObservatory.Stats
