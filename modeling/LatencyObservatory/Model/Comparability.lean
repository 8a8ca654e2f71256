import LatencyObservatory.Model.Clock
import LatencyObservatory.Core.Merge

/-!
# What makes two clocks comparable

`compare` is a chain of refusals over two functions and three shapes of domain pairs. Here the decision is
stated once: each side has a `Placement` on a reference timeline, and two placements are comparable when
they lie on the same timeline and their uncertainties add up to no more than the policy's ceiling. The
statement does not mention an order of the sides, so the comparison is symmetric.
-/

namespace LatencyObservatory.Model

open LatencyObservatory.Core

/-! ## One side -/

variable {r : ClockRegistry} {id : ClockDomainId} {now : Timestamp} {generation : GenerationId} {epoch : EpochId}
  {incarnation : IncarnationId}

namespace ClockRegistry

/-- The recorded report of a domain, fit for evidence of this generation, epoch and incarnation. -/
structure Reported (r : ClockRegistry) (id : ClockDomainId) (now : Timestamp) (generation : GenerationId)
    (epoch : EpochId) (incarnation : IncarnationId) (report : ClockSync) : Prop where
  defined : r.domains.contains id = true
  recorded : r.syncs[id]? = some report
  state : report.state = .synchronized ∨ report.state = .holdover ∧ r.policy.comparability.allowHoldover = true
  generation : r.policy.comparability.requireGenerationMatch = true → report.generation.valid = true →
    generation.valid = true → report.generation = generation
  epoch : r.policy.comparability.requireEpochMatch = true → report.epoch.valid = true →
    epoch.valid = true → report.epoch = epoch
  incarnation : r.policy.comparability.requireIncarnationMatch = true → report.incarnation.valid = true →
    incarnation.valid = true → report.incarnation = incarnation
  dated : report.observedAt.valid = true
  datedHere : report.observedAt.domain = now.domain

end ClockRegistry

/-- The reading `now` falls into the report's validity window. -/
def ClockSync.current (report : ClockSync) (now : Timestamp) : Prop :=
  0 ≤ report.ageNs now ∧ report.ageNs now ≤ report.validForNs

/-- The confidence `compare_single` gives to a report that is in its window. -/
def ClockSync.confidenceAt (report : ClockSync) (now : Timestamp) : Confidence :=
  if report.state = .holdover then .degraded
  else if report.ageNs now > report.validForNs / 2 then .moderate else .high

namespace ClockRegistry

/-- Everything `compare_single` can do: it accepts the report, or there is none to accept and it refuses. -/
inductive SideOutcome (r : ClockRegistry) (id : ClockDomainId) (now : Timestamp) (generation : GenerationId)
    (epoch : EpochId) (incarnation : IncarnationId) : Except Error ClockComparability → Prop
  | accepted (report : ClockSync) (evidence : Evidence)
      (reported : r.Reported id now generation epoch incarnation report) (current : report.current now) :
      SideOutcome r id now generation epoch incarnation (.ok {
        comparable := true, uncertaintyNs := report.uncertaintyNs, confidence := report.confidenceAt now,
        evidence := evidence })
  | refused (c : ClockComparability) (hc : c.comparable = false)
      (none : ∀ report, r.Reported id now generation epoch incarnation report → ¬ report.current now) :
      SideOutcome r id now generation epoch incarnation (.ok c)

theorem SideOutcome.ite {condition : Prop} [Decidable condition] {yes no : Except Error ClockComparability}
    (hyes : condition → r.SideOutcome id now generation epoch incarnation yes)
    (hno : ¬ condition → r.SideOutcome id now generation epoch incarnation no) :
    r.SideOutcome id now generation epoch incarnation (if condition then yes else no) := by
  by_cases h : condition
  · rw [if_pos h]
    exact hyes h
  · rw [if_neg h]
    exact hno h

theorem compareSingle_outcome (r : ClockRegistry) (id : ClockDomainId) (now : Timestamp)
    (generation : GenerationId) (epoch : EpochId) (incarnation : IncarnationId) :
    r.SideOutcome id now generation epoch incarnation
      (r.compareSingle id now generation epoch incarnation) := by
  unfold compareSingle
  split
  · rename_i hdefinition
    refine .refused _ rfl fun report h => ?_
    have hdefined := h.defined
    rw [Std.ExtTreeMap.contains_eq_isSome_getElem?, hdefinition] at hdefined
    cases hdefined
  rename_i definition hdefinition
  extract_lets name policy
  split
  · rename_i hreport
    refine .refused _ rfl fun report h => ?_
    have hrecorded := h.recorded
    rw [hreport] at hrecorded
    cases hrecorded
  rename_i report hreport
  extract_lets age aging confidence noted
  -- Any report that could be accepted is this one; each refusal contradicts one of its fields.
  have hrefuse : ∀ c : ClockComparability, c.comparable = false →
      (r.Reported id now generation epoch incarnation report → ¬ report.current now) →
      r.SideOutcome id now generation epoch incarnation (.ok c) := by
    intro c hc hnot
    refine .refused c hc fun other h => ?_
    have hrecorded := h.recorded
    rw [hreport, Option.some.injEq] at hrecorded
    rw [← hrecorded] at h ⊢
    exact hnot h
  refine .ite (fun hstate => ?_) fun hstate => ?_
  · refine hrefuse _ rfl fun h _ => ?_
    rcases h.state with hs | ⟨hs, _⟩
    · rw [hs] at hstate
      simp at hstate
    · rw [hs] at hstate
      simp at hstate
  refine .ite (fun hholdover => ?_) fun hholdover => ?_
  · refine hrefuse _ rfl fun h _ => ?_
    rcases h.state with hs | ⟨_, hallow⟩
    · rw [hs] at hholdover
      simp at hholdover
    · simp [policy, hallow] at hholdover
  refine .ite (fun hgeneration => ?_) fun hgeneration => ?_
  · refine hrefuse _ rfl fun h _ => ?_
    simp only [Bool.and_eq_true, bne_iff_ne] at hgeneration
    exact hgeneration.2 (h.generation hgeneration.1.1.1 hgeneration.1.1.2 hgeneration.1.2)
  refine .ite (fun hepoch => ?_) fun hepoch => ?_
  · refine hrefuse _ rfl fun h _ => ?_
    simp only [Bool.and_eq_true, bne_iff_ne] at hepoch
    exact hepoch.2 (h.epoch hepoch.1.1.1 hepoch.1.1.2 hepoch.1.2)
  refine .ite (fun hincarnation => ?_) fun hincarnation => ?_
  · refine hrefuse _ rfl fun h _ => ?_
    simp only [Bool.and_eq_true, bne_iff_ne] at hincarnation
    exact hincarnation.2 (h.incarnation hincarnation.1.1.1 hincarnation.1.1.2 hincarnation.1.2)
  refine .ite (fun hdated => ?_) fun hdated => ?_
  · refine hrefuse _ rfl fun h _ => ?_
    rw [h.dated] at hdated
    cases hdated
  refine .ite (fun hhere => ?_) fun hhere => ?_
  · exact hrefuse _ rfl fun h _ => hhere h.datedHere
  refine .ite (fun hfuture => ?_) fun hfuture => ?_
  · refine hrefuse _ rfl fun _ hcurrent => ?_
    exact absurd hcurrent.1 (Int64.not_le.mpr hfuture)
  refine .ite (fun hexpired => ?_) fun hexpired => ?_
  · refine hrefuse _ rfl fun _ hcurrent => ?_
    exact absurd hcurrent.2 (Int64.not_le.mpr hexpired)
  have hreported : r.Reported id now generation epoch incarnation report := by
    simp only [Bool.and_eq_true, bne_iff_ne, not_and, not_not] at hgeneration hepoch hincarnation
    refine ⟨?_, hreport, ?_, ?_, ?_, ?_, ?_, not_not.mp hhere⟩
    · rw [Std.ExtTreeMap.contains_eq_isSome_getElem?, hdefinition]
      rfl
    · cases hs : report.state with
      | unknown => exact absurd (Or.inl hs) hstate
      | unsynced => exact absurd (Or.inr hs) hstate
      | synchronized => exact Or.inl rfl
      | holdover =>
        refine Or.inr ⟨rfl, ?_⟩
        rw [hs] at hholdover
        simpa using hholdover
    · exact fun hrequired hvalid hgiven => hgeneration ⟨⟨hrequired, hvalid⟩, hgiven⟩
    · exact fun hrequired hvalid hgiven => hepoch ⟨⟨hrequired, hvalid⟩, hgiven⟩
    · exact fun hrequired hvalid hgiven => hincarnation ⟨⟨hrequired, hvalid⟩, hgiven⟩
    · simpa using hdated
  have hcurrent : report.current now := ⟨Int64.not_lt.mp hfuture, Int64.not_lt.mp hexpired⟩
  have hconfidence : confidence = report.confidenceAt now := by
    unfold confidence aging ClockSync.confidenceAt
    simp only [decide_eq_true_eq]
    rfl
  rw [hconfidence]
  exact .accepted report _ hreported hcurrent

end ClockRegistry

/-! ## Two sides -/

/-- Where the readings of a domain lie: on whose timeline, how far off, how precisely and how surely. -/
structure Placement where
  reference : ClockDomainId
  offsetNs : Nanos
  uncertaintyNs : Nanos
  confidence : Confidence
deriving DecidableEq

def ClockSync.placement (report : ClockSync) (now : Timestamp) : Placement :=
  ⟨report.reference, report.offsetNs, report.uncertaintyNs, report.confidenceAt now⟩

namespace ClockRegistry

/-- The local reference domain is its own timeline; any other domain lies where its report puts it. -/
inductive Placed (r : ClockRegistry) (now : Timestamp) (generation : GenerationId) (epoch : EpochId)
    (incarnation : IncarnationId) : ClockDomainId → Placement → Prop
  | reference : Placed r now generation epoch incarnation referenceClockDomain ⟨referenceClockDomain, 0, 0, .high⟩
  | reported {id : ClockDomainId} {report : ClockSync} (remote : id ≠ referenceClockDomain)
      (reported : r.Reported id now generation epoch incarnation report) (current : report.current now) :
      Placed r now generation epoch incarnation id (report.placement now)

/-- Both sides lie on one declared timeline, and close enough. A sum of two reported uncertainties is also
checked for having wrapped around. -/
structure Joined (r : ClockRegistry) (a b : ClockDomainId) (now : Timestamp) (generation : GenerationId)
    (epoch : EpochId) (incarnation : IncarnationId) (first second : Placement) : Prop where
  left : r.Placed now generation epoch incarnation a first
  right : r.Placed now generation epoch incarnation b second
  shared : first.reference = second.reference
  declared : first.reference.valid = true
  unwrapped : a = referenceClockDomain ∨ b = referenceClockDomain ∨
    0 ≤ first.uncertaintyNs + second.uncertaintyNs
  precise : first.uncertaintyNs + second.uncertaintyNs ≤ r.policy.comparability.maxUncertaintyNs

/-- Everything `compare` can do. -/
inductive CompareOutcome (r : ClockRegistry) (a b : ClockDomainId) (now : Timestamp) (generation : GenerationId)
    (epoch : EpochId) (incarnation : IncarnationId) : Except Error ClockComparability → Prop
  | same (evidence : Evidence) (valid : a.valid = true) (same : a = b) :
      CompareOutcome r a b now generation epoch incarnation (.ok {
        comparable := true, confidence := .high, evidence := evidence })
  | joined (first second : Placement) (evidence : Evidence) (valid : a.valid = true ∧ b.valid = true)
      (distinct : a ≠ b) (joined : r.Joined a b now generation epoch incarnation first second) :
      CompareOutcome r a b now generation epoch incarnation (.ok {
        comparable := true, uncertaintyNs := first.uncertaintyNs + second.uncertaintyNs,
        offsetFirstNs := first.offsetNs, offsetSecondNs := second.offsetNs,
        confidence := Evidence.mergeConfidence first.confidence second.confidence, evidence := evidence })
  | refused (c : ClockComparability) (hc : c.comparable = false)
      (none : a.valid = true → b.valid = true →
        a ≠ b ∧ ∀ first second, ¬ r.Joined a b now generation epoch incarnation first second) :
      CompareOutcome r a b now generation epoch incarnation (.ok c)

section Sides

variable {a b : ClockDomainId} {first second : Placement}

theorem Placed.unique (h : r.Placed now generation epoch incarnation id first)
    (h' : r.Placed now generation epoch incarnation id second) : first = second := by
  cases h with
  | reference =>
    cases h' with
    | reference => rfl
    | reported hremote _ _ => exact absurd rfl hremote
  | reported hremote hreported _ =>
    cases h' with
    | reference => exact absurd rfl hremote
    | reported _ hreported' _ =>
      have hsame := hreported.recorded.symm.trans hreported'.recorded
      rw [Option.some.injEq] at hsame
      rw [hsame]

theorem Joined.symm (h : r.Joined a b now generation epoch incarnation first second) :
    r.Joined b a now generation epoch incarnation second first where
  left := h.right
  right := h.left
  shared := h.shared.symm
  declared := by rw [← h.shared]; exact h.declared
  unwrapped := by
    rw [Int64.add_comm]
    rcases h.unwrapped with ha | hb | hsum
    · exact Or.inr (Or.inl ha)
    · exact Or.inl hb
    · exact Or.inr (Or.inr hsum)
  precise := by rw [Int64.add_comm]; exact h.precise

theorem Joined.unique (h : r.Joined a b now generation epoch incarnation first second) {first' second' : Placement}
    (h' : r.Joined a b now generation epoch incarnation first' second') : first = first' ∧ second = second' :=
  ⟨h.left.unique h'.left, h.right.unique h'.right⟩

end Sides

/-- Against the local reference domain the report of the other side decides; the reference adds nothing. -/
theorem joined_reference_iff {b : ClockDomainId} (hb : b ≠ referenceClockDomain) (first second : Placement) :
    r.Joined referenceClockDomain b now generation epoch incarnation first second ↔
      first = ⟨referenceClockDomain, 0, 0, .high⟩ ∧
        ∃ report, r.Reported b now generation epoch incarnation report ∧ report.current now ∧
          second = report.placement now ∧ report.reference = referenceClockDomain ∧
          report.uncertaintyNs ≤ r.policy.comparability.maxUncertaintyNs := by
  constructor
  · intro h
    have hfirst := h.left.unique .reference
    subst hfirst
    refine ⟨rfl, ?_⟩
    cases h.right with
    | reference => exact absurd rfl hb
    | @reported _ report _ hreported hcurrent =>
      have hprecise : 0 + report.uncertaintyNs ≤ r.policy.comparability.maxUncertaintyNs := h.precise
      rw [Int64.zero_add] at hprecise
      exact ⟨report, hreported, hcurrent, rfl, h.shared.symm, hprecise⟩
  · rintro ⟨rfl, report, hreported, hcurrent, rfl, hpoints, hprecise⟩
    refine ⟨.reference, .reported hb hreported hcurrent, hpoints.symm, StrongId.deriveFrom_valid _, Or.inl rfl, ?_⟩
    show 0 + report.uncertaintyNs ≤ r.policy.comparability.maxUncertaintyNs
    rw [Int64.zero_add]
    exact hprecise

/-- What `compare_single` and the reference check settle about the side that is not the reference. -/
theorem compareReference_outcome {a b remote : ClockDomainId}
    (hremote : remote = if a = referenceClockDomain then b else a) :
    ∃ c, r.compareReference a b now generation epoch incarnation = .ok c ∧
      ((∃ report, r.Reported remote now generation epoch incarnation report ∧ report.current now ∧
          report.reference = referenceClockDomain ∧
          report.uncertaintyNs ≤ r.policy.comparability.maxUncertaintyNs ∧
          c = { comparable := true
                uncertaintyNs := report.uncertaintyNs
                offsetFirstNs := if a = referenceClockDomain then 0 else report.offsetNs
                offsetSecondNs := if b = referenceClockDomain then 0 else report.offsetNs
                confidence := report.confidenceAt now
                evidence := c.evidence }) ∨
        c.comparable = false ∧
          ∀ report, r.Reported remote now generation epoch incarnation report → report.current now →
            report.reference = referenceClockDomain →
            ¬ report.uncertaintyNs ≤ r.policy.comparability.maxUncertaintyNs) := by
  simp only [compareReference, ← hremote]
  have houtcome := r.compareSingle_outcome remote now generation epoch incarnation
  revert houtcome
  generalize r.compareSingle remote now generation epoch incarnation = side
  intro houtcome
  cases houtcome with
  | refused c hc hnone =>
    simp only [hc, Bool.not_false, if_true]
    refine ⟨c, rfl, Or.inr ⟨hc, fun report hreported hcurrent => ?_⟩⟩
    exact absurd hcurrent (hnone report hreported)
  | accepted report evidence hreported hcurrent =>
    have hsame : ∀ other, r.Reported remote now generation epoch incarnation other → other = report := by
      intro other h
      have hrecorded := h.recorded
      rw [hreported.recorded, Option.some.injEq] at hrecorded
      exact hrecorded.symm
    simp only [Bool.not_true, Bool.false_eq_true, if_false, hreported.recorded]
    by_cases hpoints : report.reference ≠ referenceClockDomain
    · rw [if_pos hpoints]
      refine ⟨_, rfl, Or.inr ⟨rfl, fun other h _ hother => ?_⟩⟩
      rw [hsame other h] at hother
      exact absurd hother hpoints
    rw [if_neg hpoints]
    by_cases hprecise : report.uncertaintyNs > r.policy.comparability.maxUncertaintyNs
    · rw [if_pos hprecise]
      refine ⟨_, rfl, Or.inr ⟨rfl, fun other h _ _ => ?_⟩⟩
      rw [hsame other h]
      exact Int64.not_le.mpr hprecise
    · rw [if_neg hprecise]
      exact ⟨_, rfl, Or.inl ⟨report, hreported, hcurrent, not_not.mp hpoints, Int64.not_lt.mp hprecise, rfl⟩⟩

theorem compareRemote_outcome {a b : ClockDomainId} (hvalid : a.valid = true ∧ b.valid = true) (hdistinct : a ≠ b)
    (ha : a ≠ referenceClockDomain) (hb : b ≠ referenceClockDomain) :
    r.CompareOutcome a b now generation epoch incarnation
      (r.compareRemote a b now generation epoch incarnation) := by
  unfold compareRemote
  have hleftOutcome := r.compareSingle_outcome a now generation epoch incarnation
  have hrightOutcome := r.compareSingle_outcome b now generation epoch incarnation
  revert hleftOutcome hrightOutcome
  generalize r.compareSingle a now generation epoch incarnation = left
  generalize r.compareSingle b now generation epoch incarnation = right
  intro hleftOutcome hrightOutcome
  cases hleftOutcome with
  | refused c hc hnone =>
    simp only [hc, Bool.not_false, if_true]
    refine .refused c hc fun _ _ => ⟨hdistinct, fun first second h => ?_⟩
    cases h.left with
    | reference => exact ha rfl
    | reported _ hreported hcurrent => exact hnone _ hreported hcurrent
  | accepted leftSync leftEvidence hleftReported hleftCurrent =>
    cases hrightOutcome with
    | refused c hc hnone =>
      simp only [hc, Bool.not_true, Bool.not_false, Bool.false_eq_true, if_false, if_true]
      refine .refused c hc fun _ _ => ⟨hdistinct, fun first second h => ?_⟩
      cases h.right with
      | reference => exact hb rfl
      | reported _ hreported hcurrent => exact hnone _ hreported hcurrent
    | accepted rightSync rightEvidence hrightReported hrightCurrent =>
      simp only [Bool.not_true, Bool.false_eq_true, if_false, hleftReported.recorded, hrightReported.recorded]
      have hplaced : r.Placed now generation epoch incarnation a (leftSync.placement now) :=
        .reported ha hleftReported hleftCurrent
      have hplaced' : r.Placed now generation epoch incarnation b (rightSync.placement now) :=
        .reported hb hrightReported hrightCurrent
      -- Both placements are fixed by the reports, so a refusal only has to speak about them.
      have hrefuse : ∀ c : ClockComparability, c.comparable = false →
          ¬ r.Joined a b now generation epoch incarnation (leftSync.placement now) (rightSync.placement now) →
          r.CompareOutcome a b now generation epoch incarnation (.ok c) := by
        intro c hc hnot
        refine .refused c hc fun _ _ => ⟨hdistinct, fun first second h => ?_⟩
        rw [h.left.unique hplaced, h.right.unique hplaced'] at h
        exact hnot h
      by_cases hshared : leftSync.reference ≠ rightSync.reference
      · rw [if_pos hshared]
        exact hrefuse _ rfl fun h => hshared h.shared
      rw [if_neg hshared]
      by_cases hdeclared : (!leftSync.reference.valid) = true
      · rw [if_pos hdeclared]
        refine hrefuse _ rfl fun h => ?_
        have hvalid : leftSync.reference.valid = true := h.declared
        rw [hvalid] at hdeclared
        cases hdeclared
      rw [if_neg hdeclared]
      by_cases hwrapped : leftSync.uncertaintyNs + rightSync.uncertaintyNs < 0
      · rw [if_pos hwrapped]
        refine hrefuse _ rfl fun h => ?_
        rcases h.unwrapped with h | h | h
        · exact ha h
        · exact hb h
        · exact absurd h (Int64.not_le.mpr hwrapped)
      rw [if_neg hwrapped]
      by_cases hprecise : leftSync.uncertaintyNs + rightSync.uncertaintyNs > r.policy.comparability.maxUncertaintyNs
      · rw [if_pos hprecise]
        exact hrefuse _ rfl fun h => absurd h.precise (Int64.not_le.mpr hprecise)
      rw [if_neg hprecise]
      refine .joined (leftSync.placement now) (rightSync.placement now) _ hvalid hdistinct ?_
      have hvalidReference : leftSync.reference.valid = true := by simpa using hdeclared
      exact ⟨hplaced, hplaced', not_not.mp hshared, hvalidReference,
        Or.inr (Or.inr (Int64.not_lt.mp hwrapped)), Int64.not_lt.mp hprecise⟩

theorem compare_outcome (r : ClockRegistry) (a b : ClockDomainId) (now : Timestamp) (generation : GenerationId)
    (epoch : EpochId) (incarnation : IncarnationId) :
    r.CompareOutcome a b now generation epoch incarnation (r.compare a b now generation epoch incarnation) := by
  unfold compare
  by_cases hinvalid : (!a.valid || !b.valid) = true
  · rw [if_pos hinvalid]
    refine .refused _ rfl fun ha hb => ?_
    rw [ha, hb] at hinvalid
    cases hinvalid
  rw [if_neg hinvalid]
  have hvalid : a.valid = true ∧ b.valid = true := by simpa using hinvalid
  by_cases hsame : a = b
  · rw [if_pos hsame]
    exact .same _ hvalid.1 hsame
  rw [if_neg hsame]
  by_cases hreference : a = referenceClockDomain ∨ b = referenceClockDomain
  swap
  · rw [if_neg hreference]
    rw [not_or] at hreference
    exact compareRemote_outcome hvalid hsame hreference.1 hreference.2
  rw [if_pos hreference]
  by_cases ha : a = referenceClockDomain
  · subst ha
    have hb : b ≠ referenceClockDomain := fun hb => hsame hb.symm
    obtain ⟨c, heq, hcases⟩ := @compareReference_outcome r now generation epoch incarnation _ b b (if_pos rfl).symm
    rw [heq]
    rcases hcases with ⟨report, hreported, hcurrent, hpoints, hprecise, hc⟩ | ⟨hc, hnone⟩
    · have hjoined := (joined_reference_iff hb _ _).mpr
        ⟨rfl, report, hreported, hcurrent, rfl, hpoints, hprecise⟩
      have houtcome := CompareOutcome.joined _ _ c.evidence hvalid hsame hjoined
      rw [Evidence.mergeConfidence_high, Int64.zero_add] at houtcome
      rw [if_pos rfl, if_neg hb] at hc
      rw [hc]
      exact houtcome
    · refine .refused c hc fun _ _ => ⟨hsame, fun first second h => ?_⟩
      obtain ⟨-, report, hreported, hcurrent, -, hpoints, hprecise⟩ := (joined_reference_iff hb _ _).mp h
      exact hnone report hreported hcurrent hpoints hprecise
  · obtain rfl : b = referenceClockDomain := hreference.resolve_left ha
    obtain ⟨c, heq, hcases⟩ := @compareReference_outcome r now generation epoch incarnation a _ a (if_neg ha).symm
    rw [heq]
    rcases hcases with ⟨report, hreported, hcurrent, hpoints, hprecise, hc⟩ | ⟨hc, hnone⟩
    · have hjoined := (joined_reference_iff ha _ _).mpr
        ⟨rfl, report, hreported, hcurrent, rfl, hpoints, hprecise⟩
      have houtcome := CompareOutcome.joined _ _ c.evidence hvalid hsame hjoined.symm
      rw [Evidence.mergeConfidence_comm, Evidence.mergeConfidence_high, Int64.add_zero] at houtcome
      rw [if_pos rfl, if_neg ha] at hc
      rw [hc]
      exact houtcome
    · refine .refused c hc fun _ _ => ⟨hsame, fun first second h => ?_⟩
      obtain ⟨-, report, hreported, hcurrent, -, hpoints, hprecise⟩ := (joined_reference_iff ha _ _).mp h.symm
      exact hnone report hreported hcurrent hpoints hprecise

end ClockRegistry

/-! ## Symmetry -/

/-- The duration between a reading of the first domain and one of the second, both moved to the reference
timeline, as the derivation of dwells takes it. -/
def ClockComparability.duration (c : ClockComparability) (first second : Nanos) : Nanos :=
  (second - c.offsetSecondNs) - (first - c.offsetFirstNs)

theorem ClockComparability.duration_swap {c c' : ClockComparability} (hfirst : c.offsetFirstNs = c'.offsetSecondNs)
    (hsecond : c.offsetSecondNs = c'.offsetFirstNs) (x y : Nanos) : c.duration x y = -c'.duration y x := by
  unfold duration
  rw [hfirst, hsecond, Int64.neg_sub]

/-- Comparing in the other direction gives the same verdict and the same quality, with the offsets exchanged:
a duration taken backwards is the negated one. -/
theorem ClockRegistry.compare_symmetric (r : ClockRegistry) (a b : ClockDomainId) (now : Timestamp)
    (generation : GenerationId) (epoch : EpochId) (incarnation : IncarnationId) :
    ∃ c c', r.compare a b now generation epoch incarnation = .ok c ∧
      r.compare b a now generation epoch incarnation = .ok c' ∧
      c.comparable = c'.comparable ∧
      (c.comparable = true → c.uncertaintyNs = c'.uncertaintyNs ∧ c.confidence = c'.confidence ∧
        c.offsetFirstNs = c'.offsetSecondNs ∧ c.offsetSecondNs = c'.offsetFirstNs ∧
        ∀ x y, c.duration x y = -c'.duration y x) := by
  have hforth := r.compare_outcome a b now generation epoch incarnation
  have hback := r.compare_outcome b a now generation epoch incarnation
  revert hforth hback
  generalize r.compare a b now generation epoch incarnation = forth
  generalize r.compare b a now generation epoch incarnation = back
  intro hforth hback
  cases hforth with
  | same evidence hvalid hsame =>
    subst hsame
    cases hback with
    | same evidence' _ _ => exact ⟨_, _, rfl, rfl, rfl, fun _ => ⟨rfl, rfl, rfl, rfl,
        ClockComparability.duration_swap rfl rfl⟩⟩
    | joined _ _ _ _ hdistinct _ => exact absurd rfl hdistinct
    | refused _ _ hnone => exact absurd rfl (hnone hvalid hvalid).1
  | joined first second evidence hvalid hdistinct hjoined =>
    cases hback with
    | same _ _ hsame => exact absurd hsame.symm hdistinct
    | joined first' second' evidence' _ _ hjoined' =>
      obtain ⟨rfl, rfl⟩ := hjoined.symm.unique hjoined'
      exact ⟨_, _, rfl, rfl, rfl, fun _ => ⟨Int64.add_comm _ _, Evidence.mergeConfidence_comm _ _, rfl, rfl,
        ClockComparability.duration_swap rfl rfl⟩⟩
    | refused _ _ hnone => exact absurd hjoined.symm ((hnone hvalid.2 hvalid.1).2 second first)
  | refused c hc hnone =>
    cases hback with
    | same evidence' hvalid hsame =>
      subst hsame
      exact absurd rfl (hnone hvalid hvalid).1
    | joined first' second' evidence' hvalid _ hjoined' =>
      exact absurd hjoined'.symm ((hnone hvalid.2 hvalid.1).2 second' first')
    | refused c' hc' _ =>
      refine ⟨c, c', rfl, rfl, hc.trans hc'.symm, fun htrue => ?_⟩
      rw [hc] at htrue
      cases htrue

end LatencyObservatory.Model
