import LatencyObservatory.Model.Comparability
import LatencyObservatory.Core.Checked
import LatencyObservatory.Lib.Steps

/-!
# Comparability and age in reachable registries

A registry is filled by `define_domain` and `record_sync` alone. What `record_sync` checks of a report holds
of every recorded one, and with it the decision of `compare` is the one of exact arithmetic as long as its
own sums and differences stay in range. `estimate_age` is a second way to the reference timeline; it
asks less of a report than `compare` does, and `estimateAge_obeys_iff` says how much.
-/

namespace LatencyObservatory.Model

open LatencyObservatory.Core

variable {r : ClockRegistry} {id : ClockDomainId} {now : Timestamp} {generation : GenerationId} {epoch : EpochId}
  {incarnation : IncarnationId}

/-! ## Registries that can be reached -/

namespace ClockRegistry

inductive Call where
  | defineDomain (definition : ClockDomainDef)
  | recordSync (sync : ClockSync)
deriving DecidableEq, Repr

def call (r : ClockRegistry) : Call → ClockRegistry
  | .defineDomain definition => (r.defineDomain definition).2
  | .recordSync sync => (r.recordSync sync).2

/-- The registry after a sequence of calls, failed ones included. -/
def after (policy : RuntimePolicy) (calls : List Call) : ClockRegistry :=
  calls.foldl call { policy := policy }

/-- What `record_sync` has checked of a recorded report. -/
structure Checked (r : ClockRegistry) (id : ClockDomainId) (report : ClockSync) : Prop where
  own : report.domain = id
  valid : id.valid = true
  defined : r.domains.contains id = true
  other : report.reference ≠ id
  uncertainty : 0 ≤ report.uncertaintyNs
  window : 0 < report.validForNs

def Sound (r : ClockRegistry) : Prop :=
  ∀ (id : ClockDomainId) (report : ClockSync), r.syncs[id]? = some report → r.Checked id report

theorem Checked.mono {report : ClockSync} (h : r.Checked id report) {r' : ClockRegistry}
    (hdomains : r.domains.contains id = true → r'.domains.contains id = true) : r'.Checked id report :=
  { h with defined := hdomains h.defined }

theorem defineDomain_cases (r : ClockRegistry) (definition : ClockDomainDef) :
    (r.defineDomain definition).2 = r ∨
      (r.defineDomain definition).2 = { r with
        domains := r.domains.insert (.deriveFrom definition.name.str)
          { definition with id := .deriveFrom definition.name.str } } := by
  unfold defineDomain
  extract_lets name id
  by_cases hname : (definition.id.valid && definition.id != id) = true
  · rw [if_pos hname]
    exact Or.inl rfl
  rw [if_neg hname]
  cases r.domains[id]? with
  | none =>
    by_cases hfull : r.domains.size ≥ r.policy.limits.maxClockDomains
    · exact Or.inl (by simp only [if_pos hfull])
    · exact Or.inr (by simp only [if_neg hfull]; rfl)
  | some found =>
    by_cases hfound : found ≠ { definition with id := id }
    · exact Or.inl (by simp only [if_pos hfound])
    · exact Or.inl (by simp only [if_neg hfound])

theorem recordSync_cases (r : ClockRegistry) (sync : ClockSync) :
    (r.recordSync sync).2 = r ∨
      r.Checked sync.domain sync ∧
        (r.recordSync sync).2 = { r with syncs := r.syncs.insert sync.domain sync } := by
  unfold recordSync
  by_cases hvalid : (!sync.domain.valid) = true
  · rw [if_pos hvalid]
    exact Or.inl rfl
  rw [if_neg hvalid]
  by_cases hdefined : (!r.domains.contains sync.domain) = true
  · rw [if_pos hdefined]
    exact Or.inl rfl
  rw [if_neg hdefined]
  by_cases hreference : (sync.reference.valid && !r.domains.contains sync.reference) = true
  · rw [if_pos hreference]
    exact Or.inl rfl
  rw [if_neg hreference]
  by_cases hself : sync.reference = sync.domain
  · rw [if_pos hself]
    exact Or.inl rfl
  rw [if_neg hself]
  by_cases huncertainty : sync.uncertaintyNs < 0
  · rw [if_pos huncertainty]
    exact Or.inl rfl
  rw [if_neg huncertainty]
  by_cases hwindow : sync.validForNs ≤ 0
  · rw [if_pos hwindow]
    exact Or.inl rfl
  rw [if_neg hwindow]
  have hchecked : r.Checked sync.domain sync :=
    ⟨rfl, by simpa using hvalid, by simpa using hdefined, hself, Int64.not_lt.mp huncertainty,
      Int64.not_le.mp hwindow⟩
  -- A recorded report only gives way to a newer revision; every other answer leaves the registry.
  cases r.syncs[sync.domain]? with
  | none => exact Or.inr ⟨hchecked, rfl⟩
  | some found =>
    dsimp only
    by_cases holder : sync.revision.value < found.revision.value
    · rw [if_pos holder]
      exact Or.inl rfl
    rw [if_neg holder]
    by_cases hrevision : sync.revision = found.revision
    · rw [if_pos hrevision]
      left
      split_ifs <;> rfl
    · rw [if_neg hrevision]
      exact Or.inr ⟨hchecked, rfl⟩

theorem call_sound (r : ClockRegistry) (c : Call) (h : r.Sound) : (r.call c).Sound := by
  cases c with
  | defineDomain definition =>
    show (r.defineDomain definition).2.Sound
    rcases r.defineDomain_cases definition with heq | heq
    · rw [heq]
      exact h
    · rw [heq]
      intro id report hreport
      refine (h id report hreport).mono fun hdefined => ?_
      simp only [Std.ExtTreeMap.contains_insert, hdefined, Bool.or_true]
  | recordSync sync =>
    show (r.recordSync sync).2.Sound
    rcases r.recordSync_cases sync with heq | ⟨hchecked, heq⟩
    · rw [heq]
      exact h
    · rw [heq]
      intro id report hreport
      have hreport : (r.syncs.insert sync.domain sync)[id]? = some report := hreport
      rw [Std.ExtTreeMap.getElem?_insert] at hreport
      by_cases hid : Ord.compare sync.domain id = .eq
      · rw [if_pos hid, Option.some.injEq] at hreport
        rw [Std.LawfulEqOrd.compare_eq_iff_eq] at hid
        subst hreport hid
        exact hchecked.mono fun hdefined => hdefined
      · rw [if_neg hid] at hreport
        exact (h id report hreport).mono fun hdefined => hdefined

theorem after_sound (policy : RuntimePolicy) (calls : List Call) : (after policy calls).Sound := by
  refine Lib.foldl_inv call_sound ?_ calls
  intro id report hreport
  simp at hreport

/-! ## The decision in exact arithmetic -/

/-- A report in its window at `now`, with the age taken as an integer. -/
structure Trusted (r : ClockRegistry) (id : ClockDomainId) (now : Timestamp) (generation : GenerationId)
    (epoch : EpochId) (incarnation : IncarnationId) (report : ClockSync) : Prop
    extends r.Reported id now generation epoch incarnation report where
  notFuture : 0 ≤ now.ns.toInt - report.observedAt.ns.toInt
  notExpired : now.ns.toInt - report.observedAt.ns.toInt ≤ report.validForNs.toInt

/-- When readings of two domains may be subtracted. -/
def Comparable (r : ClockRegistry) (a b : ClockDomainId) (now : Timestamp) (generation : GenerationId)
    (epoch : EpochId) (incarnation : IncarnationId) : Prop :=
  a.valid = true ∧ b.valid = true ∧
    (a = b ∨
      (a = referenceClockDomain ∧ ∃ report, r.Trusted b now generation epoch incarnation report ∧
        report.reference = referenceClockDomain ∧
        report.uncertaintyNs.toInt ≤ r.policy.comparability.maxUncertaintyNs.toInt) ∨
      (b = referenceClockDomain ∧ ∃ report, r.Trusted a now generation epoch incarnation report ∧
        report.reference = referenceClockDomain ∧
        report.uncertaintyNs.toInt ≤ r.policy.comparability.maxUncertaintyNs.toInt) ∨
      (a ≠ referenceClockDomain ∧ b ≠ referenceClockDomain ∧
        ∃ first second, r.Trusted a now generation epoch incarnation first ∧
          r.Trusted b now generation epoch incarnation second ∧
          first.reference = second.reference ∧ first.reference.valid = true ∧
          first.uncertaintyNs.toInt + second.uncertaintyNs.toInt ≤
            r.policy.comparability.maxUncertaintyNs.toInt))

/-- The differences and the sum that the comparison takes do not overflow. -/
structure Unwrapped (r : ClockRegistry) (a b : ClockDomainId) (now : Timestamp) : Prop where
  age : ∀ id report, id = a ∨ id = b → id ≠ referenceClockDomain → r.syncs[id]? = some report →
    Representable (now.ns.toInt - report.observedAt.ns.toInt)
  uncertainty : a ≠ referenceClockDomain → b ≠ referenceClockDomain → ∀ first second,
    r.syncs[a]? = some first → r.syncs[b]? = some second →
    Representable (first.uncertaintyNs.toInt + second.uncertaintyNs.toInt)

/-- The offset of a domain from the reference timeline, as reported. -/
def reportedOffset (r : ClockRegistry) (id : ClockDomainId) : Nanos :=
  if id = referenceClockDomain then 0 else (r.syncs[id]?.map (·.offsetNs)).getD 0

def reportedUncertainty (r : ClockRegistry) (id : ClockDomainId) : Nanos :=
  if id = referenceClockDomain then 0 else (r.syncs[id]?.map (·.uncertaintyNs)).getD 0

section Exact

variable {a b : ClockDomainId} {report : ClockSync} {first second : Placement}

theorem Placed.offset (h : r.Placed now generation epoch incarnation id first) :
    first.offsetNs = r.reportedOffset id := by
  unfold reportedOffset
  cases h with
  | reference => rw [if_pos rfl]
  | reported hremote hreported _ =>
    rw [if_neg hremote, hreported.recorded]
    rfl

theorem Placed.uncertainty (h : r.Placed now generation epoch incarnation id first) :
    first.uncertaintyNs = r.reportedUncertainty id := by
  unfold reportedUncertainty
  cases h with
  | reference => rw [if_pos rfl]
  | reported hremote hreported _ =>
    rw [if_neg hremote, hreported.recorded]
    rfl

theorem current_iff_exact (h : Representable (now.ns.toInt - report.observedAt.ns.toInt)) :
    report.current now ↔ 0 ≤ now.ns.toInt - report.observedAt.ns.toInt ∧
      now.ns.toInt - report.observedAt.ns.toInt ≤ report.validForNs.toInt := by
  unfold ClockSync.current ClockSync.ageNs
  rw [Int64.le_iff_toInt_le, Int64.le_iff_toInt_le, toInt_sub_of_representable h, Int64.toInt_zero]

theorem trusted_iff (h : Representable (now.ns.toInt - report.observedAt.ns.toInt)) :
    r.Trusted id now generation epoch incarnation report ↔
      r.Reported id now generation epoch incarnation report ∧ report.current now := by
  constructor
  · intro htrusted
    exact ⟨htrusted.toReported, (current_iff_exact h).mpr ⟨htrusted.notFuture, htrusted.notExpired⟩⟩
  · rintro ⟨hreported, hcurrent⟩
    obtain ⟨hfuture, hexpired⟩ := (current_iff_exact h).mp hcurrent
    exact ⟨hreported, hfuture, hexpired⟩

theorem Unwrapped.symm (h : r.Unwrapped a b now) : r.Unwrapped b a now where
  age := fun id report hid => h.age id report hid.symm
  uncertainty := by
    intro hb ha first second hfirst hsecond
    rw [Int.add_comm]
    exact h.uncertainty ha hb second first hsecond hfirst

theorem Joined.exactSum (h : r.Joined a b now generation epoch incarnation first second)
    (hunwrapped : r.Unwrapped a b now) :
    (first.uncertaintyNs + second.uncertaintyNs).toInt = first.uncertaintyNs.toInt + second.uncertaintyNs.toInt := by
  cases h.left with
  | reference =>
    show (0 + second.uncertaintyNs).toInt = 0 + second.uncertaintyNs.toInt
    rw [Int64.zero_add, Int.zero_add]
  | reported ha hfirst _ =>
    cases h.right with
    | reference =>
      show (_ + (0 : Int64)).toInt = _ + 0
      rw [Int64.add_zero, Int.add_zero]
    | reported hb hsecond _ =>
      exact toInt_add_of_representable (hunwrapped.uncertainty ha hb _ _ hfirst.recorded hsecond.recorded)

/-- One side is the local reference: the exact conditions on the report of the other one. -/
theorem joined_reference_iff_trusted (hunwrapped : r.Unwrapped referenceClockDomain b now)
    (hb : b ≠ referenceClockDomain) :
    (∃ first second, r.Joined referenceClockDomain b now generation epoch incarnation first second) ↔
      ∃ report, r.Trusted b now generation epoch incarnation report ∧
        report.reference = referenceClockDomain ∧
        report.uncertaintyNs.toInt ≤ r.policy.comparability.maxUncertaintyNs.toInt := by
  have hage : ∀ report, r.Reported b now generation epoch incarnation report →
      Representable (now.ns.toInt - report.observedAt.ns.toInt) := by
    intro report hreported
    exact hunwrapped.age b report (Or.inr rfl) hb hreported.recorded
  constructor
  · rintro ⟨first, second, h⟩
    obtain ⟨-, report, hreported, hcurrent, -, hpoints, hprecise⟩ := (joined_reference_iff hb _ _).mp h
    exact ⟨report, (trusted_iff (hage report hreported)).mpr ⟨hreported, hcurrent⟩, hpoints,
      Int64.le_iff_toInt_le.mp hprecise⟩
  · rintro ⟨report, htrusted, hpoints, hprecise⟩
    obtain ⟨hreported, hcurrent⟩ := (trusted_iff (hage report htrusted.toReported)).mp htrusted
    exact ⟨_, _, (joined_reference_iff hb _ _).mpr
      ⟨rfl, report, hreported, hcurrent, rfl, hpoints, Int64.le_iff_toInt_le.mpr hprecise⟩⟩

theorem joined_remote_iff_trusted (hsound : r.Sound) (hunwrapped : r.Unwrapped a b now)
    (ha : a ≠ referenceClockDomain) (hb : b ≠ referenceClockDomain) :
    (∃ first second, r.Joined a b now generation epoch incarnation first second) ↔
      ∃ first second, r.Trusted a now generation epoch incarnation first ∧
        r.Trusted b now generation epoch incarnation second ∧
        first.reference = second.reference ∧ first.reference.valid = true ∧
        first.uncertaintyNs.toInt + second.uncertaintyNs.toInt ≤
          r.policy.comparability.maxUncertaintyNs.toInt := by
  have hage : ∀ id report, id = a ∨ id = b → r.Reported id now generation epoch incarnation report →
      Representable (now.ns.toInt - report.observedAt.ns.toInt) := by
    intro id report hid hreported
    refine hunwrapped.age id report hid ?_ hreported.recorded
    rcases hid with rfl | rfl
    · exact ha
    · exact hb
  have hsum : ∀ first second, r.syncs[a]? = some first → r.syncs[b]? = some second →
      (first.uncertaintyNs + second.uncertaintyNs).toInt =
        first.uncertaintyNs.toInt + second.uncertaintyNs.toInt := by
    intro first second hfirst hsecond
    exact toInt_add_of_representable (hunwrapped.uncertainty ha hb first second hfirst hsecond)
  constructor
  · rintro ⟨_, _, h⟩
    have hshared := h.shared
    have hdeclared := h.declared
    have hprecise := h.precise
    cases h.left with
    | reference => exact absurd rfl ha
    | @reported _ first _ hfirst hfirstCurrent =>
      cases h.right with
      | reference => exact absurd rfl hb
      | @reported _ second _ hsecond hsecondCurrent =>
        rw [Int64.le_iff_toInt_le] at hprecise
        refine ⟨first, second, (trusted_iff (hage a first (Or.inl rfl) hfirst)).mpr ⟨hfirst, hfirstCurrent⟩,
          (trusted_iff (hage b second (Or.inr rfl) hsecond)).mpr ⟨hsecond, hsecondCurrent⟩, hshared, hdeclared, ?_⟩
        rw [← hsum first second hfirst.recorded hsecond.recorded]
        exact hprecise
  · rintro ⟨first, second, hfirst, hsecond, hshared, hdeclared, hprecise⟩
    obtain ⟨hfirstReported, hfirstCurrent⟩ := (trusted_iff (hage a first (Or.inl rfl) hfirst.toReported)).mp hfirst
    obtain ⟨hsecondReported, hsecondCurrent⟩ :=
      (trusted_iff (hage b second (Or.inr rfl) hsecond.toReported)).mp hsecond
    have hexact := hsum first second hfirst.recorded hsecond.recorded
    refine ⟨_, _, .reported ha hfirstReported hfirstCurrent, .reported hb hsecondReported hsecondCurrent,
      hshared, hdeclared, Or.inr (Or.inr ?_), ?_⟩
    · -- Recorded uncertainties are not negative, and neither is their exact sum.
      have hfirstSign := (hsound a first hfirst.recorded).uncertainty
      have hsecondSign := (hsound b second hsecond.recorded).uncertainty
      rw [Int64.le_iff_toInt_le, Int64.toInt_zero] at hfirstSign hsecondSign ⊢
      show 0 ≤ (first.uncertaintyNs + second.uncertaintyNs).toInt
      omega
    · rw [Int64.le_iff_toInt_le]
      show (first.uncertaintyNs + second.uncertaintyNs).toInt ≤ _
      rw [hexact]
      exact hprecise

theorem comparable_iff_joined (hsound : r.Sound) (hunwrapped : r.Unwrapped a b now) (hdistinct : a ≠ b) :
    r.Comparable a b now generation epoch incarnation ↔
      a.valid = true ∧ b.valid = true ∧
        ∃ first second, r.Joined a b now generation epoch incarnation first second := by
  unfold Comparable
  refine and_congr_right fun _ => and_congr_right fun _ => ?_
  rw [or_iff_right hdistinct]
  by_cases ha : a = referenceClockDomain
  · subst ha
    have hb : b ≠ referenceClockDomain := hdistinct.symm
    rw [joined_reference_iff_trusted hunwrapped hb]
    simp only [true_and, hb, false_and, ne_eq, not_true_eq_false, or_false]
  · by_cases hb : b = referenceClockDomain
    · subst hb
      have hswap : (∃ first second, r.Joined a referenceClockDomain now generation epoch incarnation first second) ↔
          ∃ first second, r.Joined referenceClockDomain a now generation epoch incarnation first second :=
        ⟨fun ⟨first, second, h⟩ => ⟨second, first, h.symm⟩, fun ⟨first, second, h⟩ => ⟨second, first, h.symm⟩⟩
      rw [hswap, joined_reference_iff_trusted hunwrapped.symm ha]
      simp only [true_and, ha, false_and, false_or, ne_eq, not_true_eq_false, and_false, or_false]
    · rw [joined_remote_iff_trusted hsound hunwrapped ha hb]
      simp only [ha, hb, false_and, false_or, ne_eq, not_false_eq_true, true_and]

end Exact

/-- The comparison of two domains is allowed exactly when both sides are trusted on one timeline, and its
answer carries the reported offsets and the sum of the reported uncertainties. -/
theorem compare_exact (policy : RuntimePolicy) (calls : List Call) (a b : ClockDomainId) (now : Timestamp)
    (generation : GenerationId) (epoch : EpochId) (incarnation : IncarnationId)
    (hunwrapped : a ≠ b → (after policy calls).Unwrapped a b now) :
    ∃ c, (after policy calls).compare a b now generation epoch incarnation = .ok c ∧
      (c.comparable = true ↔ (after policy calls).Comparable a b now generation epoch incarnation) ∧
      (c.comparable = true →
        if a = b then c.offsetFirstNs = 0 ∧ c.offsetSecondNs = 0 ∧ c.uncertaintyNs = 0
        else c.offsetFirstNs = (after policy calls).reportedOffset a ∧
          c.offsetSecondNs = (after policy calls).reportedOffset b ∧
          c.uncertaintyNs.toInt = ((after policy calls).reportedUncertainty a).toInt +
            ((after policy calls).reportedUncertainty b).toInt) := by
  have hsound := after_sound policy calls
  have houtcome := (after policy calls).compare_outcome a b now generation epoch incarnation
  revert houtcome hunwrapped
  generalize after policy calls = r at hsound ⊢
  generalize r.compare a b now generation epoch incarnation = result
  intro hunwrapped houtcome
  cases houtcome with
  | same evidence hvalid hsame =>
    subst hsame
    refine ⟨_, rfl, iff_of_true rfl ⟨hvalid, hvalid, Or.inl rfl⟩, fun _ => ?_⟩
    rw [if_pos rfl]
    exact ⟨rfl, rfl, rfl⟩
  | joined first second evidence hvalid hdistinct hjoined =>
    refine ⟨_, rfl, iff_of_true rfl ?_, fun _ => ?_⟩
    · exact (comparable_iff_joined hsound (hunwrapped hdistinct) hdistinct).mpr
        ⟨hvalid.1, hvalid.2, first, second, hjoined⟩
    · rw [if_neg hdistinct]
      refine ⟨hjoined.left.offset, hjoined.right.offset, ?_⟩
      rw [← hjoined.left.uncertainty, ← hjoined.right.uncertainty]
      exact hjoined.exactSum (hunwrapped hdistinct)
  | refused c hc hnone =>
    refine ⟨c, rfl, iff_of_false (by rw [hc]; exact Bool.false_ne_true) ?_, fun htrue => ?_⟩
    · intro hcomparable
      obtain ⟨hdistinct, hnone⟩ := hnone hcomparable.1 hcomparable.2.1
      obtain ⟨-, -, first, second, hjoined⟩ :=
        (comparable_iff_joined hsound (hunwrapped hdistinct) hdistinct).mp hcomparable
      exact hnone first second hjoined
    · rw [hc] at htrue
      cases htrue

/-! A registry with one domain that is synchronized to the local reference, 5 ns ahead of it. -/

def sampleReference : ClockDomainDef := { name := ⟨referenceClockDomainName⟩, isReference := true }

def sampleEdge : ClockDomainDef := { name := ⟨text "edge.ptp"⟩ }

def sampleEdgeId : ClockDomainId := .deriveFrom sampleEdge.name.str

def sampleReport (uncertaintyNs : Nanos) : ClockSync :=
  { domain := sampleEdgeId
    reference := referenceClockDomain
    state := .synchronized
    offsetNs := 5
    uncertaintyNs := uncertaintyNs
    validForNs := 1000
    observedAt := ⟨100, referenceClockDomain⟩
    revision := .first }

def sampleRegistry (uncertaintyNs : Nanos) : ClockRegistry :=
  after defaultPolicy
    [.defineDomain sampleReference, .defineDomain sampleEdge, .recordSync (sampleReport uncertaintyNs)]

/-- Two hundred nanoseconds into the reference timeline, half a validity window after the report. -/
def sampleNow : Timestamp := ⟨200, referenceClockDomain⟩

theorem compare_exact_edge :
    (sampleRegistry 40).Unwrapped sampleEdgeId referenceClockDomain sampleNow ∧
      (sampleRegistry 40).Comparable sampleEdgeId referenceClockDomain sampleNow .none .none .none := by
  have hrecorded : (sampleRegistry 40).syncs[sampleEdgeId]? = some (sampleReport 40) := by decide +kernel
  have hunwrapped : (sampleRegistry 40).Unwrapped sampleEdgeId referenceClockDomain sampleNow := by
    refine ⟨?_, fun _ hb => absurd rfl hb⟩
    intro id report hid hremote hreport
    obtain rfl := hid.resolve_right hremote
    rw [hrecorded, Option.some.injEq] at hreport
    rw [← hreport]
    decide
  refine ⟨hunwrapped, ?_⟩
  obtain ⟨c, heq, hiff, -⟩ := compare_exact defaultPolicy
    [.defineDomain sampleReference, .defineDomain sampleEdge, .recordSync (sampleReport 40)]
    sampleEdgeId referenceClockDomain sampleNow .none .none .none fun _ => hunwrapped
  apply hiff.mp
  have hanswer : ((sampleRegistry 40).compare sampleEdgeId referenceClockDomain sampleNow .none .none .none).map
      (·.comparable) = .ok true := by decide +kernel
  unfold sampleRegistry at hanswer
  rw [heq] at hanswer
  exact Except.ok.inj hanswer

/-! ## The age of a reading -/

/-- The report by which `estimate_age` dates a reading of another domain. -/
structure Dates (r : ClockRegistry) (id : ClockDomainId) (now : Timestamp) (report : ClockSync) : Prop where
  recorded : r.syncs[id]? = some report
  points : report.reference = now.domain
  state : report.state = .synchronized ∨ report.state = .holdover
  current : report.current now

/-- `estimate_age` of a reading of another domain gives an age exactly when a report dates it. -/
theorem estimateAge_eq_some_iff {observed : Timestamp} (hobserved : observed.valid = true) (hnow : now.valid = true)
    (hdistinct : observed.domain ≠ now.domain) (age : Nanos) :
    (r.estimateAge observed now).ageNs = some age ↔
      ∃ report, r.Dates observed.domain now report ∧ age = now.ns - (observed.ns - report.offsetNs) := by
  unfold estimateAge
  rw [hobserved, hnow, if_neg (by decide), if_neg hdistinct]
  cases hreport : r.syncs[observed.domain]? with
  | none =>
    refine iff_of_false (by simp) ?_
    rintro ⟨report, hdates, -⟩
    have hrecorded := hdates.recorded
    rw [hreport] at hrecorded
    cases hrecorded
  | some report =>
    have hsame : ∀ other, r.Dates observed.domain now other → other = report := by
      intro other hdates
      have hrecorded := hdates.recorded
      rw [hreport, Option.some.injEq] at hrecorded
      exact hrecorded.symm
    have hrefuse : ∀ evidence : Evidence, ¬ r.Dates observed.domain now report →
        ((({ evidence := evidence } : AgeEstimate).ageNs = some age) ↔
          ∃ report, r.Dates observed.domain now report ∧ age = now.ns - (observed.ns - report.offsetNs)) := by
      intro evidence hnot
      refine iff_of_false (by simp) ?_
      rintro ⟨other, hdates, -⟩
      rw [hsame other hdates] at hdates
      exact hnot hdates
    dsimp only
    by_cases hvalid : (!report.reference.valid) = true
    · rw [if_pos hvalid]
      refine hrefuse _ fun hdates => ?_
      have hnowValid : now.domain.valid = true := hnow
      rw [hdates.points, hnowValid] at hvalid
      cases hvalid
    rw [if_neg hvalid]
    by_cases hpoints : report.reference ≠ now.domain
    · rw [if_pos hpoints]
      exact hrefuse _ fun hdates => hpoints hdates.points
    rw [if_neg hpoints]
    by_cases hstate : report.state = .unknown ∨ report.state = .unsynced
    · rw [if_pos hstate]
      refine hrefuse _ fun hdates => ?_
      rcases hdates.state with hs | hs
      · rw [hs] at hstate
        simp at hstate
      · rw [hs] at hstate
        simp at hstate
    rw [if_neg hstate]
    by_cases hwindow : report.ageNs now < 0 ∨ report.ageNs now > report.validForNs
    · rw [if_pos hwindow]
      refine hrefuse _ fun hdates => ?_
      rcases hwindow with hfuture | hexpired
      · exact absurd hdates.current.1 (Int64.not_le.mpr hfuture)
      · exact absurd hdates.current.2 (Int64.not_le.mpr hexpired)
    rw [if_neg hwindow]
    rw [not_or] at hwindow
    have hdates : r.Dates observed.domain now report := by
      refine ⟨hreport, not_not.mp hpoints, ?_, Int64.not_lt.mp hwindow.1, Int64.not_lt.mp hwindow.2⟩
      cases hs : report.state with
      | unknown => exact absurd (Or.inl hs) hstate
      | unsynced => exact absurd (Or.inr hs) hstate
      | synchronized => exact Or.inl rfl
      | holdover => exact Or.inr rfl
    rw [Option.some.injEq]
    constructor
    · intro hage
      exact ⟨report, hdates, hage.symm⟩
    · rintro ⟨other, hother, hage⟩
      rw [hage, hsame other hother]

theorem after_policy (policy : RuntimePolicy) (calls : List Call) : (after policy calls).policy = policy := by
  refine @Lib.foldl_inv _ _ call (fun r => r.policy = policy) (fun r c h => ?_) _ rfl calls
  cases c with
  | defineDomain definition =>
    show (r.defineDomain definition).2.policy = policy
    rcases r.defineDomain_cases definition with heq | heq
    · rw [heq]
      exact h
    · rw [heq]
      exact h
  | recordSync sync =>
    show (r.recordSync sync).2.policy = policy
    rcases r.recordSync_cases sync with heq | ⟨-, heq⟩
    · rw [heq]
      exact h
    · rw [heq]
      exact h

/-- What the comparison asks of a report that dates a reading, beyond what `estimate_age` asks. -/
structure Endorsed (policy : ComparabilityPolicy) (report : ClockSync) : Prop where
  holdover : report.state = .holdover → policy.allowHoldover = true
  localReport : report.observedAt.domain = referenceClockDomain
  precise : report.uncertaintyNs ≤ policy.maxUncertaintyNs

/-- An age of a reading of another domain is one that the comparison with the local reference allows. -/
def AgeObeys (r : ClockRegistry) (observed now : Timestamp) : Prop :=
  observed.domain ≠ now.domain → ∀ age, (r.estimateAge observed now).ageNs = some age →
    ∃ c, r.compare observed.domain now.domain now .none .none .none = .ok c ∧ c.comparable = true ∧
      age = now.ns - (observed.ns - c.offsetFirstNs)

section Age

variable {report : ClockSync}

/-- A report that dates a reading and is endorsed makes its domain comparable with the local reference. -/
theorem Dates.joined (hsound : r.Sound) {ns : Nanos}
    (hdates : r.Dates id ⟨ns, referenceClockDomain⟩ report) (hid : id ≠ referenceClockDomain) :
    (∃ first second, r.Joined referenceClockDomain id ⟨ns, referenceClockDomain⟩ .none .none .none first second) ↔
      Endorsed r.policy.comparability report := by
  constructor
  · rintro ⟨first, second, h⟩
    obtain ⟨-, other, hreported, -, -, -, hprecise⟩ := (joined_reference_iff hid _ _).mp h
    have hsame := hreported.recorded.symm.trans hdates.recorded
    rw [Option.some.injEq] at hsame
    subst hsame
    refine ⟨fun hholdover => ?_, hreported.datedHere, hprecise⟩
    rcases hreported.state with hs | ⟨-, hallow⟩
    · rw [hs] at hholdover
      cases hholdover
    · exact hallow
  · intro hendorsed
    have hreported : r.Reported id ⟨ns, referenceClockDomain⟩ .none .none .none report := by
      refine ⟨(hsound id report hdates.recorded).defined, hdates.recorded, ?_, ?_, ?_, ?_, ?_, hendorsed.localReport⟩
      · rcases hdates.state with hs | hs
        · exact Or.inl hs
        · exact Or.inr ⟨hs, hendorsed.holdover hs⟩
      · exact fun _ _ hvalid => absurd hvalid (by decide)
      · exact fun _ _ hvalid => absurd hvalid (by decide)
      · exact fun _ _ hvalid => absurd hvalid (by decide)
      · show report.observedAt.domain.valid = true
        rw [hendorsed.localReport]
        exact StrongId.deriveFrom_valid _
    exact ⟨_, _, (joined_reference_iff hid _ _).mpr
      ⟨rfl, report, hreported, hdates.current, rfl, hdates.points, hendorsed.precise⟩⟩

end Age

/-- An age is one that the comparison allows exactly when the report behind it is endorsed: holdover is
allowed if it is in holdover, it was taken on the local reference, and it is precise enough. -/
theorem estimateAge_obeys_iff (policy : RuntimePolicy) (calls : List Call) (observed : Timestamp) (ns : Nanos) :
    (after policy calls).AgeObeys observed ⟨ns, referenceClockDomain⟩ ↔
      (observed.domain ≠ referenceClockDomain → ∀ report,
        (after policy calls).Dates observed.domain ⟨ns, referenceClockDomain⟩ report →
        Endorsed policy.comparability report) := by
  have hsound := after_sound policy calls
  have hpolicy := after_policy policy calls
  revert hsound hpolicy
  generalize after policy calls = r
  intro hsound hpolicy
  subst hpolicy
  have hnow : (⟨ns, referenceClockDomain⟩ : Timestamp).valid = true := StrongId.deriveFrom_valid _
  constructor
  · intro hobeys hdistinct report hdates
    have hobserved : observed.valid = true := (hsound _ _ hdates.recorded).valid
    obtain ⟨c, heq, hc, -⟩ := hobeys hdistinct _
      ((estimateAge_eq_some_iff hobserved hnow hdistinct _).mpr ⟨report, hdates, rfl⟩)
    have houtcome := r.compare_outcome observed.domain referenceClockDomain ⟨ns, referenceClockDomain⟩
      .none .none .none
    rw [heq] at houtcome
    apply (hdates.joined hsound hdistinct).mp
    cases houtcome with
    | same _ _ hsame => exact absurd hsame hdistinct
    | joined first second _ _ _ hjoined => exact ⟨second, first, hjoined.symm⟩
    | refused _ hfalse _ =>
      rw [hfalse] at hc
      cases hc
  · intro hendorsed hdistinct age hage
    have hobserved : observed.valid = true := by
      by_contra hinvalid
      rw [Bool.not_eq_true] at hinvalid
      unfold estimateAge at hage
      rw [hinvalid, Bool.not_false, Bool.true_or, if_pos rfl] at hage
      cases hage
    obtain ⟨report, hdates, rfl⟩ := (estimateAge_eq_some_iff hobserved hnow hdistinct age).mp hage
    obtain ⟨first, second, hjoined⟩ := (hdates.joined hsound hdistinct).mpr (hendorsed hdistinct report hdates)
    have houtcome := r.compare_outcome observed.domain referenceClockDomain ⟨ns, referenceClockDomain⟩
      .none .none .none
    revert houtcome
    show r.CompareOutcome _ _ _ _ _ _ (r.compare observed.domain referenceClockDomain _ _ _ _) → _
    generalize r.compare observed.domain referenceClockDomain ⟨ns, referenceClockDomain⟩ .none .none .none = result
    intro houtcome
    cases houtcome with
    | same _ _ hsame => exact absurd hsame hdistinct
    | joined left right evidence hvalid _ hleft =>
      refine ⟨_, rfl, rfl, ?_⟩
      have hoffset : left.offsetNs = report.offsetNs := by
        rw [hleft.left.offset, reportedOffset, if_neg hdistinct, hdates.recorded]
        rfl
      rw [hoffset]
    | refused c _ hnone =>
      exact absurd hjoined.symm ((hnone hobserved hnow).2 second first)

/-- A report with an uncertainty of two milliseconds, above the ceiling of one, still dates a reading. -/
theorem estimateAge_beyond_ceiling :
    ¬ (sampleRegistry 2000000).AgeObeys ⟨150, sampleEdgeId⟩ sampleNow := by
  intro hobeys
  have hage : ((sampleRegistry 2000000).estimateAge ⟨150, sampleEdgeId⟩ sampleNow).ageNs = some 55 := by
    decide +kernel
  obtain ⟨c, heq, hc, -⟩ := hobeys (by decide +kernel) 55 hage
  have hanswer : ((sampleRegistry 2000000).compare sampleEdgeId referenceClockDomain sampleNow .none .none .none).map
      (·.comparable) = .ok false := by decide +kernel
  have heq : (sampleRegistry 2000000).compare sampleEdgeId referenceClockDomain sampleNow .none .none .none =
      .ok c := heq
  rw [heq] at hanswer
  have hfalse : c.comparable = false := Except.ok.inj hanswer
  rw [hfalse] at hc
  cases hc

end ClockRegistry

end LatencyObservatory.Model
