import LatencyObservatory.Core.Checked
import LatencyObservatory.Model.Registry

/-!
# The arithmetic of the clock registry

`compare` and `estimate_age` subtract and add 64-bit values without a check. The plain operations that a call
evaluates are listed as the source comes to them, and the bounds under which none of them overflows are read off.
-/

namespace LatencyObservatory.Model

open LatencyObservatory.Core

/-! ### The operations -/

/-- The checks of `compare_single` that come before the age of the report. -/
def ClockSync.answers (report : ClockSync) (policy : ComparabilityPolicy) (now : Timestamp)
    (generation : GenerationId) (epoch : EpochId) (incarnation : IncarnationId) : Bool :=
  !(report.state == .unknown || report.state == .unsynced) &&
    !(report.state == .holdover && !policy.allowHoldover) &&
    !(policy.requireGenerationMatch && report.generation.valid && generation.valid &&
      report.generation != generation) &&
    !(policy.requireEpochMatch && report.epoch.valid && epoch.valid && report.epoch != epoch) &&
    !(policy.requireIncarnationMatch && report.incarnation.valid && incarnation.valid &&
      report.incarnation != incarnation) &&
    report.observedAt.valid && report.observedAt.domain == now.domain

namespace ClockRegistry

section Operations

variable (r : ClockRegistry) (now : Timestamp) (generation : GenerationId) (epoch : EpochId)
  (incarnation : IncarnationId)

/-- The age of the report. -/
def compareSingleOps (id : ClockDomainId) : List PlainOp :=
  match r.domains[id]?, r.syncs[id]? with
  | some _, some report =>
    if report.answers r.policy.comparability now generation epoch incarnation then
      [.sub now.ns report.observedAt.ns]
    else []
  | _, _ => []

/-- `compare_single` accepts the domain. -/
def accepts (id : ClockDomainId) : Bool :=
  match r.compareSingle id now generation epoch incarnation with
  | .ok c => c.comparable
  | .error _ => false

/-- The combined uncertainty of two domains with a common reference. -/
def combinedOps (a b : ClockDomainId) : List PlainOp :=
  match r.syncs[a]?, r.syncs[b]? with
  | some left, some right =>
    if left.reference ≠ right.reference then []
    else if !left.reference.valid then []
    else [.add left.uncertaintyNs right.uncertaintyNs]
  | _, _ => []

def compareOps (a b : ClockDomainId) : List PlainOp :=
  if !a.valid || !b.valid then []
  else if a = b then []
  else if a = referenceClockDomain ∨ b = referenceClockDomain then
    r.compareSingleOps now generation epoch incarnation (if a = referenceClockDomain then b else a)
  else
    r.compareSingleOps now generation epoch incarnation a ++
      if r.accepts now generation epoch incarnation a then
        r.compareSingleOps now generation epoch incarnation b ++
          if r.accepts now generation epoch incarnation b then r.combinedOps a b else []
      else []

end Operations

def estimateAgeOps (r : ClockRegistry) (observed now : Timestamp) : List PlainOp :=
  if !observed.valid || !now.valid then []
  else if observed.domain = now.domain then [.sub now.ns observed.ns]
  else match r.syncs[observed.domain]? with
    | none => []
    | some report =>
      if !report.reference.valid then []
      else if report.reference ≠ now.domain then []
      else if report.state = .unknown ∨ report.state = .unsynced then []
      else .sub now.ns report.observedAt.ns ::
        if report.ageNs now < 0 ∨ report.ageNs now > report.validForNs then []
        else [.sub observed.ns report.offsetNs, .sub now.ns (observed.ns - report.offsetNs)]

/-! ### The bounds of a comparison -/

section Bounds

variable {r : ClockRegistry} {now : Timestamp} {generation : GenerationId} {epoch : EpochId}
  {incarnation : IncarnationId} {id a b : ClockDomainId} {report : ClockSync}

theorem match_iff {α : Type} [DecidableEq α] (required known given : Bool) (mine other : α) :
    (!(required && known && given && mine != other)) = true ↔
      (required = true → known = true → given = true → mine = other) := by
  cases required <;> cases known <;> cases given <;> simp

theorem reported_iff_answers {definition : ClockDomainDef} (hdefined : r.domains[id]? = some definition)
    (hrecorded : r.syncs[id]? = some report) :
    r.Reported id now generation epoch incarnation report ↔
      report.answers r.policy.comparability now generation epoch incarnation = true := by
  have hcontains : r.domains.contains id = true := by
    rw [Std.ExtTreeMap.contains_eq_isSome_getElem?, hdefined]
    rfl
  have hstates : (!(report.state == .unknown || report.state == .unsynced)) = true ∧
      (!(report.state == .holdover && !r.policy.comparability.allowHoldover)) = true ↔
      report.state = .synchronized ∨ report.state = .holdover ∧ r.policy.comparability.allowHoldover = true := by
    cases report.state <;> simp
  unfold ClockSync.answers
  simp only [Bool.and_eq_true (_ && _), Bool.and_eq_true (!_), match_iff, beq_iff_eq]
  rw [hstates]
  constructor
  · intro h
    exact ⟨⟨⟨⟨⟨h.state, h.generation⟩, h.epoch⟩, h.incarnation⟩, h.dated⟩, h.datedHere⟩
  · rintro ⟨⟨⟨⟨⟨hstate, hgeneration⟩, hepoch⟩, hincarnation⟩, hdated⟩, hhere⟩
    exact ⟨hcontains, hrecorded, hstate, hgeneration, hepoch, hincarnation, hdated, hhere⟩

theorem accepts_iff : r.accepts now generation epoch incarnation id = true ↔
    ∃ report, r.Reported id now generation epoch incarnation report ∧ report.current now := by
  unfold accepts
  have houtcome := r.compareSingle_outcome id now generation epoch incarnation
  revert houtcome
  generalize r.compareSingle id now generation epoch incarnation = side
  intro houtcome
  cases houtcome with
  | accepted report evidence hreported hcurrent => exact iff_of_true rfl ⟨report, hreported, hcurrent⟩
  | refused c hc hnone =>
    dsimp only
    rw [hc]
    apply iff_of_false Bool.false_ne_true
    rintro ⟨report, hreported, hcurrent⟩
    exact hnone report hreported hcurrent

/-- The report of a domain is not too far from `now`. -/
def SideWithin (r : ClockRegistry) (now : Timestamp) (generation : GenerationId) (epoch : EpochId)
    (incarnation : IncarnationId) (id : ClockDomainId) : Prop :=
  ∀ report, r.Reported id now generation epoch incarnation report →
    Representable (now.ns.toInt - report.observedAt.ns.toInt)

theorem compareSingleOps_fit_iff : AllFit (r.compareSingleOps now generation epoch incarnation id) ↔
    r.SideWithin now generation epoch incarnation id := by
  unfold compareSingleOps SideWithin
  split
  · rename_i definition report hdefined hrecorded
    rw [allFit_ite, allFit_singleton, ← reported_iff_answers hdefined hrecorded]
    constructor
    · intro h other hother
      have hsame := Option.some.inj (hrecorded.symm.trans hother.recorded)
      subst hsame
      exact h hother
    · intro h hreported
      exact h report hreported
  · rename_i hmissing
    apply iff_of_true allFit_nil
    intro report hreported
    have hdefined := hreported.defined
    rw [Std.ExtTreeMap.contains_eq_isSome_getElem?, Option.isSome_iff_exists] at hdefined
    obtain ⟨definition, hdefinition⟩ := hdefined
    exact absurd hreported.recorded (hmissing definition report hdefinition)

/-- What keeps a comparison in range: the reports that are consulted are not too far from `now`, and two
uncertainties that are added have a sum. -/
def CompareWithin (r : ClockRegistry) (now : Timestamp) (generation : GenerationId) (epoch : EpochId)
    (incarnation : IncarnationId) (a b : ClockDomainId) : Prop :=
  a.valid = true → b.valid = true → a ≠ b →
    if a = referenceClockDomain ∨ b = referenceClockDomain then
      r.SideWithin now generation epoch incarnation (if a = referenceClockDomain then b else a)
    else
      r.SideWithin now generation epoch incarnation a ∧
        ∀ left, r.Reported a now generation epoch incarnation left → left.current now →
          r.SideWithin now generation epoch incarnation b ∧
            ∀ right, r.Reported b now generation epoch incarnation right → right.current now →
              left.reference = right.reference → left.reference.valid = true →
                left.uncertaintyNs.toInt + right.uncertaintyNs.toInt < 2 ^ 63

theorem combinedOps_fit_iff (hsound : r.Sound) {left right : ClockSync} (hleft : r.syncs[a]? = some left)
    (hright : r.syncs[b]? = some right) :
    AllFit (r.combinedOps a b) ↔ (left.reference = right.reference → left.reference.valid = true →
      left.uncertaintyNs.toInt + right.uncertaintyNs.toInt < 2 ^ 63) := by
  have hfirst := Int64.le_iff_toInt_le.mp (hsound a left hleft).uncertainty
  have hsecond := Int64.le_iff_toInt_le.mp (hsound b right hright).uncertainty
  rw [Int64.toInt_zero] at hfirst hsecond
  unfold combinedOps
  rw [hleft, hright]
  dsimp only
  by_cases hshared : left.reference = right.reference
  · rw [if_neg (not_not.mpr hshared)]
    cases hvalid : left.reference.valid with
    | false =>
      apply iff_of_true allFit_nil
      intro _ hnot
      cases hnot
    | true =>
      rw [Bool.not_true, if_neg Bool.false_ne_true, allFit_singleton]
      constructor
      · intro h _ _
        exact h.2
      · intro h
        refine ⟨?_, h hshared rfl⟩
        rw [PlainOp.exact]
        omega
  · rw [if_pos hshared]
    apply iff_of_true allFit_nil
    intro h
    exact absurd h hshared

theorem compareOps_fit_iff (hsound : r.Sound) : AllFit (r.compareOps now generation epoch incarnation a b) ↔
    r.CompareWithin now generation epoch incarnation a b := by
  unfold compareOps CompareWithin
  apply allFit_valid
  intro _ _
  by_cases hsame : a = b
  · rw [if_pos hsame]
    apply iff_of_true allFit_nil
    intro hdistinct
    exact absurd hsame hdistinct
  rw [if_neg hsame]
  have hdistinct : ∀ bounds : Prop, (a ≠ b → bounds) ↔ bounds := fun _ => forall_prop_of_true hsame
  rw [hdistinct]
  by_cases hreference : a = referenceClockDomain ∨ b = referenceClockDomain
  · rw [if_pos hreference, if_pos hreference]
    exact compareSingleOps_fit_iff
  · rw [if_neg hreference, if_neg hreference, allFit_append, compareSingleOps_fit_iff, allFit_ite, accepts_iff]
    refine and_congr_right fun _ => ?_
    constructor
    · intro h left hleft hcurrent
      have hrest := h ⟨left, hleft, hcurrent⟩
      rw [allFit_append, compareSingleOps_fit_iff, allFit_ite, accepts_iff] at hrest
      refine ⟨hrest.1, fun right hright hcurrent' => ?_⟩
      exact (combinedOps_fit_iff hsound hleft.recorded hright.recorded).mp (hrest.2 ⟨right, hright, hcurrent'⟩)
    · rintro h ⟨left, hleft, hcurrent⟩
      obtain ⟨hside, hsum⟩ := h left hleft hcurrent
      rw [allFit_append, compareSingleOps_fit_iff, allFit_ite, accepts_iff]
      refine ⟨hside, ?_⟩
      rintro ⟨right, hright, hcurrent'⟩
      exact (combinedOps_fit_iff hsound hleft.recorded hright.recorded).mpr (hsum right hright hcurrent')

end Bounds

/-! ### The bounds of an age -/

/-- What keeps the age of a reading in range. -/
def AgeWithin (r : ClockRegistry) (observed now : Timestamp) : Prop :=
  observed.valid = true → now.valid = true →
    if observed.domain = now.domain then Representable (now.ns.toInt - observed.ns.toInt)
    else ∀ report, r.syncs[observed.domain]? = some report → report.reference = now.domain →
      ¬(report.state = .unknown ∨ report.state = .unsynced) →
        Representable (now.ns.toInt - report.observedAt.ns.toInt) ∧
          (report.current now → Representable (observed.ns.toInt - report.offsetNs.toInt) ∧
            Representable (now.ns.toInt - (observed.ns.toInt - report.offsetNs.toInt)))

theorem estimateAgeOps_fit_iff {r : ClockRegistry} {observed now : Timestamp} :
    AllFit (r.estimateAgeOps observed now) ↔ r.AgeWithin observed now := by
  unfold estimateAgeOps AgeWithin
  apply allFit_valid
  intro _ hnow
  by_cases hsame : observed.domain = now.domain
  · rw [if_pos hsame, if_pos hsame, allFit_singleton]
    rfl
  rw [if_neg hsame, if_neg hsame]
  cases hrecorded : r.syncs[observed.domain]? with
  | none =>
    apply iff_of_true allFit_nil
    intro report h
    cases h
  | some report =>
    have hone : ∀ bounds : ClockSync → Prop, (∀ other, some report = some other → bounds other) ↔ bounds report := by
      intro bounds
      constructor
      · intro h
        exact h report rfl
      · rintro h other hother
        cases hother
        exact h
    rw [hone]
    dsimp only
    by_cases hpoints : report.reference = now.domain
    · have hvalid : report.reference.valid = true := by
        rw [hpoints]
        exact hnow
      rw [hvalid, Bool.not_true, if_neg Bool.false_ne_true, if_neg (not_not.mpr hpoints)]
      have hguard : ∀ bounds : Prop, (report.reference = now.domain → bounds) ↔ bounds :=
        fun _ => forall_prop_of_true hpoints
      rw [hguard, allFit_ite_not]
      refine imp_congr_right fun _ => ?_
      rw [allFit_cons, allFit_ite_not]
      refine and_congr_right fun _ => ?_
      have hcurrent : ¬(report.ageNs now < 0 ∨ report.ageNs now > report.validForNs) ↔ report.current now := by
        rw [not_or, Int64.not_lt, gt_iff_lt, Int64.not_lt]
        rfl
      rw [hcurrent]
      refine imp_congr_right fun _ => ?_
      rw [allFit_cons, allFit_singleton]
      exact and_congr_right fun hplaced => by rw [PlainOp.exact, toInt_sub_of_representable hplaced]
    · have hnone : ∀ ops : List PlainOp, (if !report.reference.valid then [] else
          if report.reference ≠ now.domain then [] else ops) = [] := by
        intro ops
        rw [if_pos hpoints, ite_self]
      rw [hnone]
      apply iff_of_true allFit_nil
      intro h
      exact absurd h hpoints

end ClockRegistry

end LatencyObservatory.Model
