import LatencyObservatory.Ingest.Replay

/-!
# Session order

Sessions of a source are ordered by first observation. Once a newer session was observed, the older
one is history, as long as it is stored: its ordinal stays below the current one. Session memory is
bounded, so an old session can be evicted; its next record then opens it again as the newest session
and is accepted as current.
-/

namespace LatencyObservatory.Ingest

open LatencyObservatory.Core LatencyObservatory.Model

/-- The passage brings a record of the session to the fences. -/
def Observes (policy : RuntimePolicy) (source : SourceId) (key : SessionKey) (p : Fences × Submission) : Prop :=
  p.2.record.source = source ∧ sessionKey p.2.record = key ∧
    ((p.2.gate policy p.1).admissible p.2.record).isSome = true

/-- Passage `k` of the run is the first to observe session `b`, and session `a` was observed before. -/
structure SupersededAt (policy : RuntimePolicy) (batches : List Batch) (source : SourceId) (a b : SessionKey)
    (k : Nat) : Prop where
  earlier : ∃ i p, i < k ∧ (passages policy ∅ batches)[i]? = some p ∧ Observes policy source a p
  first : ∃ p, (passages policy ∅ batches)[k]? = some p ∧ Observes policy source b p
  fresh : ∀ m p, m < k → (passages policy ∅ batches)[m]? = some p → ¬ Observes policy source b p

/-- The session is stored in the fences. -/
def Stores (fences : Fences) (source : SourceId) (key : SessionKey) : Prop :=
  ∃ fence state, fences[source]? = some fence ∧ fence.sessions[key]? = some state

instance (fences : Fences) (source : SourceId) (key : SessionKey) : Decidable (Stores fences source key) :=
  decidable_of_iff ((fences[source]?).any (fun fence => (fence.sessions[key]?).isSome) = true)
    (by simp only [Stores, Option.any_eq_true, Option.isSome_iff_exists, exists_and_left])

instance (policy : RuntimePolicy) (source : SourceId) (key : SessionKey) (p : Fences × Submission) :
    Decidable (Observes policy source key p) :=
  inferInstanceAs (Decidable (_ ∧ _ ∧ _))

/-- If the session is stored at all, it is older than its source's current session. -/
def Outranked (source : SourceId) (key : SessionKey) (fences : Fences) : Prop :=
  ∀ (fence : SourceFenceState) (state : SessionState), fences[source]? = some fence →
    fence.sessions[key]? = some state → state.ordinal < fence.currentOrdinal

theorem fenceOf_of_some {gate : IngestGate} {source : SourceId} {fence : SourceFenceState}
    (h : gate.fences[source]? = some fence) : gate.fenceOf source = fence := by
  unfold IngestGate.fenceOf
  rw [h]
  rfl

theorem submit_other_source {policy : RuntimePolicy} {fences : Fences} {x : Submission} {source : SourceId}
    (h : x.record.source ≠ source) : (x.submit policy fences)[source]? = fences[source]? := by
  rcases submit_cases policy fences x with ⟨-, -, hsame⟩ | ⟨path, descriptor, ruling, -, hinsert⟩
  · rw [hsame]
  · rw [hinsert, Std.ExtTreeMap.getElem?_insert, if_neg]
    rw [Std.LawfulEqOrd.compare_eq_iff_eq]
    exact h

theorem stores_of_submit {policy : RuntimePolicy} {fences : Fences} {x : Submission} {source : SourceId}
    {key : SessionKey} (h : Stores (x.submit policy fences) source key) :
    Stores fences source key ∨ Observes policy source key (fences, x) := by
  obtain ⟨fence, state, hfence, hstate⟩ := h
  by_cases hsource : x.record.source = source
  · rcases submit_cases policy fences x with ⟨-, -, hsame⟩ | ⟨path, descriptor, ruling, hadm, hinsert⟩
    · exact Or.inl ⟨fence, state, hsame ▸ hfence, hstate⟩
    · by_cases hkey : key = sessionKey x.record
      · exact Or.inr ⟨hsource, hkey.symm, by simp [hadm]⟩
      · left
        rw [hinsert, hsource, Std.ExtTreeMap.getElem?_insert_self, Option.some.injEq] at hfence
        rw [← hfence] at hstate
        have hbefore := applySessionFence_other hkey hstate
        unfold IngestGate.fenceOf at hbefore
        cases hfound : fences[source]? with
        | none => simp [Submission.gate, hfound] at hbefore
        | some old =>
          refine ⟨old, state, hfound, ?_⟩
          simpa [Submission.gate, hfound] using hbefore
  · rw [submit_other_source hsource] at hfence
    exact Or.inl ⟨fence, state, hfence, hstate⟩

theorem observed_of_stores {policy : RuntimePolicy} {batches : List Batch} {source : SourceId} {key : SessionKey}
    {n : Nat} {fences : Fences} {x : Submission} (hn : (passages policy ∅ batches)[n]? = some (fences, x))
    (h : Stores fences source key) :
    ∃ m p, m < n ∧ (passages policy ∅ batches)[m]? = some p ∧ Observes policy source key p := by
  induction n generalizing fences x with
  | zero =>
    have hempty : fences = ∅ := by simpa using (Lib.steps_getElem? hn).2
    obtain ⟨fence, state, hfence, -⟩ := h
    simp [hempty] at hfence
  | succ n ih =>
    obtain ⟨⟨v, z⟩, hv⟩ : ∃ p, (passages policy ∅ batches)[n]? = some p := by
      have hlen := (List.getElem?_eq_some_iff.mp hn).1
      exact ⟨_, List.getElem?_eq_getElem (by omega)⟩
    rw [Lib.steps_succ hv hn] at h
    rcases stores_of_submit h with hstored | hobserved
    · obtain ⟨m, p, hm, hp, hobs⟩ := ih hv hstored
      exact ⟨m, p, by omega, hp, hobs⟩
    · exact ⟨n, (v, z), by omega, hv, hobserved⟩

theorem submit_outranks {policy : RuntimePolicy} {fences : Fences} {x : Submission} {source : SourceId}
    {a b : SessionKey} (hinv : FencesInv policy.limits fences) (hobserves : Observes policy source b (fences, x))
    (hnew : ¬ Stores fences source b) (hab : a ≠ b) : Outranked source a (x.submit policy fences) := by
  obtain ⟨rfl, rfl, hadm⟩ := hobserves
  intro fence state hfence hstate
  rcases submit_cases policy fences x with ⟨hnone, -, -⟩ | ⟨path, descriptor, ruling, -, hinsert⟩
  · rw [hnone] at hadm
    cases hadm
  · rw [hinsert, Std.ExtTreeMap.getElem?_insert_self, Option.some.injEq] at hfence
    rw [← hfence] at hstate ⊢
    have hsession : ((x.gate policy fences).fenceOf x.record.source).sessionOf x.record = none := by
      cases hfound : ((x.gate policy fences).fenceOf x.record.source).sessionOf x.record with
      | none => rfl
      | some st =>
        exfalso
        unfold IngestGate.fenceOf at hfound
        cases hold : fences[x.record.source]? with
        | none => simp [Submission.gate, hold, SourceFenceState.sessionOf] at hfound
        | some old =>
          refine hnew ⟨old, st, hold, ?_⟩
          simpa [Submission.gate, hold, SourceFenceState.sessionOf] using hfound
    rw [applySessionFence_currentOrdinal, hsession]
    exact (@FencesInv.fenceOf (x.gate policy fences) hinv _).ordinal a state
      (applySessionFence_other hab hstate)

theorem submit_outranked {policy : RuntimePolicy} {fences : Fences} {x : Submission} {source : SourceId}
    {key : SessionKey} (hinv : FencesInv policy.limits fences) (hstored : Stores fences source key)
    (h : Outranked source key fences) : Outranked source key (x.submit policy fences) := by
  intro fence state hfence hstate
  by_cases hsource : x.record.source = source
  · subst hsource
    obtain ⟨old, st, hold, hst⟩ := hstored
    have hof := @fenceOf_of_some (x.gate policy fences) _ _ hold
    rcases submit_cases policy fences x with ⟨-, -, hsame⟩ | ⟨path, descriptor, ruling, -, hinsert⟩
    · exact h fence state (hsame ▸ hfence) hstate
    · rw [hinsert, Std.ExtTreeMap.getElem?_insert_self, Option.some.injEq, hof] at hfence
      rw [← hfence] at hstate ⊢
      rw [applySessionFence_currentOrdinal]
      by_cases hkey : key = sessionKey x.record
      · -- The session's own record finds it stored: neither ordinal moves.
        have hown : old.sessionOf x.record = some st := by
          rw [SourceFenceState.sessionOf, ← hkey]
          exact hst
        obtain ⟨after, hafter, hordinal⟩ := applySessionFence_self policy.limits old x.record ruling
        rw [hkey, hafter, Option.some.injEq] at hstate
        rw [← hstate, hordinal, hown]
        exact h old st hold hst
      · have hbefore := applySessionFence_other hkey hstate
        have hlt := h old state hold hbefore
        split_ifs
        · exact hlt
        · exact lt_trans hlt (hinv _ _ hold).current
  · rw [submit_other_source hsource] at hfence
    exact h fence state hfence hstate

theorem outranked_not_current {policy : RuntimePolicy} {fences : Fences} {x : Submission}
    (hstored : Stores fences x.record.source (sessionKey x.record))
    (h : Outranked x.record.source (sessionKey x.record) fences) :
    x.verdict policy fences ≠ .acceptedCurrent := by
  intro hcurrent
  rcases submit_cases policy fences x with ⟨-, hrejected, -⟩ | ⟨path, descriptor, ruling, hadm, -⟩
  · rw [hrejected] at hcurrent
    cases hcurrent
  · obtain ⟨fence, state, hfence, hstate⟩ := hstored
    obtain ⟨-, -, hheld, -⟩ := (IngestGate.classify_current_iff hadm).mp hcurrent
    have hof := @fenceOf_of_some (x.gate policy fences) _ _ hfence
    have holder : fence.olderSession x.record = true := by
      rw [SourceFenceState.olderSession, SourceFenceState.sessionOf, hstate]
      simpa using h fence state hfence hstate
    simp [IngestGate.heldBack, hof, SourceFenceState.outdated, holder] at hheld

/-- **Session order.** After the first record of session `b`, no record of an earlier session `a` of the
same source is current as long as `a` has stayed stored since. -/
theorem superseded_session_not_current {policy : RuntimePolicy} {batches : List Batch} {source : SourceId}
    {a b : SessionKey} {k j : Nat} {fences : Fences} {x : Submission}
    (h : SupersededAt policy batches source a b k) (hkj : k < j)
    (hj : (passages policy ∅ batches)[j]? = some (fences, x))
    (hx : x.record.source = source ∧ sessionKey x.record = a)
    (hstored : ∀ m v z, k < m → m ≤ j → (passages policy ∅ batches)[m]? = some (v, z) → Stores v source a) :
    x.verdict policy fences ≠ .acceptedCurrent := by
  obtain ⟨⟨v, z⟩, hk, hobserves⟩ := h.first
  have hnew : ¬ Stores v source b := by
    intro hstores
    obtain ⟨m, p, hm, hp, hobs⟩ := observed_of_stores hk hstores
    exact h.fresh m p hm hp hobs
  have hab : a ≠ b := by
    rintro rfl
    obtain ⟨i, p, hi, hp, hobs⟩ := h.earlier
    exact h.fresh i p hi hp hobs
  have hout : Outranked source a fences := by
    refine Lib.steps_between hkj hk hj (submit_outranks (passages_inv hk) hobserves hnew hab) ?_
    intro m w y hkm hmj hm hw
    exact submit_outranked (passages_inv hm) (hstored m w y hkm (by omega) hm) hw
  obtain ⟨rfl, rfl⟩ := hx
  exact outranked_not_current (hstored j fences x hkj le_rfl hj) hout

/-! ### Three records, two sessions

A record of the first epoch, one of the second, and again one of the first. -/

def sampleSession (epoch : UInt64) : SessionKey := (⟨epoch⟩, ⟨1⟩)

def alternation : List Batch :=
  [sampleBatch 1 [sampleRecord 1 1], sampleBatch 1 [sampleRecord 2 1], sampleBatch 1 [sampleRecord 1 2]]

/-- The fences after the first `n` of the three records. -/
def alternationFences (policy : RuntimePolicy) (n : Nat) : Fences :=
  (([sampleSubmission 1 (sampleRecord 1 1), sampleSubmission 1 (sampleRecord 2 1)]).take n).foldl
    (Submission.submit policy) ∅

theorem alternation_passages {policy : RuntimePolicy} (hpolicy : 1 ≤ policy.limits.maxBatchSamples) :
    passages policy ∅ alternation =
      [(∅, sampleSubmission 1 (sampleRecord 1 1)),
        (alternationFences policy 1, sampleSubmission 1 (sampleRecord 2 1)),
        (alternationFences policy 2, sampleSubmission 1 (sampleRecord 1 2))] := by
  simp [passages, alternation, sampleBatch_submissions hpolicy, Lib.steps, alternationFences]

theorem alternation_superseded {policy : RuntimePolicy} (hpolicy : 1 ≤ policy.limits.maxBatchSamples)
    (hfirst : Observes policy (sampleRecord 1 1).source (sampleSession 1)
      (∅, sampleSubmission 1 (sampleRecord 1 1)))
    (hsecond : Observes policy (sampleRecord 1 1).source (sampleSession 2)
      (alternationFences policy 1, sampleSubmission 1 (sampleRecord 2 1))) :
    SupersededAt policy alternation (sampleRecord 1 1).source (sampleSession 1) (sampleSession 2) 1 := by
  refine ⟨⟨0, _, by decide, by rw [alternation_passages hpolicy]; rfl, hfirst⟩,
    ⟨_, by rw [alternation_passages hpolicy]; rfl, hsecond⟩, ?_⟩
  intro m p hm hp hobserves
  obtain rfl : m = 0 := by omega
  rw [alternation_passages hpolicy, List.getElem?_cons_zero, Option.some.injEq] at hp
  have hkey := hobserves.2.1
  rw [← hp] at hkey
  exact absurd hkey (by decide +kernel)

/-- The default policy keeps both sessions: the late record of the first is not current. -/
theorem alternation_not_current :
    (sampleSubmission 1 (sampleRecord 1 2)).verdict defaultPolicy (alternationFences defaultPolicy 2) ≠
      .acceptedCurrent := by
  refine superseded_session_not_current
    (alternation_superseded (by decide) (by decide +kernel) (by decide +kernel)) (by decide : 1 < 2)
    (by rw [alternation_passages (by decide)]; rfl) ⟨rfl, rfl⟩ ?_
  intro m v z hkm hmj hm
  obtain rfl : m = 2 := by omega
  rw [alternation_passages (by decide)] at hm
  cases hm
  decide +kernel

/-- A policy that keeps a single session per source. -/
def oneSessionPolicy : RuntimePolicy := { limits := { maxSessionsPerSource := 1 } }

/-- Under that valid policy the second session evicts the first, whose next record is current again. -/
theorem evicted_session_current :
    oneSessionPolicy.validate = .ok () ∧
      SupersededAt oneSessionPolicy alternation (sampleRecord 1 1).source (sampleSession 1) (sampleSession 2) 1 ∧
      (passages oneSessionPolicy ∅ alternation)[2]? =
        some (alternationFences oneSessionPolicy 2, sampleSubmission 1 (sampleRecord 1 2)) ∧
      (sampleSubmission 1 (sampleRecord 1 2)).record.source = (sampleRecord 1 1).source ∧
      sessionKey (sampleSubmission 1 (sampleRecord 1 2)).record = sampleSession 1 ∧
      (sampleSubmission 1 (sampleRecord 1 2)).verdict oneSessionPolicy (alternationFences oneSessionPolicy 2) =
        .acceptedCurrent := by
  refine ⟨by decide, alternation_superseded (by decide) (by decide +kernel) (by decide +kernel),
    by rw [alternation_passages (by decide)]; rfl, rfl, rfl, by decide +kernel⟩

end LatencyObservatory.Ingest
