import LatencyObservatory.Ingest.Sessions

/-!
# What a rejected record leaves behind

A record refused by the registry or by a structural check never reaches the fences. A replay is refused
inside the session fence, after the session's revision was looked at, and a revision ahead of the
registry is refused after the session fence is done. The fences survive a rejection, up to the session's
rejected counter, exactly when the record never reached them or repeats a sequence of a session that has
already seen its revision.
-/

namespace LatencyObservatory.Ingest

open LatencyObservatory.Core LatencyObservatory.Model

/-- The fences differ at most in the rejected counter of the session the record already has. -/
def OnlyRejectionCounted (record : MeasurementRecord) (before after : Fences) : Prop :=
  after = before ∨
    ∃ fence state count, before[record.source]? = some fence ∧
      fence.sessions[sessionKey record]? = some state ∧
      after = before.insert record.source
        { fence with sessions := fence.sessions.insert (sessionKey record) { state with rejected := count } }

/-- The record is turned away before the fences, or it repeats a sequence that its stored session knows
and does not carry a newer source revision than that session saw. -/
def TurnedAway (gate : IngestGate) (record : MeasurementRecord) : Prop :=
  gate.admissible record = none ∨
    ∃ fence state, gate.fences[record.source]? = some fence ∧ fence.sessions[sessionKey record]? = some state ∧
      state.replays record.sequence = true ∧ record.sourceRevision.value ≤ state.sourceRevision.value

instance (gate : IngestGate) (record : MeasurementRecord) : Decidable (TurnedAway gate record) :=
  decidable_of_iff
    (gate.admissible record = none ∨
      (gate.fences[record.source]?).any (fun fence => (fence.sessions[sessionKey record]?).any fun state =>
        state.replays record.sequence && decide (record.sourceRevision.value ≤ state.sourceRevision.value)) = true)
    (by simp [TurnedAway, Option.any_eq_true])

/-! ### One session -/

/-- Everything a session has let through. -/
def SessionState.accepted (state : SessionState) : Nat := state.acceptedCurrent + state.acceptedHistorical

/-- A sequence that is not a replay is counted as accepted: no earlier fence has refused the record. -/
theorem fenceSequence_accepted {limits : Limits} {state : SessionState} {sequence : Sequence} {ruling : Ruling}
    (hruling : ruling.verdict ≠ .rejected) (h : state.replays sequence = false) :
    (fenceSequence limits state sequence ruling).1.accepted = state.accepted + 1 := by
  have hplaced : (placeSequence state sequence ruling).2.1.verdict ≠ .rejected ∧
      (placeSequence state sequence ruling).1.acceptedCurrent = state.acceptedCurrent ∧
      (placeSequence state sequence ruling).1.acceptedHistorical = state.acceptedHistorical := by
    unfold placeSequence
    split_ifs
    · exact ⟨hruling, rfl, rfl⟩
    · refine ⟨?_, rfl, rfl⟩
      simp only
      split_ifs <;> exact hruling
    · exact ⟨by simp [Ruling.historical], rfl, rfl⟩
  obtain ⟨hverdict, hcurrent, hhistorical⟩ := hplaced
  unfold fenceSequence
  rw [h]
  simp only [Bool.false_eq_true, if_false, SessionState.accepted, SessionState.count, SessionState.remember_eq]
  cases hcase : (placeSequence state sequence ruling).2.1.verdict with
  | acceptedCurrent =>
    simp only [hcurrent, hhistorical]
    omega
  | acceptedHistorical =>
    simp only [hcurrent, hhistorical]
    omega
  | rejected => exact absurd hcase hverdict

theorem fenceSequence_replayed {limits : Limits} {state : SessionState} {sequence : Sequence} {ruling : Ruling}
    (h : state.replays sequence = true) :
    (fenceSequence limits state sequence ruling).1 = { state with rejected := state.rejected + 1 } := by
  unfold fenceSequence
  rw [if_pos h]

theorem reviseSession_revision {state : SessionState} {record : MeasurementRecord} {ruling : Ruling} :
    (reviseSession state record ruling).1 =
      if !state.sourceRevision.valid || decide (record.sourceRevision.value > state.sourceRevision.value) then
        { state with sourceRevision := record.sourceRevision }
      else state := by
  unfold reviseSession
  simp only
  split_ifs <;> rfl

theorem applySessionFence_stored (limits : Limits) {fence : SourceFenceState} {record : MeasurementRecord}
    (ruling : Ruling) {state : SessionState} (h : fence.sessionOf record = some state)
    (hruling : ruling.verdict ≠ .rejected) :
    ∃ ruling' ruling'' : Ruling, ruling''.verdict ≠ .rejected ∧
      (applySessionFence limits fence record ruling).1 =
        { fence with
          sessions := fence.sessions.insert (sessionKey record)
            (fenceSequence limits (reviseSession state record ruling').1 record.sequence ruling'').1 } := by
  obtain ⟨ruling', hentered, hview⟩ := enterSession_of_some limits ruling h
  have hverdict : ∀ r : Ruling, r.verdict = r.view.1 := fun _ => rfl
  refine ⟨ruling', (reviseSession state record ruling').2, ?_, ?_⟩
  · rw [hverdict, reviseSession_view, hview]
    rw [hverdict] at hruling
    split_ifs <;> simp [demote, hruling]
  · simp only [applySessionFence, hentered]

/-! ### One record -/

theorem submit_of_admissible {policy : RuntimePolicy} {fences : Fences} {x : Submission} {path : PathDef}
    {source : SourceDescriptor} (h : (x.gate policy fences).admissible x.record = some (path, source)) :
    ∃ ruling : Ruling, ruling.verdict ≠ .rejected ∧
      x.submit policy fences =
        fences.insert x.record.source
          (applySessionFence policy.limits ((x.gate policy fences).fenceOf x.record.source) x.record ruling).1 := by
  obtain ⟨-, hfences, -, -, -⟩ := (x.gate policy fences).classify_of_admissible x.record x.now h
  refine ⟨_, ?_, hfences⟩
  have hverdict : ∀ r : Ruling, r.verdict = r.view.1 := fun _ => rfl
  rw [hverdict, IngestGate.fenceGeneration_view]
  split_ifs <;> simp [demote, Ruling.view]

theorem revision_valid_of_admissible {gate : IngestGate} {record : MeasurementRecord} {path : PathDef}
    {source : SourceDescriptor} (h : gate.admissible record = some (path, source)) :
    record.sourceRevision.valid = true := by
  obtain ⟨-, -, -, -, hsound⟩ := gate.classify_of_admissible record default h
  exact (IngestGate.sound_of_not_fatal hsound).revision

theorem OnlyRejectionCounted.session {record : MeasurementRecord} {before after : Fences}
    (h : OnlyRejectionCounted record before after) {fence : SourceFenceState} {state : SessionState}
    (hfence : after[record.source]? = some fence) (hstate : fence.sessions[sessionKey record]? = some state) :
    ∃ old st, before[record.source]? = some old ∧ old.sessions[sessionKey record]? = some st ∧
      state.sourceRevision = st.sourceRevision ∧ state.accepted = st.accepted := by
  rcases h with rfl | ⟨old, st, count, hold, hst, rfl⟩
  · exact ⟨fence, state, hfence, hstate, rfl, rfl⟩
  · refine ⟨old, st, hold, hst, ?_⟩
    rw [Std.ExtTreeMap.getElem?_insert_self, Option.some.injEq] at hfence
    rw [← hfence, Std.ExtTreeMap.getElem?_insert_self, Option.some.injEq] at hstate
    rw [← hstate]
    exact ⟨rfl, rfl⟩

theorem submit_replayed {policy : RuntimePolicy} {fences : Fences} {x : Submission} {path : PathDef}
    {source : SourceDescriptor} {fence : SourceFenceState} {state : SessionState}
    (hadm : (x.gate policy fences).admissible x.record = some (path, source))
    (hfence : fences[x.record.source]? = some fence) (hstate : fence.sessions[sessionKey x.record]? = some state)
    (hreplays : state.replays x.record.sequence = true)
    (hrevision : x.record.sourceRevision.value ≤ state.sourceRevision.value) :
    OnlyRejectionCounted x.record fences (x.submit policy fences) := by
  obtain ⟨ruling, hruling, hsubmit⟩ := submit_of_admissible hadm
  have hof := @fenceOf_of_some (x.gate policy fences) _ _ hfence
  rw [hof] at hsubmit
  obtain ⟨ruling', ruling'', -, happly⟩ := applySessionFence_stored policy.limits ruling hstate hruling
  -- The record's revision is valid and the session's is at least that, so the session keeps its own.
  have hvalid : state.sourceRevision.valid = true := by
    have hrecord := revision_valid_of_admissible hadm
    simp only [Revision.valid, bne_iff_ne, ne_eq] at hrecord ⊢
    intro hzero
    rw [hzero] at hrevision
    exact hrecord (UInt32.le_zero_iff.mp hrevision)
  have hrevised : (reviseSession state x.record ruling').1 = state := by
    rw [reviseSession_revision, if_neg]
    simp [hvalid, UInt32.not_lt.mpr hrevision]
  rw [hrevised, fenceSequence_replayed hreplays] at happly
  refine Or.inr ⟨fence, state, state.rejected + 1, hfence, hstate, ?_⟩
  rw [hsubmit, happly]

theorem turnedAway_of_onlyCounted {policy : RuntimePolicy} {fences : Fences} {x : Submission}
    (h : OnlyRejectionCounted x.record fences (x.submit policy fences)) :
    TurnedAway (x.gate policy fences) x.record := by
  cases hadm : (x.gate policy fences).admissible x.record with
  | none => exact Or.inl hadm
  | some found =>
    obtain ⟨path, source⟩ := found
    obtain ⟨ruling, hruling, hsubmit⟩ := submit_of_admissible hadm
    have hafter : (x.submit policy fences)[x.record.source]? =
        some (applySessionFence policy.limits ((x.gate policy fences).fenceOf x.record.source) x.record ruling).1 := by
      rw [hsubmit, Std.ExtTreeMap.getElem?_insert_self]
    obtain ⟨after, hself, -⟩ := applySessionFence_self policy.limits
      ((x.gate policy fences).fenceOf x.record.source) x.record ruling
    obtain ⟨fence, state, hfence, hstate, hrevision, haccepted⟩ := h.session hafter hself
    have hof := @fenceOf_of_some (x.gate policy fences) _ _ hfence
    rw [hof] at hself
    obtain ⟨ruling', ruling'', hruling'', happly⟩ := applySessionFence_stored policy.limits ruling hstate hruling
    rw [happly, Std.ExtTreeMap.getElem?_insert_self, Option.some.injEq] at hself
    refine Or.inr ⟨fence, state, hfence, hstate, ?_⟩
    obtain ⟨revision, hrevised⟩ := reviseSession_state state x.record ruling'
    have hsame : (reviseSession state x.record ruling').1.replays x.record.sequence =
        state.replays x.record.sequence := by
      rw [hrevised]
      rfl
    cases hreplays : state.replays x.record.sequence with
    | false =>
      have hmore := @fenceSequence_accepted policy.limits _ _ _ hruling'' (hsame.trans hreplays)
      rw [hself, haccepted, hrevised] at hmore
      simp [SessionState.accepted] at hmore
    | true =>
      refine ⟨rfl, UInt32.not_lt.mp fun hnewer => ?_⟩
      rw [fenceSequence_replayed (hsame.trans hreplays), reviseSession_revision, if_pos (by simp [hnewer])] at hself
      rw [← hself] at hrevision
      rw [← hrevision] at hnewer
      exact UInt32.lt_irrefl _ hnewer

/-- A submission changes the fences by a rejected counter at most exactly when it is turned away. -/
theorem submit_onlyCounted_iff (policy : RuntimePolicy) (fences : Fences) (x : Submission) :
    OnlyRejectionCounted x.record fences (x.submit policy fences) ↔
      TurnedAway (x.gate policy fences) x.record := by
  refine ⟨turnedAway_of_onlyCounted, ?_⟩
  rintro (hnone | ⟨fence, state, hfence, hstate, hreplays, hrevision⟩)
  · exact Or.inl ((x.gate policy fences).classify_of_not_admissible x.record x.now hnone).2
  · cases hadm : (x.gate policy fences).admissible x.record with
    | none => exact Or.inl ((x.gate policy fences).classify_of_not_admissible x.record x.now hadm).2
    | some found => exact submit_replayed hadm hfence hstate hreplays hrevision

/-- **Rejections and the fences.** In every run, a rejected record leaves the fences it met intact, up to
the rejected counter of its existing session, exactly when it was turned away before the fences or repeats
a sequence of a session that has already seen its revision. -/
theorem rejected_only_counted_iff (policy : RuntimePolicy) (batches : List Batch) :
    ∀ p ∈ passages policy ∅ batches, p.2.verdict policy p.1 = .rejected →
      (OnlyRejectionCounted p.2.record p.1 (p.2.submit policy p.1) ↔
        TurnedAway (p.2.gate policy p.1) p.2.record) := by
  intro p _ _
  exact submit_onlyCounted_iff policy p.1 p.2

/-- A record of revision 1 as its source would stamp it ahead of the registry. -/
def forgedRecord : MeasurementRecord := { sampleRecord 2 7 with sourceRevision := ⟨9⟩ }

/-- The resubmission of an accepted exchange is rejected and leaves the fences intact but for the counter. -/
theorem resubmission_only_counted :
    OnlyRejectionCounted (sampleSubmission 1 (sampleRecord 1 7)).record (sampleFences 1 (sampleRecord 1 7))
      ((sampleSubmission 1 (sampleRecord 1 7)).submit defaultPolicy (sampleFences 1 (sampleRecord 1 7))) := by
  refine (rejected_only_counted_iff defaultPolicy
    [sampleBatch 1 [sampleRecord 1 7], sampleBatch 1 [sampleRecord 1 7]]
    (sampleFences 1 (sampleRecord 1 7), sampleSubmission 1 (sampleRecord 1 7)) ?_ (by decide +kernel)).mpr ?_
  · simp [passages, @sampleBatch_submissions defaultPolicy (by decide), Lib.steps, sampleFences]
  · decide +kernel

/-- A record of a new session whose revision is ahead of the registry is rejected, and yet its session is
the source's current one afterwards. -/
theorem forged_record_moves_session :
    (sampleFences 1 (sampleRecord 1 7), sampleSubmission 1 forgedRecord) ∈
        passages defaultPolicy ∅ [sampleBatch 1 [sampleRecord 1 7], sampleBatch 1 [forgedRecord]] ∧
      (sampleSubmission 1 forgedRecord).verdict defaultPolicy (sampleFences 1 (sampleRecord 1 7)) = .rejected ∧
      ¬ OnlyRejectionCounted (sampleSubmission 1 forgedRecord).record (sampleFences 1 (sampleRecord 1 7))
        ((sampleSubmission 1 forgedRecord).submit defaultPolicy (sampleFences 1 (sampleRecord 1 7))) := by
  refine ⟨?_, by decide +kernel, ?_⟩
  · simp [passages, @sampleBatch_submissions defaultPolicy (by decide), Lib.steps, sampleFences]
  · rw [submit_onlyCounted_iff]
    decide +kernel

end LatencyObservatory.Ingest
