import LatencyObservatory.Ingest.Representation

/-!
# What the session counters count

The session fence counts a record under the verdict it leaves that fence with. The registered revision and the
usability of the evidence are looked at afterwards and may still change the verdict, so the counters agree with
the final verdicts exactly in the runs in which they do not.
-/

namespace LatencyObservatory.Ingest

open LatencyObservatory.Core LatencyObservatory.Model

/-! ### Counters -/

/-- The counter of one verdict. -/
def SessionState.counter (state : SessionState) : AdmitVerdict → Nat
  | .acceptedCurrent => state.acceptedCurrent
  | .acceptedHistorical => state.acceptedHistorical
  | .rejected => state.rejected

theorem fenceSequence_counter (limits : Limits) (state : SessionState) (sequence : Sequence) (ruling : Ruling)
    (verdict : AdmitVerdict) :
    (fenceSequence limits state sequence ruling).1.counter verdict =
      state.counter verdict + if (fenceSequence limits state sequence ruling).2.1.verdict = verdict then 1 else 0 := by
  have hcount : ∀ (s : SessionState) v, (s.count v).counter verdict = s.counter verdict + if v = verdict then 1 else 0 := by
    intro s v
    cases v <;> cases verdict <;> rfl
  unfold fenceSequence
  split
  · cases verdict <;> rfl
  · simp only
    rw [hcount, SessionState.remember_eq]
    congr 1
    unfold placeSequence
    split_ifs <;> cases verdict <;> rfl

/-- The record's own session counts the verdict of the session fence; a new session has counted nothing before. -/
theorem applySessionFence_counter (limits : Limits) (fence : SourceFenceState) (record : MeasurementRecord)
    (ruling : Ruling) :
    ∃ state, (applySessionFence limits fence record ruling).1.sessions[sessionKey record]? = some state ∧
      ∀ verdict, state.counter verdict = ((fence.sessionOf record).map fun before => before.counter verdict).getD 0 +
        if (applySessionFence limits fence record ruling).2.1.verdict = verdict then 1 else 0 := by
  simp only [applySessionFence]
  refine ⟨_, Std.ExtTreeMap.getElem?_insert_self, ?_⟩
  intro verdict
  rw [fenceSequence_counter]
  congr 1
  rcases enterSession_spec limits fence record ruling with
    ⟨ruling', state, hstate, hentered⟩ | ⟨ruling', kept, hnone, hentered, -, -, -⟩
  · obtain ⟨revision, hrevised⟩ := reviseSession_state state record ruling'
    simp only [hentered, hrevised, hstate, Option.map_some, Option.getD_some]
    cases verdict <;> rfl
  · obtain ⟨revision, hrevised⟩ := reviseSession_state
      { ordinal := fence.nextOrdinal, sourceRevision := record.sourceRevision } record ruling'
    simp only [hentered, hrevised, hnone, Option.map_none, Option.getD_none]
    cases verdict <;> rfl

/-! ### The records of a session -/

/-- One more passage: a record that reaches the fences joins its session, or opens it again. -/
def joinSession (policy : RuntimePolicy) (source : SourceId) (key : SessionKey) (members : List (Fences × Submission))
    (p : Fences × Submission) : List (Fences × Submission) :=
  if Observes policy source key p then if Stores p.1 source key then members ++ [p] else [p] else members

/-- The records of a session that passed the structural checks since it was created. -/
def sessionMembers (policy : RuntimePolicy) (source : SourceId) (key : SessionKey)
    (past : List (Fences × Submission)) : List (Fences × Submission) :=
  past.foldl (joinSession policy source key) []

/-- The counters of every stored session are the numbers of its records by their final verdict. -/
def CountersTrue (policy : RuntimePolicy) (fences : Fences) (past : List (Fences × Submission)) : Prop :=
  ∀ (source : SourceId) (key : SessionKey) (state : SessionState), fences.session source key = some state →
    ∀ verdict, state.counter verdict =
      (sessionMembers policy source key past).countP fun p => p.2.verdict policy p.1 = verdict

/-- No later fence changes the verdict of the session fence. A record from a revision ahead of the registry is
refused in the end, so it has to be a replay; one from an older revision ends as history, so it has to be history
already; and any other one has to be refused, history or recent. -/
def Submission.lasting (policy : RuntimePolicy) (fences : Fences) (x : Submission) : Bool :=
  match (x.gate policy fences).admissible x.record with
  | none => true
  | some (path, source) =>
    let fence := (x.gate policy fences).fenceOf x.record.source
    let history := (x.gate policy fences).foreignGeneration path x.record || fence.outdated x.record
    if IngestGate.revisionAhead source x.record then fence.replays x.record
    else if IngestGate.revisionBehind source x.record then !fence.replays x.record && history
    else fence.replays x.record || history || (x.gate policy fences).recent x.record x.now

section Step

variable {policy : RuntimePolicy} {fences : Fences} {x : Submission} {path : PathDef} {source : SourceDescriptor}

/-- The verdict that the session fence counts. -/
def Submission.countedVerdict (policy : RuntimePolicy) (fences : Fences) (x : Submission) (path : PathDef) : AdmitVerdict :=
  (applySessionFence policy.limits ((x.gate policy fences).fenceOf x.record.source) x.record
    ((x.gate policy fences).fenceGeneration path x.record
      ⟨.acceptedCurrent, (x.gate policy fences).dated path x.record x.now⟩)).2.1.verdict

theorem countedVerdict_eq (policy : RuntimePolicy) (fences : Fences) (x : Submission) (path : PathDef) :
    x.countedVerdict policy fences path =
      if ((x.gate policy fences).fenceOf x.record.source).replays x.record then .rejected
      else if (x.gate policy fences).foreignGeneration path x.record ||
          ((x.gate policy fences).fenceOf x.record.source).outdated x.record then .acceptedHistorical
      else .acceptedCurrent := by
  have hview := congrArg Prod.fst (applySessionFence_view policy.limits
    ((x.gate policy fences).fenceOf x.record.source) x.record ((x.gate policy fences).fenceGeneration path x.record
      ⟨.acceptedCurrent, (x.gate policy fences).dated path x.record x.now⟩))
  rw [IngestGate.fenceGeneration_view] at hview
  refine Eq.trans hview ?_
  cases ((x.gate policy fences).fenceOf x.record.source).replays x.record <;>
    cases ((x.gate policy fences).fenceOf x.record.source).outdated x.record <;>
    cases (x.gate policy fences).foreignGeneration path x.record <;> rfl

theorem countedVerdict_final_iff (h : (x.gate policy fences).admissible x.record = some (path, source)) :
    x.countedVerdict policy fences path = x.verdict policy fences ↔ x.lasting policy fences = true := by
  obtain ⟨hruling, -, -, -, hsound⟩ := (x.gate policy fences).classify_of_admissible x.record x.now h
  have hfinal : x.verdict policy fences = ((x.gate policy fences).applyFences path source x.record
      ((x.gate policy fences).dated path x.record x.now)).2.1.verdict := congrArg Ruling.verdict hruling
  unfold Submission.lasting
  rw [h, hfinal, IngestGate.applyFences_verdict, IngestGate.dated_usable hsound, countedVerdict_eq]
  unfold IngestGate.heldBack
  simp only
  cases ((x.gate policy fences).fenceOf x.record.source).replays x.record <;>
    cases ((x.gate policy fences).fenceOf x.record.source).outdated x.record <;>
    cases (x.gate policy fences).foreignGeneration path x.record <;>
    cases IngestGate.revisionAhead source x.record <;> cases IngestGate.revisionBehind source x.record <;>
    cases (x.gate policy fences).recent x.record x.now <;> simp

theorem sessionOf_fenceOf (policy : RuntimePolicy) (fences : Fences) (x : Submission) :
    ((x.gate policy fences).fenceOf x.record.source).sessionOf x.record =
      fences.session x.record.source (sessionKey x.record) := by
  unfold IngestGate.fenceOf SourceFenceState.sessionOf Fences.session Submission.gate
  cases fences[x.record.source]? <;> simp

theorem stores_iff_session {source : SourceId} {key : SessionKey} :
    Stores fences source key ↔ ∃ state, fences.session source key = some state := by
  unfold Stores Fences.session
  simp only [Option.bind_eq_some_iff]
  exact exists_comm

theorem sessionMembers_append (policy : RuntimePolicy) (source : SourceId) (key : SessionKey)
    (past : List (Fences × Submission)) (p : Fences × Submission) :
    sessionMembers policy source key (past ++ [p]) = joinSession policy source key (sessionMembers policy source key past) p := by
  unfold sessionMembers
  rw [List.foldl_append]
  rfl

theorem session_of_submit {source : SourceId} {key : SessionKey} {state : SessionState}
    (hnot : ¬Observes policy source key (fences, x)) (h : (x.submit policy fences).session source key = some state) :
    fences.session source key = some state := by
  obtain ⟨fence, hfence, hstate⟩ := Option.bind_eq_some_iff.mp h
  rcases submit_cases policy fences x with ⟨-, -, hsame⟩ | ⟨path, descriptor, ruling, hadm, hinsert⟩
  · rw [hsame] at h
    exact h
  · by_cases hsource : x.record.source = source
    · subst hsource
      have hkey : key ≠ sessionKey x.record := by
        rintro rfl
        exact hnot ⟨rfl, rfl, by rw [hadm]; rfl⟩
      rw [hinsert, Std.ExtTreeMap.getElem?_insert_self, Option.some.injEq] at hfence
      rw [← hfence] at hstate
      have hbefore := applySessionFence_other hkey hstate
      unfold IngestGate.fenceOf at hbefore
      unfold Fences.session
      cases hfound : fences[x.record.source]? with
      | none => simp [Submission.gate, hfound] at hbefore
      | some old => simpa [Submission.gate, hfound] using hbefore
    · rw [submit_other_source hsource] at hfence
      exact Option.bind_eq_some_iff.mpr ⟨fence, hfence, hstate⟩

theorem session_counter (h : (x.gate policy fences).admissible x.record = some (path, source)) :
    ∃ state, (x.submit policy fences).session x.record.source (sessionKey x.record) = some state ∧
      ∀ verdict, state.counter verdict =
        ((fences.session x.record.source (sessionKey x.record)).map fun before => before.counter verdict).getD 0 +
          if x.countedVerdict policy fences path = verdict then 1 else 0 := by
  obtain ⟨-, hfences, -, -, -⟩ := (x.gate policy fences).classify_of_admissible x.record x.now h
  obtain ⟨state, hstate, hcounter⟩ := applySessionFence_counter policy.limits
    ((x.gate policy fences).fenceOf x.record.source) x.record ((x.gate policy fences).fenceGeneration path x.record
      ⟨.acceptedCurrent, (x.gate policy fences).dated path x.record x.now⟩)
  rw [sessionOf_fenceOf] at hcounter
  refine ⟨state, ?_, hcounter⟩
  have hsubmit : x.submit policy fences = fences.insert x.record.source _ := hfences
  unfold Fences.session
  rw [hsubmit, Std.ExtTreeMap.getElem?_insert_self, Option.bind_some]
  exact hstate

/-- A record keeps true counters true exactly if the verdict that is counted for it lasts. -/
theorem submit_countersTrue {past : List (Fences × Submission)} (h : CountersTrue policy fences past) :
    CountersTrue policy (x.submit policy fences) (past ++ [(fences, x)]) ↔ x.lasting policy fences = true := by
  have hother : ∀ source key state, ¬Observes policy source key (fences, x) →
      (x.submit policy fences).session source key = some state → ∀ verdict, state.counter verdict =
        (sessionMembers policy source key (past ++ [(fences, x)])).countP fun p => p.2.verdict policy p.1 = verdict := by
    intro source key state hnot hstate verdict
    rw [sessionMembers_append, joinSession, if_neg hnot]
    exact h source key state (session_of_submit hnot hstate) verdict
  cases hadm : (x.gate policy fences).admissible x.record with
  | none =>
    have hnot : ∀ source key, ¬Observes policy source key (fences, x) := by
      rintro source key ⟨-, -, hsome⟩
      rw [hadm] at hsome
      cases hsome
    have hlasting : x.lasting policy fences = true := by
      unfold Submission.lasting
      rw [hadm]
    rw [iff_true_right hlasting]
    intro source key state hstate
    exact hother source key state (hnot source key) hstate
  | some found =>
    obtain ⟨path, descriptor⟩ := found
    obtain ⟨state, hstate, hcounter⟩ := session_counter hadm
    have hobserves : Observes policy x.record.source (sessionKey x.record) (fences, x) :=
      ⟨rfl, rfl, by rw [hadm]; rfl⟩
    -- The records of the session before this one, none if it opens the session.
    have hmembers : ∀ verdict, ((sessionMembers policy x.record.source (sessionKey x.record)
        (past ++ [(fences, x)])).countP fun p => p.2.verdict policy p.1 = verdict) =
          ((fences.session x.record.source (sessionKey x.record)).map fun before => before.counter verdict).getD 0 +
            if x.verdict policy fences = verdict then 1 else 0 := by
      intro verdict
      rw [sessionMembers_append, joinSession, if_pos hobserves]
      by_cases hstored : Stores fences x.record.source (sessionKey x.record)
      · obtain ⟨before, hbefore⟩ := stores_iff_session.mp hstored
        rw [if_pos hstored, List.countP_append, hbefore, Option.map_some, Option.getD_some,
          h _ _ before hbefore verdict, List.countP_singleton]
        simp only [decide_eq_true_eq]
      · have hnone : fences.session x.record.source (sessionKey x.record) = none := by
          rw [Option.eq_none_iff_forall_ne_some]
          exact fun before hbefore => hstored (stores_iff_session.mpr ⟨before, hbefore⟩)
        rw [if_neg hstored, hnone, List.countP_singleton]
        simp
    rw [← countedVerdict_final_iff hadm]
    constructor
    · intro htrue
      have hsame := htrue _ _ state hstate (x.countedVerdict policy fences path)
      rw [hcounter, hmembers, if_pos rfl] at hsame
      by_contra hne
      rw [if_neg (Ne.symm hne)] at hsame
      omega
    · intro hfinal source key other hsession verdict
      by_cases hown : Observes policy source key (fences, x)
      · obtain ⟨rfl, rfl, -⟩ := hown
        rw [hstate, Option.some.injEq] at hsession
        rw [← hsession, hcounter, hmembers, hfinal]
      · exact hother source key other hown hsession verdict

end Step

/-- **When session counters tell the truth.** Along a run of `admit` from empty fences the counters of every
stored session are, in every state reached, the numbers of its records by final verdict, exactly if the verdict
counted for every record of the run lasts. -/
theorem counters_true_iff (policy : RuntimePolicy) (batches : List Batch) :
    (∀ n, CountersTrue policy (fencesAt policy batches n) ((passages policy ∅ batches).take n)) ↔
      ∀ p ∈ passages policy ∅ batches, p.2.lasting policy p.1 = true := by
  refine @Lib.take_steps_iff _ _ (Submission.submit policy) (CountersTrue policy)
    (fun fences x => x.lasting policy fences = true) ?_ ∅ ?_ (batches.flatMap (Batch.submissions policy))
  · intro fences past x h
    exact submit_countersTrue h
  · intro source key state hstate
    simp [Fences.session] at hstate

/-- A record of revision 1 of a source that is registered at revision 2 is counted as current and ends as
history. -/
theorem older_revision_miscounted :
    ¬CountersTrue defaultPolicy (fencesAt defaultPolicy [sampleBatch 2 [sampleRecord 1 7]] 1)
      ((passages defaultPolicy ∅ [sampleBatch 2 [sampleRecord 1 7]]).take 1) := by
  intro h
  have hrun : passages defaultPolicy ∅ [sampleBatch 2 [sampleRecord 1 7]] = [(∅, sampleSubmission 2 (sampleRecord 1 7))] := by
    simp [passages, @sampleBatch_submissions defaultPolicy (by decide), Lib.steps]
  have hfences : fencesAt defaultPolicy [sampleBatch 2 [sampleRecord 1 7]] 1 = sampleFences 2 (sampleRecord 1 7) := by
    simp [fencesAt, @sampleBatch_submissions defaultPolicy (by decide), sampleFences]
  rw [hrun, hfences] at h
  have hcounted : ((sampleFences 2 (sampleRecord 1 7)).session (sampleRecord 1 7).source (sampleSession 1)).map
      SessionState.acceptedCurrent = some 1 := by decide +kernel
  obtain ⟨state, hstate, hone⟩ := Option.map_eq_some_iff.mp hcounted
  have htrue : state.acceptedCurrent = _ := h _ _ state hstate .acceptedCurrent
  rw [hone] at htrue
  revert htrue
  decide +kernel

end LatencyObservatory.Ingest
