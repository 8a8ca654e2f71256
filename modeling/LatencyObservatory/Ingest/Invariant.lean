import LatencyObservatory.Ingest.Fence

/-!
# Invariants of the session fence

A stored session has a last sequence, its window is the set of its recent sequences, and none of them
is above the last one; its ordinal is below the next one to be given. `applySessionFence` keeps both,
and touches no session but the record's own, apart from forgetting evicted ones.
-/

namespace LatencyObservatory.Ingest

open LatencyObservatory.Core LatencyObservatory.Model

/-! ### The window of one session -/

/-- What holds of every stored session. -/
structure SessionState.Inv (window : Nat) (state : SessionState) : Prop where
  hasLast : state.hasLastSequence = true
  nodup : state.recentOrder.Nodup
  recent_iff : ∀ q, q ∈ state.recentSequences ↔ q ∈ state.recentOrder
  bounded : state.recentOrder.length ≤ window
  le_last : ∀ q ∈ state.recentOrder, q ≤ state.lastSequence

/-- A session that was just opened: no sequence yet. -/
structure SessionState.Fresh (state : SessionState) : Prop where
  hasLast : state.hasLastSequence = false
  recent : state.recentSequences = ∅
  order : state.recentOrder = []

theorem trimWindow_spec (window : Nat) {recent : Std.ExtTreeSet UInt64 compare} {order : List UInt64}
    (hnodup : order.Nodup) (hmem : ∀ q, q ∈ recent ↔ q ∈ order) :
    (trimWindow window recent order).2 = order.drop (order.length - window) ∧
      ∀ q, q ∈ (trimWindow window recent order).1 ↔ q ∈ (trimWindow window recent order).2 := by
  induction order generalizing recent with
  | nil => exact ⟨by simp [trimWindow], hmem⟩
  | cons front rest ih =>
    rw [trimWindow]
    split_ifs with hlong
    · have hdrop : (front :: rest).drop ((front :: rest).length - window) =
          rest.drop (rest.length - window) := by
        simp only [List.length_cons] at hlong ⊢
        rw [show rest.length + 1 - window = (rest.length - window) + 1 by omega, List.drop_succ_cons]
      rw [hdrop]
      refine ih hnodup.of_cons fun q => ?_
      rw [Std.ExtTreeSet.mem_erase, hmem q, List.mem_cons]
      constructor
      · rintro ⟨hne, rfl | hq⟩
        · simp at hne
        · exact hq
      · intro hq
        refine ⟨fun heq => ?_, Or.inr hq⟩
        rw [Std.LawfulEqOrd.compare_eq_iff_eq] at heq
        exact (List.nodup_cons.mp hnodup).1 (heq ▸ hq)
    · have hzero : (front :: rest).length - window = 0 := by omega
      rw [hzero]
      exact ⟨rfl, hmem⟩

theorem SessionState.remember_eq (state : SessionState) (window : Nat) (sequence : Sequence) :
    state.remember window sequence =
      { state with
        recentSequences :=
          (trimWindow window (state.recentSequences.insert sequence) (state.recentOrder ++ [sequence])).1
        recentOrder :=
          (trimWindow window (state.recentSequences.insert sequence) (state.recentOrder ++ [sequence])).2 } := rfl

theorem SessionState.remember_inv {window : Nat} {state : SessionState} {sequence : Sequence}
    (hlast : state.hasLastSequence = true) (hnodup : state.recentOrder.Nodup)
    (hrecent : ∀ q, q ∈ state.recentSequences ↔ q ∈ state.recentOrder)
    (hle : ∀ q ∈ state.recentOrder, q ≤ state.lastSequence) (hnew : sequence ∉ state.recentOrder)
    (hseq : sequence ≤ state.lastSequence) : (state.remember window sequence).Inv window := by
  have hnodup' : (state.recentOrder ++ [sequence]).Nodup :=
    hnodup.append (List.nodup_singleton _) (by simpa using hnew)
  have hmem' : ∀ q, q ∈ state.recentSequences.insert sequence ↔ q ∈ state.recentOrder ++ [sequence] := by
    intro q
    rw [Std.ExtTreeSet.mem_insert, Std.LawfulEqOrd.compare_eq_iff_eq, hrecent q, List.mem_append,
      List.mem_singleton, or_comm, eq_comm]
  obtain ⟨hkept, hiff⟩ := trimWindow_spec window hnodup' hmem'
  have hsub : ∀ q ∈ (state.remember window sequence).recentOrder, q ∈ state.recentOrder ++ [sequence] := by
    intro q hq
    rw [SessionState.remember_eq] at hq
    exact List.mem_of_mem_drop (hkept ▸ hq)
  refine ⟨hlast, ?_, hiff, ?_, ?_⟩
  · rw [SessionState.remember_eq]
    simp only [hkept]
    exact hnodup'.sublist (List.drop_sublist _ _)
  · rw [SessionState.remember_eq]
    simp only [hkept, List.length_drop]
    omega
  · intro q hq
    rcases List.mem_append.mp (hsub q hq) with hold | hnow
    · exact hle q hold
    · rw [List.mem_singleton.mp hnow]
      exact hseq

theorem SessionState.count_inv {window : Nat} {state : SessionState} (h : state.Inv window)
    (verdict : AdmitVerdict) : (state.count verdict).Inv window := by
  cases verdict <;> exact ⟨h.hasLast, h.nodup, h.recent_iff, h.bounded, h.le_last⟩

theorem SessionState.Inv.replays_iff {window : Nat} {state : SessionState} (h : state.Inv window)
    (sequence : Sequence) :
    state.replays sequence = true ↔ sequence = state.lastSequence ∨ sequence ∈ state.recentSequences := by
  simp only [SessionState.replays, h.hasLast, Bool.true_and, Bool.and_eq_true, Bool.not_eq_true',
    decide_eq_false_iff_not, Bool.or_eq_true, beq_iff_eq, Std.ExtTreeSet.contains_iff_mem]
  constructor
  · exact And.right
  · intro hor
    refine ⟨?_, hor⟩
    rcases hor with rfl | hmem
    · exact UInt64.lt_irrefl _
    · exact UInt64.not_lt.mpr (h.le_last _ ((h.recent_iff _).mp hmem))

theorem fenceSequence_inv {limits : Limits} {state : SessionState} {sequence : Sequence} {ruling : Ruling}
    (h : state.Inv limits.sequenceReplayWindow ∨ state.Fresh) :
    (fenceSequence limits state sequence ruling).1.Inv limits.sequenceReplayWindow := by
  unfold fenceSequence
  split_ifs with hreplay
  · rcases h with h | h
    · exact ⟨h.hasLast, h.nodup, h.recent_iff, h.bounded, h.le_last⟩
    · simp [SessionState.replays, h.hasLast] at hreplay
  · refine SessionState.count_inv ?_ _
    rcases h with h | h
    · rw [h.replays_iff, h.recent_iff, not_or] at hreplay
      by_cases hgt : sequence > state.lastSequence
      · simp only [placeSequence, h.hasLast, Bool.not_true, Bool.false_eq_true, if_false, if_pos hgt]
        exact SessionState.remember_inv rfl h.nodup h.recent_iff
          (fun q hq => UInt64.le_trans (h.le_last q hq) (UInt64.le_of_lt hgt)) hreplay.2 (UInt64.le_refl _)
      · simp only [placeSequence, h.hasLast, Bool.not_true, Bool.false_eq_true, if_false, if_neg hgt]
        exact SessionState.remember_inv h.hasLast h.nodup h.recent_iff h.le_last hreplay.2
          (UInt64.not_lt.mp hgt)
    · simp only [placeSequence, h.hasLast, Bool.not_false, if_true]
      refine SessionState.remember_inv rfl ?_ ?_ ?_ ?_ (UInt64.le_refl _)
      · simp [h.order]
      · simp [h.order, h.recent]
      · simp [h.order]
      · simp [h.order]

/-! ### What the fence rules

The verdict and the two evidence fields that matter downstream, as functions of the state before. -/

/-- The part of a ruling the query filters can see. -/
def Ruling.view (r : Ruling) : AdmitVerdict × EvidenceState × Freshness :=
  (r.verdict, r.evidence.state, r.evidence.freshness)

@[simp] theorem Ruling.note_view (r : Ruling) (code : ReasonCode) (detail : Bytes) :
    (r.note code detail).view = r.view := by
  simp [Ruling.view, Ruling.note]

/-- What a historical fence does to a view: the evidence is left as it is. -/
def demote (v : AdmitVerdict × EvidenceState × Freshness) : AdmitVerdict × EvidenceState × Freshness :=
  (.acceptedHistorical, v.2)

@[simp] theorem demote_demote (v : AdmitVerdict × EvidenceState × Freshness) : demote (demote v) = demote v := rfl

@[simp] theorem Ruling.historical_view (r : Ruling) (code : ReasonCode) (detail : Bytes) :
    (r.historical code detail).view = demote r.view := by
  simp [Ruling.view, Ruling.historical, demote]

/-- The stored session of the record, as the fence finds it. -/
def SourceFenceState.sessionOf (fence : SourceFenceState) (record : MeasurementRecord) : Option SessionState :=
  fence.sessions[sessionKey record]?

/-- The record repeats a sequence its session still knows. -/
def SourceFenceState.replays (fence : SourceFenceState) (record : MeasurementRecord) : Bool :=
  (fence.sessionOf record).any fun state => state.replays record.sequence

/-- The record's session is not the newest one of its source. -/
def SourceFenceState.olderSession (fence : SourceFenceState) (record : MeasurementRecord) : Bool :=
  (fence.sessionOf record).any fun state => state.ordinal < fence.currentOrdinal

/-- The record's source revision is behind the one its session saw. -/
def SourceFenceState.revisionBackwards (fence : SourceFenceState) (record : MeasurementRecord) : Bool :=
  (fence.sessionOf record).any fun state =>
    state.sourceRevision.valid && record.sourceRevision.value < state.sourceRevision.value

/-- The record's sequence is behind the last one, and not a replay. -/
def SourceFenceState.reordered (fence : SourceFenceState) (record : MeasurementRecord) : Bool :=
  (fence.sessionOf record).any fun state =>
    state.hasLastSequence && !(record.sequence > state.lastSequence) && !state.replays record.sequence

/-- The session fence lets the record through as history at best. -/
def SourceFenceState.outdated (fence : SourceFenceState) (record : MeasurementRecord) : Bool :=
  fence.olderSession record || fence.revisionBackwards record || fence.reordered record

theorem evictSessions_view (limit fuel : Nat) (fence : SourceFenceState) (ruling : Ruling) :
    (evictSessions limit fuel fence ruling).2.view = ruling.view := by
  induction fuel generalizing fence ruling with
  | zero => rfl
  | succ fuel ih =>
    rw [evictSessions]
    split
    · split
      · rfl
      · rw [ih, Ruling.note_view]
    · rfl

theorem openSession_view (limits : Limits) (fence : SourceFenceState) (record : MeasurementRecord)
    (ruling : Ruling) : (openSession limits fence record ruling).2.2.view = ruling.view := by
  unfold openSession
  rw [evictSessions_view]
  split_ifs <;> simp

theorem reviseSession_ruling (state : SessionState) (record : MeasurementRecord) (ruling : Ruling) :
    (reviseSession state record ruling).2 =
      if state.sourceRevision.valid && state.sourceRevision != record.sourceRevision then
        if record.sourceRevision.value > state.sourceRevision.value then
          ruling.note .revisionChanged (text "session revision advanced")
        else ruling.historical .revisionChanged (text "session revision moved backwards")
      else ruling := by
  unfold reviseSession
  simp only [decide_eq_true_eq]
  split_ifs <;> rfl

theorem reviseSession_view (state : SessionState) (record : MeasurementRecord) (ruling : Ruling) :
    (reviseSession state record ruling).2.view =
      if state.sourceRevision.valid && record.sourceRevision.value < state.sourceRevision.value then
        demote ruling.view
      else ruling.view := by
  rw [reviseSession_ruling]
  have hne : (state.sourceRevision != record.sourceRevision) = true ↔
      state.sourceRevision.value ≠ record.sourceRevision.value := by
    obtain ⟨a⟩ := state.sourceRevision
    obtain ⟨b⟩ := record.sourceRevision
    simp
  rcases Nat.lt_trichotomy record.sourceRevision.value.toNat state.sourceRevision.value.toNat with h | h | h
  · have hlt : record.sourceRevision.value < state.sourceRevision.value := UInt32.lt_iff_toNat_lt.mpr h
    have hgt : ¬ record.sourceRevision.value > state.sourceRevision.value := UInt32.lt_asymm hlt
    have hbne := hne.mpr (UInt32.ne_of_lt hlt).symm
    simp only [hbne, hgt, hlt, Bool.and_true, if_false, decide_true]
    split_ifs <;> simp
  · have heq : state.sourceRevision.value = record.sourceRevision.value := (UInt32.toNat_inj.mp h).symm
    have hbne : (state.sourceRevision != record.sourceRevision) = false := by
      rw [← Bool.not_eq_true, hne]
      exact not_not.mpr heq
    simp [hbne, heq]
  · have hgt : record.sourceRevision.value > state.sourceRevision.value := UInt32.lt_iff_toNat_lt.mpr h
    have hlt : ¬ record.sourceRevision.value < state.sourceRevision.value := UInt32.lt_asymm hgt
    have hbne := hne.mpr (UInt32.ne_of_lt hgt)
    simp only [hbne, hgt, hlt, Bool.and_true, if_true, decide_false, Bool.and_false, Bool.false_eq_true,
      if_false]
    split_ifs <;> simp

theorem reviseSession_state (state : SessionState) (record : MeasurementRecord) (ruling : Ruling) :
    ∃ revision, (reviseSession state record ruling).1 = { state with sourceRevision := revision } := by
  by_cases hnew : (!state.sourceRevision.valid ||
      decide (record.sourceRevision.value > state.sourceRevision.value)) = true
  · exact ⟨record.sourceRevision, by simp only [reviseSession, hnew, if_true]⟩
  · exact ⟨state.sourceRevision, by simp only [reviseSession, hnew, if_false, Bool.false_eq_true]⟩

theorem fenceSequence_view (limits : Limits) (state : SessionState) (sequence : Sequence) (ruling : Ruling) :
    (fenceSequence limits state sequence ruling).2.1.view =
      if state.replays sequence then (.rejected, .conflicting, .unknown)
      else if state.hasLastSequence && !(sequence > state.lastSequence) then demote ruling.view
      else ruling.view := by
  unfold fenceSequence
  split
  · simp [Ruling.view]
  · unfold placeSequence
    by_cases hlast : state.hasLastSequence = true
    · by_cases hgt : sequence > state.lastSequence
      · simp only [hlast, hgt, Bool.not_true, Bool.false_eq_true, if_false, if_true, decide_true, Bool.and_false]
        split_ifs <;> simp
      · simp [hlast, hgt]
    · simp [hlast]

theorem fenceSequence_ordinal (limits : Limits) (state : SessionState) (sequence : Sequence) (ruling : Ruling) :
    (fenceSequence limits state sequence ruling).1.ordinal = state.ordinal := by
  have hcount : ∀ (s : SessionState) v, (s.count v).ordinal = s.ordinal := by
    intro s v
    cases v <;> rfl
  unfold fenceSequence
  split
  · rfl
  · rw [hcount]
    unfold placeSequence
    split_ifs <;> rfl

theorem enterSession_of_none {limits : Limits} {fence : SourceFenceState} {record : MeasurementRecord}
    {ruling : Ruling} (h : fence.sessionOf record = none) :
    enterSession limits fence record ruling = openSession limits fence record ruling := by
  rw [SourceFenceState.sessionOf] at h
  simp only [enterSession, h]

theorem enterSession_of_some (limits : Limits) {fence : SourceFenceState} {record : MeasurementRecord}
    (ruling : Ruling) {state : SessionState} (h : fence.sessionOf record = some state) :
    ∃ ruling', enterSession limits fence record ruling = (fence, state, ruling') ∧
      ruling'.view = if state.ordinal < fence.currentOrdinal then demote ruling.view else ruling.view := by
  rw [SourceFenceState.sessionOf] at h
  simp only [enterSession, h]
  by_cases holder : state.ordinal < fence.currentOrdinal
  · rw [if_pos holder, if_pos holder]
    exact ⟨_, rfl, Ruling.historical_view ..⟩
  · rw [if_neg holder, if_neg holder]
    exact ⟨_, rfl, rfl⟩

theorem applySessionFence_view (limits : Limits) (fence : SourceFenceState) (record : MeasurementRecord)
    (ruling : Ruling) :
    (applySessionFence limits fence record ruling).2.1.view =
      if fence.replays record then (.rejected, .conflicting, .unknown)
      else if fence.outdated record then demote ruling.view
      else ruling.view := by
  simp only [applySessionFence]
  rw [fenceSequence_view, reviseSession_view]
  cases hsession : fence.sessionOf record with
  | none =>
    -- A new session has neither a sequence nor a revision to hold against the record.
    have hstate : (openSession limits fence record ruling).2.1 =
        { ordinal := fence.nextOrdinal, sourceRevision := record.sourceRevision } := rfl
    rw [enterSession_of_none hsession, openSession_view, hstate]
    obtain ⟨revision, hrevised⟩ := reviseSession_state
      { ordinal := fence.nextOrdinal, sourceRevision := record.sourceRevision } record
      (openSession limits fence record ruling).2.2
    rw [hrevised]
    simp [SourceFenceState.replays, SourceFenceState.outdated, SourceFenceState.olderSession,
      SourceFenceState.revisionBackwards, SourceFenceState.reordered, hsession, SessionState.replays]
  | some state =>
    obtain ⟨ruling', hentered, hview⟩ := enterSession_of_some limits ruling hsession
    obtain ⟨revision, hrevised⟩ := reviseSession_state state record ruling'
    rw [hentered, hrevised, hview]
    simp only [SourceFenceState.replays, SourceFenceState.outdated, SourceFenceState.olderSession,
      SourceFenceState.revisionBackwards, SourceFenceState.reordered, hsession, Option.any_some]
    have hreplays : SessionState.replays { state with sourceRevision := revision } record.sequence =
        state.replays record.sequence := rfl
    rw [hreplays]
    cases state.replays record.sequence with
    | true => simp
    | false =>
      by_cases h₁ : state.ordinal < fence.currentOrdinal <;>
        by_cases h₂ : (state.sourceRevision.valid &&
          decide (record.sourceRevision.value < state.sourceRevision.value)) = true <;>
        by_cases h₃ : (state.hasLastSequence && !decide (record.sequence > state.lastSequence)) = true <;>
        simp [h₁, h₂, h₃]

/-! ### The fence state of one source -/

/-- What holds of the fence state of every source. -/
structure SourceFenceState.Inv (limits : Limits) (fence : SourceFenceState) : Prop where
  session : ∀ (key : SessionKey) (state : SessionState), fence.sessions[key]? = some state →
    state.Inv limits.sequenceReplayWindow
  ordinal : ∀ (key : SessionKey) (state : SessionState), fence.sessions[key]? = some state →
    state.ordinal < fence.nextOrdinal
  current : fence.currentOrdinal < fence.nextOrdinal

theorem SourceFenceState.inv_empty (limits : Limits) : ({} : SourceFenceState).Inv limits := by
  refine ⟨?_, ?_, by decide⟩
  · intro key state h
    simp at h
  · intro key state h
    simp at h

theorem evictSessions_spec (limit fuel : Nat) (fence : SourceFenceState) (ruling : Ruling) :
    (evictSessions limit fuel fence ruling).1.nextOrdinal = fence.nextOrdinal ∧
      (evictSessions limit fuel fence ruling).1.currentOrdinal = fence.currentOrdinal ∧
      ∀ (key : SessionKey) (state : SessionState),
        (evictSessions limit fuel fence ruling).1.sessions[key]? = some state →
          fence.sessions[key]? = some state := by
  induction fuel generalizing fence ruling with
  | zero => exact ⟨rfl, rfl, fun _ _ h => h⟩
  | succ fuel ih =>
    rw [evictSessions]
    split
    · split
      · exact ⟨rfl, rfl, fun _ _ h => h⟩
      · rename_i oldest _
        obtain ⟨hnext, hcurrent, hsub⟩ := ih
          { fence with
            sessions := fence.sessions.erase oldest.1
            evictedSessions := fence.evictedSessions + 1 } (ruling.note .sessionEvicted oldest.1.1.toHex)
        refine ⟨hnext, hcurrent, fun key state h => ?_⟩
        have herased := hsub key state h
        rw [Std.ExtTreeMap.getElem?_erase] at herased
        split at herased
        · cases herased
        · exact herased
    · exact ⟨rfl, rfl, fun _ _ h => h⟩

theorem enterSession_spec (limits : Limits) (fence : SourceFenceState) (record : MeasurementRecord)
    (ruling : Ruling) :
    (∃ ruling' state, fence.sessionOf record = some state ∧
      enterSession limits fence record ruling = (fence, state, ruling')) ∨
    (∃ ruling' kept, fence.sessionOf record = none ∧
      enterSession limits fence record ruling =
        (kept, { ordinal := fence.nextOrdinal, sourceRevision := record.sourceRevision }, ruling') ∧
      kept.nextOrdinal = fence.nextOrdinal + 1 ∧ kept.currentOrdinal = fence.nextOrdinal ∧
      ∀ (key : SessionKey) (state : SessionState), key ≠ sessionKey record → kept.sessions[key]? = some state →
        fence.sessions[key]? = some state) := by
  cases hsession : fence.sessionOf record with
  | some state =>
    obtain ⟨ruling', hentered, -⟩ := enterSession_of_some limits ruling hsession
    exact Or.inl ⟨ruling', state, rfl, hentered⟩
  | none =>
    right
    rw [enterSession_of_none hsession]
    refine ⟨_, _, rfl, rfl, ?_⟩
    obtain ⟨hnext, hcurrent, hsub⟩ := evictSessions_spec limits.maxSessionsPerSource _ _ _
    refine ⟨hnext, hcurrent, fun key state hne h => ?_⟩
    have hinserted := hsub key state h
    rw [Std.ExtTreeMap.getElem?_insert, if_neg] at hinserted
    · exact hinserted
    · rw [Std.LawfulEqOrd.compare_eq_iff_eq]
      exact hne.symm

theorem applySessionFence_fence (limits : Limits) (fence : SourceFenceState) (record : MeasurementRecord)
    (ruling : Ruling) :
    ∃ fenced : SessionState,
      (applySessionFence limits fence record ruling).1 =
        { (enterSession limits fence record ruling).1 with
          sessions := (enterSession limits fence record ruling).1.sessions.insert (sessionKey record) fenced } ∧
      fenced.ordinal = (enterSession limits fence record ruling).2.1.ordinal ∧
      ((enterSession limits fence record ruling).2.1.Inv limits.sequenceReplayWindow ∨
          (enterSession limits fence record ruling).2.1.Fresh →
        fenced.Inv limits.sequenceReplayWindow) := by
  obtain ⟨revision, hrevised⟩ := reviseSession_state (enterSession limits fence record ruling).2.1 record
    (enterSession limits fence record ruling).2.2
  refine ⟨(fenceSequence limits
    (reviseSession (enterSession limits fence record ruling).2.1 record
      (enterSession limits fence record ruling).2.2).1 record.sequence
    (reviseSession (enterSession limits fence record ruling).2.1 record
      (enterSession limits fence record ruling).2.2).2).1, rfl, ?_, fun h => fenceSequence_inv ?_⟩
  · rw [fenceSequence_ordinal, hrevised]
  · rw [hrevised]
    rcases h with h | h
    · exact Or.inl ⟨h.hasLast, h.nodup, h.recent_iff, h.bounded, h.le_last⟩
    · exact Or.inr ⟨h.hasLast, h.recent, h.order⟩

theorem applySessionFence_inv {limits : Limits} {fence : SourceFenceState} (record : MeasurementRecord)
    (ruling : Ruling) (h : fence.Inv limits) : (applySessionFence limits fence record ruling).1.Inv limits := by
  obtain ⟨fenced, hfence, hordinal, hinv⟩ := applySessionFence_fence limits fence record ruling
  rw [hfence]
  rcases enterSession_spec limits fence record ruling with
    ⟨ruling', state, hstate, hentered⟩ | ⟨ruling', kept, -, hentered, hnext, hcurrent, hother⟩
  · -- A stored session: its invariant and ordinal carry over.
    rw [hentered] at hordinal hinv ⊢
    refine ⟨fun key st hst => ?_, fun key st hst => ?_, h.current⟩ <;>
      rw [Std.ExtTreeMap.getElem?_insert] at hst <;> split_ifs at hst
    · cases hst
      exact hinv (Or.inl (h.session _ _ hstate))
    · exact h.session key st hst
    · cases hst
      rw [hordinal]
      exact h.ordinal _ _ hstate
    · exact h.ordinal key st hst
  · -- A fresh session takes the next ordinal and becomes current.
    rw [hentered] at hordinal hinv ⊢
    refine ⟨fun key st hst => ?_, fun key st hst => ?_, ?_⟩
    · rw [Std.ExtTreeMap.getElem?_insert] at hst
      split_ifs at hst with hkey
      · cases hst
        exact hinv (Or.inr ⟨rfl, rfl, rfl⟩)
      · rw [Std.LawfulEqOrd.compare_eq_iff_eq] at hkey
        exact h.session key st (hother key st (Ne.symm hkey) hst)
    · show st.ordinal < kept.nextOrdinal
      rw [Std.ExtTreeMap.getElem?_insert] at hst
      split_ifs at hst with hkey
      · cases hst
        rw [hordinal, hnext]
        exact Nat.lt_succ_self _
      · rw [Std.LawfulEqOrd.compare_eq_iff_eq] at hkey
        rw [hnext]
        exact Nat.lt_succ_of_lt (h.ordinal key st (hother key st (Ne.symm hkey) hst))
    · show kept.currentOrdinal < kept.nextOrdinal
      rw [hnext, hcurrent]
      exact Nat.lt_succ_self _

theorem applySessionFence_other {limits : Limits} {fence : SourceFenceState} {record : MeasurementRecord}
    {ruling : Ruling} {key : SessionKey} {state : SessionState} (hne : key ≠ sessionKey record)
    (h : (applySessionFence limits fence record ruling).1.sessions[key]? = some state) :
    fence.sessions[key]? = some state := by
  obtain ⟨fenced, hfence, -, -⟩ := applySessionFence_fence limits fence record ruling
  rw [hfence, Std.ExtTreeMap.getElem?_insert, if_neg] at h
  · rcases enterSession_spec limits fence record ruling with
      ⟨ruling', st, -, hentered⟩ | ⟨ruling', kept, -, hentered, -, -, hother⟩
    · rw [hentered] at h
      exact h
    · rw [hentered] at h
      exact hother key state hne h
  · rw [Std.LawfulEqOrd.compare_eq_iff_eq]
    exact hne.symm

theorem applySessionFence_self (limits : Limits) (fence : SourceFenceState) (record : MeasurementRecord)
    (ruling : Ruling) :
    ∃ state : SessionState, (applySessionFence limits fence record ruling).1.sessions[sessionKey record]? = some state ∧
      state.ordinal = ((fence.sessionOf record).map SessionState.ordinal).getD fence.nextOrdinal := by
  obtain ⟨fenced, hfence, hordinal, -⟩ := applySessionFence_fence limits fence record ruling
  refine ⟨fenced, ?_, ?_⟩
  · rw [hfence, Std.ExtTreeMap.getElem?_insert_self]
  · rw [hordinal]
    rcases enterSession_spec limits fence record ruling with
      ⟨ruling', state, hstate, hentered⟩ | ⟨ruling', kept, hnone, hentered, -, -, -⟩
    · rw [hentered, hstate]
      rfl
    · rw [hentered, hnone]
      rfl

theorem applySessionFence_currentOrdinal (limits : Limits) (fence : SourceFenceState) (record : MeasurementRecord)
    (ruling : Ruling) :
    (applySessionFence limits fence record ruling).1.currentOrdinal =
      if (fence.sessionOf record).isSome then fence.currentOrdinal else fence.nextOrdinal := by
  obtain ⟨fenced, hfence, -, -⟩ := applySessionFence_fence limits fence record ruling
  rw [hfence]
  rcases enterSession_spec limits fence record ruling with
    ⟨ruling', state, hstate, hentered⟩ | ⟨ruling', kept, hnone, hentered, -, hcurrent, -⟩
  · rw [hentered, hstate]
    rfl
  · rw [hentered, hnone]
    exact hcurrent

end LatencyObservatory.Ingest
