import LatencyObservatory.Ingest.Rejection

/-!
# The representation of the fences

The containers and counters of a source's fence state belong together: the sessions carry distinct
ordinals below the next one, the current ordinal is the largest and sits under the current key, no more
sessions are kept than the policy allows, and every ordinal ever given is stored or evicted. Opening a
session breaks the bound for a moment and the eviction loop restores it; everything else replaces one
stored session by another of the same ordinal. Over a run, a session that stays stored never moves its
last sequence or its revision back.
-/

namespace LatencyObservatory.Ingest

open LatencyObservatory.Core LatencyObservatory.Model

/-- The ordinals given to a source's sessions: distinct, positive, and all accounted for. -/
structure SourceFenceState.Numbered (fence : SourceFenceState) : Prop where
  ordinal : ∀ (key : SessionKey) (state : SessionState), fence.sessions[key]? = some state →
    1 ≤ state.ordinal ∧ state.ordinal < fence.nextOrdinal
  distinct : ∀ (a b : SessionKey) (s t : SessionState), fence.sessions[a]? = some s →
    fence.sessions[b]? = some t → s.ordinal = t.ordinal → a = b
  counted : fence.nextOrdinal = fence.sessions.size + fence.evictedSessions + 1

/-- The current session is stored under the current key and has the largest ordinal. -/
structure SourceFenceState.Ordered (fence : SourceFenceState) : Prop extends fence.Numbered where
  current : ∃ state, fence.sessions[(fence.currentEpoch, fence.currentIncarnation)]? = some state ∧
    state.ordinal = fence.currentOrdinal
  largest : ∀ (key : SessionKey) (state : SessionState), fence.sessions[key]? = some state →
    state.ordinal ≤ fence.currentOrdinal

/-- The representation invariant of one source's fence state. -/
structure SourceFenceState.Represented (limits : Limits) (fence : SourceFenceState) : Prop where
  session : ∀ (key : SessionKey) (state : SessionState), fence.sessions[key]? = some state →
    state.Inv limits.sequenceReplayWindow ∧ state.recentSequences.size ≤ limits.sequenceReplayWindow
  ordered : fence.Ordered
  bounded : fence.sessions.size ≤ limits.maxSessionsPerSource

theorem SessionState.Inv.size_le {window : Nat} {state : SessionState} (h : state.Inv window) :
    state.recentSequences.size ≤ window := by
  have hnodup : state.recentSequences.toList.Nodup := by
    refine state.recentSequences.distinct_toList.imp ?_
    intro a b hne heq
    exact hne (Std.LawfulEqOrd.compare_eq_iff_eq.mpr heq)
  have hsub : state.recentSequences.toList ⊆ state.recentOrder := by
    intro q hq
    exact (h.recent_iff q).mp (Std.ExtTreeSet.mem_toList.mp hq)
  calc state.recentSequences.size = state.recentSequences.toList.length := Std.ExtTreeSet.length_toList.symm
    _ ≤ state.recentOrder.length := (hnodup.subperm hsub).length_le
    _ ≤ window := h.bounded

/-! ### Eviction -/

theorem oldestOther_none {current : Nat} {entries : List (SessionKey × SessionState)}
    (h : oldestOther current entries = none) : ∀ entry ∈ entries, entry.2.ordinal = current := by
  induction entries with
  | nil => simp
  | cons entry rest ih =>
    rw [oldestOther] at h
    split at h
    · rename_i hrest
      split_ifs at h with hcurrent
      intro other hother
      rcases List.mem_cons.mp hother with rfl | hmem
      · exact hcurrent
      · exact ih hrest other hmem
    · split_ifs at h

theorem oldestOther_some {current : Nat} {entries : List (SessionKey × SessionState)}
    {best : SessionKey × SessionState} (h : oldestOther current entries = some best) :
    best ∈ entries ∧ best.2.ordinal ≠ current := by
  induction entries generalizing best with
  | nil => simp [oldestOther] at h
  | cons entry rest ih =>
    rw [oldestOther] at h
    split at h
    · split_ifs at h with hcurrent
      cases h
      exact ⟨List.mem_cons_self, hcurrent⟩
    · rename_i found hrest
      obtain ⟨hmem, hne⟩ := ih hrest
      split_ifs at h with hkeep
      · cases h
        exact ⟨List.mem_cons_of_mem _ hmem, hne⟩
      · cases h
        exact ⟨List.mem_cons_self, fun hcurrent => hkeep (Or.inl hcurrent)⟩

theorem SourceFenceState.Ordered.exists_other {fence : SourceFenceState} (h : fence.Ordered)
    (hsize : 2 ≤ fence.sessions.size) :
    ∃ oldest, oldestOther fence.currentOrdinal fence.sessions.toList = some oldest := by
  cases hfound : oldestOther fence.currentOrdinal fence.sessions.toList with
  | some oldest => exact ⟨oldest, rfl⟩
  | none =>
    exfalso
    have hall := oldestOther_none hfound
    have hlength : 2 ≤ fence.sessions.toList.length := by
      rw [Std.ExtTreeMap.length_toList]
      exact hsize
    match hlist : fence.sessions.toList, hlength with
    | a :: b :: rest, _ =>
      have hstored : ∀ entry ∈ fence.sessions.toList, fence.sessions[entry.1]? = some entry.2 := by
        intro entry hentry
        exact Std.ExtTreeMap.mem_toList_iff_getElem?_eq_some.mp hentry
      have hdistinct := fence.sessions.distinct_keys_toList
      rw [hlist] at hall hstored hdistinct
      have ha : a ∈ a :: b :: rest := List.mem_cons_self
      have hb : b ∈ a :: b :: rest := List.mem_cons_of_mem _ List.mem_cons_self
      have hkeys := h.distinct _ _ _ _ (hstored a ha) (hstored b hb) ((hall a ha).trans (hall b hb).symm)
      have hne := (List.pairwise_cons.mp hdistinct).1 b List.mem_cons_self
      exact hne (Std.LawfulEqOrd.compare_eq_iff_eq.mpr hkeys)

theorem size_erase_of_stored {sessions : Std.ExtTreeMap SessionKey SessionState compare} {key : SessionKey}
    {state : SessionState} (h : sessions[key]? = some state) : (sessions.erase key).size + 1 = sessions.size := by
  have hcontains : sessions.contains key = true := by
    rw [Std.ExtTreeMap.contains_eq_isSome_getElem?, h]
    rfl
  have hpos : sessions.size ≠ 0 := by
    intro hzero
    rw [← Std.ExtTreeMap.eq_empty_iff_size_eq_zero] at hzero
    rw [hzero] at hcontains
    simp at hcontains
  rw [Std.ExtTreeMap.size_erase, if_pos hcontains]
  omega

theorem SourceFenceState.Ordered.evict {fence : SourceFenceState} (h : fence.Ordered) {key : SessionKey}
    {state : SessionState} (hstate : fence.sessions[key]? = some state) (hother : state.ordinal ≠ fence.currentOrdinal) :
    ({ fence with
        sessions := fence.sessions.erase key
        evictedSessions := fence.evictedSessions + 1 } : SourceFenceState).Ordered ∧
      (fence.sessions.erase key).size + 1 = fence.sessions.size := by
  have hkept : ∀ (k : SessionKey) (s : SessionState), (fence.sessions.erase key)[k]? = some s →
      fence.sessions[k]? = some s := by
    intro k s hs
    rw [Std.ExtTreeMap.getElem?_erase] at hs
    split_ifs at hs
    exact hs
  have hsize := size_erase_of_stored hstate
  refine ⟨⟨⟨?_, ?_, ?_⟩, ?_, ?_⟩, hsize⟩
  · intro k s hs
    exact h.ordinal k s (hkept k s hs)
  · intro a b s t hs ht hst
    exact h.distinct a b s t (hkept a s hs) (hkept b t ht) hst
  · show fence.nextOrdinal = (fence.sessions.erase key).size + (fence.evictedSessions + 1) + 1
    have hcounted := h.counted
    omega
  · obtain ⟨current, hcurrent, hordinal⟩ := h.current
    refine ⟨current, ?_, hordinal⟩
    show (fence.sessions.erase key)[(fence.currentEpoch, fence.currentIncarnation)]? = some current
    rw [Std.ExtTreeMap.getElem?_erase, if_neg]
    · exact hcurrent
    · rw [Std.LawfulEqOrd.compare_eq_iff_eq]
      rintro rfl
      rw [hcurrent, Option.some.injEq] at hstate
      exact hother (hstate ▸ hordinal)
  · intro k s hs
    exact h.largest k s (hkept k s hs)

/-- The eviction loop keeps the order, ends within the limit and does not touch the current session. A limit of zero
is one that it cannot get below. -/
theorem evictSessions_ordered (limit fuel : Nat) {fence : SourceFenceState} (ruling : Ruling) (h : fence.Ordered)
    (hfuel : fence.sessions.size ≤ max limit 1 + fuel) :
    (evictSessions limit fuel fence ruling).1.Ordered ∧
      (evictSessions limit fuel fence ruling).1.sessions.size ≤ max limit 1 ∧
      (evictSessions limit fuel fence ruling).1.currentEpoch = fence.currentEpoch ∧
      (evictSessions limit fuel fence ruling).1.currentIncarnation = fence.currentIncarnation := by
  induction fuel generalizing fence ruling with
  | zero => exact ⟨h, hfuel, rfl, rfl⟩
  | succ fuel ih =>
    rw [evictSessions]
    split
    · cases holdest : oldestOther fence.currentOrdinal fence.sessions.toList with
      | none =>
        refine ⟨h, ?_, rfl, rfl⟩
        show fence.sessions.size ≤ max limit 1
        by_contra hlarge
        obtain ⟨oldest, hfound⟩ := h.exists_other (by omega)
        rw [holdest] at hfound
        cases hfound
      | some oldest =>
        obtain ⟨hmem, hother⟩ := oldestOther_some holdest
        have hstored := Std.ExtTreeMap.mem_toList_iff_getElem?_eq_some.mp hmem
        obtain ⟨hevicted, hsize⟩ := h.evict hstored hother
        exact ih _ hevicted (by show (fence.sessions.erase oldest.1).size ≤ max limit 1 + fuel; omega)
    · rename_i hsmall
      exact ⟨h, le_max_of_le_left (Nat.le_of_not_lt hsmall), rfl, rfl⟩

/-! ### One record -/

theorem SourceFenceState.numbered_empty : ({} : SourceFenceState).Numbered := by
  refine ⟨?_, ?_, rfl⟩
  · intro key state h
    simp at h
  · intro a b s t hs
    simp at hs

theorem SourceFenceState.Numbered.insert {fence : SourceFenceState} (h : fence.Numbered) {epoch : EpochId}
    {incarnation : IncarnationId} (hnew : fence.sessions[(epoch, incarnation)]? = none) {state : SessionState}
    (hordinal : state.ordinal = fence.nextOrdinal) :
    ({ fence with
        nextOrdinal := fence.nextOrdinal + 1
        sessions := fence.sessions.insert (epoch, incarnation) state
        currentEpoch := epoch
        currentIncarnation := incarnation
        currentOrdinal := state.ordinal } : SourceFenceState).Ordered := by
  have hcases : ∀ (k : SessionKey) (s : SessionState),
      (fence.sessions.insert (epoch, incarnation) state)[k]? = some s →
        (k = (epoch, incarnation) ∧ s = state) ∨ fence.sessions[k]? = some s := by
    intro k s hs
    rw [Std.ExtTreeMap.getElem?_insert] at hs
    split_ifs at hs with hkey
    · rw [Std.LawfulEqOrd.compare_eq_iff_eq] at hkey
      cases hs
      exact Or.inl ⟨hkey.symm, rfl⟩
    · exact Or.inr hs
  refine ⟨⟨?_, ?_, ?_⟩, ⟨state, Std.ExtTreeMap.getElem?_insert_self, rfl⟩, ?_⟩
  · intro k s hs
    show 1 ≤ s.ordinal ∧ s.ordinal < fence.nextOrdinal + 1
    rcases hcases k s hs with ⟨-, rfl⟩ | hold
    · have hcounted := h.counted
      omega
    · have := h.ordinal k s hold
      omega
  · intro a b s t hs ht hst
    -- An old session lies below the next ordinal, which is the new one's.
    rcases hcases a s hs with ⟨rfl, rfl⟩ | holda <;> rcases hcases b t ht with ⟨rfl, rfl⟩ | holdb
    · rfl
    · have := h.ordinal b t holdb
      omega
    · have := h.ordinal a s holda
      omega
    · exact h.distinct a b s t holda holdb hst
  · show fence.nextOrdinal + 1 =
      (fence.sessions.insert (epoch, incarnation) state).size + fence.evictedSessions + 1
    have habsent : fence.sessions.contains (epoch, incarnation) = false := by
      rw [Std.ExtTreeMap.contains_eq_isSome_getElem?, hnew]
      rfl
    rw [Std.ExtTreeMap.size_insert, habsent]
    have hcounted := h.counted
    simp only [Bool.false_eq_true, if_false]
    omega
  · intro k s hs
    show s.ordinal ≤ state.ordinal
    rcases hcases k s hs with ⟨-, rfl⟩ | hold
    · exact le_rfl
    · have := h.ordinal k s hold
      omega

theorem SourceFenceState.Ordered.replace {fence : SourceFenceState} (h : fence.Ordered) {key : SessionKey}
    {old state : SessionState} (hold : fence.sessions[key]? = some old) (hordinal : state.ordinal = old.ordinal) :
    ({ fence with sessions := fence.sessions.insert key state } : SourceFenceState).Ordered ∧
      (fence.sessions.insert key state).size = fence.sessions.size := by
  have hcases : ∀ (k : SessionKey) (s : SessionState), (fence.sessions.insert key state)[k]? = some s →
      ∃ t, fence.sessions[k]? = some t ∧ s.ordinal = t.ordinal := by
    intro k s hs
    rw [Std.ExtTreeMap.getElem?_insert] at hs
    split_ifs at hs with hkey
    · rw [Std.LawfulEqOrd.compare_eq_iff_eq] at hkey
      cases hs
      exact ⟨old, hkey ▸ hold, hordinal⟩
    · exact ⟨s, hs, rfl⟩
  have hsize : (fence.sessions.insert key state).size = fence.sessions.size := by
    rw [Std.ExtTreeMap.size_insert, if_pos]
    rw [Std.ExtTreeMap.contains_eq_isSome_getElem?, hold]
    rfl
  refine ⟨⟨⟨?_, ?_, ?_⟩, ?_, ?_⟩, hsize⟩
  · intro k s hs
    obtain ⟨t, ht, hst⟩ := hcases k s hs
    rw [hst]
    exact h.ordinal k t ht
  · intro a b s t hs ht hst
    obtain ⟨s', hs', hss⟩ := hcases a s hs
    obtain ⟨t', ht', htt⟩ := hcases b t ht
    exact h.distinct a b s' t' hs' ht' (by rw [← hss, ← htt, hst])
  · show fence.nextOrdinal = (fence.sessions.insert key state).size + fence.evictedSessions + 1
    rw [hsize]
    exact h.counted
  · obtain ⟨current, hcurrent, hsame⟩ := h.current
    by_cases hkey : key = (fence.currentEpoch, fence.currentIncarnation)
    · refine ⟨state, ?_, ?_⟩
      · show (fence.sessions.insert key state)[(fence.currentEpoch, fence.currentIncarnation)]? = some state
        rw [hkey, Std.ExtTreeMap.getElem?_insert_self]
      · rw [hkey, hcurrent, Option.some.injEq] at hold
        rw [hordinal, ← hold, hsame]
    · refine ⟨current, ?_, hsame⟩
      show (fence.sessions.insert key state)[(fence.currentEpoch, fence.currentIncarnation)]? = some current
      rw [Std.ExtTreeMap.getElem?_insert, if_neg]
      · exact hcurrent
      · rw [Std.LawfulEqOrd.compare_eq_iff_eq]
        exact hkey
  · intro k s hs
    obtain ⟨t, ht, hst⟩ := hcases k s hs
    rw [hst]
    exact h.largest k t ht

/-- What opening and replacing sessions keep: the order, within the limit. -/
def SourceFenceState.Kept (limit : Nat) (fence : SourceFenceState) : Prop :=
  fence.Ordered ∧ fence.sessions.size ≤ limit

theorem enterSession_kept (limits : Limits) {fence : SourceFenceState} (record : MeasurementRecord) (ruling : Ruling)
    (h : fence.Kept (max limits.maxSessionsPerSource 1) ∨ fence = {}) :
    (enterSession limits fence record ruling).1.Kept (max limits.maxSessionsPerSource 1) ∧
      (enterSession limits fence record ruling).1.sessions[sessionKey record]? =
        some (enterSession limits fence record ruling).2.1 := by
  cases hsession : fence.sessionOf record with
  | some state =>
    obtain ⟨ruling', hentered, -⟩ := enterSession_of_some limits ruling hsession
    rw [hentered]
    refine ⟨?_, hsession⟩
    rcases h with h | rfl
    · exact h
    · simp [SourceFenceState.sessionOf] at hsession
  | none =>
    rw [enterSession_of_none hsession]
    have hnumbered : fence.Numbered := by
      rcases h with h | rfl
      · exact h.1.toNumbered
      · exact SourceFenceState.numbered_empty
    have hopened := @SourceFenceState.Numbered.insert fence hnumbered record.epoch record.incarnation hsession
      { ordinal := fence.nextOrdinal, sourceRevision := record.sourceRevision } rfl
    obtain ⟨hordered, hsize, hepoch, hincarnation⟩ := evictSessions_ordered _ _ _ hopened
      (Nat.le_add_left _ _)
    refine ⟨⟨hordered, hsize⟩, ?_⟩
    -- The new session is the current one, so the loop has not dropped it.
    obtain ⟨state, hstate, -⟩ := hordered.current
    rw [hepoch, hincarnation] at hstate
    obtain ⟨-, -, hsub⟩ := evictSessions_spec limits.maxSessionsPerSource _ _ _
    have hsame := hsub _ _ hstate
    rw [Std.ExtTreeMap.getElem?_insert_self] at hsame
    exact hstate.trans hsame.symm

theorem applySessionFence_kept (limits : Limits) {fence : SourceFenceState} (record : MeasurementRecord)
    (ruling : Ruling) (h : fence.Kept (max limits.maxSessionsPerSource 1) ∨ fence = {}) :
    (applySessionFence limits fence record ruling).1.Kept (max limits.maxSessionsPerSource 1) := by
  obtain ⟨fenced, hfence, hordinal, -⟩ := applySessionFence_fence limits fence record ruling
  obtain ⟨⟨hordered, hsize⟩, hstored⟩ := enterSession_kept limits record ruling h
  obtain ⟨hreplaced, hsame⟩ := hordered.replace hstored hordinal
  rw [hfence]
  exact ⟨hreplaced, hsame.trans_le hsize⟩

/-- A session never moves back: neither its last sequence nor its revision decreases. -/
def SessionState.Advanced (before after : SessionState) : Prop :=
  before.lastSequence ≤ after.lastSequence ∧ before.sourceRevision.value ≤ after.sourceRevision.value

theorem SessionState.Advanced.refl (state : SessionState) : state.Advanced state :=
  ⟨UInt64.le_refl _, UInt32.le_refl _⟩

theorem SessionState.Advanced.trans {a b c : SessionState} (hab : a.Advanced b) (hbc : b.Advanced c) :
    a.Advanced c :=
  ⟨UInt64.le_trans hab.1 hbc.1, UInt32.le_trans hab.2 hbc.2⟩

theorem reviseSession_advanced (state : SessionState) (record : MeasurementRecord) (ruling : Ruling) :
    state.Advanced (reviseSession state record ruling).1 := by
  rw [reviseSession_revision]
  split_ifs with hnew
  · refine ⟨UInt64.le_refl _, ?_⟩
    simp only [Bool.or_eq_true, Bool.not_eq_true', decide_eq_true_eq, Revision.valid, bne_eq_false_iff_eq] at hnew
    rcases hnew with hzero | hgt
    · rw [hzero]
      exact UInt32.zero_le
    · exact UInt32.le_of_lt hgt
  · exact SessionState.Advanced.refl state

theorem fenceSequence_advanced {limits : Limits} {state : SessionState} (sequence : Sequence) (ruling : Ruling)
    (hlast : state.hasLastSequence = true) : state.Advanced (fenceSequence limits state sequence ruling).1 := by
  have hcount : ∀ (s : SessionState) v, state.Advanced s → state.Advanced (s.count v) := by
    intro s v h
    cases v <;> exact h
  unfold fenceSequence
  split
  · exact SessionState.Advanced.refl state
  · refine hcount _ _ ?_
    rw [SessionState.remember_eq]
    unfold placeSequence
    rw [if_neg (by simp [hlast])]
    split_ifs with hgt
    · exact ⟨UInt64.le_of_lt hgt, UInt32.le_refl _⟩
    · exact SessionState.Advanced.refl state

theorem applySessionFence_advanced {limits : Limits} {fence : SourceFenceState} (hinv : fence.Inv limits)
    {record : MeasurementRecord} {ruling : Ruling} {key : SessionKey} {before after : SessionState}
    (hbefore : fence.sessions[key]? = some before)
    (hafter : (applySessionFence limits fence record ruling).1.sessions[key]? = some after) :
    before.Advanced after := by
  by_cases hkey : key = sessionKey record
  · subst hkey
    obtain ⟨ruling', hentered, -⟩ := enterSession_of_some limits ruling hbefore
    simp only [applySessionFence, hentered, Std.ExtTreeMap.getElem?_insert_self, Option.some.injEq] at hafter
    rw [← hafter]
    obtain ⟨revision, hrevised⟩ := reviseSession_state before record ruling'
    refine (reviseSession_advanced before record ruling').trans (fenceSequence_advanced _ _ ?_)
    rw [hrevised]
    exact (hinv.session _ _ hbefore).hasLast
  · rw [applySessionFence_other hkey hafter, Option.some.injEq] at hbefore
    rw [hbefore]
    exact SessionState.Advanced.refl before

/-! ### Runs -/

/-- The fences after the first `n` records of a run of `admit` from empty fences. -/
def fencesAt (policy : RuntimePolicy) (batches : List Batch) (n : Nat) : Fences :=
  ((batches.flatMap (Batch.submissions policy)).take n).foldl (Submission.submit policy) ∅

/-- The stored session of a source. -/
def Fences.session (fences : Fences) (source : SourceId) (key : SessionKey) : Option SessionState :=
  (fences[source]?).bind fun fence => fence.sessions[key]?

/-- Every source of the fences is represented properly. -/
def FencesKept (limits : Limits) (fences : Fences) : Prop :=
  ∀ (source : SourceId) (fence : SourceFenceState), fences[source]? = some fence →
    fence.Kept limits.maxSessionsPerSource

/-- The limits with room for one session at least. -/
def withSession (limits : Limits) : Limits :=
  { limits with maxSessionsPerSource := max limits.maxSessionsPerSource 1 }

theorem submit_kept (policy : RuntimePolicy) (fences : Fences) (x : Submission)
    (h : FencesKept (withSession policy.limits) fences) :
    FencesKept (withSession policy.limits) (x.submit policy fences) := by
  rcases submit_cases policy fences x with ⟨-, -, hsame⟩ | ⟨path, descriptor, ruling, -, hinsert⟩
  · rw [hsame]
    exact h
  · intro source fence hfound
    rw [hinsert, Std.ExtTreeMap.getElem?_insert] at hfound
    split_ifs at hfound
    · cases hfound
      apply applySessionFence_kept
      cases hbefore : fences[x.record.source]? with
      | none =>
        right
        simp [IngestGate.fenceOf, Submission.gate, hbefore]
      | some old =>
        left
        rw [@fenceOf_of_some (x.gate policy fences) _ _ hbefore]
        exact h _ _ hbefore
    · exact h source fence hfound

theorem submit_advanced {policy : RuntimePolicy} {fences : Fences} {x : Submission} {source : SourceId}
    {key : SessionKey} {before after : SessionState} (hinv : FencesInv policy.limits fences)
    (hbefore : fences.session source key = some before)
    (hafter : (x.submit policy fences).session source key = some after) : before.Advanced after := by
  rw [Fences.session, Option.bind_eq_some_iff] at hbefore hafter
  obtain ⟨fence, hfence, hstored⟩ := hbefore
  obtain ⟨fence', hfence', hstored'⟩ := hafter
  by_cases hsource : x.record.source = source
  · subst hsource
    rcases submit_cases policy fences x with ⟨-, -, hsame⟩ | ⟨path, descriptor, ruling, -, hinsert⟩
    · rw [hsame, hfence, Option.some.injEq] at hfence'
      rw [← hfence', hstored, Option.some.injEq] at hstored'
      rw [hstored']
      exact SessionState.Advanced.refl after
    · rw [hinsert, Std.ExtTreeMap.getElem?_insert_self, Option.some.injEq,
        @fenceOf_of_some (x.gate policy fences) _ _ hfence] at hfence'
      rw [← hfence'] at hstored'
      exact applySessionFence_advanced (hinv _ _ hfence) hstored hstored'
  · rw [submit_other_source hsource, hfence, Option.some.injEq] at hfence'
    rw [← hfence', hstored, Option.some.injEq] at hstored'
    rw [hstored']
    exact SessionState.Advanced.refl after

theorem fencesAt_succ (policy : RuntimePolicy) (batches : List Batch) (n : Nat) :
    fencesAt policy batches (n + 1) = fencesAt policy batches n ∨
      ∃ x : Submission, fencesAt policy batches (n + 1) = x.submit policy (fencesAt policy batches n) := by
  unfold fencesAt
  rw [List.take_add_one]
  cases (batches.flatMap (Batch.submissions policy))[n]? with
  | none => exact Or.inl (by simp)
  | some x => exact Or.inr ⟨x, by simp⟩

theorem fencesAt_inv (policy : RuntimePolicy) (batches : List Batch) (n : Nat) :
    FencesInv policy.limits (fencesAt policy batches n) :=
  Lib.foldl_inv (submit_inv policy) (fencesInv_empty _) _

theorem fencesKept_empty (limits : Limits) : FencesKept limits ∅ := by
  intro source fence h
  simp at h

theorem fencesAt_kept (policy : RuntimePolicy) (batches : List Batch) (n : Nat) :
    FencesKept (withSession policy.limits) (fencesAt policy batches n) :=
  Lib.foldl_inv (submit_kept policy) (fencesKept_empty _) _

/-- **The representation invariant.** Under a valid policy, every fence state a run reaches is represented
properly, and a session that stays stored between two states never moves back. -/
theorem fences_represented {policy : RuntimePolicy} (hpolicy : policy.validate = .ok ()) (batches : List Batch)
    (n : Nat) :
    (∀ (source : SourceId) (fence : SourceFenceState), (fencesAt policy batches n)[source]? = some fence →
      fence.Represented policy.limits) ∧
    ∀ (m : Nat) (source : SourceId) (key : SessionKey) (before after : SessionState), n ≤ m →
      (∀ k, n ≤ k → k ≤ m → Stores (fencesAt policy batches k) source key) →
      (fencesAt policy batches n).session source key = some before →
      (fencesAt policy batches m).session source key = some after → before.Advanced after := by
  constructor
  · intro source fence hfence
    obtain ⟨hordered, hsize⟩ := fencesAt_kept policy batches n source fence hfence
    have hlimit := (policy.validate_sessions hpolicy).2
    refine ⟨?_, hordered, hsize.trans_eq (Nat.max_eq_left hlimit)⟩
    intro key state hstate
    have hstateInv := (fencesAt_inv policy batches n source fence hfence).session key state hstate
    exact ⟨hstateInv, hstateInv.size_le⟩
  · intro m source key before after hnm hstored hbefore
    -- Induction on the later state; the session is stored at each state between.
    induction m, hnm using Nat.le_induction generalizing after with
    | base =>
      intro hafter
      rw [hbefore, Option.some.injEq] at hafter
      rw [hafter]
      exact SessionState.Advanced.refl after
    | succ m hnm ih =>
      intro hafter
      obtain ⟨fence, state, hfence, hstate⟩ := hstored m hnm (Nat.le_succ m)
      have hbetween : (fencesAt policy batches m).session source key = some state := by
        rw [Fences.session, hfence]
        exact hstate
      have hfirst := ih state (fun k hnk hkm => hstored k hnk (Nat.le_succ_of_le hkm)) hbetween
      rcases fencesAt_succ policy batches m with hsame | ⟨x, hnext⟩
      · rw [hsame, hbetween, Option.some.injEq] at hafter
        rw [← hafter]
        exact hfirst
      · rw [hnext] at hafter
        exact hfirst.trans (submit_advanced (fencesAt_inv policy batches m) hbetween hafter)

/-- After the three records of the alternation, under the policy that keeps one session. -/
theorem alternation_represented :
    ∃ fence, (fencesAt oneSessionPolicy alternation 3)[(sampleRecord 1 1).source]? = some fence ∧
      fence.evictedSessions = 2 ∧ fence.Represented oneSessionPolicy.limits := by
  have hfound : ((fencesAt oneSessionPolicy alternation 3)[(sampleRecord 1 1).source]?).map
      SourceFenceState.evictedSessions = some 2 := by
    decide +kernel
  obtain ⟨fence, hfence, hevicted⟩ := Option.map_eq_some_iff.mp hfound
  exact ⟨fence, hfence, hevicted, (fences_represented (by decide) alternation 3).1 _ fence hfence⟩

end LatencyObservatory.Ingest
