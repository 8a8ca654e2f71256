import LatencyObservatory.Ingest.Sessions
import Mathlib.Data.Prod.Lex

/-!
# Every record that reaches a fence is counted

A record either meets no fence at all, or it opens a session or adds to the counters of one. Ordinals and
counters never go back, so a run leaves the fences as they were only if no record of it met one.
-/

namespace LatencyObservatory.Ingest

open LatencyObservatory.Core LatencyObservatory.Model

/-- The number of verdicts a session has counted. -/
def SessionState.counted (state : SessionState) : Nat :=
  state.acceptedCurrent + state.acceptedHistorical + state.rejected

/-- What a source has counted for a session; opening a session counts first. -/
def SourceFenceState.level (fence : SourceFenceState) (key : SessionKey) : Nat ×ₗ Nat :=
  toLex (fence.nextOrdinal, match fence.sessions[key]? with
    | some state => state.counted + 1
    | none => 0)

def fenceLevel (fences : Fences) (source : SourceId) (key : SessionKey) : Nat ×ₗ Nat :=
  match fences[source]? with
  | some fence => fence.level key
  | none => toLex (0, 0)

theorem fenceSequence_counted (limits : Limits) (state : SessionState) (sequence : Sequence) (ruling : Ruling) :
    (fenceSequence limits state sequence ruling).1.counted = state.counted + 1 := by
  have hplaced : (placeSequence state sequence ruling).1.counted = state.counted := by
    unfold placeSequence
    split_ifs <;> rfl
  have hcount : ∀ (s : SessionState) v, (s.count v).counted = s.counted + 1 := by
    intro s v
    cases v <;> simp [SessionState.count, SessionState.counted] <;> omega
  unfold fenceSequence
  split_ifs
  · simp [SessionState.counted]
    omega
  · rw [hcount, SessionState.remember_eq]
    exact congrArg (· + 1) hplaced

theorem applySessionFence_level (limits : Limits) (fence : SourceFenceState) (record : MeasurementRecord)
    (ruling : Ruling) :
    (∀ key, fence.level key ≤ (applySessionFence limits fence record ruling).1.level key) ∧
      fence.level (sessionKey record) < (applySessionFence limits fence record ruling).1.level (sessionKey record) := by
  rcases enterSession_spec limits fence record ruling with
    ⟨ruling', state, hstate, hentered⟩ | ⟨ruling', kept, -, hentered, hnext, -, -⟩
  · obtain ⟨revision, hrevised⟩ := reviseSession_state state record ruling'
    have hown : fence.level (sessionKey record) <
        (applySessionFence limits fence record ruling).1.level (sessionKey record) := by
      have hbefore : fence.sessions[sessionKey record]? = some state := hstate
      unfold SourceFenceState.level
      rw [hbefore, Prod.Lex.toLex_lt_toLex]
      right
      simp only [applySessionFence, hentered, Std.ExtTreeMap.getElem?_insert_self, fenceSequence_counted, hrevised]
      refine ⟨trivial, ?_⟩
      show state.counted + 1 < state.counted + 1 + 1
      omega
    refine ⟨?_, hown⟩
    intro key
    by_cases hkey : key = sessionKey record
    · rw [hkey]
      exact hown.le
    · apply le_of_eq
      unfold SourceFenceState.level
      simp only [applySessionFence, hentered]
      rw [Std.ExtTreeMap.getElem?_insert, if_neg]
      rw [Std.LawfulEqOrd.compare_eq_iff_eq]
      exact fun h => hkey h.symm
  · -- A new session takes the next ordinal, whatever it evicts.
    have hopened : ∀ key, fence.level key < (applySessionFence limits fence record ruling).1.level key := by
      intro key
      unfold SourceFenceState.level
      rw [Prod.Lex.toLex_lt_toLex]
      left
      simp only [applySessionFence, hentered, hnext]
      omega
    exact ⟨fun key => (hopened key).le, hopened _⟩

section Submissions

variable {policy : RuntimePolicy}

theorem fenceLevel_le_fenceOf (gate : IngestGate) (source : SourceId) (key : SessionKey) :
    fenceLevel gate.fences source key ≤ (gate.fenceOf source).level key := by
  unfold fenceLevel IngestGate.fenceOf
  cases gate.fences[source]? with
  | some fence => exact le_refl _
  | none =>
    rw [SourceFenceState.level, Prod.Lex.toLex_le_toLex]
    left
    exact Nat.zero_lt_one

theorem submit_level (fences : Fences) (x : Submission) :
    (∀ source key, fenceLevel fences source key ≤ fenceLevel (x.submit policy fences) source key) ∧
      ((x.gate policy fences).admissible x.record ≠ none →
        fenceLevel fences x.record.source (sessionKey x.record) <
          fenceLevel (x.submit policy fences) x.record.source (sessionKey x.record)) := by
  rcases submit_cases policy fences x with ⟨hnone, -, hsame⟩ | ⟨path, source, ruling, -, hinsert⟩
  · rw [hsame]
    exact ⟨fun _ _ => le_refl _, fun h => absurd hnone h⟩
  · obtain ⟨hall, hown⟩ := applySessionFence_level policy.limits ((x.gate policy fences).fenceOf x.record.source)
      x.record ruling
    have hbefore := fenceLevel_le_fenceOf (x.gate policy fences) x.record.source
    have hafter : ∀ key, fenceLevel (x.submit policy fences) x.record.source key =
        (applySessionFence policy.limits ((x.gate policy fences).fenceOf x.record.source) x.record ruling).1.level
          key := by
      intro key
      unfold fenceLevel
      rw [hinsert, Std.ExtTreeMap.getElem?_insert_self]
    constructor
    · intro source key
      by_cases hsource : x.record.source = source
      · subst hsource
        rw [hafter]
        exact (hbefore key).trans (hall key)
      · apply le_of_eq
        unfold fenceLevel
        rw [submit_other_source hsource]
    · intro _
      rw [hafter]
      exact (hbefore _).trans_lt hown

theorem foldl_submit_level (fences : Fences) (xs : List Submission) (source : SourceId) (key : SessionKey) :
    fenceLevel fences source key ≤ fenceLevel (xs.foldl (Submission.submit policy) fences) source key := by
  induction xs generalizing fences with
  | nil => exact le_refl _
  | cons x xs ih => exact ((submit_level fences x).1 source key).trans (ih _)

/-- **Fences stay as they are exactly if no record reaches them.** -/
theorem foldl_submit_eq_iff (fences : Fences) (xs : List Submission) :
    xs.foldl (Submission.submit policy) fences = fences ↔
      ∀ x ∈ xs, (x.gate policy fences).admissible x.record = none := by
  constructor
  · intro hsame x hx
    by_contra hadmissible
    obtain ⟨before, after, rfl⟩ := List.append_of_mem hx
    rw [List.foldl_append, List.foldl_cons] at hsame
    have hbefore := @foldl_submit_level policy fences before x.record.source (sessionKey x.record)
    have hstrict := (@submit_level policy (before.foldl (Submission.submit policy) fences) x).2 hadmissible
    have hafter := @foldl_submit_level policy
      (x.submit policy (before.foldl (Submission.submit policy) fences)) after x.record.source (sessionKey x.record)
    rw [hsame] at hafter
    exact absurd (hbefore.trans_lt (hstrict.trans_le hafter)) (lt_irrefl _)
  · intro hnone
    induction xs with
    | nil => rfl
    | cons x xs ih =>
      have hsubmit : x.submit policy fences = fences :=
        ((x.gate policy fences).classify_of_not_admissible x.record x.now (hnone x List.mem_cons_self)).2
      rw [List.foldl_cons, hsubmit]
      exact ih fun other hother => hnone other (List.mem_cons_of_mem _ hother)

theorem accepted_eq_nil {fences : Fences} {run : List (Fences × Submission)} {verdict : AdmitVerdict}
    (hverdict : verdict ≠ .rejected) (h : ∀ p ∈ run, (p.2.gate policy fences).admissible p.2.record = none) :
    accepted policy verdict run = [] := by
  unfold accepted
  rw [List.map_eq_nil_iff, List.filter_eq_nil_iff]
  intro p hp
  have hadmissible : (p.2.gate policy p.1).admissible p.2.record = none := h p hp
  have hrejected : p.2.verdict policy p.1 = .rejected :=
    ((p.2.gate policy p.1).classify_of_not_admissible p.2.record p.2.now hadmissible).1
  rw [hrejected]
  simpa using hverdict.symm

end Submissions

end LatencyObservatory.Ingest
