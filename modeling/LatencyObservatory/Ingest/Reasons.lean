import LatencyObservatory.Core.Merge
import LatencyObservatory.Ingest.Acceptance
import LatencyObservatory.Ingest.Representation

/-!
# How many reasons the gate gives

The evidence of an accepted record and of its hops is built up by the gate from nothing. Every check adds a reason or
two, the clock comparisons bring three at most and a new session evicts two at most, so that far fewer reasons come
together than evidence can keep, and none is ever left out.
-/

namespace LatencyObservatory.Core

namespace Evidence

/-- At most `n` reasons, and none left out. -/
def Within (n : Nat) (e : Evidence) : Prop :=
  e.reasons.length ≤ n ∧ e.reasonsTruncated = false

section Within

variable {e left right : Evidence} {m n : Nat}

theorem Within.mono (h : e.Within m) (hmn : m ≤ n) : e.Within n :=
  ⟨h.1.trans hmn, h.2⟩

theorem ofState_within (state : EvidenceState) (freshness : Freshness) (confidence : Confidence) :
    (ofState state freshness confidence).Within 0 :=
  ⟨Nat.le_refl 0, rfl⟩

theorem default_within : (default : Evidence).Within 0 :=
  ofState_within _ _ _

theorem Within.setState (h : e.Within n) (state : EvidenceState) : (e.setState state).Within n := h

theorem Within.setFreshness (h : e.Within n) (freshness : Freshness) : (e.setFreshness freshness).Within n := h

theorem Within.setConfidence (h : e.Within n) (confidence : Confidence) : (e.setConfidence confidence).Within n := h

theorem Within.addReason (h : e.Within n) (hroom : n < maxReasons) (code : ReasonCode) (detail : Bytes) :
    (e.addReason code detail).Within (n + 1) := by
  obtain ⟨hlength, hflag⟩ := h
  have hfits : e.noted.1.length + [(⟨code, detail⟩ : Reason)].length ≤ maxReasons := by
    show e.reasons.length + 1 ≤ maxReasons
    omega
  have hadd := Lib.addAll_within hfits
  have hnoted := addReason_noted e code detail
  show (e.addReason code detail).noted.1.length ≤ n + 1 ∧ (e.addReason code detail).noted.2 = false
  rw [hnoted]
  exact ⟨hadd.1.trans (Nat.succ_le_succ hlength), hadd.2.trans hflag⟩

theorem Within.merge (h : left.Within m) (h' : right.Within n) (hfits : m + n ≤ maxReasons) :
    (merge left right).Within (m + n) := by
  obtain ⟨hleft, hflag⟩ := h
  obtain ⟨hright, hflag'⟩ := h'
  have hadd := @Lib.addAll_within _ _ maxReasons (left.reasons, false) right.reasons
    (show left.reasons.length + right.reasons.length ≤ maxReasons by omega)
  have hnoted := merge_noted left right
  show (Evidence.merge left right).noted.1.length ≤ m + n ∧ (Evidence.merge left right).noted.2 = false
  rw [hnoted]
  constructor
  · rw [List.length_insertionSort]
    exact hadd.1.trans (Nat.add_le_add hleft hright)
  · rw [hflag, hflag', hadd.2]
    rfl

end Within

theorem addReason_within {e : Evidence} (h : e.Within 0) (code : ReasonCode) (detail : Bytes) :
    (e.addReason code detail).Within 1 :=
  h.addReason (by decide) code detail

end Evidence

end LatencyObservatory.Core

namespace LatencyObservatory.Ingest

open LatencyObservatory.Core LatencyObservatory.Model Evidence

/-! ### Clocks -/

theorem incomparable_within (state : EvidenceState) (code : ReasonCode) (detail : Bytes) :
    (incomparable state code detail).evidence.Within 2 :=
  (addReason_within (default_within.setState state) code detail).addReason (by decide) _ _

/-- Every comparison that comes out has at most `n` reasons. -/
def Names (n : Nat) (result : Except Error ClockComparability) : Prop :=
  ∀ c, result = .ok c → c.evidence.Within n

theorem names_ok {n : Nat} {c : ClockComparability} (h : c.evidence.Within n) : Names n (.ok c) := by
  intro c' hc'
  cases hc'
  exact h

theorem Names.ite {n : Nat} {condition : Prop} [Decidable condition] {yes no : Except Error ClockComparability}
    (hyes : Names n yes) (hno : Names n no) : Names n (if condition then yes else no) := by
  split_ifs
  · exact hyes
  · exact hno

section Clocks

variable (r : ClockRegistry) (a b : ClockDomainId) (now : Timestamp) (generation : GenerationId) (epoch : EpochId)
  (incarnation : IncarnationId)

theorem incomparable_names (state : EvidenceState) (code : ReasonCode) (detail : Bytes) :
    Names 2 (.ok (incomparable state code detail)) :=
  names_ok (incomparable_within state code detail)

theorem compareSingle_names : Names 2 (r.compareSingle a now generation epoch incarnation) := by
  unfold ClockRegistry.compareSingle
  split
  · exact incomparable_names _ _ _
  split
  · exact incomparable_names _ _ _
  extract_lets name policy age aging confidence noted
  have hnoted : noted.Within 2 := by
    have hone : ∀ code, ((default : Evidence).addReason code name).Within 2 :=
      fun code => (addReason_within default_within code name).mono (by decide)
    subst noted
    split_ifs
    · exact hone _
    · exact hone _
    · exact default_within.mono (by decide)
  refine .ite (incomparable_names _ _ _) (.ite (incomparable_names _ _ _) (.ite (incomparable_names _ _ _)
    (.ite (incomparable_names _ _ _) (.ite (incomparable_names _ _ _) (.ite (incomparable_names _ _ _)
      (.ite (incomparable_names _ _ _) (.ite (incomparable_names _ _ _) (.ite (incomparable_names _ _ _) ?_))))))))
  exact names_ok (((hnoted.setState _).setFreshness _).setConfidence _)

theorem compareReference_names : Names 3 (r.compareReference a b now generation epoch incarnation) := by
  have hmono : ∀ {result}, Names 2 result → Names 3 result := fun h c hc => (h c hc).mono (by decide)
  unfold ClockRegistry.compareReference
  extract_lets remote mismatch
  have hsingle := compareSingle_names r remote now generation epoch incarnation
  split
  · intro c hc
    cases hc
  · rename_i single hfound
    have hone := hsingle single hfound
    refine .ite (hmono (names_ok hone)) ?_
    split
    · exact hmono (incomparable_names _ _ _)
    · refine .ite (hmono (incomparable_names _ _ _)) (.ite ?_ ?_)
      · exact hmono (names_ok (incomparable_within _ _ _))
      · exact names_ok (hone.addReason (by decide) _ _)

theorem compareRemote_names : Names 5 (r.compareRemote a b now generation epoch incarnation) := by
  have hmono : ∀ {result}, Names 2 result → Names 5 result := fun h c hc => (h c hc).mono (by decide)
  have hleft := compareSingle_names r a now generation epoch incarnation
  have hright := compareSingle_names r b now generation epoch incarnation
  unfold ClockRegistry.compareRemote
  split
  · intro c hc
    cases hc
  · rename_i left hfound
    have hleft := hleft left hfound
    refine .ite (hmono (names_ok hleft)) ?_
    split
    · intro c hc
      cases hc
    · rename_i right hother
      have hright := hright right hother
      refine .ite (hmono (names_ok hright)) ?_
      split
      · extract_lets combined
        refine .ite (hmono (incomparable_names _ _ _)) (.ite (hmono (incomparable_names _ _ _))
          (.ite (hmono (incomparable_names _ _ _)) (.ite ?_ ?_)))
        · exact hmono (names_ok (incomparable_within _ _ _))
        · exact names_ok ((hleft.merge hright (by decide)).addReason (by decide) _ _)
      · exact hmono (names_ok hleft)

theorem compare_names : Names 5 (r.compare a b now generation epoch incarnation) := by
  unfold ClockRegistry.compare
  refine .ite ?_ (.ite ?_ (.ite ?_ ?_))
  · exact names_ok ((incomparable_within _ _ _).mono (by decide))
  · exact names_ok ((addReason_within (ofState_within _ _ _) _ _).mono (by decide))
  · exact fun c hc => (compareReference_names r a b now generation epoch incarnation c hc).mono (by decide)
  · exact compareRemote_names r a b now generation epoch incarnation

theorem estimateAge_within (observed : Timestamp) : (r.estimateAge observed now).evidence.Within 2 := by
  have hone : ∀ {state freshness confidence} code detail,
      ((ofState state freshness confidence).addReason code detail).Within 2 :=
    fun code detail => (addReason_within (ofState_within _ _ _) code detail).mono (by decide)
  unfold ClockRegistry.estimateAge
  by_cases hmissing : (!observed.valid || !now.valid) = true
  · rw [if_pos hmissing]
    exact hone _ _
  rw [if_neg hmissing]
  by_cases hsame : observed.domain = now.domain
  · rw [if_pos hsame]
    exact (addReason_within ((default_within.setState _).setConfidence _) _ _).mono (by decide)
  rw [if_neg hsame]
  split
  · exact hone _ _
  · rename_i report _
    by_cases hreference : (!report.reference.valid) = true
    · rw [if_pos hreference]
      exact hone _ _
    rw [if_neg hreference]
    by_cases hother : report.reference ≠ now.domain
    · rw [if_pos hother]
      exact hone _ _
    rw [if_neg hother]
    by_cases hunsynced : report.state = .unknown ∨ report.state = .unsynced
    · rw [if_pos hunsynced]
      exact hone _ _
    rw [if_neg hunsynced]
    extract_lets reportAge base dated
    by_cases hexpired : reportAge < 0 ∨ reportAge > report.validForNs
    · rw [if_pos hexpired]
      exact hone _ _
    rw [if_neg hexpired]
    have hdated : dated.Within 1 :=
      addReason_within (((default_within.setState _).setConfidence _).setFreshness _) _ _
    show (if report.state = .holdover then dated.addReason .clockHoldover observed.domain.toHex else dated).Within 2
    split_ifs
    · exact hdated.addReason (by decide) _ _
    · exact hdated.mono (by decide)

end Clocks

/-! ### Hops -/

section Hops

variable (catalog : Catalog) (clocks : ClockRegistry) (record : MeasurementRecord)

theorem hopEvidence_within (hop : HopObservation) : (hopEvidence catalog hop).Within 1 := by
  have hnone := ofState_within .observed .fresh .high
  have hone : ∀ code detail, (Evidence.unsupported code detail).Within 1 :=
    fun code detail => addReason_within (ofState_within _ _ _) code detail
  unfold hopEvidence
  extract_lets initial
  split
  · exact hnone.merge (hone _ _) (by decide)
  · split_ifs
    · exact hnone.merge (hone _ _) (by decide)
    · exact hnone.mono (by decide)

theorem deriveDwell_within {entry exit : Timestamp} {detail : Bytes} {evidence : Evidence} {n : Nat}
    (h : evidence.Within n) (hfits : n + 5 ≤ maxReasons) :
    (deriveDwell clocks record entry exit detail evidence).2.Within (n + 5) := by
  have hmerge : ∀ {other : Evidence} {k : Nat}, other.Within k → k ≤ 5 → (evidence.merge other).Within (n + 5) :=
    fun hother hk => (h.merge hother (by omega)).mono (by omega)
  have hone : ∀ {state freshness confidence} code detail,
      ((ofState state freshness confidence).addReason code detail).Within 1 :=
    fun code detail => addReason_within (ofState_within _ _ _) code detail
  unfold deriveDwell
  split
  · split
    · exact hmerge (hone _ _) (by decide)
    · exact h.mono (Nat.le_add_right _ _)
  · split
    · exact hmerge (hone _ _) (by decide)
    · rename_i comparability hcompare
      have hnamed := compare_names clocks _ _ _ _ _ _ comparability hcompare
      split
      · exact hmerge hnamed (Nat.le_refl 5)
      · dsimp only
        split
        · exact hmerge (hone _ _) (by decide)
        · exact hmerge hnamed (Nat.le_refl 5)

theorem deriveHopDwell_within {hop : HopObservation} (h : hop.evidence.Within 1) :
    (deriveHopDwell clocks record hop).1.evidence.Within 6 := by
  have hdwell := @deriveDwell_within clocks record hop.entry hop.exit hop.hop.toHex _ _ h (by decide)
  unfold deriveHopDwell
  split
  · rename_i hfound
    rw [hfound] at hdwell
    exact hdwell
  · rename_i hfound
    rw [hfound] at hdwell
    exact hdwell

theorem deriveQueueDwell_within (definition : HopDef) {hop : HopObservation} (h : hop.evidence.Within 6) :
    (deriveQueueDwell catalog clocks record definition hop).1.evidence.Within 11 := by
  have hdrop : ∀ code detail, (dropQueueDwell hop (.unsupported code detail)).1.evidence.Within 11 :=
    fun code detail => (h.merge (addReason_within (ofState_within _ _ _) code detail) (by decide)).mono (by decide)
  unfold deriveQueueDwell
  split
  · split
    · exact hdrop _ _
    · split
      · exact hdrop _ _
      · rename_i queue _
        split
        · exact hdrop _ _
        · split
          · exact hdrop _ _
          · have hdwell := @deriveDwell_within clocks record hop.queueEntry hop.queueExit queue.name.str _ _ h (by decide)
            split
            · rename_i hfound
              rw [hfound] at hdwell
              exact hdwell
            · rename_i hfound
              rw [hfound] at hdwell
              exact hdwell
  · split
    · exact hdrop _ _
    · exact h.mono (by decide)

theorem storedHop_within (evidence : Evidence) (hop : HopObservation) :
    (storedHop catalog clocks record evidence hop).evidence.Within 11 := by
  have hhop := hopEvidence_within catalog hop
  have hdated : (inheritFreshness evidence { hop with evidence := hopEvidence catalog hop }).evidence.Within 1 := by
    unfold inheritFreshness
    split_ifs
    · exact (hhop.setFreshness _).setConfidence _
    · exact hhop
  unfold storedHop deriveHop
  split
  · exact hdated.mono (by decide)
  · exact deriveQueueDwell_within catalog clocks record _ (deriveHopDwell_within clocks record hdated)

end Hops

/-! ### Records -/

theorem dated_within {gate : IngestGate} {path : PathDef} {record : MeasurementRecord}
    (h : (gate.draft path record).fatal = false) (now : Timestamp) : (gate.dated path record now).Within 3 := by
  have hage := estimateAge_within gate.clocks now record.stamp.observedAt
  unfold IngestGate.dated dateEvidence
  rw [IngestGate.draft_of_not_fatal h]
  have hmerged := (ofState_within .observed .unknown .high).merge hage (by decide)
  split
  · exact (hmerged.setFreshness _).addReason (by decide) _ _
  · exact (hmerged.setFreshness _).addReason (by decide) _ _

section Fences

variable {ruling : Ruling} {n : Nat}

theorem fenceGeneration_within (gate : IngestGate) (path : PathDef) (record : MeasurementRecord)
    (h : ruling.evidence.Within n) (hfits : n + 2 ≤ maxReasons) :
    (gate.fenceGeneration path record ruling).evidence.Within (n + 2) := by
  unfold IngestGate.fenceGeneration
  split_ifs
  · exact (h.addReason (by omega) _ _).addReason (by omega) _ _
  · exact (h.addReason (by omega) _ _).mono (Nat.le_succ _)
  · exact (h.addReason (by omega) _ _).mono (Nat.le_succ _)
  · exact h.mono (Nat.le_add_right _ _)

theorem evictSessions_within (limit fuel : Nat) {fence : SourceFenceState} {k : Nat} (h : ruling.evidence.Within n)
    (hsize : fence.sessions.size ≤ limit + k) (hfits : n + k ≤ maxReasons) :
    (evictSessions limit fuel fence ruling).2.evidence.Within (n + k) := by
  induction fuel generalizing fence ruling n k with
  | zero => exact h.mono (Nat.le_add_right _ _)
  | succ fuel ih =>
    rw [evictSessions]
    split
    · rename_i hlarge
      cases holdest : oldestOther fence.currentOrdinal fence.sessions.toList with
      | none => exact h.mono (Nat.le_add_right _ _)
      | some oldest =>
        obtain ⟨hmem, -⟩ := oldestOther_some holdest
        have hstored : fence.sessions[oldest.1]? = some oldest.2 :=
          Std.ExtTreeMap.mem_toList_iff_getElem?_eq_some.mp hmem
        have herased := size_erase_of_stored hstored
        have hnoted := h.addReason (by omega) .sessionEvicted oldest.1.1.toHex
        have hrest : (fence.sessions.erase oldest.1).size ≤ limit + (k - 1) := by omega
        rw [show n + k = n + 1 + (k - 1) by omega]
        exact @ih _ _ _ (k - 1) hnoted hrest (by omega)
    · exact h.mono (Nat.le_add_right _ _)

theorem enterSession_within {limits : Limits} {fence : SourceFenceState} (record : MeasurementRecord)
    (hkept : fence.sessions.size ≤ max limits.maxSessionsPerSource 1) (h : ruling.evidence.Within n)
    (hfits : n + 3 ≤ maxReasons) : (enterSession limits fence record ruling).2.2.evidence.Within (n + 3) := by
  unfold enterSession
  split
  · unfold openSession
    dsimp only
    refine @evictSessions_within _ (n + 1) _ _ _ 2 ?_ ?_ (by omega)
    · split_ifs
      · exact h.addReason (by omega) _ _
      · exact h.addReason (by omega) _ _
      · exact h.mono (Nat.le_succ _)
    · have hinserted := @Std.ExtTreeMap.size_insert_le _ _ _ fence.sessions _ (sessionKey record)
        ({ ordinal := fence.nextOrdinal, sourceRevision := record.sourceRevision } : SessionState)
      dsimp only
      omega
  · split_ifs
    · exact (h.addReason (by omega) _ _).mono (by omega)
    · exact (h.addReason (by omega) _ _).mono (by omega)
    · exact h.mono (Nat.le_add_right _ _)

theorem reviseSession_within (state : SessionState) (record : MeasurementRecord) (h : ruling.evidence.Within n)
    (hfits : n + 1 ≤ maxReasons) : (reviseSession state record ruling).2.evidence.Within (n + 1) := by
  unfold reviseSession
  dsimp only
  have hruling : ∀ {first second : Bool},
      (if first = true then if second = true then ruling.note .revisionChanged (text "session revision advanced")
        else ruling.historical .revisionChanged (text "session revision moved backwards")
      else ruling).evidence.Within (n + 1) := by
    intro first second
    split_ifs
    · exact h.addReason hfits _ _
    · exact h.addReason hfits _ _
    · exact h.mono (Nat.le_succ _)
  split
  · exact hruling
  · exact hruling

theorem fenceSequence_within (limits : Limits) (state : SessionState) (sequence : Sequence)
    (h : ruling.evidence.Within n) (hfits : n + 1 ≤ maxReasons) :
    (fenceSequence limits state sequence ruling).2.1.evidence.Within (n + 1) := by
  unfold fenceSequence
  split
  · exact ((h.setState _).setFreshness _).addReason hfits _ _
  · show (placeSequence state sequence ruling).2.1.evidence.Within (n + 1)
    unfold placeSequence
    split
    · exact h.mono (Nat.le_succ _)
    · split
      · dsimp only
        split_ifs
        · exact h.addReason hfits _ _
        · exact h.mono (Nat.le_succ _)
      · exact h.addReason hfits _ _

theorem applySessionFence_within {limits : Limits} {fence : SourceFenceState} (record : MeasurementRecord)
    (hkept : fence.sessions.size ≤ max limits.maxSessionsPerSource 1) (h : ruling.evidence.Within n)
    (hfits : n + 5 ≤ maxReasons) : (applySessionFence limits fence record ruling).2.1.evidence.Within (n + 5) := by
  have hentered := enterSession_within record hkept h (by omega)
  have hrevised := reviseSession_within (enterSession limits fence record ruling).2.1 record hentered (by omega)
  exact fenceSequence_within limits _ record.sequence hrevised (by omega)

theorem fenceRevision_within (source : SourceDescriptor) (record : MeasurementRecord) (h : ruling.evidence.Within n)
    (hfits : n + 1 ≤ maxReasons) : (IngestGate.fenceRevision source record ruling).evidence.Within (n + 1) := by
  unfold IngestGate.fenceRevision
  split_ifs
  · exact (h.setState _).addReason hfits _ _
  · exact h.addReason hfits _ _
  · exact h.mono (Nat.le_succ _)

theorem fenceUsable_evidence : (IngestGate.fenceUsable ruling).evidence = ruling.evidence := by
  unfold IngestGate.fenceUsable
  split_ifs <;> rfl

end Fences

theorem stored_within {policy : RuntimePolicy} {fences : Fences} {x : Submission}
    (hkept : FencesKept (withSession policy.limits) fences) (h : x.verdict policy fences ≠ .rejected) :
    (x.stored policy fences).evidence.Within 11 := by
  obtain ⟨path, source, -, hadmissible, -, hsound, -⟩ := stored_hops h
  obtain ⟨hruling, -⟩ := (x.gate policy fences).classify_of_admissible x.record x.now hadmissible
  have hsize : ((x.gate policy fences).fenceOf x.record.source).sessions.size ≤
      max policy.limits.maxSessionsPerSource 1 := by
    cases hfound : fences[x.record.source]? with
    | none =>
      rw [show (x.gate policy fences).fenceOf x.record.source = {} by
        simp [IngestGate.fenceOf, Submission.gate, hfound]]
      exact Nat.zero_le _
    | some fence =>
      rw [@fenceOf_of_some (x.gate policy fences) _ _ hfound]
      exact (hkept _ _ hfound).2
  show ((x.gate policy fences).classify x.record x.now).ruling.evidence.Within 11
  rw [hruling]
  unfold IngestGate.applyFences
  dsimp only
  rw [fenceUsable_evidence]
  have hgeneration := @fenceGeneration_within ⟨.acceptedCurrent, _⟩ _ (x.gate policy fences) path x.record
    (dated_within hsound x.now) (by decide)
  exact fenceRevision_within source x.record (applySessionFence_within x.record hsize hgeneration (by decide)) (by decide)

end LatencyObservatory.Ingest
