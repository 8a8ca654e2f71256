import LatencyObservatory.Ingest.Codec
import LatencyObservatory.Ingest.Representation
import LatencyObservatory.Lib.Tables
import LatencyObservatory.Model.CodecTrees

/-!
# Restored fences

The text of a fence state lists the sessions and, of each, the remembered sequences in the order of their arrival. The
set of them is filled again from that list, and an invalid source revision is refused. Both are harmless for what a
run of the gate reaches: its sets mirror their lists, and a session is only ever opened by a record with a valid
revision. A gate whose fences were restored is therefore the gate that wrote them.
-/

namespace LatencyObservatory.Ingest

open LatencyObservatory.Core LatencyObservatory.Model JsonValue

/-! ### Trees -/

def sessionJson (entry : SessionKey × SessionState) : JsonValue :=
  .object [(text "epoch", .string entry.1.1.toHex),
    (text "incarnation", .string entry.1.2.toHex),
    (text "ordinal", .number entry.2.ordinal),
    (text "source_revision", .number entry.2.sourceRevision.value.toNat),
    (text "has_last_sequence", .bool entry.2.hasLastSequence),
    (text "last_sequence", .number entry.2.lastSequence.toNat),
    (text "accepted_current", .number entry.2.acceptedCurrent),
    (text "accepted_historical", .number entry.2.acceptedHistorical),
    (text "rejected", .number entry.2.rejected),
    (text "recent_sequences", .array (entry.2.recentOrder.map fun sequence => .number sequence.toNat))]

def fenceStateJson (source : SourceId) (state : SourceFenceState) : JsonValue :=
  .object [(text "kind", .string (text "fence_state")),
    (text "source", .string source.toHex),
    (text "next_ordinal", .number state.nextOrdinal),
    (text "current_epoch", .string (optionalHex state.currentEpoch)),
    (text "current_incarnation", .string (optionalHex state.currentIncarnation)),
    (text "current_ordinal", .number state.currentOrdinal),
    (text "evicted_sessions", .number state.evictedSessions),
    (text "seen_revision", .number (if state.currentOrdinal = 0 then 0 else 1 : Nat)),
    (text "sessions", .array (state.sessions.toList.map sessionJson))]

theorem writeSession_eq (w : JsonWriter) (entry : SessionKey × SessionState) :
    writeSession w entry = w.writeValue (sessionJson entry) := by
  have hsequence : ∀ (w : JsonWriter) (sequence : UInt64),
      w.valueUint sequence.toNat = w.writeValue (.number sequence.toNat) := fun w sequence => w.valueUint_eq _
  simp only [writeSession, JsonWriter.fieldUint_eq, JsonWriter.foldl_writes hsequence]
  rfl

theorem writeFenceState_eq (w : JsonWriter) (source : SourceId) (state : SourceFenceState) :
    writeFenceState w source state = w.writeValue (fenceStateJson source state) := by
  simp only [writeFenceState, JsonWriter.fieldUint_eq, JsonWriter.foldl_writes writeSession_eq]
  rfl

/-- The sequences and counters of a session are JSON numbers. -/
structure SessionState.Fits (state : SessionState) : Prop where
  ordinal : state.ordinal < 2 ^ 63
  lastSequence : state.lastSequence.toNat < 2 ^ 63
  recent : ∀ sequence ∈ state.recentOrder, sequence.toNat < 2 ^ 63
  acceptedCurrent : state.acceptedCurrent < 2 ^ 63
  acceptedHistorical : state.acceptedHistorical < 2 ^ 63
  rejected : state.rejected < 2 ^ 63

/-- All sequences and counters of a fence state are JSON numbers. -/
structure SourceFenceState.Fits (fence : SourceFenceState) : Prop where
  nextOrdinal : fence.nextOrdinal < 2 ^ 63
  currentOrdinal : fence.currentOrdinal < 2 ^ 63
  evictedSessions : fence.evictedSessions < 2 ^ 63
  session : ∀ (key : SessionKey) (state : SessionState), fence.sessions[key]? = some state → state.Fits

instance (state : SessionState) : Decidable state.Fits :=
  decidable_of_iff
    ((state.ordinal < 2 ^ 63 ∧ state.lastSequence.toNat < 2 ^ 63) ∧
      (state.recentOrder.all fun sequence => sequence.toNat < 2 ^ 63) = true ∧
      state.acceptedCurrent < 2 ^ 63 ∧ state.acceptedHistorical < 2 ^ 63 ∧ state.rejected < 2 ^ 63)
    (by simp only [List.all_eq_true, decide_eq_true_eq]
        exact ⟨fun h => ⟨h.1.1, h.1.2, h.2.1, h.2.2.1, h.2.2.2.1, h.2.2.2.2⟩,
          fun h => ⟨⟨h.ordinal, h.lastSequence⟩, h.recent, h.acceptedCurrent, h.acceptedHistorical, h.rejected⟩⟩)

instance (fence : SourceFenceState) : Decidable fence.Fits :=
  decidable_of_iff
    ((fence.nextOrdinal < 2 ^ 63 ∧ fence.currentOrdinal < 2 ^ 63 ∧ fence.evictedSessions < 2 ^ 63) ∧
      (fence.sessions.toList.all fun entry => decide entry.2.Fits) = true)
    (by simp only [List.all_eq_true, decide_eq_true_eq]
        constructor
        · rintro ⟨⟨hnext, hcurrent, hevicted⟩, hall⟩
          exact ⟨hnext, hcurrent, hevicted, fun key state hstate =>
            hall (key, state) (Std.ExtTreeMap.mem_toList_iff_getElem?_eq_some.mpr hstate)⟩
        · exact fun h => ⟨⟨h.nextOrdinal, h.currentOrdinal, h.evictedSessions⟩, fun entry hentry =>
            h.session _ _ (Std.ExtTreeMap.mem_toList_iff_getElem?_eq_some.mp hentry)⟩)

theorem sessionJson_wellFormed {entry : SessionKey × SessionState} (h : entry.2.Fits) :
    (sessionJson entry).WellFormed := by
  have hrecent : (JsonValue.array (entry.2.recentOrder.map fun sequence => .number sequence.toNat)).WellFormed := by
    rw [WellFormed, itemsWellFormed_map]
    exact fun sequence hsequence => representable_natCast (h.recent sequence hsequence)
  exact ⟨by simp only [List.map]; decide, trivial, trivial, representable_natCast h.ordinal, representable_uint32 _,
    trivial, representable_natCast h.lastSequence, representable_natCast h.acceptedCurrent,
    representable_natCast h.acceptedHistorical, representable_natCast h.rejected, hrecent, trivial⟩

theorem fenceStateJson_wellFormed (source : SourceId) {fence : SourceFenceState} (h : fence.Fits) :
    (fenceStateJson source fence).WellFormed := by
  have hsessions : (JsonValue.array (fence.sessions.toList.map sessionJson)).WellFormed := by
    rw [WellFormed, itemsWellFormed_map]
    intro entry hentry
    exact sessionJson_wellFormed (h.session _ _ (Std.ExtTreeMap.mem_toList_iff_getElem?_eq_some.mp hentry))
  have hseen : Representable ((if fence.currentOrdinal = 0 then 0 else 1 : Nat) : Int) := by
    apply representable_natCast
    split_ifs <;> decide
  exact ⟨by simp only [List.map]; decide, trivial, trivial, representable_natCast h.nextOrdinal, trivial, trivial,
    representable_natCast h.currentOrdinal, representable_natCast h.evictedSessions, hseen, hsessions, trivial⟩

theorem sessionJson_nesting (entry : SessionKey × SessionState) : (sessionJson entry).nesting ≤ 2 := by
  have hrecent := itemsNesting_map_le (fun sequence (_ : sequence ∈ entry.2.recentOrder) =>
    show (JsonValue.number sequence.toNat).nesting ≤ 0 from Nat.le_refl 0)
  simp only [sessionJson, nesting, membersNesting]
  omega

theorem fenceStateJson_nesting (source : SourceId) (fence : SourceFenceState) :
    (fenceStateJson source fence).nesting ≤ 4 := by
  have hsessions := itemsNesting_map_le (fun entry (_ : entry ∈ fence.sessions.toList) => sessionJson_nesting entry)
  simp only [fenceStateJson, nesting, membersNesting]
  omega

/-! ### Decoding -/

theorem decodeSequences_map (sequences : List UInt64) :
    decodeSequences (sequences.map fun sequence => .number sequence.toNat) = .ok sequences := by
  apply decodeAll_map
  intro sequence _
  have hread : (JsonValue.number sequence.toNat).asUint64 = .ok sequence.toNat := by
    have hsigned : ¬(sequence.toNat : Int) < 0 := by omega
    simp [asUint64, asInt64, bind, Except.bind, hsigned]
  rw [hread]
  exact congrArg Except.ok (UInt64.ofNat_toNat)

/-- A session whose set mirrors its list, opened by a record with a valid revision. -/
structure SessionState.Restorable (state : SessionState) : Prop where
  revision : state.sourceRevision.valid = true
  recent : ∀ sequence, sequence ∈ state.recentSequences ↔ sequence ∈ state.recentOrder

theorem decodeSession_json {entry : SessionKey × SessionState} (h : entry.2.Restorable) :
    decodeSession (sessionJson entry) = .ok entry := by
  have hepoch : jsonId (sessionJson entry) "epoch" = .ok entry.1.1 := jsonId_eq rfl
  have hincarnation : jsonId (sessionJson entry) "incarnation" = .ok entry.1.2 := jsonId_eq rfl
  have hordinal : (sessionJson entry).requireUint "ordinal" = .ok entry.2.ordinal := requireUint_eq rfl
  have hrevision : jsonRevision (sessionJson entry) "source_revision" = .ok entry.2.sourceRevision :=
    jsonRevision_eq h.revision rfl
  have hhasLast : (sessionJson entry).requireBool "has_last_sequence" = .ok entry.2.hasLastSequence :=
    requireBool_eq rfl
  have hlast : (sessionJson entry).requireUint "last_sequence" = .ok entry.2.lastSequence.toNat := requireUint_eq rfl
  have hcurrent : (sessionJson entry).requireUint "accepted_current" = .ok entry.2.acceptedCurrent :=
    requireUint_eq rfl
  have hhistorical : (sessionJson entry).requireUint "accepted_historical" = .ok entry.2.acceptedHistorical :=
    requireUint_eq rfl
  have hrejected : (sessionJson entry).requireUint "rejected" = .ok entry.2.rejected := requireUint_eq rfl
  have hitems : (sessionJson entry).requireArray "recent_sequences" =
      .ok (entry.2.recentOrder.map fun sequence => .number sequence.toNat) := requireArray_eq rfl
  unfold decodeSession
  simp only [hepoch, hincarnation, hordinal, hrevision, hhasLast, hlast, hcurrent, hhistorical, hrejected, hitems,
    decodeSequences_map, Lib.foldl_insert_eq h.recent, UInt64.ofNat_toNat, bind, Except.bind, pure, Except.pure]

theorem decodeFenceState_json (source : SourceId) {fence : SourceFenceState}
    (h : ∀ (key : SessionKey) (state : SessionState), fence.sessions[key]? = some state → state.Restorable) :
    decodeFenceState (fenceStateJson source fence) = .ok (source, fence) := by
  have hguard : guardObject (fenceStateJson source fence) "fence state must be an object" = .ok () := rfl
  have hsource : jsonId (fenceStateJson source fence) "source" = .ok source := jsonId_eq rfl
  have hnext : (fenceStateJson source fence).requireUint "next_ordinal" = .ok fence.nextOrdinal := requireUint_eq rfl
  have hcurrent : (fenceStateJson source fence).requireUint "current_ordinal" = .ok fence.currentOrdinal :=
    requireUint_eq rfl
  have hevicted : (fenceStateJson source fence).requireUint "evicted_sessions" = .ok fence.evictedSessions :=
    requireUint_eq rfl
  have hepoch : jsonOptionalId (fenceStateJson source fence) "current_epoch" = .ok fence.currentEpoch :=
    jsonOptionalId_eq rfl
  have hincarnation : jsonOptionalId (fenceStateJson source fence) "current_incarnation" =
      .ok fence.currentIncarnation := jsonOptionalId_eq rfl
  have hitems : (fenceStateJson source fence).requireArray "sessions" =
      .ok (fence.sessions.toList.map sessionJson) := requireArray_eq rfl
  have hsessions : decodeAll decodeSession (fence.sessions.toList.map sessionJson) = .ok fence.sessions.toList := by
    apply decodeAll_map
    intro entry hentry
    exact decodeSession_json (h _ _ (Std.ExtTreeMap.mem_toList_iff_getElem?_eq_some.mp hentry))
  unfold decodeFenceState
  simp only [hguard, hsource, hnext, hcurrent, hevicted, hepoch, hincarnation, hitems, hsessions, bind, Except.bind,
    pure, Except.pure, Lib.foldl_put_toList Lib.insertIfNew_putsNew]

/-! ### The revisions of a run's sessions -/

def SourceFenceState.Revised (fence : SourceFenceState) : Prop :=
  ∀ (key : SessionKey) (state : SessionState), fence.sessions[key]? = some state →
    state.sourceRevision.valid = true

theorem fenceSequence_revision (limits : Limits) (state : SessionState) (sequence : Sequence) (ruling : Ruling) :
    (fenceSequence limits state sequence ruling).1.sourceRevision = state.sourceRevision := by
  have hcount : ∀ (s : SessionState) v, (s.count v).sourceRevision = s.sourceRevision := by
    intro s v
    cases v <;> rfl
  unfold fenceSequence
  split
  · rfl
  · rw [hcount]
    unfold placeSequence
    split_ifs <;> rfl

theorem reviseSession_revised (state : SessionState) {record : MeasurementRecord} (ruling : Ruling)
    (hrecord : record.sourceRevision.valid = true) :
    (reviseSession state record ruling).1.sourceRevision.valid = true := by
  rw [reviseSession_revision]
  split_ifs with hnew
  · exact hrecord
  · simp only [Bool.or_eq_true, not_or, Bool.not_eq_true, Bool.not_eq_false'] at hnew
    exact hnew.1

theorem applySessionFence_revised (limits : Limits) {fence : SourceFenceState} {record : MeasurementRecord}
    (ruling : Ruling) (hrecord : record.sourceRevision.valid = true) (h : fence.Revised) :
    (applySessionFence limits fence record ruling).1.Revised := by
  have hother : ∀ (key : SessionKey) (state : SessionState), key ≠ sessionKey record →
      (enterSession limits fence record ruling).1.sessions[key]? = some state → fence.sessions[key]? = some state := by
    rcases enterSession_spec limits fence record ruling with
      ⟨ruling', state, -, hentered⟩ | ⟨ruling', kept, -, hentered, -, -, hsub⟩
    · rw [hentered]
      exact fun _ _ _ hstored => hstored
    · rw [hentered]
      exact hsub
  intro key state hstate
  unfold applySessionFence at hstate
  dsimp only at hstate
  rw [Std.ExtTreeMap.getElem?_insert] at hstate
  split_ifs at hstate with hkey
  · cases hstate
    rw [fenceSequence_revision]
    exact reviseSession_revised _ _ hrecord
  · refine h key state (hother key state ?_ hstate)
    rintro rfl
    exact hkey (Std.LawfulEqOrd.compare_eq_iff_eq.mpr rfl)

/-- No session of the fences is without a source revision. -/
def FencesRevised (fences : Fences) : Prop :=
  ∀ (source : SourceId) (fence : SourceFenceState), fences[source]? = some fence → fence.Revised

theorem submit_revised (policy : RuntimePolicy) (fences : Fences) (x : Submission) (h : FencesRevised fences) :
    FencesRevised (x.submit policy fences) := by
  rcases submit_cases policy fences x with ⟨-, -, hsame⟩ | ⟨path, descriptor, ruling, hadmissible, hinsert⟩
  · rw [hsame]
    exact h
  · intro source fence hfound
    rw [hinsert, Std.ExtTreeMap.getElem?_insert] at hfound
    split_ifs at hfound
    · cases hfound
      apply applySessionFence_revised _ _ (revision_valid_of_admissible hadmissible)
      cases hbefore : fences[x.record.source]? with
      | none =>
        intro key state hstate
        simp [IngestGate.fenceOf, Submission.gate, hbefore] at hstate
      | some old =>
        rw [@fenceOf_of_some (x.gate policy fences) _ _ hbefore]
        exact h _ _ hbefore
    · exact h source fence hfound

theorem fencesAt_revised (policy : RuntimePolicy) (batches : List Batch) (n : Nat) :
    FencesRevised (fencesAt policy batches n) := by
  apply Lib.foldl_inv (submit_revised policy)
  intro source fence h
  simp at h

theorem fencesAt_restorable {policy : RuntimePolicy} {batches : List Batch} {n : Nat} {source : SourceId}
    {fence : SourceFenceState} (hfence : (fencesAt policy batches n)[source]? = some fence) (key : SessionKey)
    (state : SessionState) (hstate : fence.sessions[key]? = some state) : state.Restorable where
  revision := fencesAt_revised policy batches n source fence hfence key state hstate
  recent := ((fencesAt_inv policy batches n source fence hfence).session key state hstate).recent_iff

/-! ### Restoring -/

/-- A fence state is read from its text and handed to `IngestGate::restore_fence`. -/
def restoreFence (maxDepth : Nat) (fences : Fences) (input : Bytes) : Except Error Fences := do
  let document ← parseJson input maxDepth
  let (source, state) ← decodeFenceState document
  return fences.insert source state

/-- The texts of all fence states of a gate. -/
def fenceTexts (pretty : Bool) (fences : Fences) : List Bytes :=
  fences.toList.map fun entry => (writeFenceState { pretty := pretty } entry.1 entry.2).out

/-- The verdicts on the records of later batches. -/
def verdicts (policy : RuntimePolicy) (fences : Fences) (later : List Batch) : List AdmitVerdict :=
  (passages policy fences later).map fun p => p.2.verdict policy p.1

section Restore

variable {policy : RuntimePolicy} {batches : List Batch} {n maxDepth : Nat}

theorem fenceState_roundTrip {source : SourceId} {fence : SourceFenceState}
    (hfence : (fencesAt policy batches n)[source]? = some fence) (hfits : fence.Fits) (hdepth : 4 ≤ maxDepth)
    (pretty : Bool) :
    parseJson (writeFenceState { pretty := pretty } source fence).out maxDepth = .ok (fenceStateJson source fence) ∧
      decodeFenceState (fenceStateJson source fence) = .ok (source, fence) := by
  have hnesting := fenceStateJson_nesting source fence
  refine ⟨?_, decodeFenceState_json source (fencesAt_restorable hfence)⟩
  rw [writeFenceState_eq]
  exact parse_written (fenceStateJson_wellFormed source hfits) (by omega) pretty

theorem restore_fenceTexts
    (hfits : ∀ (source : SourceId) (fence : SourceFenceState), (fencesAt policy batches n)[source]? = some fence →
      fence.Fits) (hdepth : 4 ≤ maxDepth) (pretty : Bool) :
    (fenceTexts pretty (fencesAt policy batches n)).foldlM (restoreFence maxDepth) ∅ =
      .ok (fencesAt policy batches n) := by
  have hentries : ∀ entries : List (SourceId × SourceFenceState), (∀ entry ∈ entries,
      (fencesAt policy batches n)[entry.1]? = some entry.2) → ∀ fences : Fences,
        (entries.map fun entry => (writeFenceState { pretty := pretty } entry.1 entry.2).out).foldlM
          (restoreFence maxDepth) fences =
            .ok (entries.foldl (fun fences entry => fences.insert entry.1 entry.2) fences) := by
    intro entries hentries
    induction entries with
    | nil => exact fun _ => rfl
    | cons entry rest ih =>
      rw [List.forall_mem_cons] at hentries
      intro fences
      obtain ⟨hparse, hdecode⟩ := fenceState_roundTrip hentries.1 (hfits _ _ hentries.1) hdepth pretty
      have hfirst : restoreFence maxDepth fences (writeFenceState { pretty := pretty } entry.1 entry.2).out =
          .ok (fences.insert entry.1 entry.2) := by
        unfold restoreFence
        rw [hparse]
        show (decodeFenceState (fenceStateJson entry.1 entry.2)).bind _ = _
        rw [hdecode]
        rfl
      rw [List.map_cons, List.foldlM_cons, hfirst]
      exact ih hentries.2 _
  rw [fenceTexts, hentries _ (fun entry hentry => Std.ExtTreeMap.mem_toList_iff_getElem?_eq_some.mp hentry),
    Lib.foldl_put_toList Lib.insert_putsNew]

end Restore

/-- **Restored fences.** Every fence state that a run reaches, with its sequences and counters below 2⁶³, is read back
from its text as it is. A gate restored from the texts of all its fences gives every later record the verdict that the
gate itself gives. -/
theorem fences_restored (policy : RuntimePolicy) (batches : List Batch) (n : Nat) {maxDepth : Nat}
    (hdepth : 4 ≤ maxDepth) (pretty : Bool) :
    (∀ (source : SourceId) (fence : SourceFenceState), (fencesAt policy batches n)[source]? = some fence →
      fence.Fits → ∃ tree, parseJson (writeFenceState { pretty := pretty } source fence).out maxDepth = .ok tree ∧
        decodeFenceState tree = .ok (source, fence)) ∧
    ((∀ (source : SourceId) (fence : SourceFenceState), (fencesAt policy batches n)[source]? = some fence →
      fence.Fits) → ∃ restored, (fenceTexts pretty (fencesAt policy batches n)).foldlM (restoreFence maxDepth) ∅ =
        .ok restored ∧ ∀ later, verdicts policy restored later = verdicts policy (fencesAt policy batches n) later) :=
  ⟨fun _ _ hfence hfits => ⟨_, fenceState_roundTrip hfence hfits hdepth pretty⟩,
    fun hfits => ⟨_, restore_fenceTexts hfits hdepth pretty, fun _ => rfl⟩⟩

/-- After the three records of the alternation, with the text in the compact mode of the store. -/
theorem alternation_restored :
    ∃ restored, (fenceTexts false (fencesAt oneSessionPolicy alternation 3)).foldlM (restoreFence 16) ∅ = .ok restored ∧
      ∀ later, verdicts oneSessionPolicy restored later =
        verdicts oneSessionPolicy (fencesAt oneSessionPolicy alternation 3) later := by
  have hfits : ∀ entry ∈ (fencesAt oneSessionPolicy alternation 3).toList, entry.2.Fits := by decide +kernel
  refine (fences_restored oneSessionPolicy alternation 3 (by decide) false).2 fun source fence hfence => ?_
  exact hfits (source, fence) (Std.ExtTreeMap.mem_toList_iff_getElem?_eq_some.mpr hfence)

end LatencyObservatory.Ingest
