import LatencyObservatory.Ingest.Independence
import LatencyObservatory.Stats.Order

/-!
# Arrival order and historical aggregation

Exchanges that are all distinct never meet a fence that knows their sequence. Sessions, evictions, gaps
and verdicts still depend on the order of arrival, but whether a record is kept at all, its dwells, and
the state and freshness of its evidence do not: they are what they would be with empty fences. A
historical summary reads nothing else, so it is the same for every order.
-/

namespace LatencyObservatory.Runtime

open LatencyObservatory.Core LatencyObservatory.Model LatencyObservatory.Ingest LatencyObservatory.Stats

/-! ### What the fences know was submitted -/

theorem trimWindow_subset (window : Nat) (recent : Std.ExtTreeSet UInt64 compare) (order : List UInt64) :
    ∀ q, q ∈ (trimWindow window recent order).1 → q ∈ recent := by
  induction order generalizing recent with
  | nil =>
    intro q hq
    exact hq
  | cons front rest ih =>
    intro q hq
    rw [trimWindow] at hq
    split_ifs at hq
    · exact Std.ExtTreeSet.mem_of_mem_erase (ih _ q hq)
    · exact hq

/-- The sequences of a session. -/
def Knows (state : SessionState) (q : Sequence) : Prop :=
  q = state.lastSequence ∨ q ∈ state.recentSequences

theorem placeSequence_sequences (state : SessionState) (sequence : Sequence) (ruling : Ruling) :
    ((placeSequence state sequence ruling).1.lastSequence = sequence ∨
      (state.hasLastSequence = true ∧ (placeSequence state sequence ruling).1.lastSequence = state.lastSequence)) ∧
    (placeSequence state sequence ruling).1.recentSequences = state.recentSequences := by
  unfold placeSequence
  by_cases hlast : state.hasLastSequence = true
  · by_cases hgt : sequence > state.lastSequence
    · simp [hlast, hgt]
    · simp [hlast, hgt]
  · simp [hlast]

theorem fenceSequence_knows {limits : Limits} {state : SessionState} {sequence q : Sequence} {ruling : Ruling}
    (h : Knows (fenceSequence limits state sequence ruling).1 q) :
    q = sequence ∨ q ∈ state.recentSequences ∨ (state.hasLastSequence = true ∧ q = state.lastSequence) := by
  have hcount : ∀ (s : SessionState) v, Knows (s.count v) q → Knows s q := by
    intro s v hs
    cases v <;> exact hs
  unfold fenceSequence at h
  split_ifs at h with hreplays
  · -- A replay leaves the session's sequences alone; it has a last one.
    have hlast : state.hasLastSequence = true := by
      simp only [SessionState.replays, Bool.and_eq_true] at hreplays
      exact hreplays.1.1
    rcases h with hq | hq
    · exact Or.inr (Or.inr ⟨hlast, hq⟩)
    · exact Or.inr (Or.inl hq)
  · have hremembered := hcount _ _ h
    rw [SessionState.remember_eq] at hremembered
    obtain ⟨hlast, hrecent⟩ := placeSequence_sequences state sequence ruling
    rcases hremembered with hq | hq
    · rcases hlast with hlast | ⟨hhas, hlast⟩
      · exact Or.inl (hq.trans hlast)
      · exact Or.inr (Or.inr ⟨hhas, hq.trans hlast⟩)
    · have hinserted := trimWindow_subset _ _ _ q hq
      rw [Std.ExtTreeSet.mem_insert, Std.LawfulEqOrd.compare_eq_iff_eq] at hinserted
      rcases hinserted with hq | hq
      · exact Or.inl hq.symm
      · rw [hrecent] at hq
        exact Or.inr (Or.inl hq)

theorem remembers_of_submit {policy : RuntimePolicy} {fences : Fences} {x : Submission} {record : MeasurementRecord}
    (h : Remembers (x.submit policy fences) record) :
    Remembers fences record ∨ SameExchange x.record record := by
  obtain ⟨fence, state, hfence, hstate, hknown⟩ := h
  by_cases hsource : x.record.source = record.source
  · rcases submit_cases policy fences x with ⟨-, -, hsame⟩ | ⟨path, descriptor, ruling, -, hinsert⟩
    · exact Or.inl ⟨fence, state, hsame ▸ hfence, hstate, hknown⟩
    · rw [hinsert, ← hsource, Std.ExtTreeMap.getElem?_insert_self, Option.some.injEq] at hfence
      subst hfence
      -- The fence state before the record, wherever a session of it was found.
      have hbefore : ∀ (key : SessionKey) (st : SessionState), ((x.gate policy fences).fenceOf x.record.source).sessions[key]? = some st →
          ∃ old : SourceFenceState, fences[record.source]? = some old ∧ old.sessions[key]? = some st := by
        intro key st hst
        unfold IngestGate.fenceOf at hst
        rw [hsource] at hst
        cases hfound : fences[record.source]? with
        | none => simp [Submission.gate, hfound] at hst
        | some old => exact ⟨old, rfl, by simpa [Submission.gate, hfound] using hst⟩
      by_cases hkey : sessionKey record = sessionKey x.record
      · simp only [applySessionFence] at hstate
        rw [hkey, Std.ExtTreeMap.getElem?_insert_self, Option.some.injEq] at hstate
        rw [← hstate] at hknown
        have hsplit := fenceSequence_knows hknown
        obtain ⟨revision, hrevised⟩ := reviseSession_state
          (enterSession policy.limits ((x.gate policy fences).fenceOf x.record.source) x.record ruling).2.1 x.record
          (enterSession policy.limits ((x.gate policy fences).fenceOf x.record.source) x.record ruling).2.2
        rw [hrevised] at hsplit
        rcases hsplit with hq | hq
        · right
          rw [sessionKey, sessionKey, Prod.mk.injEq] at hkey
          exact ⟨hsource, hkey.1.symm, hkey.2.symm, hq.symm⟩
        · left
          rcases enterSession_spec policy.limits ((x.gate policy fences).fenceOf x.record.source) x.record ruling with
            ⟨ruling', st, hst, hentered⟩ | ⟨ruling', kept, -, hentered, -⟩
          · rw [hentered] at hq
            obtain ⟨old, hold, holdst⟩ := hbefore _ _ hst
            refine ⟨old, st, hold, by rw [hkey]; exact holdst, ?_⟩
            rcases hq with hq | hq
            · exact Or.inr hq
            · exact Or.inl hq.2
          · -- A session that was just opened knows no sequence.
            rw [hentered] at hq
            simp at hq
      · left
        obtain ⟨old, hold, holdst⟩ := hbefore _ _ (applySessionFence_other hkey hstate)
        exact ⟨old, state, hold, holdst, hknown⟩
  · rw [submit_other_source hsource] at hfence
    exact Or.inl ⟨fence, state, hfence, hstate, hknown⟩

theorem submitted_of_remembers {policy : RuntimePolicy} {batches : List Batch} {n : Nat} {fences : Fences}
    {x : Submission} (hn : (passages policy ∅ batches)[n]? = some (fences, x)) {record : MeasurementRecord}
    (h : Remembers fences record) :
    ∃ m p, m < n ∧ (passages policy ∅ batches)[m]? = some p ∧ SameExchange p.2.record record := by
  induction n generalizing fences x with
  | zero =>
    have hempty : fences = ∅ := by simpa using (Lib.steps_getElem? hn).2
    obtain ⟨fence, state, hfence, -⟩ := h
    simp [hempty] at hfence
  | succ n ih =>
    obtain ⟨⟨v, z⟩, hv⟩ : ∃ p, (passages policy ∅ batches)[n]? = some p := by
      have hlen := (List.getElem?_eq_some_iff.mp hn).1
      exact ⟨_, List.getElem?_eq_getElem (by omega)⟩
    rw [Lib.steps_succ hv hn] at h
    rcases remembers_of_submit h with hbefore | hsame
    · obtain ⟨m, p, hm, hp, hrecord⟩ := ih hv hbefore
      exact ⟨m, p, by omega, hp, hrecord⟩
    · exact ⟨n, (v, z), by omega, hv, hsame⟩

/-! ### A record that is no replay -/

section NoReplay

variable {policy : RuntimePolicy} {fences : Fences} {x : Submission}

theorem replays_empty (x : Submission) :
    ((x.gate policy ∅).fenceOf x.record.source).replays x.record = false := by
  simp [IngestGate.fenceOf, Submission.gate, SourceFenceState.replays, SourceFenceState.sessionOf]

/-- The hops are derived without a look at the fences, and nothing else of the record changes. -/
theorem classify_record (gate : IngestGate) (record : MeasurementRecord) (now : Timestamp) (fences : Fences) :
    (gate.classify record now).record =
      { record with hops := ({ gate with fences := fences }.classify record now).record.hops } := by
  unfold IngestGate.classify
  simp only
  split
  · rfl
  · rfl
  · rfl
  · rename_i path source generation _ _ _
    have hdated : { gate with fences := fences }.dated path record now = gate.dated path record now := rfl
    have henrich : ∀ evidence, { gate with fences := fences }.enrich record evidence =
        gate.enrich record evidence := fun _ => rfl
    have hdraft : { gate with fences := fences }.draft path record = gate.draft path record := rfl
    simp only [hdated, henrich, hdraft]
    split_ifs <;> rfl

theorem classified_record (fences : Fences) (x : Submission) :
    (x.classified policy fences).record =
      { x.record with hops := (x.classified policy ∅).record.hops } :=
  classify_record (x.gate policy fences) x.record x.now ∅

theorem rejected_iff_empty (h : ((x.gate policy fences).fenceOf x.record.source).replays x.record = false) :
    x.verdict policy fences = .rejected ↔ x.verdict policy ∅ = .rejected := by
  cases hadm : (x.gate policy fences).admissible x.record with
  | none =>
    have hempty : (x.gate policy ∅).admissible x.record = none := hadm
    exact iff_of_true ((x.gate policy fences).classify_of_not_admissible x.record x.now hadm).1
      ((x.gate policy ∅).classify_of_not_admissible x.record x.now hempty).1
  | some found =>
    obtain ⟨path, source⟩ := found
    have hempty : (x.gate policy ∅).admissible x.record = some (path, source) := hadm
    have hrejected : x.verdict policy fences = .rejected ↔ _ := IngestGate.classify_rejected_iff hadm
    have hrejected' : x.verdict policy ∅ = .rejected ↔ _ := IngestGate.classify_rejected_iff hempty
    rw [hrejected, hrejected', h, replays_empty]

theorem classified_view (h : ((x.gate policy fences).fenceOf x.record.source).replays x.record = false)
    {path : PathDef} {source : SourceDescriptor} (hadm : (x.gate policy fences).admissible x.record = some (path, source))
    (hkept : x.verdict policy fences ≠ .rejected) :
    (x.classified policy fences).ruling.view.2 =
      (((x.gate policy fences).dated path x.record x.now).state,
        ((x.gate policy fences).dated path x.record x.now).freshness) := by
  have hahead : IngestGate.revisionAhead source x.record = false := by
    have hrejected : ¬ (x.gate policy fences |>.classify x.record x.now).ruling.verdict = .rejected := hkept
    rw [IngestGate.classify_rejected_iff hadm, not_or] at hrejected
    simpa using hrejected.1
  unfold Submission.classified
  rw [((x.gate policy fences).classify_of_admissible x.record x.now hadm).1, IngestGate.applyFences_view, h, hahead]
  rfl

/-- What a summary reads of a kept record that is no replay does not depend on the fences. -/
theorem stored_essence (h : ((x.gate policy fences).fenceOf x.record.source).replays x.record = false)
    (hkept : x.verdict policy fences ≠ .rejected) :
    essence (x.stored policy fences) = essence (x.timeless.stored policy ∅) := by
  have hempty : x.verdict policy ∅ ≠ .rejected := fun hrejected => hkept ((rejected_iff_empty h).mpr hrejected)
  cases hadm : (x.gate policy fences).admissible x.record with
  | none => exact absurd ((x.gate policy fences).classify_of_not_admissible x.record x.now hadm).1 hkept
  | some found =>
    obtain ⟨path, source⟩ := found
    have hadm' : (x.gate policy ∅).admissible x.record = some (path, source) := hadm
    have hview := classified_view h hadm hkept
    have hview' := classified_view (replays_empty x) hadm' hempty
    have hsame : (x.classified policy fences).ruling.view.2 = (x.classified policy ∅).ruling.view.2 :=
      hview.trans hview'.symm
    obtain ⟨houtcome, -⟩ := classified_timeless policy ∅ x
    have hhops : (x.timeless.classified policy ∅).record.hops = (x.classified policy ∅).record.hops :=
      congrArg Outcome.hops houtcome
    have hevidence : (x.timeless.classified policy ∅).ruling.evidence = (x.classified policy ∅).ruling.evidence :=
      congrArg (fun outcome => outcome.verdict.evidence) houtcome
    have hstate : (x.classified policy fences).ruling.evidence.state = (x.classified policy ∅).ruling.evidence.state :=
      congrArg Prod.fst hsame
    have hfreshness : (x.classified policy fences).ruling.evidence.freshness =
        (x.classified policy ∅).ruling.evidence.freshness := congrArg Prod.snd hsame
    unfold essence Submission.stored
    rw [classified_record fences x, classified_record ∅ x.timeless, hhops, hevidence]
    simp only [hstate, hfreshness]
    rfl

end NoReplay

/-! ### Runs of distinct exchanges -/

/-- What names an exchange. -/
def exchangeKey (record : MeasurementRecord) : SourceId × EpochId × IncarnationId × Sequence :=
  (record.source, record.epoch, record.incarnation, record.sequence)

section Runs

variable (policy : RuntimePolicy) (catalog : Catalog) (clocks : ClockRegistry)

/-- One call of `admit` and what the runtime stores of it: the current records, then the historical ones.
A refused batch stores nothing. -/
def storeBatch (s : Fences × List MeasurementRecord) (request : IngestRequest) : Fences × List MeasurementRecord :=
  match ((⟨catalog, clocks, request⟩ : Batch).gate policy s.1).admitBatch request with
  | .ok admission => (admission.fences, s.2 ++ admission.acceptedCurrent ++ admission.acceptedHistory)
  | .error _ => s

/-- The records stored by a sequence of calls from empty fences. -/
def storedRecords (requests : List IngestRequest) : List MeasurementRecord :=
  (requests.foldl (storeBatch policy catalog clocks) (∅, [])).2

/-- The passages of a run that were not rejected. -/
def keptPassages (run : List (Fences × Submission)) : List (Fences × Submission) :=
  run.filter fun p => p.2.verdict policy p.1 ≠ .rejected

/-- The submitted records that were not rejected, up to their monotonic receive time. -/
def keptRecords (requests : List IngestRequest) : List MeasurementRecord :=
  (keptPassages policy (passages policy ∅ (calls catalog clocks requests))).map fun p => p.2.timeless.record

variable {policy}

theorem accepted_perm (run : List (Fences × Submission)) :
    (accepted policy .acceptedCurrent run ++ accepted policy .acceptedHistorical run).Perm
      ((keptPassages policy run).map fun p => p.2.stored policy p.1) := by
  induction run with
  | nil => exact List.Perm.nil
  | cons p rest ih =>
    rw [accepted_cons, accepted_cons]
    unfold keptPassages at ih ⊢
    rw [List.filter_cons]
    cases hverdict : p.2.verdict policy p.1 with
    | acceptedCurrent => simpa using ih
    | acceptedHistorical => simpa using List.perm_middle.trans (ih.cons _)
    | rejected => simpa using ih

variable {catalog clocks}

theorem storeBatch_spec (s : Fences × List MeasurementRecord) (request : IngestRequest) :
    (storeBatch policy catalog clocks s request).1 =
        ((⟨catalog, clocks, request⟩ : Batch).submissions policy).foldl (Submission.submit policy) s.1 ∧
      ((storeBatch policy catalog clocks s request).2).Perm
        (s.2 ++ (keptPassages policy (passages policy s.1 [⟨catalog, clocks, request⟩])).map
          fun p => p.2.stored policy p.1) := by
  unfold storeBatch
  cases htaken : ((⟨catalog, clocks, request⟩ : Batch).gate policy s.1).admitBatch request with
  | error e =>
    have htaken : (⟨catalog, clocks, request⟩ : Batch).taken policy = false := by
      rw [← Bool.not_eq_true, ← @admitBatch_ok_iff policy s.1]
      rintro ⟨admission, hok⟩
      rw [htaken] at hok
      cases hok
    simp [Batch.submissions, htaken, passages, Lib.steps, keptPassages]
  | ok admission =>
    obtain ⟨hafter, hcurrent, hhistory⟩ := admitBatch_eq_run ⟨catalog, clocks, request⟩ htaken
    refine ⟨hafter, ?_⟩
    show (s.2 ++ admission.acceptedCurrent ++ admission.acceptedHistory).Perm _
    rw [hcurrent, hhistory, List.append_assoc]
    exact (accepted_perm _).append_left _

theorem foldl_storeBatch (requests : List IngestRequest) (s : Fences × List MeasurementRecord) :
    ((requests.foldl (storeBatch policy catalog clocks) s).2).Perm
      (s.2 ++ (keptPassages policy (passages policy s.1 (calls catalog clocks requests))).map
        fun p => p.2.stored policy p.1) := by
  induction requests generalizing s with
  | nil => simp [calls, passages, Lib.steps, keptPassages]
  | cons request rest ih =>
    have hrest := ih (storeBatch policy catalog clocks s request)
    obtain ⟨hfences, hstored⟩ := @storeBatch_spec policy catalog clocks s request
    have hpassages : passages policy s.1 (calls catalog clocks (request :: rest)) =
        passages policy s.1 [⟨catalog, clocks, request⟩] ++
          passages policy (storeBatch policy catalog clocks s request).1 (calls catalog clocks rest) := by
      rw [hfences]
      simp [passages, calls, Lib.steps_append]
    rw [List.foldl_cons, hpassages]
    unfold keptPassages at hrest hstored ⊢
    rw [List.filter_append, List.map_append, ← List.append_assoc]
    exact hrest.trans (hstored.append_right _)

theorem timeless_common {requests : List IngestRequest} {received : Timestamp}
    (h : ∀ request ∈ requests, request.receivedAt = received ∧
      request.records.length ≤ policy.limits.maxBatchSamples) :
    ((calls catalog clocks requests).flatMap (Batch.submissions policy)).map Submission.timeless =
      if received.valid then
        (requests.flatMap IngestRequest.records).map fun record => arrive catalog clocks (record, received)
      else [] := by
  induction requests with
  | nil => simp [calls]
  | cons request rest ih =>
    obtain ⟨hreceived, hlength⟩ := h request List.mem_cons_self
    have htail := ih fun other hother => h other (List.mem_cons_of_mem _ hother)
    simp only [calls, List.map_cons, List.flatMap_cons, List.map_append] at htail ⊢
    rw [htail]
    unfold Batch.submissions Batch.taken
    simp only [hreceived, hlength, decide_true, Bool.and_true]
    split_ifs
    · rw [List.map_map]
      subst hreceived
      rfl
    · rfl

theorem distinct_not_replayed {requests : List IngestRequest} {received : Timestamp}
    (h : ∀ request ∈ requests, request.receivedAt = received ∧
      request.records.length ≤ policy.limits.maxBatchSamples)
    (hdistinct : ((requests.flatMap IngestRequest.records).map exchangeKey).Nodup) :
    ∀ p ∈ passages policy ∅ (calls catalog clocks requests),
      ((p.2.gate policy p.1).fenceOf p.2.record.source).replays p.2.record = false := by
  rintro ⟨fences, x⟩ hp
  -- The submissions carry distinct keys, as the submitted records do.
  have hkeys : (((calls catalog clocks requests).flatMap (Batch.submissions policy)).map
      fun x => exchangeKey x.record).Nodup := by
    have hmap := congrArg (List.map fun x : Submission => exchangeKey x.record) (@timeless_common policy catalog clocks _ _ h)
    rw [List.map_map] at hmap
    have hsame : ((fun x : Submission => exchangeKey x.record) ∘ Submission.timeless) =
        fun x : Submission => exchangeKey x.record := rfl
    rw [hsame] at hmap
    rw [hmap]
    split_ifs
    · rw [List.map_map]
      exact hdistinct
    · simp
  rw [← Bool.not_eq_true]
  intro hreplays
  obtain ⟨n, hn⟩ := List.getElem?_of_mem hp
  obtain ⟨m, q, hmn, hm, hsame⟩ := submitted_of_remembers hn
    (remembers_of_replays (x.gate policy fences) x.record hreplays)
  have hfirst := (Lib.steps_getElem? hm).1
  have hsecond := (Lib.steps_getElem? hn).1
  obtain ⟨hsource, hepoch, hincarnation, hsequence⟩ := hsame
  have hequal : exchangeKey q.2.record = exchangeKey x.record := by
    unfold exchangeKey
    rw [hsource, hepoch, hincarnation, hsequence]
  have hlength := (List.getElem?_eq_some_iff.mp hfirst).1
  have hkeyed : (((calls catalog clocks requests).flatMap (Batch.submissions policy)).map
      fun x => exchangeKey x.record)[m]? = (((calls catalog clocks requests).flatMap
        (Batch.submissions policy)).map fun x => exchangeKey x.record)[n]? := by
    rw [List.getElem?_map, List.getElem?_map, hfirst, hsecond, Option.map_some, Option.map_some, hequal]
  have hindex : m = n := (List.getElem?_inj (by simpa using hlength) hkeys).mp hkeyed
  omega

/-- What a summary reads of the records kept in a run of distinct exchanges, and which these are: both
are what empty fences make of the submitted records. -/
theorem kept_of_distinct {requests : List IngestRequest} {received : Timestamp}
    (h : ∀ request ∈ requests, request.receivedAt = received ∧
      request.records.length ≤ policy.limits.maxBatchSamples)
    (hdistinct : ((requests.flatMap IngestRequest.records).map exchangeKey).Nodup) {β : Type}
    {f : Fences × Submission → β} {g : Submission → β}
    (hf : ∀ p : Fences × Submission, ((p.2.gate policy p.1).fenceOf p.2.record.source).replays p.2.record = false →
      p.2.verdict policy p.1 ≠ .rejected → f p = g p.2.timeless) :
    (keptPassages policy (passages policy ∅ (calls catalog clocks requests))).map f =
      ((if received.valid then
          (requests.flatMap IngestRequest.records).map fun record => arrive catalog clocks (record, received)
        else []).filter fun x => x.verdict policy ∅ ≠ .rejected).map g := by
  have hkept : ∀ p ∈ passages policy ∅ (calls catalog clocks requests),
      decide (p.2.verdict policy p.1 ≠ .rejected) = decide (p.2.timeless.verdict policy ∅ ≠ .rejected) := by
    intro p hp
    have hempty : p.2.timeless.verdict policy ∅ = p.2.verdict policy ∅ :=
      congrArg (fun outcome : Outcome => outcome.verdict.verdict) (classified_timeless policy ∅ p.2).1
    rw [decide_eq_decide, ne_eq, ne_eq, hempty, rejected_iff_empty (distinct_not_replayed h hdistinct p hp)]
  have hread : ∀ p ∈ passages policy ∅ (calls catalog clocks requests),
      decide (p.2.verdict policy p.1 ≠ .rejected) = true → f p = g p.2.timeless := by
    intro p hp hverdict
    exact hf p (distinct_not_replayed h hdistinct p hp) (by simpa using hverdict)
  have hrun := @Lib.steps_filter_map Fences Submission (Submission.submit policy) β ∅
    ((calls catalog clocks requests).flatMap (Batch.submissions policy))
    (fun p => decide (p.2.verdict policy p.1 ≠ .rejected))
    (fun x => decide (x.timeless.verdict policy ∅ ≠ .rejected)) f (fun x => g x.timeless) hkept hread
  rw [← @timeless_common policy catalog clocks _ _ h, List.filter_map, List.map_map]
  exact hrun

theorem kept_perm {first second : List IngestRequest} {received : Timestamp}
    (hfirst : ∀ request ∈ first, request.receivedAt = received ∧
      request.records.length ≤ policy.limits.maxBatchSamples)
    (hsecond : ∀ request ∈ second, request.receivedAt = received ∧
      request.records.length ≤ policy.limits.maxBatchSamples)
    (hdistinct : ((first.flatMap IngestRequest.records).map exchangeKey).Nodup)
    (hperm : (first.flatMap IngestRequest.records).Perm (second.flatMap IngestRequest.records)) {β : Type}
    {f : Fences × Submission → β} {g : Submission → β}
    (hf : ∀ p : Fences × Submission, ((p.2.gate policy p.1).fenceOf p.2.record.source).replays p.2.record = false →
      p.2.verdict policy p.1 ≠ .rejected → f p = g p.2.timeless) :
    ((keptPassages policy (passages policy ∅ (calls catalog clocks first))).map f).Perm
      ((keptPassages policy (passages policy ∅ (calls catalog clocks second))).map f) := by
  have hdistinct' : ((second.flatMap IngestRequest.records).map exchangeKey).Nodup :=
    (hperm.map exchangeKey).nodup_iff.mp hdistinct
  rw [kept_of_distinct hfirst hdistinct hf, kept_of_distinct hsecond hdistinct' hf]
  apply List.Perm.map
  apply List.Perm.filter
  split_ifs
  · exact hperm.map _
  · exact List.Perm.nil

/-- **Arrival order does not change historical aggregation.** Distinct exchanges, admitted with one receive
time in any order and in any batches, are kept alike, and every summary over what was stored has the same
counters, coverage, contributing sources and distributions. -/
theorem arrival_order_irrelevant {first second : List IngestRequest} {received : Timestamp}
    (hfirst : ∀ request ∈ first, request.receivedAt = received ∧
      request.records.length ≤ policy.limits.maxBatchSamples)
    (hsecond : ∀ request ∈ second, request.receivedAt = received ∧
      request.records.length ≤ policy.limits.maxBatchSamples)
    (hdistinct : ((first.flatMap IngestRequest.records).map exchangeKey).Nodup)
    (hperm : (first.flatMap IngestRequest.records).Perm (second.flatMap IngestRequest.records)) :
    (keptRecords policy catalog clocks first).Perm (keptRecords policy catalog clocks second) ∧
      ∀ request : SummaryRequest,
        (summarize (storedRecords policy catalog clocks first) catalog request policy).map PathSummary.quantities =
          (summarize (storedRecords policy catalog clocks second) catalog request policy).map
            PathSummary.quantities := by
  constructor
  · exact kept_perm hfirst hsecond hdistinct hperm fun p _ _ => rfl
  · intro request
    apply summarize_quantities_eq
    have hstored : ∀ requests : List IngestRequest,
        ((storedRecords policy catalog clocks requests).map essence).Perm
          ((keptPassages policy (passages policy ∅ (calls catalog clocks requests))).map
            fun p => essence (p.2.stored policy p.1)) := by
      intro requests
      have hfold := (@foldl_storeBatch policy catalog clocks requests (∅, [])).map essence
      rw [List.nil_append, List.map_map] at hfold
      exact hfold
    have hkept := @kept_perm policy catalog clocks _ _ _ hfirst hsecond hdistinct hperm _
      (fun p => essence (p.2.stored policy p.1)) (fun x => essence (x.stored policy ∅))
      fun p hreplays hverdict => stored_essence hreplays hverdict
    exact (hstored first).trans (hkept.trans (hstored second).symm)

end Runs

/-- Two exchanges of one session, in one batch in order and in two batches the other way round. -/
theorem sample_arrival_orders :
    (keptRecords defaultPolicy (sampleCatalog 1) sampleClocks
        [sampleRequest [sampleRecord 1 1, sampleRecord 1 2]]).Perm
      (keptRecords defaultPolicy (sampleCatalog 1) sampleClocks
        [sampleRequest [sampleRecord 1 2], sampleRequest [sampleRecord 1 1]]) := by
  refine (@arrival_order_irrelevant defaultPolicy (sampleCatalog 1) sampleClocks _ _
    ⟨2000000, referenceClockDomain⟩ ?_ ?_ ?_ ?_).1
  · simp [sampleRequest, defaultPolicy]
  · simp [sampleRequest, defaultPolicy]
  · decide +kernel
  · exact List.Perm.swap _ _ _

end LatencyObservatory.Runtime
