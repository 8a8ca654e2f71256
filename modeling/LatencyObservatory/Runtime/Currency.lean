import LatencyObservatory.Ingest.Acceptance
import LatencyObservatory.Runtime.Placement
import LatencyObservatory.Runtime.Queries
import LatencyObservatory.Runtime.Range

/-!
# What a current query counts

The gate's verdict is not stored with a measurement. A query in current mode looks at the evidence instead:
it counts what is usable. The two agree on a batch unless a fence holds back a record that is still recent.
-/

namespace LatencyObservatory.Runtime

open LatencyObservatory.Core LatencyObservatory.Model LatencyObservatory.Ingest LatencyObservatory.Stats
open LatencyObservatory.Attribution LatencyObservatory.Store

/-! ### Counted records -/

/-- Some query in current mode counts the record: by the classifier of summaries and histories, or by the
filter that is inlined in attributions. -/
inductive Counted (record : MeasurementRecord) : Prop
  | classified (path : PathId) (generation : GenerationId) (window : TimeWindow) (source : SourceId)
      (h : classifyRecord record path generation .current window source = .included)
  | attributed (request : AttributionRequest) (hmode : request.mode = .current) (hpath : record.path = request.path)
      (h : request.includes record = true)

theorem exists_window_iff (t : Timestamp) :
    (∃ w : TimeWindow, t.domain = w.start.domain ∧ w.contains t = true) ↔ t.ns ≠ Int64.maxValue := by
  constructor
  · rintro ⟨w, -, hcontains⟩ hlast
    simp only [TimeWindow.contains, Bool.and_eq_true, decide_eq_true_eq, hlast, Int64.lt_iff_toInt_lt,
      Int64.toInt_maxValue] at hcontains
    have hbound := w.stop.ns.toInt_lt
    omega
  · intro hlast
    refine ⟨⟨t, ⟨Int64.maxValue, t.domain⟩⟩, rfl, ?_⟩
    have hne : t.ns.toInt ≠ Int64.maxValue.toInt := fun h => hlast (Int64.toInt_inj.mp h)
    have hbound := t.ns.toInt_lt
    rw [Int64.toInt_maxValue] at hne
    simp only [TimeWindow.contains, beq_self_eq_true, Bool.and_eq_true, decide_eq_true_eq, true_and, ge_iff_le,
      Int64.le_iff_toInt_le, Int64.lt_iff_toInt_lt, Int64.toInt_maxValue]
    omega

theorem counted_iff (record : MeasurementRecord) :
    Counted record ↔ record.evidence.usable = true ∧ record.stamp.receivedAt.ns ≠ Int64.maxValue := by
  have hclassified : ∀ {path generation window source},
      classifyRecord record path generation .current window source = .included →
        record.evidence.usable = true ∧ record.stamp.receivedAt.ns ≠ Int64.maxValue := by
    intro path generation window source h
    obtain ⟨-, -, -, hdomain, hcontains, -, husable⟩ := classifyRecord_included_iff.mp h
    exact ⟨husable rfl, (exists_window_iff _).mp ⟨window, hdomain, hcontains⟩⟩
  constructor
  · rintro (⟨path, generation, window, source, h⟩ | ⟨request, hmode, hpath, h⟩)
    · exact hclassified h
    · have hincluded := (includes_iff_classify request record).mp ⟨hpath, h⟩
      rw [hmode] at hincluded
      exact hclassified hincluded
  · rintro ⟨husable, hlast⟩
    obtain ⟨window, hdomain, hcontains⟩ := (exists_window_iff _).mpr hlast
    refine .classified record.path record.generation window .none ?_
    have hvalue : record.evidence.hasValue = true := by
      have hstate := ((Evidence.usable_iff _).mp husable).1
      simp [Evidence.hasValue, hstate]
    refine classifyRecord_included_iff.mpr ⟨rfl, rfl, ?_, hdomain, hcontains, hvalue, fun _ => husable⟩
    intro hvalid
    cases hvalid

/-! ### Verdicts -/

/-- The record is held back as history although it is recent enough to be used. -/
def recentHistory (policy : RuntimePolicy) (fences : Fences) (x : Submission) : Bool :=
  match (x.gate policy fences).admissible x.record with
  | none => false
  | some (path, source) =>
    !IngestGate.revisionAhead source x.record && !((x.gate policy fences).fenceOf x.record.source).replays x.record &&
      (x.gate policy fences).heldBack path source x.record && (x.gate policy fences).recent x.record x.now &&
      x.record.stamp.receivedAt.ns != Int64.maxValue

theorem recentHistory_iff (policy : RuntimePolicy) (fences : Fences) (x : Submission) :
    recentHistory policy fences x = true ↔
      x.verdict policy fences = .acceptedHistorical ∧ Counted (x.stored policy fences) := by
  rw [counted_iff, stored_stamp]
  unfold recentHistory
  cases hadmissible : (x.gate policy fences).admissible x.record with
  | none =>
    have hrejected : x.verdict policy fences = .rejected :=
      ((x.gate policy fences).classify_of_not_admissible x.record x.now hadmissible).1
    simp [hrejected]
  | some found =>
    obtain ⟨path, source⟩ := found
    have hhistorical := @IngestGate.classify_historical_usable_iff _ _ _ _ x.now hadmissible
    rw [← and_assoc]
    have hstored : (x.verdict policy fences = .acceptedHistorical ∧ (x.stored policy fences).evidence.usable = true) ↔ _ :=
      hhistorical
    rw [hstored]
    simp only [Bool.and_eq_true, Bool.not_eq_true', bne_iff_ne, and_assoc]

/-- A batch that does not get to the gate, or of which the gate holds back no recent record; every other call stores
nothing. -/
def Call.keepsHistoryApart (e : Engine) : Call → Bool
  | .ingest request =>
    !e.admits request || (e.gate.batchPassages request).all fun p => !recentHistory e.policy p.1 p.2
  | _ => true

/-- In the course of the calls, `admit` gave a record this verdict, and handed it on as this measurement. -/
def Admitted (start : System) (calls : List (Nanos × Call)) (verdict : AdmitVerdict) (record : MeasurementRecord) :
    Prop :=
  ∃ p ∈ Lib.steps System.step start calls, ∃ request admission, p.2.2 = .ingest request ∧
    p.1.engine.admits request = true ∧ p.1.engine.gate.admitBatch request = .ok admission ∧
    (verdict = .acceptedCurrent ∧ record ∈ admission.acceptedCurrent ∨
      verdict = .acceptedHistorical ∧ record ∈ admission.acceptedHistory)

/-- What `admit` hands on as history in a batch that holds back no recent record is not counted. -/
theorem keepsHistoryApart_history {e : Engine} {request : IngestRequest} {admission : Admission}
    (hadmits : e.admits request = true) (h : e.gate.admitBatch request = .ok admission)
    (hapart : (Call.ingest request).keepsHistoryApart e = true) {record : MeasurementRecord} (hrecord : record ∈ admission.acceptedHistory) : ¬Counted record := by
  obtain ⟨p, hp, hverdict, rfl⟩ := (mem_accepted_iff h record).2.mp hrecord
  intro hcounted
  unfold Call.keepsHistoryApart at hapart
  dsimp only at hapart
  rw [hadmits, Bool.not_true, Bool.false_or] at hapart
  have hkept := List.all_eq_true.mp hapart p hp
  rw [Bool.not_eq_true', ← Bool.not_eq_true] at hkept
  exact hkept ((recentHistory_iff _ _ _).mpr ⟨hverdict, hcounted⟩)

theorem ingest_of_not_admits {s : System} {request : IngestRequest} (h : s.engine.admits request = false) (now : Nanos) :
    (s.ingest now request).2 = s := by
  unfold System.ingest
  split_ifs with hdown hreadonly hfull
  · rfl
  · rfl
  · rfl
  · exfalso
    unfold Engine.admits at h
    simp only [Bool.not_eq_true] at hdown hreadonly
    rw [hdown, hreadonly, decide_eq_true (Nat.not_lt.mp hfull)] at h
    cases h

theorem stored_admitted (start : System) (calls : List (Nanos × Call)) :
    ∀ record ∈ (calls.foldl System.step start).engine.records, record ∈ start.engine.records ∨
      ∃ verdict, Admitted start calls verdict record := by
  induction calls generalizing start with
  | nil =>
    intro record hrecord
    exact Or.inl hrecord
  | cons c rest ih =>
    intro record hrecord
    rcases ih (start.step c) record hrecord with hnext | ⟨verdict, p, hp, hadmitted⟩
    · have hrefused : ∀ request, c.2 = .ingest request → start.engine.admits request = false →
          record ∈ start.engine.records := by
        intro request hcall hadmits
        have hsame : start.step c = start := by
          unfold System.step System.call
          rw [hcall]
          exact ingest_of_not_admits hadmits c.1
        rw [hsame] at hnext
        exact hnext
      have hchange := start.call_change c.1 c.2
      have hmember : record ∈ (start.call c.1 c.2).2.engine.memory.records := hnext
      generalize (start.call c.1 c.2).2.engine.memory = after at hchange hmember
      generalize hcall : c.2 = call at hchange
      cases hchange with
      | batch request admission stored htaken hstored =>
        rcases List.mem_append.mp hmember with hbefore | hnew
        · exact Or.inl hbefore
        · cases hadmits : start.engine.admits request with
          | false => exact Or.inl (hrefused request hcall hadmits)
          | true =>
            right
            rcases List.mem_append.mp (hstored.subset hnew) with hcurrent | hhistory
            · exact ⟨.acceptedCurrent, (start, c), List.mem_cons_self, request, admission, hcall, hadmits, htaken,
                Or.inl ⟨rfl, hcurrent⟩⟩
            · exact ⟨.acceptedHistorical, (start, c), List.mem_cons_self, request, admission, hcall, hadmits, htaken,
                Or.inr ⟨rfl, hhistory⟩⟩
      | _ => exact Or.inl hmember
    · exact Or.inr ⟨verdict, p, List.mem_cons_of_mem _ hp, hadmitted⟩

/-- In a run whose batches hold back no recent record, a query in current mode counts a measurement only if
`admit` accepted it as current, and never one that it accepted as history. -/
theorem run_counts_current {start : System} {calls : List (Nanos × Call)}
    (h : ∀ p ∈ Lib.steps System.step start calls, p.2.2.keepsHistoryApart p.1.engine = true) :
    (∀ record ∈ (calls.foldl System.step start).engine.records, Counted record →
        record ∈ start.engine.records ∨ Admitted start calls .acceptedCurrent record) ∧
      ∀ record, Admitted start calls .acceptedHistorical record → ¬Counted record := by
  have hhistory : ∀ record, Admitted start calls .acceptedHistorical record → ¬Counted record := by
    rintro record ⟨p, hp, request, admission, hcall, hadmits, htaken, ⟨hverdict, -⟩ | ⟨-, hrecord⟩⟩
    · cases hverdict
    · have hapart := h p hp
      rw [hcall] at hapart
      exact keepsHistoryApart_history hadmits htaken hapart hrecord
  refine ⟨?_, hhistory⟩
  intro record hrecord hcounted
  rcases stored_admitted start calls record hrecord with hstart | ⟨verdict, hadmitted⟩
  · exact Or.inl hstart
  · right
    cases verdict with
    | acceptedCurrent => exact hadmitted
    | acceptedHistorical => exact absurd hcounted (hhistory record hadmitted)
    | rejected =>
      obtain ⟨p, -, request, admission, -, -, -, ⟨hverdict, -⟩ | ⟨hverdict, -⟩⟩ := hadmitted
      · cases hverdict
      · cases hverdict

/-- One exchange, submitted on its own. -/
def sequenceBatch (sequence : Sequence) : IngestRequest :=
  { records := [sampleRecord 1 sequence], receivedAt := ⟨2000000, referenceClockDomain⟩ }

/-- The sample deployment, and exchanges with the given sequences. -/
def sequenceCalls (sequences : List Sequence) : List (Nanos × Call) :=
  sampleDefinitions ++ sequences.map fun sequence => (0, .ingest (sequenceBatch sequence))

def sequenceSystem (sequences : List Sequence) : System :=
  (sequenceCalls sequences).foldl System.step (storeless false)

theorem increasing_counts_current :
    (∀ record ∈ (sequenceSystem [5, 7]).engine.records, Counted record →
        record ∈ (storeless false).engine.records ∨
          Admitted (storeless false) (sequenceCalls [5, 7]) .acceptedCurrent record) ∧
      ∀ record, Admitted (storeless false) (sequenceCalls [5, 7]) .acceptedHistorical record → ¬Counted record :=
  @run_counts_current (storeless false) (sequenceCalls [5, 7]) (List.all_eq_true.mp (by decide +kernel))

/-- Sequence 5 after sequence 7 is reordered and thereby history, and the current summary counts both. -/
theorem reordered_counted :
    create { readonly := false } 0 ⟨.missing, none, []⟩ = .ok (storeless false) ∧
      (∃ record ∈ (sequenceSystem [7, 5]).engine.records,
        Admitted (storeless false) (sequenceCalls [7, 5]) .acceptedHistorical record ∧ Counted record) ∧
      ((sequenceSystem [7, 5]).engine.summarize measuredSummary).toOption.map (·.exchangesIncluded) = some 2 := by
  refine ⟨storeless_created false, ?_, by decide +kernel⟩
  have hhistory : ((sequenceSystem [7]).engine.gate.admitBatch (sequenceBatch 5)).toOption.map (·.acceptedHistory) =
      some ((sequenceSystem [7, 5]).engine.records.drop 1) := by
    decide +kernel
  have hstored : ((sequenceSystem [7, 5]).engine.records.drop 1).map
      (fun record => (record.evidence.usable, record.stamp.receivedAt.ns)) = [(true, 2000000)] := by
    decide +kernel
  obtain ⟨admission, hadmission, hdrop⟩ := Option.map_eq_some_iff.mp hhistory
  obtain ⟨record, rest, hrecords, hrecord, -⟩ := List.map_eq_cons_iff.mp hstored
  have hmember : record ∈ (sequenceSystem [7, 5]).engine.records.drop 1 := by
    rw [hrecords]
    exact List.mem_cons_self
  have htaken : (sequenceSystem [7]).engine.gate.admitBatch (sequenceBatch 5) = .ok admission := by
    cases hresult : (sequenceSystem [7]).engine.gate.admitBatch (sequenceBatch 5) with
    | error e =>
      rw [hresult] at hadmission
      cases hadmission
    | ok found =>
      rw [hresult] at hadmission
      cases hadmission
      rfl
  have hadmits : (sequenceSystem [7]).engine.admits (sequenceBatch 5) = true := by decide +kernel
  refine ⟨record, List.mem_of_mem_drop hmember, ?_, ?_⟩
  · refine ⟨(sequenceSystem [7], 0, .ingest (sequenceBatch 5)), ?_, sequenceBatch 5, admission, rfl, hadmits, htaken,
      Or.inr ⟨rfl, ?_⟩⟩
    · have hcalls : sequenceCalls [7, 5] = sequenceCalls [7] ++ [(0, .ingest (sequenceBatch 5))] := rfl
      rw [hcalls, Lib.steps_append]
      exact List.mem_append_right _ List.mem_cons_self
    · rw [hdrop]
      exact hmember
  · simp only [Prod.mk.injEq] at hrecord
    refine (counted_iff record).mpr ⟨hrecord.1, ?_⟩
    rw [hrecord.2]
    decide

end LatencyObservatory.Runtime
