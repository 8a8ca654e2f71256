import LatencyObservatory.Runtime.Reachable
import LatencyObservatory.Store.Budget

/-!
# The engine without its store

A running engine writes to its store and never reads from it. So a call goes as it goes in the same engine without a
store, except that the store has to take the records of the call, and a store that affords all records of a run has no
part in what the run does.
-/

namespace LatencyObservatory.Runtime

open LatencyObservatory.Core LatencyObservatory.Model LatencyObservatory.Ingest LatencyObservatory.Stats
open LatencyObservatory.Baselines LatencyObservatory.Store

/-- The engine without its store. -/
def Engine.unstored (e : Engine) : Engine :=
  { e with writer := none }

/-- A part of a call goes as it goes without a store, if the store takes these records. -/
structure Mirrors (now : Nanos) (s : System) (result bare : Status × System) (entries : List Entry) : Prop where
  ok_iff : result.1 = .ok () ↔ bare.1 = .ok () ∧ s.engine.takes now entries = true
  engine : result.1 = .ok () → bare.2.engine = result.2.engine.unstored
  writer : result.1 = .ok () → result.2.engine.writer = s.engine.writer.map fun w => w.appendedAll now entries

/-! ### Parts of a call -/

section Parts

variable {now : Nanos} {s : System} {result bare : Status × System} {entries : List Entry}

theorem Mirrors.failed {e e' : Error} (hresult : result.1 = .error e) (hbare : bare.1 = .error e')
    (entries : List Entry) : Mirrors now s result bare entries := by
  refine ⟨?_, ?_, ?_⟩ <;> rw [hresult]
  · rw [hbare]
    simp
  · simp
  · simp

theorem Mirrors.done (t : System) {e : Engine} (hwriter : e.writer = s.engine.writer) :
    Mirrors now s (.ok (), s.withEngine e) (.ok (), t.withEngine e.unstored) [] := by
  refine ⟨?_, fun _ => rfl, fun _ => ?_⟩
  · unfold Engine.takes
    cases s.engine.writer <;> simp [StoreWriter.takesAll]
  · show e.writer = _
    rw [hwriter]
    cases s.engine.writer <;> rfl

theorem Mirrors.start {e : Engine} (hwriter : e.writer = s.engine.writer)
    (h : Mirrors now (s.withEngine e) result bare entries) : Mirrors now s result bare entries := by
  obtain ⟨hok, hengine, hafter⟩ := h
  unfold Engine.takes System.withEngine at hok
  unfold System.withEngine at hafter
  rw [hwriter] at hok hafter
  exact ⟨hok, hengine, hafter⟩

/-- What becomes of the result does not matter as long as it succeeds as before. -/
theorem Mirrors.finish {result' bare' : Status × System} (h : Mirrors now s result bare entries)
    (hresult : result'.1 = .ok () ↔ result.1 = .ok ()) (hbare : bare'.1 = .ok () ↔ bare.1 = .ok ())
    (hengine : result.1 = .ok () → bare.1 = .ok () → bare.2.engine = result.2.engine.unstored →
      bare'.2.engine = result'.2.engine.unstored)
    (hwriter : result.1 = .ok () → result'.2.engine.writer = result.2.engine.writer) :
    Mirrors now s result' bare' entries := by
  obtain ⟨hok, hsame, hafter⟩ := h
  refine ⟨?_, fun hdone => ?_, fun hdone => ?_⟩
  · rw [hresult, hbare]
    exact hok
  · have hfirst := hresult.mp hdone
    exact hengine hfirst (hok.mp hfirst).1 (hsame hfirst)
  · have hfirst := hresult.mp hdone
    exact (hwriter hfirst).trans (hafter hfirst)

theorem Mirrors.synced {t : System} (h : t.engine = s.engine.unstored) (hok : result.1 = .ok ())
    (hsame : result.2.engine = s.engine) : Mirrors now s result (.ok (), t) [] := by
  obtain ⟨e, d⟩ := t
  subst h
  refine (@Mirrors.done now s ⟨s.engine.unstored, d⟩ s.engine rfl).finish (iff_of_true hok rfl) Iff.rfl ?_ ?_
  · intro _ _ _
    rw [hsame]
  · intro _
    rw [hsame]
    rfl

theorem Mirrors.guard {α : Type} {c : Prop} [Decidable c] {e e' : Error} {s₁ s₂ : System}
    {rest bareRest : Except Error α × System} (h : Mirrors now s (outcome rest) (outcome bareRest) entries) :
    Mirrors now s (outcome (if c then (.error e, s₁) else rest)) (outcome (if c then (.error e', s₂) else bareRest))
      entries := by
  split_ifs
  · exact .failed rfl rfl _
  · exact h

theorem Mirrors.report {α : Type} (value : α) {f : Engine → Engine}
    (hf : ∀ e : Engine, f e.unstored = (f e).unstored) (hwriter : ∀ e : Engine, (f e).writer = e.writer)
    (h : Mirrors now s result bare entries) :
    Mirrors now s
      (outcome (match result.1 with
        | .error e => (.error e, result.2)
        | .ok () => (.ok value, result.2.withEngine (f result.2.engine))))
      (outcome (match bare.1 with
        | .error e => (.error e, bare.2)
        | .ok () => (.ok value, bare.2.withEngine (f bare.2.engine)))) entries := by
  have hstatus : ∀ r : Status × System, (outcome (match r.1 with
      | .error e => (.error e, r.2)
      | .ok () => (.ok value, r.2.withEngine (f r.2.engine)))).1 = .ok () ↔ r.1 = .ok () := by
    rintro ⟨e | ⟨⟨⟩⟩, s'⟩ <;> simp [outcome, Except.map]
  have hafter : ∀ r : Status × System, r.1 = .ok () → (outcome (match r.1 with
      | .error e => (.error e, r.2)
      | .ok () => (.ok value, r.2.withEngine (f r.2.engine)))).2.engine = f r.2.engine := by
    rintro ⟨e | ⟨⟨⟩⟩, s'⟩ hok
    · cases hok
    · rfl
  refine h.finish (hstatus result) (hstatus bare) (fun hok hokBare hsame => ?_) fun hok => ?_
  · rw [hafter bare hokBare, hafter result hok, hsame, hf]
  · rw [hafter result hok, hwriter]

theorem Mirrors.andThen {next : System → Status × System} {first second : List Entry}
    (hfirst : Mirrors now s result bare first)
    (hnext : ∀ t : System, result.1 = .ok () → t.engine = result.2.engine.unstored →
      Mirrors now result.2 (next result.2) (next t) second) :
    Mirrors now s (System.andThen result next) (System.andThen bare next) (first ++ second) := by
  obtain ⟨status, s₁⟩ := result
  cases status with
  | error e =>
    refine ⟨?_, by simp [System.andThen], by simp [System.andThen]⟩
    have hno : ¬(bare.1 = .ok () ∧ s.engine.takes now first = true) := fun hboth => by
      have hdone := hfirst.ok_iff.mpr hboth
      cases hdone
    have htakes := @Engine.takes_append s.engine
      { s.engine with writer := s.engine.writer.map fun w => w.appendedAll now first } now first rfl second
    rw [htakes]
    refine iff_of_false (by simp [System.andThen]) fun hboth => hno ⟨?_, (Bool.and_eq_true_iff.mp hboth.2).1⟩
    have hbare := hboth.1
    unfold System.andThen at hbare
    split at hbare
    · cases hbare
    · assumption
  | ok u =>
    obtain ⟨hbare, htakes⟩ := hfirst.ok_iff.mp rfl
    obtain ⟨hok, hengine, hwriter⟩ := hnext bare.2 rfl (hfirst.engine rfl)
    have hbareNext : System.andThen bare next = next bare.2 := by
      unfold System.andThen
      rw [hbare]
    rw [hbareNext]
    refine ⟨?_, hengine, fun hdone => ?_⟩
    · rw [Engine.takes_append (hfirst.writer rfl), htakes, Bool.true_and]
      exact hok
    · refine (hwriter hdone).trans ?_
      rw [hfirst.writer rfl, Option.map_map]
      congr 1
      funext w
      exact List.foldl_append.symm

namespace System

theorem persist_mirrors {t : System} (h : t.engine = s.engine.unstored) (type : RecordType) (payload : Bytes)
    (syncNow : Bool) :
    Mirrors now s (s.persist now type payload syncNow) (t.persist now type payload syncNow) [(type, payload)] := by
  obtain ⟨e, d⟩ := t
  subst h
  cases hmode : s.engine.config.readonly with
  | true =>
    have hmode' : (⟨s.engine.unstored, d⟩ : System).engine.config.readonly = true := hmode
    rw [persist_readonly _ _ _ _ _ hmode, persist_readonly _ _ _ _ _ hmode']
    exact .failed rfl rfl _
  | false =>
    obtain ⟨hok, hengine⟩ := s.persist_spec now type payload syncNow hmode
    have hbare : persist ⟨s.engine.unstored, d⟩ now type payload syncNow = (.ok (), ⟨s.engine.unstored, d⟩) := by
      unfold persist Engine.unstored
      rw [if_neg (by simp [hmode])]
    rw [hbare]
    refine ⟨by simpa using hok, fun _ => ?_, fun _ => congrArg Engine.writer hengine⟩
    rw [hengine]
    rfl

theorem each_mirrors {α : Type} {body : System → α → Status × System} {entry : α → Entry}
    (hbody : ∀ (s t : System) (x : α), t.engine = s.engine.unstored → Mirrors now s (body s x) (body t x) [entry x])
    {t : System} (h : t.engine = s.engine.unstored) (xs : List α) :
    Mirrors now s (each body s xs) (each body t xs) (xs.map entry) := by
  induction xs generalizing s t with
  | nil =>
    obtain ⟨e, d⟩ := t
    subst h
    exact @Mirrors.done now s ⟨s.engine.unstored, d⟩ s.engine rfl
  | cons x xs ih => exact (hbody s t x h).andThen fun t' _ hsame => ih hsame

theorem store_mirrors {t : System} (h : t.engine = s.engine.unstored) (type : RecordType) (record : MeasurementRecord) :
    Mirrors now s (s.store now type record) (t.store now type record) [measurementEntry type record] := by
  refine (persist_mirrors h type _ false).andThen fun t' _ hsame => ?_
  obtain ⟨e, d⟩ := t'
  subst hsame
  exact .done ⟨_, d⟩ rfl

theorem storeFence_mirrors {t : System} (h : t.engine = s.engine.unstored) (entry : SourceId × SourceFenceState) :
    Mirrors now s (s.storeFence now entry) (t.storeFence now entry) [fenceEntry entry] := by
  refine (persist_mirrors h .fenceState _ false).andThen fun t' _ hsame => ?_
  obtain ⟨e, d⟩ := t'
  subst hsame
  exact .done ⟨_, d⟩ rfl

theorem syncBatch_mirrors {t : System} (h : t.engine = s.engine.unstored) : Mirrors now s s.syncBatch t.syncBatch [] := by
  obtain ⟨e, d⟩ := t
  subst h
  obtain ⟨hok, hengine⟩ := s.syncBatch_spec
  have hbare : syncBatch ⟨s.engine.unstored, d⟩ = (.ok (), ⟨s.engine.unstored, d⟩) := by
    unfold syncBatch
    cases s.engine.unstored.config.durableWrites <;> rfl
  rw [hbare]
  exact .synced rfl hok hengine

theorem storeBatch_mirrors {t : System} (h : t.engine = s.engine.unstored) {admission : Admission}
    (hfences : s.engine.fences = admission.fences) :
    Mirrors now s (s.storeBatch now admission) (t.storeBatch now admission) (batchEntries admission) := by
  have hkept₁ := @each_inv _ (store · now .measurementCurrent ·) (fun s => s.engine.fences = admission.fences)
    (fun s x h => (s.store_fences now _ x).trans h) s hfences admission.acceptedCurrent
  refine Mirrors.andThen (each_mirrors (fun s t x h => store_mirrors h _ x) h _) fun t₁ _ h₁ => ?_
  have hkept₂ := @each_inv _ (store · now .measurementHistorical ·) (fun s => s.engine.fences = admission.fences)
    (fun s x h => (s.store_fences now _ x).trans h) _ hkept₁ admission.acceptedHistory
  refine Mirrors.andThen (each_mirrors (fun s t x h => store_mirrors h _ x) h₁ _) fun t₂ _ h₂ => ?_
  -- The stored records left the fences alone, so the ones that are appended are those of the gate.
  have hsame : t₂.engine.fences = admission.fences := (congrArg Engine.fences h₂).trans hkept₂
  rw [hkept₂, hsame, ← List.append_nil (admission.fences.toList.map fenceEntry)]
  exact Mirrors.andThen (each_mirrors (fun s t x h => storeFence_mirrors h x) h₂ _) fun t₃ _ h₃ => syncBatch_mirrors h₃

end System

end Parts

/-! ### Calls -/

namespace System

variable {now : Nanos} {s t : System}

theorem define_mirrors {α ι : Type} {type : RecordType} {write : JsonWriter → α → JsonWriter} {value : α}
    {register : Engine → α → Except Error ι × Engine} (h : t.engine = s.engine.unstored)
    (hregister : register s.engine.unstored value = ((register s.engine value).1, (register s.engine value).2.unstored))
    (hwriter : (register s.engine value).2.writer = s.engine.writer) :
    Mirrors now s (outcome (s.define now type write value register)) (outcome (t.define now type write value register))
      [(type, encodeWith fun w => write w value)] := by
  obtain ⟨e, d⟩ := t
  subst h
  unfold define
  rw [show (⟨s.engine.unstored, d⟩ : System).engine.shutDown = s.engine.shutDown from rfl]
  split_ifs
  · exact .failed rfl rfl _
  · simp only [hregister]
    cases hresult : (register s.engine value).1 with
    | error e => exact .failed rfl rfl _
    | ok id =>
      have hstatus : ∀ status : Status, (status.map fun _ => id).map (fun _ => ()) = .ok () ↔ status = .ok () := by
        rintro (e | ⟨⟨⟩⟩) <;> simp [Except.map]
      have hpersist := @persist_mirrors now (s.withEngine (register s.engine value).2)
        ⟨(register s.engine value).2.unstored, d⟩ rfl type (encodeWith fun w => write w value) true
      exact (hpersist.start hwriter).finish (hstatus _) (hstatus _) (fun _ _ hsame => hsame) fun _ => rfl

theorem ingest_mirrors (h : t.engine = s.engine.unstored) (request : IngestRequest) :
    Mirrors now s (outcome (s.ingest now request)) (outcome (t.ingest now request))
      ((Call.ingest request).entries s.engine now) := by
  obtain ⟨e, d⟩ := t
  subst h
  unfold ingest
  refine .guard (.guard (.guard ?_))
  rw [show (⟨s.engine.unstored, d⟩ : System).engine.gate = s.engine.gate from rfl]
  cases htaken : s.engine.gate.admitBatch request with
  | error e => exact .failed rfl rfl _
  | ok admission =>
    have hentries : (Call.ingest request).entries s.engine now = batchEntries admission := by
      simp only [Call.entries, htaken]
    have hbatch := @storeBatch_mirrors now (s.withEngine (admitted s.engine admission))
      ⟨(admitted s.engine admission).unstored, d⟩ rfl admission rfl
    rw [hentries]
    exact (@Mirrors.start now s _ _ _ (admitted s.engine admission) rfl hbatch).report admission.report
      (f := (reported · admission.report)) (fun _ => rfl) fun _ => rfl

theorem createBaseline_mirrors (h : t.engine = s.engine.unstored) (request : BaselineRequest) :
    Mirrors now s (outcome (s.createBaseline now request)) (outcome (t.createBaseline now request))
      ((Call.createBaseline request).entries s.engine now) := by
  obtain ⟨e, d⟩ := t
  subst h
  unfold createBaseline
  refine .guard ?_
  rw [show (⟨s.engine.unstored, d⟩ : System).engine.summarize request.summary = s.engine.summarize request.summary from rfl]
  cases hsummary : s.engine.summarize request.summary with
  | error e => exact .failed rfl rfl _
  | ok summary =>
    refine .guard ?_
    rw [show (⟨s.engine.unstored, d⟩ : System).engine.baselines = s.engine.baselines from rfl,
      show (⟨s.engine.unstored, d⟩ : System).engine.policy = s.engine.policy from rfl]
    cases hadd : s.engine.baselines.add (request.baseline now s.engine.policy summary) with
    | error e => exact .failed rfl rfl _
    | ok added =>
      obtain ⟨id, baselines⟩ := added
      unfold storeBaseline
      dsimp only [withEngine]
      cases hget : baselines.get id with
      | error e => exact .failed rfl rfl _
      | ok stored =>
        have hentries : (Call.createBaseline request).entries s.engine now =
            [(.baseline, encodeWith fun w => writeBaseline w stored)] := by
          simp only [Call.entries, hsummary, hadd, hget]
        have hpersist := @persist_mirrors now (s.withEngine { s.engine with baselines })
          ⟨({ s.engine with baselines } : Engine).unstored, d⟩ rfl .baseline (encodeWith fun w => writeBaseline w stored)
          true
        rw [hentries]
        exact (@Mirrors.start now s _ _ _ { s.engine with baselines } rfl hpersist).report id
          (f := fun e => { e with
            stats := { e.stats with
              recordsPersisted := e.stats.recordsPersisted + 1
              baselines := e.baselines.baselines.size } }) (fun _ => rfl) fun _ => rfl

/-- **One call.** -/
theorem call_mirrors (h : t.engine = s.engine.unstored) (now : Nanos) {c : Call} (hopen : c ≠ .shutdown) :
    Mirrors now s (s.call now c) (t.call now c) (c.entries s.engine now) := by
  cases c with
  | defineSource descriptor => exact define_mirrors h rfl rfl
  | defineEndpoint definition => exact define_mirrors h rfl rfl
  | defineLink definition => exact define_mirrors h rfl rfl
  | defineQueue definition => exact define_mirrors h rfl rfl
  | defineHop definition => exact define_mirrors h rfl rfl
  | defineGeneration definition => exact define_mirrors h rfl rfl
  | definePath definition => exact define_mirrors h rfl rfl
  | defineClockDomain definition => exact define_mirrors h rfl rfl
  | recordClockSync sync =>
    rw [call, call, ← outcome_status (s.recordClockSync now sync), ← outcome_status (t.recordClockSync now sync)]
    exact define_mirrors h rfl rfl
  | ingest request => exact ingest_mirrors h request
  | createBaseline request => exact createBaseline_mirrors h request
  | flush =>
    obtain ⟨e, d⟩ := t
    subst h
    have hflush : s.flush.1 = .ok () ∧ s.flush.2.engine = s.engine := by
      unfold flush
      split
      · exact ⟨rfl, rfl⟩
      · rename_i writer hwriter
        exact s.sync_spec hwriter
    exact @Mirrors.synced now s s.flush ⟨s.engine.unstored, d⟩ rfl hflush.1 hflush.2
  | shutdown => exact absurd rfl hopen

end System

/-! ### Runs -/

/-- Every call of the run succeeds. -/
def Succeeds (s : System) (calls : List (Nanos × Call)) : Prop :=
  ∀ p ∈ Lib.steps System.step s calls, (p.1.call p.2.1 p.2.2).1 = .ok ()

instance (s : System) (calls : List (Nanos × Call)) : Decidable (Succeeds s calls) :=
  inferInstanceAs (Decidable (∀ p ∈ Lib.steps System.step s calls, (p.1.call p.2.1 p.2.2).1 = .ok ()))

/-- The records of the calls of a run that succeeded. -/
def acknowledged (s : System) (calls : List (Nanos × Call)) : List Entry :=
  (Lib.steps System.step s calls).flatMap fun p =>
    if (p.1.call p.2.1 p.2.2).1.isOk then p.2.2.entries p.1.engine p.2.1 else []

@[simp] theorem acknowledged_nil (s : System) : acknowledged s [] = [] := rfl

theorem acknowledged_cons (s : System) (c : Nanos × Call) (calls : List (Nanos × Call)) :
    acknowledged s (c :: calls) =
      (if (s.call c.1 c.2).1.isOk then c.2.entries s.engine c.1 else []) ++ acknowledged (s.step c) calls := rfl

theorem Succeeds.cons_iff {s : System} {c : Nanos × Call} {calls : List (Nanos × Call)} :
    Succeeds s (c :: calls) ↔ (s.call c.1 c.2).1 = .ok () ∧ Succeeds (s.step c) calls :=
  List.forall_mem_cons

/-- What the store can take of a run that goes on. -/
def Engine.Affords (e : Engine) (entries : List Entry) : Prop :=
  ∀ w, e.writer = some w → w.Affords entries

/-- A state of a run and the one that the same run without a store is in. -/
def Unstored (p q : System × (Nanos × Call)) : Prop :=
  q.1.engine = p.1.engine.unstored ∧ q.2 = p.2

/-- **A run without its store.** If the store affords all records of a run, the run goes as without it. -/
theorem run_unstored {s t : System} (h : t.engine = s.engine.unstored) {calls : List (Nanos × Call)}
    (hopen : ∀ c ∈ calls, c.2 ≠ .shutdown) (hok : Succeeds t calls) (hroom : s.engine.Affords (acknowledged t calls)) :
    Succeeds s calls ∧ acknowledged s calls = acknowledged t calls ∧
      (calls.foldl System.step t).engine = (calls.foldl System.step s).engine.unstored ∧
      List.Forall₂ Unstored (Lib.steps System.step s calls) (Lib.steps System.step t calls) := by
  induction calls generalizing s t with
  | nil => exact ⟨by simp [Succeeds, Lib.steps], rfl, h, .nil⟩
  | cons c calls ih =>
    rw [List.forall_mem_cons] at hopen
    rw [Succeeds.cons_iff] at hok
    obtain ⟨hdone, hrest⟩ := hok
    obtain ⟨hiff, hengine, hwriter⟩ := System.call_mirrors h c.1 hopen.1
    have hentries : c.2.entries t.engine c.1 = c.2.entries s.engine c.1 := by
      rw [h]
      cases c.2 <;> rfl
    have hsplit : acknowledged t (c :: calls) = c.2.entries s.engine c.1 ++ acknowledged (t.step c) calls := by
      rw [acknowledged_cons, hdone, hentries]
      rfl
    rw [hsplit] at hroom
    have htakes : s.engine.takes c.1 (c.2.entries s.engine c.1) = true := by
      unfold Engine.takes
      split
      · rfl
      · rename_i w hw
        exact ((hroom w hw).takesAll c.1).1
    have hfirst : (s.call c.1 c.2).1 = .ok () := hiff.mpr ⟨hdone, htakes⟩
    have hafter : (s.step c).engine.Affords (acknowledged (t.step c) calls) := by
      intro w hw
      obtain ⟨before, hbefore, rfl⟩ := Option.map_eq_some_iff.mp ((hwriter hfirst).symm.trans hw)
      exact ((hroom before hbefore).takesAll c.1).2
    obtain ⟨hall, hsame, hlast, hsteps⟩ := @ih (s.step c) (t.step c) (hengine hfirst) hopen.2 hrest hafter
    refine ⟨Succeeds.cons_iff.mpr ⟨hfirst, hall⟩, ?_, hlast, .cons ⟨h, rfl⟩ hsteps⟩
    rw [hsplit, acknowledged_cons, hfirst, hsame]
    rfl

end LatencyObservatory.Runtime
