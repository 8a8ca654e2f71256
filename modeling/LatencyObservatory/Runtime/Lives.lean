import LatencyObservatory.Runtime.Restart

/-!
# Lives of a runtime

A store outlives the engines that write to it: one after the other they load it, run and shut down. Each finds the
catalog, the clocks and the fences as the last one left them, the same measurements up to what a restart decides anew,
and baselines that compare alike. So the log never becomes one that the next engine refuses.
-/

namespace LatencyObservatory.Runtime

open LatencyObservatory.Core LatencyObservatory.Model LatencyObservatory.Ingest LatencyObservatory.Stats
open LatencyObservatory.Baselines LatencyObservatory.Store

/-! ### Memories across restarts -/

/-- A record without what every restart decides anew. -/
def undated (record : MeasurementRecord) : MeasurementRecord :=
  { record.persisted with evidence := .ofState record.evidence.state .unknown record.evidence.confidence }

/-- Records that differ in freshness, reasons and monotonic time at most. -/
def SameReading (record other : MeasurementRecord) : Prop :=
  undated other = undated record

/-- Baselines of which a restart leaves the same. -/
def SameBaseline (b other : Baseline) : Prop :=
  other.reloaded = b.reloaded

theorem sameReading_loaded (e : Engine) (record : MeasurementRecord) :
    SameReading record (e.reclassifyLoaded record.persisted) := by
  -- Neither a freshness nor a reason moves the state and the confidence.
  have hkept : ∀ (evidence : Evidence) (code : ReasonCode),
      (evidence.addReason code).state = evidence.state ∧ (evidence.addReason code).confidence = evidence.confidence := by
    intro evidence code
    have hstanding := Evidence.addReason_standing evidence code []
    exact ⟨congrArg (fun standing => standing.1) hstanding, congrArg (fun standing => standing.2.2) hstanding⟩
  unfold SameReading undated Engine.reclassifyLoaded MeasurementRecord.persisted
  dsimp only
  split_ifs
  · rw [(hkept _ _).1, (hkept _ _).2, (hkept _ _).1, (hkept _ _).2]
    rfl
  · rw [(hkept _ _).1, (hkept _ _).2]
    rfl

theorem sameBaseline_reloaded (b : Baseline) : SameBaseline b b.reloaded := by
  unfold SameBaseline Baseline.reloaded Baseline.restored
  dsimp only
  rw [List.map_map, Evidence.addReason_state, Evidence.setState_state]
  rfl

theorem forall₂_across {α : Type} {R : α → α → Prop} (hR : ∀ x a b, R x a → R x b → R a b) {xs as bs : List α}
    (ha : List.Forall₂ R xs as) (hb : List.Forall₂ R xs bs) : List.Forall₂ R as bs := by
  induction ha generalizing bs with
  | nil =>
    cases hb
    exact .nil
  | cons hfirst _ ih =>
    cases hb with
    | cons hother hrest => exact .cons (hR _ _ _ hfirst hother) (ih hrest)

theorem Memory.Alike.across {R : MeasurementRecord → MeasurementRecord → Prop} {B : Baseline → Baseline → Prop}
    (hR : ∀ record a b, R record a → R record b → R a b) (hB : ∀ b x y, B b x → B b y → B x y) {m m₁ m₂ : Memory}
    (h₁ : m.Alike R B m₁) (h₂ : m.Alike R B m₂) : m₁.Alike R B m₂ where
  catalog := h₂.catalog.trans h₁.catalog.symm
  clocks := h₂.clocks.trans h₁.clocks.symm
  fences := h₂.fences.trans h₁.fences.symm
  records := forall₂_across hR h₁.records h₂.records
  baselines := by
    refine ⟨h₂.baselines.limits.trans h₁.baselines.limits.symm, h₂.baselines.policy.trans h₁.baselines.policy.symm,
      h₂.baselines.size.trans h₁.baselines.size.symm, fun id => ?_, h₂.baselines.byPath.trans h₁.baselines.byPath.symm⟩
    have hfirst := h₁.baselines.baselines id
    have hsecond := h₂.baselines.baselines id
    generalize m.baselines.baselines[id]? = here, m₁.baselines.baselines[id]? = there,
      m₂.baselines.baselines[id]? = yonder at hfirst hsecond ⊢
    cases hfirst with
    | none =>
      cases hsecond
      exact .none
    | some hx =>
      cases hsecond with
      | some hy => exact .some (hB _ _ _ hx hy)

theorem sameReading_across (record a b : MeasurementRecord) (ha : SameReading record a) (hb : SameReading record b) :
    SameReading a b :=
  hb.trans ha.symm

theorem sameBaseline_across (b x y : Baseline) (hx : SameBaseline b x) (hy : SameBaseline b y) : SameBaseline x y :=
  hy.trans hx.symm

/-! ### Lives -/

/-- The log is not longer than what the policy lets an engine load, and the files can be numbered. -/
structure Loadable (policy : RuntimePolicy) (log : List Entry) (d : Directory) : Prop where
  capacity : log.length ≤ policy.limits.maxTotalSamples
  count : log.length < 2 ^ 32
  files : d.files.length < 2 ^ 32 - 1

/-- A store path after any number of lives: what is there, what the last engine knew, and everything that was ever
stored. -/
inductive Lives (policy : RuntimePolicy) : Directory → Memory → List Entry → Prop
  | unused {d : Directory} (h : Directory.Unused d) :
      Lives policy d (Engine.new { policy } ⟨0, referenceClockDomain⟩).memory []
  | life {d : Directory} {m : Memory} {log : List Entry} (before : Lives policy d m log) {config : RuntimeConfig}
      (hpolicy : config.policy = policy) {directory : Bytes} (hstore : config.storeDirectory = some directory)
      {now : Nanos} {s : System} (hcreate : create config now d = .ok s) {calls : List (Nanos × Call)}
      (hok : Succeeds s calls) (hdown : (calls.foldl System.step s).engine.shutDown = true)
      (hrepeatable : Repeatable s calls)
      (hloadable : Loadable policy (log ++ acknowledged s calls) (calls.foldl System.step s).directory) :
      Lives policy (calls.foldl System.step s).directory (calls.foldl System.step s).engine.memory
        (log ++ acknowledged s calls)

/-- What carries over from one life to the next. -/
structure Continues (policy : RuntimePolicy) (d : Directory) (m : Memory) (log : List Entry) : Prop where
  carries : d.Carries log
  loadable : Loadable policy log d
  fences : Fences.Reached policy m.fences
  loads : Loads SameReading SameBaseline policy log m
  found : d.manifest.isSome = true ∨
    (Directory.Unused d ∧ m = (Engine.new { policy } ⟨0, referenceClockDomain⟩).memory)

theorem create_of_unused {d : Directory} (h : Directory.Unused d) {config : RuntimeConfig}
    (hvalid : config.policy.validate = .ok ()) {directory : Bytes} (hstore : config.storeDirectory = some directory)
    (hsome : directory ≠ []) (now : Nanos) :
    ∃ s, create config now d = .ok s ∧ s.engine.memory = (Engine.new config ⟨now, referenceClockDomain⟩).memory := by
  obtain ⟨w, d', hopen⟩ := @Directory.Kept.open d h.carries.kept
    ((Engine.new config ⟨now, referenceClockDomain⟩).storeConfig directory true) hsome rfl now
  refine ⟨⟨{ Engine.new config ⟨now, referenceClockDomain⟩ with writer := some w }, d'⟩, ?_, rfl⟩
  unfold create
  refine bind_eq_ok_iff.mpr ⟨(), hvalid, ?_⟩
  rw [hstore, h.manifest]
  exact bind_eq_ok_iff.mpr ⟨_, rfl, bind_eq_ok_iff.mpr ⟨_, hopen, rfl⟩⟩

theorem Continues.created {policy : RuntimePolicy} {d : Directory} {m : Memory} {log : List Entry}
    (h : Continues policy d m log) {config : RuntimeConfig} (hpolicy : config.policy = policy)
    (hvalid : policy.validate = .ok ()) {directory : Bytes} (hstore : config.storeDirectory = some directory)
    (hsome : directory ≠ []) (now : Nanos) :
    ∃ s, create config now d = .ok s ∧ m.Alike SameReading SameBaseline s.engine.memory := by
  subst hpolicy
  rcases h.found with hmanifest | ⟨hunused, rfl⟩
  · exact h.loads.create h.carries hmanifest hvalid hstore hsome h.loadable.capacity h.loadable.count h.loadable.files now
  · obtain ⟨s, hs, hmemory⟩ := create_of_unused hunused hvalid hstore hsome now
    refine ⟨s, hs, ?_⟩
    rw [hmemory]
    exact new_alike rfl _ ⟨now, referenceClockDomain⟩

theorem run_reached {s : System} (h : Fences.Reached s.engine.policy s.engine.fences) (calls : List (Nanos × Call)) :
    Fences.Reached (calls.foldl System.step s).engine.policy (calls.foldl System.step s).engine.fences := by
  induction calls generalizing s with
  | nil => exact h
  | cons c calls ih => exact ih (call_reached h c.1 c.2)

theorem run_policy (s : System) (calls : List (Nanos × Call)) :
    (calls.foldl System.step s).engine.policy = s.engine.policy := by
  induction calls generalizing s with
  | nil => rfl
  | cons c calls ih => exact (ih _).trans (congrArg RuntimeConfig.policy (s.call_config c.1 c.2))

theorem lives_continue {policy : RuntimePolicy} {d : Directory} {m : Memory} {log : List Entry}
    (h : Lives policy d m log) : Continues policy d m log := by
  induction h with
  | unused hunused =>
    exact ⟨hunused.carries, ⟨Nat.zero_le _, by simp, by rw [hunused.files]; simp⟩, Fences.reached_empty _,
      loads_new { policy } _, Or.inr ⟨hunused, rfl⟩⟩
  | life before hpolicy hstore hcreate hok hdown hrepeatable hloadable ih =>
    rename_i d m log config directory now s calls
    obtain ⟨hvalid, hsome⟩ := create_checked hcreate hstore
    have hsame : s.engine.policy = policy :=
      (congrArg RuntimeConfig.policy (create_backed hcreate hstore).1).trans hpolicy
    rw [hpolicy] at hvalid
    obtain ⟨s', hs', halike⟩ := ih.created hpolicy hvalid hstore hsome now
    obtain rfl : s = s' := Except.ok.inj (hcreate.symm.trans hs')
    have hfences : Fences.Reached s.engine.policy s.engine.fences := by
      rw [hsame, show s.engine.fences = m.fences from halike.fences]
      exact ih.fences
    have hloads : Loads SameReading SameBaseline s.engine.policy log s.engine.memory := by
      intro config' now' d' hpolicy' stored hstored
      obtain ⟨e, he, hother⟩ := ih.loads config' now' d' (hpolicy'.trans hsame) stored hstored
      exact ⟨e, he, halike.across sameReading_across sameBaseline_across hother⟩
    have hafter := hloads.run sameReading_loaded sameBaseline_reloaded hok hrepeatable hfences
      (by have hcount := hloadable.count; omega)
    have hreached := run_reached hfences calls
    rw [run_policy, hsame] at hreached
    rw [hsame] at hafter
    obtain ⟨hcarries, hmanifest⟩ := life_carries ih.carries hcreate hstore hok hdown hloadable.files
    exact ⟨hcarries, hloadable, hreached, hafter, Or.inl hmanifest⟩

/-- **Lives.** After any number of lives the next engine starts. It has the catalog, the clocks and the fences of the
last one, so it judges every batch as the last one would have, and its measurements and baselines are the same up to
what a restart decides anew. -/
theorem lives_resume {policy : RuntimePolicy} {d : Directory} {m : Memory} {log : List Entry}
    (h : Lives policy d m log) {config : RuntimeConfig} (hpolicy : config.policy = policy)
    (hvalid : policy.validate = .ok ()) {directory : Bytes} (hstore : config.storeDirectory = some directory)
    (hsome : directory ≠ []) (now : Nanos) :
    ∃ s, create config now d = .ok s ∧ m.Alike SameReading SameBaseline s.engine.memory ∧
      ∀ request : IngestRequest, s.engine.gate.admitBatch request =
        ({ policy, catalog := m.catalog, clocks := m.clocks, fences := m.fences } : IngestGate).admitBatch request := by
  obtain ⟨s, hs, halike⟩ := (lives_continue h).created hpolicy hvalid hstore hsome now
  refine ⟨s, hs, halike, fun request => ?_⟩
  have hsame : s.engine.policy = policy :=
    (congrArg RuntimeConfig.policy (create_backed hs hstore).1).trans hpolicy
  unfold Engine.gate
  rw [hsame, show s.engine.catalog = m.catalog from halike.catalog, show s.engine.clocks = m.clocks from halike.clocks,
    show s.engine.fences = m.fences from halike.fences]

/-- The second life registers another source. -/
def registrationCalls : List (Nanos × Call) := [(6, .defineSource (sampleSource 2))]

def registrationLife : List (Nanos × Call) := registrationCalls ++ [(7, .shutdown)]

theorem registered_ok {s : System} (hrunning : s.engine.shutDown = false) (hwritable : s.engine.config.readonly = false)
    (hcatalog : s.engine.catalog = deployed.engine.catalog) :
    (System.call ⟨s.engine.unstored, .empty⟩ 6 (.defineSource (sampleSource 2))).1 = .ok () := by
  obtain ⟨id, hid⟩ : ∃ id, (deployed.engine.catalog.defineSource (sampleSource 2)).1 = .ok id := by
    have hsome : (deployed.engine.catalog.defineSource (sampleSource 2)).1.isOk = true := by decide +kernel
    cases hresult : (deployed.engine.catalog.defineSource (sampleSource 2)).1 with
    | ok id => exact ⟨id, rfl⟩
    | error e =>
      rw [hresult] at hsome
      cases hsome
  rw [← hcatalog] at hid
  simp only [System.call, System.defineSource, System.define, Engine.unstored, hrunning, hid, Bool.false_eq_true, if_false,
    System.persist, System.withEngine, hwritable, outcome, Except.map]

theorem registration_life {d : Directory} {s : System} (hcreate : create storedConfig 5 d = .ok s)
    (hcatalog : s.engine.catalog = deployed.engine.catalog) :
    Succeeds s registrationLife ∧ Repeatable s registrationLife ∧ (acknowledged s registrationLife).length = 1 ∧
      (registrationLife.foldl System.step s).engine.shutDown = true := by
  obtain ⟨hconfig, w, d', hopen, hbacked⟩ := create_backed hcreate rfl
  have hpolicy : s.engine.policy = defaultPolicy := congrArg RuntimeConfig.policy hconfig
  have hdone := registered_ok hbacked.running (by rw [hconfig]; rfl) hcatalog
  have hok : Succeeds ⟨s.engine.unstored, .empty⟩ registrationCalls :=
    Succeeds.cons_iff.mpr ⟨hdone, fun p hp => absurd hp List.not_mem_nil⟩
  have hname : Name.parse (sampleSource 2).name.str = .ok (sampleSource 2).name := by decide +kernel
  have hdepth : 2 ≤ s.engine.policy.limits.maxJsonDepth := by
    rw [hpolicy]
    decide
  have hrepeatable : Repeatable ⟨s.engine.unstored, .empty⟩ registrationCalls :=
    List.forall_mem_singleton.mpr ⟨hname, hdepth⟩
  have hdocuments : documents ⟨s.engine.unstored, .empty⟩ registrationCalls = [sourceJson (sampleSource 2)] := by
    unfold documents registrationCalls
    simp only [Lib.steps, List.flatMap_cons, List.flatMap_nil, hdone]
    rfl
  have hroom : s.engine.Affords (acknowledged ⟨s.engine.unstored, .empty⟩ registrationCalls) := by
    have hwritten := acknowledged_writtenAs ⟨s.engine.unstored, .empty⟩ registrationCalls
    rw [hdocuments] at hwritten
    intro writer hwriter
    obtain rfl := Option.some.inj (hbacked.writer.symm.trans hwriter)
    obtain ⟨-, hw⟩ := open_spec hopen
    dsimp only
    rw [hw]
    refine hwritten.affords_new rfl rfl (by decide +kernel) ?_ ?_
    · show _ ≤ s.engine.policy.limits.maxSegmentBytes
      rw [hpolicy]
      decide +kernel
    · show _ ≤ s.engine.policy.limits.maxStoreBytes
      rw [hpolicy]
      decide +kernel
  obtain ⟨hall, hagain, hentries, hdown, -⟩ := @closing_run s ⟨s.engine.unstored, .empty⟩ rfl registrationCalls
    (by simp [registrationCalls]) hok hroom hrepeatable 7 registrationLife rfl
  refine ⟨hall, hagain, ?_, hdown⟩
  have hlength := congrArg List.length (acknowledged_writtenAs ⟨s.engine.unstored, .empty⟩ registrationCalls)
  rw [List.length_map, List.length_map, hdocuments] at hlength
  rw [hentries]
  exact hlength

/-- A deployment, and a second life in which another source is registered. -/
theorem registration_resumes :
    ∃ second, create storedConfig 5 (deploymentLife.foldl System.step storedStart).directory = .ok second ∧
      Succeeds second registrationLife ∧
      ∃ third, create storedConfig 8 (registrationLife.foldl System.step second).directory = .ok third ∧
        (registrationLife.foldl System.step second).engine.memory.Alike SameReading SameBaseline third.engine.memory := by
  obtain ⟨hok, hrepeatable, hdown, hlength, hmemory⟩ := deployment_life
  have hfirstFiles := life_files stored_created rfl hok
  rw [hlength] at hfirstFiles
  have hfirst : Lives defaultPolicy (deploymentLife.foldl System.step storedStart).directory
      (deploymentLife.foldl System.step storedStart).engine.memory ([] ++ acknowledged storedStart deploymentLife) := by
    refine .life (.unused ⟨rfl, by decide, rfl⟩) rfl rfl stored_created hok hdown hrepeatable ⟨?_, ?_, ?_⟩
    · rw [List.nil_append, hlength]
      decide
    · rw [List.nil_append, hlength]
      decide
    · exact lt_of_le_of_lt hfirstFiles (by decide)
  obtain ⟨second, hsecond, halike, -⟩ := @lives_resume defaultPolicy _ _ _ hfirst storedConfig rfl defaultPolicy_validate
    (text "store") rfl (by decide) 5
  have hkept : ∀ e : Engine, e.memory.catalog = e.catalog := fun _ => rfl
  have hcatalog := halike.catalog
  rw [hmemory, hkept, hkept] at hcatalog
  obtain ⟨hokAgain, hagain, hone, hdownAgain⟩ := registration_life hsecond hcatalog
  have hfiles := life_files hsecond rfl hokAgain
  rw [hone] at hfiles
  have hboth : Lives defaultPolicy (registrationLife.foldl System.step second).directory
      (registrationLife.foldl System.step second).engine.memory
      (([] ++ acknowledged storedStart deploymentLife) ++ acknowledged second registrationLife) := by
    refine .life hfirst rfl rfl hsecond hokAgain hdownAgain hagain ⟨?_, ?_, ?_⟩
    · rw [List.nil_append, List.length_append, hlength, hone]
      decide
    · rw [List.nil_append, List.length_append, hlength, hone]
      decide
    · exact lt_of_le_of_lt (hfiles.trans (Nat.add_le_add_right hfirstFiles 1)) (by decide)
  obtain ⟨third, hthird, hlast, -⟩ := @lives_resume defaultPolicy _ _ _ hboth storedConfig rfl defaultPolicy_validate
    (text "store") rfl (by decide) 8
  exact ⟨second, hsecond, hokAgain, third, hthird, hlast⟩

end LatencyObservatory.Runtime
