import LatencyObservatory.Baselines.RoundTrip
import LatencyObservatory.Runtime.Queries
import LatencyObservatory.Runtime.Reachable

/-!
# Baselines after a restart

A baseline that the engine stores is what the summary and the request make of it, so that its text is read back
exactly if the request passes the checks of the decoder. The registry makes none of them: bounds that the policy
allows, but of which there are more than by default, are written and not read.
-/

namespace LatencyObservatory.Runtime

open LatencyObservatory.Core LatencyObservatory.Model LatencyObservatory.Stats LatencyObservatory.Baselines
open LatencyObservatory.Store

namespace System

theorem add_kept {store store' : BaselineStore} {baseline : Baseline} {id : BaselineId}
    (h : store.add baseline = .ok (id, store')) :
    store'.get id = .ok { baseline with id, evidence := baseline.evidence.addReason .aggregateDeterministic } := by
  unfold BaselineStore.add at h
  obtain ⟨-, h⟩ := guard_eq_ok_iff.mp h
  obtain ⟨-, h⟩ := guard_eq_ok_iff.mp h
  obtain ⟨-, h⟩ := guard_eq_ok_iff.mp h
  obtain ⟨-, h⟩ := guard_eq_ok_iff.mp h
  obtain ⟨-, h⟩ := guard_eq_ok_iff.mp h
  simp only [Except.ok.injEq, Prod.mk.injEq] at h
  obtain ⟨rfl, rfl⟩ := h
  exact Catalog.lookup_ok_iff.mpr Std.ExtTreeMap.getElem?_insert_self

theorem createBaseline_ok {s s' : System} {now : Nanos} {request : BaselineRequest} {id : BaselineId}
    (h : s.createBaseline now request = (.ok id, s')) :
    ∃ summary, s.engine.summarize request.summary = .ok summary ∧
      s'.engine.baselines.get id = .ok { request.baseline now s.engine.policy summary with
        id, evidence := (request.baseline now s.engine.policy summary).evidence.addReason .aggregateDeterministic } := by
  have hdown : s.engine.shutDown = false := by
    rw [← Bool.not_eq_true]
    intro hdown
    unfold createBaseline at h
    rw [if_pos hdown] at h
    simp at h
  have hafter : (outcome (s.createBaseline now request)).2 = s' := by rw [h]; rfl
  unfold createBaseline at h
  rw [if_neg (by simp [hdown])] at h
  cases hsummary : s.engine.summarize request.summary with
  | error e => rw [hsummary] at h; simp at h
  | ok summary =>
    rw [hsummary] at h
    by_cases hnone : summary.exchangesIncluded = 0
    · simp [hnone] at h
    · cases hadd : s.engine.baselines.add (request.baseline now s.engine.policy summary) with
      | error e => simp [hnone, hadd] at h
      | ok added =>
        have hkept := add_kept hadd
        simp only [hnone, hadd, if_false] at h
        unfold storeBaseline at h
        rw [show (s.withEngine { s.engine with baselines := added.2 }).engine.baselines.get added.1 = _ from hkept] at h
        obtain ⟨-, hmemory, -⟩ := createBaseline_of_added hdown hsummary hnone hadd hkept
        have hid : added.1 = id := by
          simp only at h
          split at h
          · simp at h
          · simp only [Prod.mk.injEq, Except.ok.injEq] at h
            exact h.1
        subst hid
        refine ⟨summary, rfl, ?_⟩
        rw [hafter] at hmemory
        rw [show s'.engine.baselines = added.2 from congrArg Memory.baselines hmemory]
        exact hkept

theorem createBaseline_of {s : System} {now : Nanos} {request : BaselineRequest} {summary : PathSummary}
    {id : BaselineId} {evidence : Evidence} (hrecords : s.engine.records.length < 2 ^ 63)
    (h : s.engine.summarize request.summary = .ok summary) :
    Baseline.Of s.engine.records.length
      { request.baseline now s.engine.policy summary with id := id, evidence := evidence } := by
  have hof := summarize_of hrecords h
  unfold Engine.summarize summarize at h
  obtain ⟨hinvalid, -⟩ := guard_eq_ok_iff.mp h
  have hwindow : request.window.valid = true := by
    rwa [Bool.not_eq_true', Bool.not_eq_false] at hinvalid
  exact ⟨rfl, hwindow, hof.exchangesIncluded, hof.endToEnd, hof.hops⟩

/-- **Baselines after a restart.** Of a baseline that the engine has created, the text is read back, and what is read
compares with every later summary as the baseline itself, if and only if the name, the bounds under the default
limits and the probes of the request pass their own checks. -/
theorem created_survives_iff {s s' : System} {now : Nanos} {request : BaselineRequest} {id : BaselineId}
    (hdepth : 16 ≤ s.engine.policy.limits.maxJsonDepth) (hrecords : s.engine.records.length < 2 ^ 63)
    (hbounds : request.histogram.bounds.length + 1 < 2 ^ 63) (h : s.createBaseline now request = (.ok id, s')) :
    ∃ b, s'.engine.baselines.get id = .ok b ∧
      (b.Survives s.engine.policy ↔
        Name.parse request.name.str = .ok request.name ∧
          HistogramSpec.make request.histogram.bounds {} = .ok request.histogram ∧
          ∀ probe ∈ request.probes, probe.Valid) := by
  obtain ⟨summary, hsummary, hstored⟩ := createBaseline_ok h
  refine ⟨_, hstored, (survives_iff (createBaseline_of hrecords hsummary) hrecords hbounds (by omega)).trans ?_⟩
  exact ⟨fun hreadable => ⟨hreadable.name, hreadable.histogram, hreadable.probes⟩,
    fun ⟨hname, hhistogram, hprobes⟩ => ⟨hname, hhistogram, hprobes⟩⟩

end System

/-! ### Bounds -/

/-- A policy that allows more bounds than the default one. -/
def widePolicy : RuntimePolicy := { limits := { maxHistogramBuckets := 4096 } }

/-- One exchange on one path. -/
def oneExchange : List (Nanos × Call) :=
  [.defineGeneration Ingest.sampleGeneration, .defineHop Ingest.sampleHop, .definePath Ingest.samplePath,
    .defineSource (Ingest.sampleSource 1),
    .ingest { records := [Ingest.sampleRecord 1 7], receivedAt := ⟨2000000, referenceClockDomain⟩ }].map (0, ·)

/-- A runtime without a store under the wide policy. -/
def wideStart : System := ⟨.new { policy := widePolicy } ⟨0, referenceClockDomain⟩, ⟨.missing, none, []⟩⟩

def wideSystem : System := oneExchange.foldl System.step wideStart

/-- A baseline with this many bounds. -/
def boundRequest (bounds : Nat) : System.BaselineRequest :=
  { name := ⟨text "reference"⟩
    path := .deriveFrom Ingest.samplePath.name.str
    generation := .deriveFrom Ingest.sampleGeneration.name.str
    window := sampleWindow
    histogram := ⟨(List.range bounds).map Int64.ofNat⟩ }

theorem wideStart_created : create { policy := widePolicy } 0 ⟨.missing, none, []⟩ = .ok wideStart := by
  unfold create
  rw [show ({ policy := widePolicy } : RuntimeConfig).policy.validate = .ok () by decide +kernel]
  rfl

theorem created_of_isSome {s : System} {now : Nanos} {request : System.BaselineRequest}
    (h : (s.createBaseline now request).1.toOption.isSome = true) :
    ∃ id s', s.createBaseline now request = (.ok id, s') := by
  cases hresult : (s.createBaseline now request).1 with
  | error e =>
    rw [hresult] at h
    cases h
  | ok id => exact ⟨id, (s.createBaseline now request).2, Prod.ext hresult rfl⟩

/-- Three bounds survive. -/
theorem three_bounds_survive :
    ∃ id s' b, wideSystem.createBaseline 3 (boundRequest 3) = (.ok id, s') ∧ s'.engine.baselines.get id = .ok b ∧
      b.Survives wideSystem.engine.policy := by
  obtain ⟨id, s', hcreated⟩ := created_of_isSome (by decide +kernel :
    (wideSystem.createBaseline 3 (boundRequest 3)).1.toOption.isSome = true)
  obtain ⟨b, hstored, hsurvives⟩ := System.created_survives_iff (by decide +kernel) (by decide +kernel)
    (by decide +kernel) hcreated
  exact ⟨id, s', b, hcreated, hstored, hsurvives.mpr ⟨by decide +kernel, by decide +kernel, defaultQuantileProbes_valid⟩⟩

/-- One bound more than the default limit allows, under a policy that allows it: the baseline is created in a run
from the start and does not survive. -/
theorem wide_baseline_lost :
    widePolicy.validate = .ok () ∧ 16 ≤ widePolicy.limits.maxJsonDepth ∧
      create { policy := widePolicy } 0 ⟨.missing, none, []⟩ = .ok wideStart ∧
      wideSystem = oneExchange.foldl System.step wideStart ∧
      HistogramSpec.make (boundRequest 513).histogram.bounds widePolicy.limits = .ok (boundRequest 513).histogram ∧
      ∃ id s' b, wideSystem.createBaseline 3 (boundRequest 513) = (.ok id, s') ∧
        s'.engine.baselines.get id = .ok b ∧ ¬ b.Survives wideSystem.engine.policy := by
  have hbounds : HistogramSpec.make (boundRequest 513).histogram.bounds widePolicy.limits =
      .ok (boundRequest 513).histogram := by decide +kernel
  refine ⟨by decide +kernel, by decide +kernel, wideStart_created, rfl, hbounds, ?_⟩
  obtain ⟨id, s', hcreated⟩ := created_of_isSome (by decide +kernel :
    (wideSystem.createBaseline 3 (boundRequest 513)).1.toOption.isSome = true)
  obtain ⟨summary, hsummary, hstored⟩ := System.createBaseline_ok hcreated
  have hof := @System.createBaseline_of _ 3 _ _ id
    ((boundRequest 513).baseline 3 wideSystem.engine.policy summary |>.evidence.addReason .aggregateDeterministic)
    (by decide +kernel) hsummary
  refine ⟨id, s', _, hcreated, hstored, fun hsurvives => ?_⟩
  have hreadable := (survives_iff hof (by decide +kernel) (show (boundRequest 513).histogram.bounds.length + 1 < _ by
    decide +kernel) (by decide +kernel)).mp hsurvives
  have hrefused : (HistogramSpec.make (boundRequest 513).histogram.bounds {}).toOption.isSome = false := by
    decide +kernel
  have hmade : HistogramSpec.make (boundRequest 513).histogram.bounds {} = .ok (boundRequest 513).histogram :=
    hreadable.histogram
  rw [hmade] at hrefused
  cases hrefused

end LatencyObservatory.Runtime
