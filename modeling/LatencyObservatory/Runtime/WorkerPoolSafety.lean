import LatencyObservatory.Lib.Steps
import LatencyObservatory.Runtime.WorkerPool
import Mathlib.Data.List.Nodup

/-!
# Safety of the worker pool

Every accepted task is in exactly one place: in the queue, in the hands of a worker, among the tasks that
`shutdown` has abandoned, or settled. Each section moves a task from one place to the next, and this is the
whole argument for the promises. The counters follow the settled tasks, one behind while `shutdown` has set
a promise and not yet counted it.
-/

namespace LatencyObservatory.Runtime

open LatencyObservatory.Core

/-! ### Where the tasks are -/

def Worker.ids : Worker → List Nat
  | .waiting => []
  | .holding task => [task.id]
  | .done task _ => [task.id]
  | .exited => []

namespace ShutdownPhase

def abandoned : ShutdownPhase → List QueuedTask
  | .settling tasks => tasks
  | .counting tasks => tasks
  | _ => []

/-- Promises that `shutdown` has set and not yet counted. -/
def uncounted : ShutdownPhase → Nat
  | .counting _ => 1
  | _ => 0

/-- The queue has been drained or abandoned. -/
def cleared : ShutdownPhase → Bool
  | .settling _ => true
  | .counting _ => true
  | .returned => true
  | _ => false

def called : ShutdownPhase → Bool
  | .notCalled => false
  | _ => true

theorem called_of_cleared {phase : ShutdownPhase} (h : phase.cleared = true) : phase.called = true := by
  cases phase with
  | notCalled => cases h
  | _ => rfl

end ShutdownPhase

namespace WorkerPool

/-- The tasks in the hands of the workers. -/
def held (pool : WorkerPool) : List Nat :=
  pool.workers.flatMap Worker.ids

/-- How often a task occurs in all places together. -/
def occurrences (pool : WorkerPool) (id : Nat) : Nat :=
  (pool.queue.map (·.id)).count id + pool.held.count id + (pool.phase.abandoned.map (·.id)).count id +
    (pool.settled.map (·.1)).count id

/-- The accounting of the pool. -/
structure Accounted (pool : WorkerPool) : Prop where
  bounded : pool.queue.length ≤ pool.config.queueDepth
  located : ∀ id, pool.occurrences id = if id < pool.stats.submitted then 1 else 0
  active : pool.active = pool.held.length
  counted : pool.stats.completed + pool.stats.failed + pool.stats.cancelled + pool.phase.uncounted =
    pool.settled.length
  stopping : pool.phase.called = true → pool.stopping = true
  cleared : pool.phase.cleared = true → pool.queue = []
  left : (pool.phase matches .returned) = true → pool.held = [] ∧ pool.phase.abandoned = []

section Held

variable {pool : WorkerPool} {worker : Nat} {old new : Worker}

theorem held_count_set (h : pool.workers[worker]? = some old) (id : Nat) :
    ((pool.workers.set worker new).flatMap Worker.ids).count id + old.ids.count id =
      pool.held.count id + new.ids.count id := by
  unfold held
  rw [List.count_flatMap, List.count_flatMap]
  exact @Lib.sum_map_set _ (List.count id ∘ Worker.ids) _ _ _ _ h

theorem held_length_set (h : pool.workers[worker]? = some old) :
    ((pool.workers.set worker new).flatMap Worker.ids).length + old.ids.length =
      pool.held.length + new.ids.length := by
  unfold held
  rw [List.length_flatMap, List.length_flatMap]
  exact @Lib.sum_map_set _ (fun worker => worker.ids.length) _ _ _ _ h

end Held

/-! ### Each section keeps the account -/

theorem start_accounted (config : Config) : (start config).Accounted where
  bounded := Nat.zero_le _
  located := by
    intro id
    have hheld : (start config).held = [] := by simp [held, start, Worker.ids]
    unfold occurrences
    rw [hheld]
    simp [start, ShutdownPhase.abandoned]
  active := by simp [held, start, Worker.ids]
  counted := rfl
  stopping := by intro h; cases h
  cleared := by intro h; cases h
  left := by intro h; cases h

variable {pool : WorkerPool}

theorem submit_accounted (h : pool.Accounted) (empty reentrant : Bool) :
    (pool.submit empty reentrant).2.Accounted := by
  unfold submit
  split_ifs with hempty hreentrant hstopping hfull
  · exact h
  · exact { h with }
  · exact h
  · exact { h with }
  · have hopen : pool.phase.cleared = false := by
      by_contra hcleared
      exact hstopping (h.stopping (ShutdownPhase.called_of_cleared (Bool.not_eq_false _ ▸ hcleared)))
    refine { h with bounded := ?_, located := ?_, cleared := ?_ }
    · simp only [List.length_append, List.length_singleton]
      omega
    · intro id
      have hlocated := h.located id
      unfold occurrences held at hlocated ⊢
      simp only [List.map_append, List.map_cons, List.map_nil, List.count_append, List.count_singleton,
        beq_iff_eq] at hlocated ⊢
      split_ifs at hlocated ⊢ <;> omega
    · intro hcleared
      rw [hopen] at hcleared
      cases hcleared

theorem replaceWorker_accounted (h : pool.Accounted) {worker : Nat} {old : Worker}
    (hworker : pool.workers[worker]? = some old) (new : Worker) (hids : new.ids = old.ids) (ran : List Nat) :
    { pool with workers := pool.workers.set worker new, ran := ran }.Accounted := by
  have hcount := @held_count_set pool worker old new hworker
  have hlength := @held_length_set pool worker old new hworker
  simp only [hids, Nat.add_right_cancel_iff] at hcount hlength
  refine { h with located := ?_, active := ?_, left := ?_ }
  · intro id
    have hlocated := h.located id
    unfold occurrences at hlocated ⊢
    rw [← hcount] at hlocated
    exact hlocated
  · rw [h.active, ← hlength]
    rfl
  · intro hreturned
    refine ⟨?_, (h.left hreturned).2⟩
    rw [← List.length_eq_zero_iff]
    exact hlength.trans (by rw [(h.left hreturned).1]; rfl)

theorem take_accounted (h : pool.Accounted) (worker : Nat) : (pool.take worker).Accounted := by
  unfold take
  split
  · rename_i task rest hworker hqueue
    have hopen : pool.phase.cleared = false := by
      by_contra hcleared
      have hempty := h.cleared (Bool.not_eq_false _ ▸ hcleared)
      rw [hqueue] at hempty
      cases hempty
    refine { h with bounded := ?_, located := ?_, active := ?_, cleared := ?_, left := ?_ }
    · have hbounded := h.bounded
      rw [hqueue, List.length_cons] at hbounded
      show rest.length ≤ pool.config.queueDepth
      omega
    · intro id
      have hlocated := h.located id
      have hheld := @held_count_set pool worker _ (.holding task) hworker id
      unfold occurrences at hlocated ⊢
      rw [hqueue] at hlocated
      simp only [held, Worker.ids, List.count_nil, List.map_cons, List.count_cons, beq_iff_eq] at hlocated hheld ⊢
      omega
    · have hactive := h.active
      have hheld := @held_length_set pool worker _ (.holding task) hworker
      simp only [held, Worker.ids, List.length_nil, List.length_singleton] at hactive hheld ⊢
      omega
    · intro hcleared
      rw [hopen] at hcleared
      cases hcleared
    · intro hreturned
      exfalso
      revert hreturned hopen
      cases pool.phase <;> simp [ShutdownPhase.cleared]
  · rename_i hworker hqueue
    split_ifs
    · exact replaceWorker_accounted h hworker .exited rfl pool.ran
    · exact h
  · exact h

theorem execute_accounted (h : pool.Accounted) (worker : Nat) (result : TaskResult) :
    (pool.execute worker result).Accounted := by
  unfold execute
  split
  swap
  · exact h
  rename_i task hworker
  split_ifs
  · exact replaceWorker_accounted h hworker (.done task _) rfl pool.ran
  · exact replaceWorker_accounted h hworker (.done task _) rfl (pool.ran ++ [task.id])

theorem Stats.count_submitted (stats : Stats) (outcome : Except Error Bytes) :
    (stats.count outcome).submitted = stats.submitted := by
  unfold Stats.count
  split
  · rfl
  · split_ifs <;> rfl

theorem setValue_of_unsettled {id : Nat} (hunsettled : (pool.settled.map (·.1)).count id = 0)
    (outcome : Except Error Bytes) :
    pool.setValue id outcome = some { pool with settled := pool.settled ++ [(id, outcome)] } := by
  unfold setValue
  rw [if_neg]
  rw [← List.count_eq_zero]
  exact hunsettled

theorem finish_eq (h : pool.Accounted) {worker : Nat} {task : QueuedTask} {outcome : Except Error Bytes}
    (hworker : pool.workers[worker]? = some (.done task outcome)) :
    pool.finish worker = { pool with
      active := pool.active - 1
      stats := pool.stats.count outcome
      workers := pool.workers.set worker .waiting
      settled := pool.settled ++ [(task.id, outcome)] } := by
  have hlocated := h.located task.id
  have hheld := @held_count_set pool worker _ .waiting hworker task.id
  simp only [Worker.ids, List.count_nil, List.count_singleton_self] at hheld
  have hunsettled : (pool.settled.map (·.1)).count task.id = 0 := by
    unfold occurrences at hlocated
    split_ifs at hlocated <;> omega
  unfold finish
  rw [hworker]
  dsimp only
  rw [setValue_of_unsettled (by exact hunsettled)]
  rfl

theorem finish_accounted (h : pool.Accounted) (worker : Nat) : (pool.finish worker).Accounted := by
  cases hworker : pool.workers[worker]? with
  | none =>
    unfold finish
    rw [hworker]
    exact h
  | some state =>
    cases state with
    | done task outcome =>
      rw [finish_eq h hworker]
      have hcount := @held_count_set pool worker _ .waiting hworker
      have hlength := @held_length_set pool worker _ .waiting hworker
      simp only [Worker.ids, List.count_nil, List.length_nil, List.length_singleton, Nat.add_zero] at hcount hlength
      refine { h with located := ?_, active := ?_, counted := ?_, left := ?_ }
      · intro id
        have hlocated := h.located id
        have hheld := hcount id
        unfold occurrences at hlocated ⊢
        rw [Stats.count_submitted, ← hlocated]
        simp only [held, List.map_append, List.map_cons, List.map_nil, List.count_append] at hheld ⊢
        omega
      · have hactive := h.active
        show pool.active - 1 = ((pool.workers.set worker .waiting).flatMap Worker.ids).length
        omega
      · have hcounted := h.counted
        simp only [List.length_append, List.length_singleton, ← hcounted]
        unfold Stats.count
        split
        · dsimp only
          omega
        · split_ifs
          · dsimp only
            omega
          · dsimp only
            omega
      · intro hreturned
        rw [(h.left hreturned).1] at hlength
        simp at hlength
    | _ =>
      unfold finish
      rw [hworker]
      exact h

theorem cancelPending_accounted (h : pool.Accounted) (reason : String) : (pool.cancelPending reason).Accounted := by
  have hids : (pool.cancelPending reason).queue.map (·.id) = pool.queue.map (·.id) := by
    simp [cancelPending]
  refine { h with bounded := ?_, located := ?_, cleared := ?_ }
  · show (pool.queue.map _).length ≤ _
    rw [List.length_map]
    exact h.bounded
  · intro id
    have hlocated := h.located id
    unfold occurrences at hlocated ⊢
    rw [hids]
    exact hlocated
  · intro hcleared
    show pool.queue.map _ = []
    rw [h.cleared hcleared]
    rfl

theorem beginShutdown_accounted (h : pool.Accounted) (drain : Bool) : (pool.beginShutdown drain).Accounted := by
  unfold beginShutdown
  split
  swap
  · exact h
  rename_i hphase
  have hlocated := h.located
  have hcounted := h.counted
  unfold occurrences at hlocated
  rw [hphase] at hlocated hcounted
  simp only [ShutdownPhase.abandoned, ShutdownPhase.uncounted, List.map_nil, List.count_nil, Nat.add_zero]
    at hlocated hcounted
  split_ifs
  · refine ⟨h.bounded, ?_, h.active, hcounted, ?_, ?_, ?_⟩
    · intro id
      exact hlocated id
    · exact fun _ => rfl
    · intro hcleared
      cases hcleared
    · intro hreturned
      cases hreturned
  · refine ⟨Nat.zero_le _, ?_, h.active, hcounted, fun _ => rfl, fun _ => rfl, ?_⟩
    · intro id
      unfold occurrences
      simp only [ShutdownPhase.abandoned, List.map_nil, List.count_nil]
      rw [← hlocated id]
      show 0 + pool.held.count id + _ + _ = _
      omega
    · intro hreturned
      cases hreturned

/-- The error an abandoned task is settled with. -/
def abandonedOutcome : Except Error Bytes :=
  .error ⟨.cancelled, "the runtime shut down before the task started", []⟩

/-- Everything the later sections of `shutdown` can do. -/
inductive Continued (pool : WorkerPool) : WorkerPool → Prop
  | blocked : Continued pool pool
  | drained (draining : pool.phase = .draining) (empty : pool.queue = []) :
      Continued pool { pool with phase := .settling [] }
  | settled (task : QueuedTask) (rest : List QueuedTask) (settling : pool.phase = .settling (task :: rest)) :
      Continued pool { pool with
        settled := pool.settled ++ [(task.id, abandonedOutcome)], phase := .counting rest }
  | counted (rest : List QueuedTask) (counting : pool.phase = .counting rest) :
      Continued pool { pool with
        stats := { pool.stats with cancelled := pool.stats.cancelled + 1 }, phase := .settling rest }
  | joined (settling : pool.phase = .settling []) (exited : pool.held = []) :
      Continued pool { pool with phase := .returned }

theorem held_eq_nil (h : pool.workers.all (fun worker => worker matches .exited) = true) : pool.held = [] := by
  unfold held
  rw [List.flatMap_eq_nil_iff]
  intro worker hworker
  have hexited := List.all_eq_true.mp h worker hworker
  cases worker with
  | exited => rfl
  | _ => cases hexited

/-- An abandoned task is nowhere else, so the branch for a promise that is set already is never taken. -/
theorem continueShutdown_continued (h : pool.Accounted) : pool.Continued pool.continueShutdown := by
  unfold continueShutdown
  cases hphase : pool.phase with
  | notCalled => exact .blocked
  | returned => exact .blocked
  | draining =>
    dsimp only
    split_ifs with hidle
    · exact .drained hphase hidle.1
    · exact .blocked
  | counting rest => exact .counted rest hphase
  | settling abandoned =>
    cases abandoned with
    | nil =>
      dsimp only
      split_ifs with hexited
      · exact .joined hphase (held_eq_nil hexited)
      · exact .blocked
    | cons task rest =>
      have hlocated := h.located task.id
      have hunsettled : (pool.settled.map (·.1)).count task.id = 0 := by
        unfold occurrences at hlocated
        rw [hphase] at hlocated
        simp only [ShutdownPhase.abandoned, List.map_cons, List.count_cons_self] at hlocated
        split_ifs at hlocated <;> omega
      dsimp only
      rw [setValue_of_unsettled hunsettled]
      exact .settled task rest hphase

theorem continueShutdown_accounted (h : pool.Accounted) : pool.continueShutdown.Accounted := by
  have hlocated := h.located
  have hcounted := h.counted
  unfold occurrences at hlocated
  have hcontinued := continueShutdown_continued h
  revert hcontinued
  generalize pool.continueShutdown = next
  intro hcontinued
  cases hcontinued with
  | blocked => exact h
  | drained hphase hempty =>
    rw [hphase] at hlocated hcounted
    have hcalled : pool.phase.called = true := by rw [hphase]; rfl
    exact ⟨h.bounded, hlocated, h.active, hcounted, fun _ => h.stopping hcalled, fun _ => hempty,
      fun hreturned => by cases hreturned⟩
  | settled task rest hphase =>
    rw [hphase] at hlocated hcounted
    have hcleared : pool.phase.cleared = true := by rw [hphase]; rfl
    have hcalled := ShutdownPhase.called_of_cleared hcleared
    refine ⟨h.bounded, ?_, h.active, ?_, fun _ => h.stopping hcalled, fun _ => h.cleared hcleared,
      fun hreturned => by cases hreturned⟩
    · intro id
      have hid := hlocated id
      unfold occurrences
      simp only [ShutdownPhase.abandoned, List.map_cons, List.map_append, List.map_nil, List.count_append,
        List.count_cons, List.count_nil] at hid ⊢
      rw [← hid]
      show _ + pool.held.count id + _ + _ = _
      omega
    · simp only [ShutdownPhase.uncounted, List.length_append, List.length_singleton] at hcounted ⊢
      omega
  | counted rest hphase =>
    rw [hphase] at hlocated hcounted
    have hcleared : pool.phase.cleared = true := by rw [hphase]; rfl
    have hcalled := ShutdownPhase.called_of_cleared hcleared
    refine ⟨h.bounded, hlocated, h.active, ?_, fun _ => h.stopping hcalled, fun _ => h.cleared hcleared,
      fun hreturned => by cases hreturned⟩
    simp only [ShutdownPhase.uncounted] at hcounted ⊢
    omega
  | joined hphase hexited =>
    rw [hphase] at hlocated hcounted
    have hcleared : pool.phase.cleared = true := by rw [hphase]; rfl
    have hcalled := ShutdownPhase.called_of_cleared hcleared
    exact ⟨h.bounded, hlocated, h.active, hcounted, fun _ => h.stopping hcalled, fun _ => h.cleared hcleared,
      fun _ => ⟨hexited, rfl⟩⟩

theorem step_accounted (pool : WorkerPool) (event : Event) (h : pool.Accounted) : (pool.step event).Accounted := by
  cases event with
  | submit empty reentrant => exact submit_accounted h empty reentrant
  | take worker => exact take_accounted h worker
  | execute worker result => exact execute_accounted h worker result
  | finish worker => exact finish_accounted h worker
  | cancelPending reason => exact cancelPending_accounted h reason
  | beginShutdown drain => exact beginShutdown_accounted h drain
  | continueShutdown => exact continueShutdown_accounted h

/-! ### Cancelled in the queue -/

def isCancelled : Except Error Bytes → Bool
  | .ok _ => false
  | .error e => e.code = .cancelled

/-- A task whose token was cancelled in the queue keeps the cancelled token until a worker sees it, and settles
as cancelled. A task whose function was called is in the hands of a worker, or settled. -/
structure Withdrawn (pool : WorkerPool) : Prop where
  known : ∀ id ∈ pool.withdrawn, id < pool.stats.submitted
  queued : ∀ task ∈ pool.queue, task.id ∈ pool.withdrawn → task.token.cancelled = true
  holding : ∀ task, Worker.holding task ∈ pool.workers → task.id ∈ pool.withdrawn → task.token.cancelled = true
  done : ∀ task outcome, Worker.done task outcome ∈ pool.workers → task.id ∈ pool.withdrawn →
    isCancelled outcome = true
  settled : ∀ id outcome, (id, outcome) ∈ pool.settled → id ∈ pool.withdrawn → isCancelled outcome = true
  ran : ∀ id ∈ pool.ran, id ∉ pool.withdrawn
  begun : ∀ id ∈ pool.ran, 0 < pool.held.count id + (pool.settled.map (·.1)).count id

theorem start_withdrawn (config : Config) : (start config).Withdrawn := by
  constructor <;> simp [start]

theorem submit_withdrawn (h : pool.Withdrawn) (empty reentrant : Bool) :
    (pool.submit empty reentrant).2.Withdrawn := by
  unfold submit
  split_ifs
  · exact h
  · exact { h with }
  · exact h
  · exact { h with }
  · refine { h with known := ?_, queued := ?_ }
    · intro id hid
      exact Nat.lt_succ_of_lt (h.known id hid)
    · intro task htask hwithdrawn
      rcases List.mem_append.mp htask with hold | hnew
      · exact h.queued task hold hwithdrawn
      · rw [List.mem_singleton.mp hnew] at hwithdrawn
        exact absurd (h.known _ hwithdrawn) (Nat.lt_irrefl _)

theorem take_withdrawn (h : pool.Withdrawn) (worker : Nat) : (pool.take worker).Withdrawn := by
  unfold take
  split
  · rename_i task rest hworker hqueue
    have hcount := @held_count_set pool worker _ (.holding task) hworker
    refine { h with queued := ?_, holding := ?_, done := ?_, begun := ?_ }
    · intro other hother
      exact h.queued other (by rw [hqueue]; exact List.mem_cons_of_mem _ hother)
    · intro other hother
      rcases List.mem_or_eq_of_mem_set hother with hold | hnew
      · exact h.holding other hold
      · cases hnew
        exact h.queued task (by rw [hqueue]; exact List.mem_cons_self)
    · intro other outcome hother
      rcases List.mem_or_eq_of_mem_set hother with hold | hnew
      · exact h.done other outcome hold
      · cases hnew
    · intro id hid
      have hbegun := h.begun id hid
      have hheld := hcount id
      simp only [held, Worker.ids, List.count_nil] at hbegun hheld ⊢
      omega
  · rename_i hworker hqueue
    split_ifs
    · have hcount := @held_count_set pool worker _ .exited hworker
      refine { h with holding := ?_, done := ?_, begun := ?_ }
      · intro other hother
        rcases List.mem_or_eq_of_mem_set hother with hold | hnew
        · exact h.holding other hold
        · cases hnew
      · intro other outcome hother
        rcases List.mem_or_eq_of_mem_set hother with hold | hnew
        · exact h.done other outcome hold
        · cases hnew
      · intro id hid
        have hbegun := h.begun id hid
        have hheld := hcount id
        simp only [held, Worker.ids, List.count_nil] at hbegun hheld ⊢
        omega
    · exact h
  · exact h

theorem execute_withdrawn (h : pool.Withdrawn) (worker : Nat) (result : TaskResult) :
    (pool.execute worker result).Withdrawn := by
  unfold execute
  split
  swap
  · exact h
  rename_i task hworker
  have hmem := List.mem_of_getElem? hworker
  have hcount : ∀ outcome id, ((pool.workers.set worker (.done task outcome)).flatMap Worker.ids).count id =
      pool.held.count id := by
    intro outcome id
    have hheld := @held_count_set pool worker _ (.done task outcome) hworker id
    simp only [Worker.ids] at hheld
    omega
  have hholding : ∀ outcome other, Worker.holding other ∈ pool.workers.set worker (.done task outcome) →
      other.id ∈ pool.withdrawn → other.token.cancelled = true := by
    intro outcome other hother
    rcases List.mem_or_eq_of_mem_set hother with hold | hnew
    · exact h.holding other hold
    · cases hnew
  split_ifs with hcancelled
  · refine { h with holding := hholding _, done := ?_, begun := ?_ }
    · intro other outcome hother
      rcases List.mem_or_eq_of_mem_set hother with hold | hnew
      · exact h.done other outcome hold
      · cases hnew
        exact fun _ => rfl
    · intro id hid
      show 0 < ((pool.workers.set worker _).flatMap Worker.ids).count id + _
      rw [hcount]
      exact h.begun id hid
  · have hfree : task.id ∉ pool.withdrawn := fun hwithdrawn => hcancelled (h.holding task hmem hwithdrawn)
    refine { h with holding := hholding _, done := ?_, ran := ?_, begun := ?_ }
    · intro other outcome hother
      rcases List.mem_or_eq_of_mem_set hother with hold | hnew
      · exact h.done other outcome hold
      · cases hnew
        exact fun hwithdrawn => absurd hwithdrawn hfree
    · intro id hid
      rcases List.mem_append.mp hid with hold | hnew
      · exact h.ran id hold
      · rw [List.mem_singleton.mp hnew]
        exact hfree
    · intro id hid
      show 0 < ((pool.workers.set worker _).flatMap Worker.ids).count id + _
      rw [hcount]
      rcases List.mem_append.mp hid with hold | hnew
      · exact h.begun id hold
      · rw [List.mem_singleton.mp hnew]
        have hheld : task.id ∈ pool.held := List.mem_flatMap.mpr ⟨_, hmem, List.mem_singleton_self _⟩
        exact Nat.add_pos_left (List.count_pos_iff.mpr hheld) _

theorem finish_withdrawn (haccounted : pool.Accounted) (h : pool.Withdrawn) (worker : Nat) :
    (pool.finish worker).Withdrawn := by
  cases hworker : pool.workers[worker]? with
  | none =>
    unfold finish
    rw [hworker]
    exact h
  | some state =>
    cases state with
    | done task outcome =>
      rw [finish_eq haccounted hworker]
      have hcount := @held_count_set pool worker _ .waiting hworker
      refine { h with known := ?_, holding := ?_, done := ?_, settled := ?_, begun := ?_ }
      · intro id hid
        rw [Stats.count_submitted]
        exact h.known id hid
      · intro other hother
        rcases List.mem_or_eq_of_mem_set hother with hold | hnew
        · exact h.holding other hold
        · cases hnew
      · intro other outcome' hother
        rcases List.mem_or_eq_of_mem_set hother with hold | hnew
        · exact h.done other outcome' hold
        · cases hnew
      · intro id outcome' hsettled
        rcases List.mem_append.mp hsettled with hold | hnew
        · exact h.settled id outcome' hold
        · cases List.mem_singleton.mp hnew
          exact h.done task outcome (List.mem_of_getElem? hworker)
      · intro id hid
        have hbegun := h.begun id hid
        have hheld := hcount id
        simp only [held, Worker.ids, List.count_nil, List.map_append, List.map_cons, List.map_nil,
          List.count_append] at hbegun hheld ⊢
        omega
    | _ =>
      unfold finish
      rw [hworker]
      exact h

theorem cancelPending_withdrawn (haccounted : pool.Accounted) (h : pool.Withdrawn) (reason : String) :
    (pool.cancelPending reason).Withdrawn := by
  have hqueued : ∀ id ∈ pool.queue.map (·.id),
      pool.held.count id = 0 ∧ (pool.settled.map (·.1)).count id = 0 ∧ id < pool.stats.submitted := by
    intro id hid
    have hpos := List.count_pos_iff.mpr hid
    have hlocated := haccounted.located id
    unfold occurrences at hlocated
    split_ifs at hlocated with hlt
    · exact ⟨by omega, by omega, hlt⟩
    · omega
  have hheld : ∀ worker ∈ pool.workers, ∀ id ∈ worker.ids, id ∉ pool.queue.map (·.id) := by
    intro worker hworker id hid hqueue
    have hmem : id ∈ pool.held := List.mem_flatMap.mpr ⟨worker, hworker, hid⟩
    have hpos := List.count_pos_iff.mpr hmem
    have hzero := (hqueued id hqueue).1
    omega
  refine { h with known := ?_, queued := ?_, holding := ?_, done := ?_, settled := ?_, ran := ?_ }
  · intro id hid
    rcases List.mem_append.mp hid with hold | hnew
    · exact h.known id hold
    · exact (hqueued id hnew).2.2
  · intro task htask _
    obtain ⟨before, -, rfl⟩ := List.mem_map.mp htask
    rfl
  · intro task htask hwithdrawn
    rcases List.mem_append.mp hwithdrawn with hold | hnew
    · exact h.holding task htask hold
    · exact absurd hnew (hheld _ htask task.id (List.mem_singleton_self _))
  · intro task outcome htask hwithdrawn
    rcases List.mem_append.mp hwithdrawn with hold | hnew
    · exact h.done task outcome htask hold
    · exact absurd hnew (hheld _ htask task.id (List.mem_singleton_self _))
  · intro id outcome hsettled hwithdrawn
    rcases List.mem_append.mp hwithdrawn with hold | hnew
    · exact h.settled id outcome hsettled hold
    · have hpos : 0 < (pool.settled.map (·.1)).count id :=
        List.count_pos_iff.mpr (List.mem_map.mpr ⟨(id, outcome), hsettled, rfl⟩)
      have hzero := (hqueued id hnew).2.1
      omega
  · intro id hid hwithdrawn
    rcases List.mem_append.mp hwithdrawn with hold | hnew
    · exact h.ran id hid hold
    · have hbegun := h.begun id hid
      obtain ⟨hzero, hzero', -⟩ := hqueued id hnew
      omega

theorem beginShutdown_withdrawn (h : pool.Withdrawn) (drain : Bool) : (pool.beginShutdown drain).Withdrawn := by
  unfold beginShutdown
  split
  · split_ifs
    · exact { h with }
    · refine { h with queued := ?_ }
      intro task htask
      cases htask
  · exact h

theorem continueShutdown_withdrawn (haccounted : pool.Accounted) (h : pool.Withdrawn) :
    pool.continueShutdown.Withdrawn := by
  have hcontinued := continueShutdown_continued haccounted
  revert hcontinued
  generalize pool.continueShutdown = next
  intro hcontinued
  cases hcontinued with
  | blocked => exact h
  | drained _ _ => exact { h with }
  | settled task rest _ =>
    refine { h with settled := ?_, begun := ?_ }
    · intro id outcome hsettled hwithdrawn
      rcases List.mem_append.mp hsettled with hold | hnew
      · exact h.settled id outcome hold hwithdrawn
      · cases List.mem_singleton.mp hnew
        rfl
    · intro id hid
      have hbegun := h.begun id hid
      simp only [held, List.map_append, List.count_append] at hbegun ⊢
      omega
  | counted _ _ => exact { h with }
  | joined _ _ => exact { h with }

theorem step_withdrawn (pool : WorkerPool) (event : Event) (haccounted : pool.Accounted) (h : pool.Withdrawn) :
    (pool.step event).Withdrawn := by
  cases event with
  | submit empty reentrant => exact submit_withdrawn h empty reentrant
  | take worker => exact take_withdrawn h worker
  | execute worker result => exact execute_withdrawn h worker result
  | finish worker => exact finish_withdrawn haccounted h worker
  | cancelPending reason => exact cancelPending_withdrawn haccounted h reason
  | beginShutdown drain => exact beginShutdown_withdrawn h drain
  | continueShutdown => exact continueShutdown_withdrawn haccounted h

/-! ### Every schedule -/

/-- No section changes the configuration, and none of a stopping pool accepts a task. -/
structure Frame (pool next : WorkerPool) : Prop where
  config : next.config = pool.config
  stopping : pool.stopping = true → next.stopping = true
  submitted : pool.stopping = true → next.stats.submitted = pool.stats.submitted

theorem Frame.refl (pool : WorkerPool) : Frame pool pool :=
  ⟨rfl, id, fun _ => rfl⟩

theorem step_frame (event : Event) (haccounted : pool.Accounted) : Frame pool (pool.step event) := by
  cases event with
  | submit empty reentrant =>
    show Frame pool (pool.submit empty reentrant).2
    unfold submit
    split_ifs with _ _ hstopping
    · exact .refl pool
    · exact ⟨rfl, id, fun _ => rfl⟩
    · exact .refl pool
    · exact ⟨rfl, id, fun _ => rfl⟩
    · exact ⟨rfl, id, fun hstop => absurd hstop hstopping⟩
  | take worker =>
    show Frame pool (pool.take worker)
    unfold take
    split
    · exact ⟨rfl, id, fun _ => rfl⟩
    · split_ifs
      · exact ⟨rfl, id, fun _ => rfl⟩
      · exact .refl pool
    · exact .refl pool
  | execute worker result =>
    show Frame pool (pool.execute worker result)
    unfold execute
    split
    · split_ifs <;> exact ⟨rfl, id, fun _ => rfl⟩
    · exact .refl pool
  | finish worker =>
    show Frame pool (pool.finish worker)
    cases hworker : pool.workers[worker]? with
    | none =>
      unfold finish
      rw [hworker]
      exact .refl pool
    | some state =>
      cases state with
      | done task outcome =>
        rw [finish_eq haccounted hworker]
        exact ⟨rfl, id, fun _ => Stats.count_submitted _ _⟩
      | _ =>
        unfold finish
        rw [hworker]
        exact .refl pool
  | cancelPending reason => exact ⟨rfl, id, fun _ => rfl⟩
  | beginShutdown drain =>
    show Frame pool (pool.beginShutdown drain)
    unfold beginShutdown
    split
    · split_ifs <;> exact ⟨rfl, fun _ => rfl, fun _ => rfl⟩
    · exact .refl pool
  | continueShutdown =>
    have hcontinued := continueShutdown_continued haccounted
    show Frame pool pool.continueShutdown
    revert hcontinued
    generalize pool.continueShutdown = next
    intro hcontinued
    cases hcontinued <;> exact ⟨rfl, id, fun _ => rfl⟩

/-- What holds in every state of every schedule. -/
structure Safe (config : Config) (pool : WorkerPool) : Prop where
  config : pool.config = config
  accounted : pool.Accounted
  withdrawn : pool.Withdrawn

theorem step_safe {config : Config} (pool : WorkerPool) (event : Event) (h : pool.Safe config) :
    (pool.step event).Safe config :=
  ⟨(step_frame event h.accounted).config.trans h.config, step_accounted pool event h.accounted,
    step_withdrawn pool event h.accounted h.withdrawn⟩

theorem stopping_accepts_nothing {config : Config} (h : pool.Safe config) (hstopping : pool.stopping = true)
    (later : List Event) : (later.foldl step pool).stats.submitted = pool.stats.submitted := by
  have hinv := @Lib.foldl_inv WorkerPool Event step
    (fun next => next.Safe config ∧ next.stopping = true ∧ next.stats.submitted = pool.stats.submitted) ?_ pool
    ⟨h, hstopping, rfl⟩ later
  · exact hinv.2.2
  · rintro next event ⟨hsafe, hstop, hsubmitted⟩
    have hframe := step_frame event hsafe.accounted
    exact ⟨step_safe next event hsafe, hframe.stopping hstop, (hframe.submitted hstop).trans hsubmitted⟩

theorem settled_count (h : pool.Accounted) (hreturned : pool.phase = .returned) (id : Nat) :
    (pool.settled.map (·.1)).count id = if id < pool.stats.submitted then 1 else 0 := by
  have hqueue : pool.queue = [] := h.cleared (by rw [hreturned]; rfl)
  obtain ⟨hheld, habandoned⟩ := h.left (by rw [hreturned])
  have hlocated := h.located id
  unfold occurrences at hlocated
  rw [hqueue, hheld, habandoned] at hlocated
  simpa using hlocated

theorem settled_length
    (h : ∀ id, (pool.settled.map (·.1)).count id = if id < pool.stats.submitted then 1 else 0) :
    pool.stats.submitted = pool.settled.length := by
  have hperm : (pool.settled.map (·.1)).Perm (List.range pool.stats.submitted) := by
    rw [List.perm_iff_count]
    intro id
    rw [h id, List.nodup_range.count]
    simp only [List.mem_range]
  have hlength := hperm.length_eq
  rw [List.length_map, List.length_range] at hlength
  exact hlength.symm

/-- The accepted tasks that are not settled: in the queue, in the hands of a worker or abandoned. -/
def pending (pool : WorkerPool) : List Nat :=
  pool.queue.map (·.id) ++ pool.held ++ pool.phase.abandoned.map (·.id)

/-- The pool after a schedule. -/
def run (config : Config) (events : List Event) : WorkerPool :=
  events.foldl step (start config)

/-- **Worker pool safety.** In every state of every schedule the queue is within its depth, no promise is set
twice or set before its task is done, a stopping pool accepts nothing any more, and a task that was cancelled in the
queue is never run and only settles as cancelled. Once `shutdown` has returned, every accepted task was settled
exactly once, and the counters say so. -/
theorem schedule_safe (config : Config) (events : List Event) :
    (run config events).queue.length ≤ config.queueDepth ∧
      (∀ id, ((run config events).settled.map (·.1)).count id ≤ 1) ∧
      (∀ id ∈ (run config events).pending, id ∉ (run config events).settled.map (·.1)) ∧
      ((run config events).stopping = true → ∀ later : List Event,
        (run config (events ++ later)).stats.submitted = (run config events).stats.submitted) ∧
      (∀ id ∈ (run config events).withdrawn, id ∉ (run config events).ran ∧
        ∀ outcome, (id, outcome) ∈ (run config events).settled → isCancelled outcome = true) ∧
      ((run config events).phase = .returned →
        (∀ id < (run config events).stats.submitted, ((run config events).settled.map (·.1)).count id = 1) ∧
        (run config events).stats.submitted = (run config events).stats.completed +
          (run config events).stats.failed + (run config events).stats.cancelled) := by
  have hsafe : (run config events).Safe config :=
    @Lib.foldl_inv _ _ step (Safe config) step_safe _
      ⟨rfl, start_accounted config, start_withdrawn config⟩ events
  have hlater : ∀ later : List Event, run config (events ++ later) = later.foldl step (run config events) := by
    intro later
    unfold run
    rw [List.foldl_append]
  simp only [hlater]
  generalize run config events = pool at hsafe ⊢
  have hlocated := hsafe.accounted.located
  refine ⟨?_, ?_, ?_, stopping_accepts_nothing hsafe, ?_, ?_⟩
  · rw [← hsafe.config]
    exact hsafe.accounted.bounded
  · intro id
    have hid := hlocated id
    unfold occurrences at hid
    split_ifs at hid <;> omega
  · intro id hpending hsettled
    have hpos := List.count_pos_iff.mpr hpending
    have hpos' := List.count_pos_iff.mpr hsettled
    have hid := hlocated id
    unfold occurrences at hid
    unfold pending at hpos
    simp only [List.count_append] at hpos
    split_ifs at hid <;> omega
  · intro id hid
    exact ⟨fun hran => hsafe.withdrawn.ran id hran hid, fun outcome hsettled => hsafe.withdrawn.settled id outcome hsettled hid⟩
  · intro hreturned
    have hsettled := settled_count hsafe.accounted hreturned
    refine ⟨fun id hid => by rw [hsettled id, if_pos hid], ?_⟩
    have hlength := settled_length hsettled
    have hcounted := hsafe.accounted.counted
    rw [hreturned, ← hlength] at hcounted
    exact hcounted.symm

/-- One worker, one place in the queue: a task that is cancelled there, a shutdown that aborts, and its return. -/
example : (run ⟨1, 1⟩ [.submit false false, .cancelPending "late", .beginShutdown false, .submit false false,
    .continueShutdown, .continueShutdown, .take 0, .continueShutdown]).phase matches .returned := by decide

end WorkerPool

end LatencyObservatory.Runtime
