import LatencyObservatory.Core.Error

/-!
# The worker pool

`worker_pool.cpp` as a state machine. Its threads only meet in sections under the pool's mutex, so a schedule is
a sequence of such sections: a submission, a worker that takes a task or leaves, the run of a task, a worker
that settles it, `cancel_pending`, and the sections of `shutdown`. A thread whose section cannot be
entered waits, and the pool stays as it is. What a task's function comes to is part of the event, for the function
is the caller's. The counter `submitted` also numbers the accepted tasks.
-/

namespace LatencyObservatory.Runtime

open LatencyObservatory.Core

structure CancellationToken where
  cancelled : Bool := false
  reason : String := ""
deriving DecidableEq, Repr

namespace CancellationToken

def cancel (_token : CancellationToken) (reason : String) : CancellationToken :=
  { cancelled := true, reason := reason }

def error (token : CancellationToken) : Error :=
  ⟨.cancelled, if token.reason = "" then "operation cancelled" else token.reason, []⟩

end CancellationToken

/-- What a call of a task's function comes to. -/
inductive TaskResult where
  | returned (outcome : Except Error Bytes)
  | threw (what : Bytes)
  | threwUnknown

def TaskResult.outcome : TaskResult → Except Error Bytes
  | .returned outcome => outcome
  | .threw what => .error ⟨.internal, "task threw an exception", what⟩
  | .threwUnknown => .error ⟨.internal, "task threw an unknown exception", []⟩

structure QueuedTask where
  id : Nat
  token : CancellationToken := {}
deriving DecidableEq, Repr

/-- Where a worker thread stands in its loop. -/
inductive Worker where
  | waiting
  | holding (task : QueuedTask)
  | done (task : QueuedTask) (outcome : Except Error Bytes)
  | exited

/-- Where the call of `shutdown` stands. Abandoned tasks are settled one by one, and each is counted in a section
of its own. -/
inductive ShutdownPhase where
  | notCalled
  | draining
  | settling (abandoned : List QueuedTask)
  | counting (abandoned : List QueuedTask)
  | returned

namespace WorkerPool

structure Config where
  workers : Nat := 4
  queueDepth : Nat := 256
deriving DecidableEq, Repr

structure Stats where
  submitted : Nat := 0
  completed : Nat := 0
  failed : Nat := 0
  cancelled : Nat := 0
  refused : Nat := 0
  reentrantRefusals : Nat := 0
  peakPending : Nat := 0
deriving DecidableEq, Repr

/-- The counter an outcome goes to. -/
def Stats.count (stats : Stats) : Except Error Bytes → Stats
  | .ok _ => { stats with completed := stats.completed + 1 }
  | .error e =>
    if e.code = .cancelled then { stats with cancelled := stats.cancelled + 1 }
    else { stats with failed := stats.failed + 1 }

end WorkerPool

open WorkerPool

/-- The shared state, the threads, and three histories: the promises that were set, the tasks whose function was
called and those whose token was cancelled in the queue. -/
structure WorkerPool where
  config : Config
  workers : List Worker
  queue : List QueuedTask := []
  stats : Stats := {}
  stopping : Bool := false
  draining : Bool := false
  active : Nat := 0
  phase : ShutdownPhase := .notCalled
  settled : List (Nat × Except Error Bytes) := []
  ran : List Nat := []
  withdrawn : List Nat := []

namespace WorkerPool

/-- A new pool: every worker is at the top of its loop. -/
def start (config : Config) : WorkerPool :=
  { config := config, workers := List.replicate config.workers .waiting }

/-- `WorkerPool::create`. -/
def create (config : Config) : Except Error WorkerPool :=
  if config.workers = 0 then .error ⟨.invalidArgument, "a worker pool needs at least one worker", []⟩
  else if config.queueDepth = 0 then .error ⟨.invalidArgument, "a worker pool needs a non-zero queue depth", []⟩
  else .ok (start config)

/-- `promise->set_value`, absent where it throws because the promise is set already. -/
def setValue (pool : WorkerPool) (id : Nat) (outcome : Except Error Bytes) : Option WorkerPool :=
  if id ∈ pool.settled.map (·.1) then none
  else some { pool with settled := pool.settled ++ [(id, outcome)] }

/-- `submit`, from outside or from one of the pool's own workers. -/
def submit (pool : WorkerPool) (empty reentrant : Bool) : Except Error Nat × WorkerPool :=
  if empty then (.error ⟨.invalidArgument, "cannot submit an empty task", []⟩, pool)
  else if reentrant then
    (.error ⟨.invalidArgument, "re-entrant submission from a worker of the same pool is refused", []⟩,
      { pool with stats := { pool.stats with reentrantRefusals := pool.stats.reentrantRefusals + 1 } })
  else if pool.stopping then (.error ⟨.shuttingDown, "the worker pool is shutting down", []⟩, pool)
  else if pool.queue.length ≥ pool.config.queueDepth then
    (.error ⟨.capacityExceeded, "the worker pool queue is full", decimal pool.config.queueDepth⟩,
      { pool with stats := { pool.stats with refused := pool.stats.refused + 1 } })
  else
    (.ok pool.stats.submitted,
      { pool with
        queue := pool.queue ++ [{ id := pool.stats.submitted }]
        stats := { pool.stats with
          submitted := pool.stats.submitted + 1
          peakPending := max pool.stats.peakPending (pool.queue.length + 1) } })

/-- A worker wakes up: it takes the first task, or leaves when there is none and the pool is stopping. -/
def take (pool : WorkerPool) (worker : Nat) : WorkerPool :=
  match pool.workers[worker]?, pool.queue with
  | some .waiting, task :: rest =>
    { pool with queue := rest, active := pool.active + 1, workers := pool.workers.set worker (.holding task) }
  | some .waiting, [] =>
    if pool.stopping then { pool with workers := pool.workers.set worker .exited } else pool
  | _, _ => pool

/-- A worker runs its task, unless the token is cancelled. -/
def execute (pool : WorkerPool) (worker : Nat) (result : TaskResult) : WorkerPool :=
  match pool.workers[worker]? with
  | some (.holding task) =>
    if task.token.cancelled then
      { pool with workers := pool.workers.set worker (.done task (.error task.token.error)) }
    else
      { pool with workers := pool.workers.set worker (.done task result.outcome), ran := pool.ran ++ [task.id] }
  | _ => pool

/-- A worker counts and settles its task. -/
def finish (pool : WorkerPool) (worker : Nat) : WorkerPool :=
  match pool.workers[worker]? with
  | some (.done task outcome) =>
    let counted := { pool with
      active := pool.active - 1
      stats := pool.stats.count outcome
      workers := pool.workers.set worker .waiting }
    (counted.setValue task.id outcome).getD counted
  | _ => pool

def cancelPending (pool : WorkerPool) (reason : String) : WorkerPool :=
  { pool with
    queue := pool.queue.map fun task => { task with token := task.token.cancel reason }
    withdrawn := pool.withdrawn ++ pool.queue.map (·.id) }

/-- The first section of `shutdown`. -/
def beginShutdown (pool : WorkerPool) (drain : Bool) : WorkerPool :=
  match pool.phase with
  | .notCalled =>
    if drain then { pool with stopping := true, draining := true, phase := .draining }
    else { pool with stopping := true, draining := false, queue := [], phase := .settling pool.queue }
  | _ => pool

/-- The rest of `shutdown`, section by section. -/
def continueShutdown (pool : WorkerPool) : WorkerPool :=
  match pool.phase with
  | .draining => if pool.queue = [] ∧ pool.active = 0 then { pool with phase := .settling [] } else pool
  | .settling (task :: rest) =>
    match pool.setValue task.id (.error ⟨.cancelled, "the runtime shut down before the task started", []⟩) with
    | some settled => { settled with phase := .counting rest }
    | none => { pool with phase := .settling rest }
  | .settling [] =>
    if pool.workers.all fun worker => worker matches .exited then { pool with phase := .returned } else pool
  | .counting rest =>
    { pool with stats := { pool.stats with cancelled := pool.stats.cancelled + 1 }, phase := .settling rest }
  | .notCalled => pool
  | .returned => pool

inductive Event where
  | submit (empty reentrant : Bool)
  | take (worker : Nat)
  | execute (worker : Nat) (result : TaskResult)
  | finish (worker : Nat)
  | cancelPending (reason : String)
  | beginShutdown (drain : Bool)
  | continueShutdown

def step (pool : WorkerPool) : Event → WorkerPool
  | .submit empty reentrant => (pool.submit empty reentrant).2
  | .take worker => pool.take worker
  | .execute worker result => pool.execute worker result
  | .finish worker => pool.finish worker
  | .cancelPending reason => pool.cancelPending reason
  | .beginShutdown drain => pool.beginShutdown drain
  | .continueShutdown => pool.continueShutdown

end WorkerPool

end LatencyObservatory.Runtime
