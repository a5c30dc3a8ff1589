import ShopValidation.Config.Validation
import ShopValidation.Scheduler.Batch
import ShopValidation.Store.Reconcile
import ShopValidation.Worker.Step

/-!
# The validation scheduler

The scheduler queues tasks for shops and lets a worker go through the queue in batches. A start
claims the worker first, then puts the geodata source in place and queues the forgotten shops, and
launches the worker last.

Sources are known by their place in a list, since a batch goes on with the source that it began with
when another is put in its place.
-/

namespace ShopValidation

/-- A scheduler over a kind of store, with callbacks of a type. A maximal age is in seconds. -/
structure Scheduler (σ κ : Type) where
  worker : Worker κ
  store : σ
  sources : List Source := []
  installed : Option Nat := none
  testing : Bool
  batchMax : Nat
  maxAge : Option Int

namespace Scheduler

variable {σ κ : Type}

/-- The name of the worker. -/
def workerName : String := "shops-validation-worker"

/-- A scheduler that is not started. Its delays must not be empty; a batch has at least one task. -/
def ofConfig (config : ValidationConfig) (clock : ManualClock) (store : σ) :
    Except WorkerError (Scheduler σ κ) :=
  match Backoff.ofDelays? config.delays with
  | none => .error .emptyBackoff
  | some policy =>
    .ok
      { worker := { name := workerName, policy := policy, clock := clock }
        store := store
        testing := config.testing
        batchMax := max config.batchMax 1
        maxAge := config.maxAge }

/-- Put a source in place. -/
def install (s : Scheduler σ κ) (source : Source) : Scheduler σ κ :=
  { s with sources := s.sources ++ [source], installed := some s.sources.length }

/-- Queue the forgotten shops. -/
def reconcile (backend : Backend σ) (s : Scheduler σ κ) :
    Ending ValidationError Nat × Scheduler σ κ :=
  let (ending, store) := enqueueForgotten backend s.worker.clock.now s.maxAge s.store
  (ending.mapError (·.map .store), { s with store := store })

/-- Give back the claim on the worker. -/
def abandon (s : Scheduler σ κ) (starter : Nat) : Scheduler σ κ :=
  { s with worker := (s.worker.cancelStart starter).getD s.worker }

/-- Launch the claimed worker. -/
def launch (s : Scheduler σ κ) (starter : Nat) : Ending ValidationError Unit × Scheduler σ κ :=
  let (result, worker) := s.worker.launch starter
  (result.mapError fun error => .refused (.worker error), { s with worker := worker })

/-- Claim the worker for a start and put its source in place. Answers which start it is. Testing, once
allowed, stays allowed. -/
def claim (source : Source) (testing : Bool) (s : Scheduler σ κ) :
    Except WorkerError (Nat × Scheduler σ κ) :=
  match s.worker.reserve with
  | .error error => .error error
  | .ok worker =>
    .ok (s.worker.starters.length,
      { s with worker := worker, testing := s.testing || testing }.install source)

/-- Start validation with a source. Where the forgotten shops cannot be queued, the claim on the
worker is given back. -/
def start (backend : Backend σ) (source : Source) (testing : Bool) (s : Scheduler σ κ) :
    Ending ValidationError Unit × Scheduler σ κ :=
  match s.claim source testing with
  | .error error => (.error (.refused (.worker error)), s)
  | .ok (starter, s) =>
    match s.reconcile backend with
    | (.error failure, s) => (.error failure, s.abandon starter)
    | (.ok _, s) => s.launch starter

/-- Put another source in place, which is allowed in testing only. -/
def replaceSource (source : Source) (s : Scheduler σ κ) : Except ValidationError (Scheduler σ κ) :=
  if s.testing then .ok (s.install source) else .error .notTesting

/-- Put requests into the queue, all or none. -/
def enqueue (backend : Backend σ) (requests : List NewTask) (s : Scheduler σ κ) :
    Ending ValidationError (List TaskId) × Scheduler σ κ :=
  let (ending, store) := backend.perform (.insertBatch requests) s.store
  (ending.mapError (·.map .store), { s with store := store })

/-- Wake the worker. One that is not running is left alone: the tasks wait for its next start. -/
def announce (s : Scheduler σ κ) : Scheduler σ κ :=
  { s with worker := s.worker.afterCall s.worker.wakeUp }

/-- Queue requests, all or none, and wake the worker once they are in the queue. -/
def schedule (backend : Backend σ) (requests : List NewTask) (s : Scheduler σ κ) :
    Ending ValidationError (List TaskId) × Scheduler σ κ :=
  if requests.isEmpty then (.ok [], s)
  else
    match s.enqueue backend requests with
    | (.error failure, s) => (.error failure, s)
    | (.ok ids, s) => (.ok ids, s.announce)

/-- Queue one request. -/
def scheduleOne (backend : Backend σ) (request : NewTask) (s : Scheduler σ κ) :
    Ending ValidationError TaskId × Scheduler σ κ :=
  match s.schedule backend [request] with
  | (.error failure, s) => (.error failure, s)
  | (.ok [], s) => (.error (.refused (.store (.storage .noTaskId))), s)
  | (.ok (id :: _), s) => (.ok id, s)

/-- Begin a batch with the source in place. -/
def beginBatch (s : Scheduler σ κ) : Except ValidationError Batch :=
  match s.installed with
  | none => .error .notStarted
  | some source => .ok ⟨source, .first s.batchMax⟩

/-- One step of a batch. -/
def stepBatch (backend : Backend σ) (s : Scheduler σ κ) (batch : Batch) : Scheduler σ κ × Batch :=
  match s.sources[batch.source]? with
  | none => (s, { batch with stage := .finished (.error (.refused .notStarted)) })
  | some source =>
    let (stage, store, source) :=
      batch.stage.step backend s.batchMax s.worker.clock.now s.store source
    ({ s with store := store, sources := s.sources.set batch.source source },
      { batch with stage := stage })

/-- Steps of a batch with nothing in between. A watcher sees the store before each of them. -/
def stepsBatch (backend : Backend σ) (watch : Stage → σ → σ) :
    Nat → Scheduler σ κ → Batch → Scheduler σ κ × Batch
  | 0, s, batch => (s, batch)
  | n + 1, s, batch =>
    let (s, batch) := { s with store := watch batch.stage s.store }.stepBatch backend batch
    stepsBatch backend watch n s batch

theorem stepsLeft_stepBatch_le (backend : Backend σ) (s : Scheduler σ κ) (batch : Batch) :
    (s.stepBatch backend batch).2.stage.stepsLeft ≤ batch.stage.stepsLeft - 1 := by
  unfold stepBatch
  split
  · simp [Stage.stepsLeft]
  · exact Stage.stepsLeft_step_le _ _ _ _ _ _

/-- After as many steps as are left, a batch has ended. -/
theorem stepsLeft_stepsBatch_le (backend : Backend σ) (watch : Stage → σ → σ) (n : Nat)
    (s : Scheduler σ κ) (batch : Batch) :
    (s.stepsBatch backend watch n batch).2.stage.stepsLeft ≤ batch.stage.stepsLeft - n := by
  induction n generalizing s batch with
  | zero => simp [stepsBatch]
  | succ n ih =>
    have one := stepsLeft_stepBatch_le backend { s with store := watch batch.stage s.store } batch
    have rest := ih ({ s with store := watch batch.stage s.store }.stepBatch backend batch).1
      ({ s with store := watch batch.stage s.store }.stepBatch backend batch).2
    rw [stepsBatch]
    exact Nat.le_trans rest (by omega)

/-- Carry out a batch that was begun. -/
def finishBatch (backend : Backend σ) (watch : Stage → σ → σ) (s : Scheduler σ κ) :
    Except ValidationError Batch → Ending ValidationError Outcome × Scheduler σ κ
  | .error error => (.error (.refused error), s)
  | .ok batch =>
    let (s, batch) := s.stepsBatch backend watch batch.stage.stepsLeft batch
    (batch.ending, s)

/-- Carry out one whole batch. -/
def processBatch (backend : Backend σ) (s : Scheduler σ κ) :
    Ending ValidationError Outcome × Scheduler σ κ :=
  s.finishBatch backend (fun _ store => store) s.beginBatch

/-- Whether there is anything in the queue. -/
def hasWork (backend : Backend σ) (s : Scheduler σ κ) :
    Ending ValidationError Bool × Scheduler σ κ :=
  let (ending, store) := backend.perform .existsAny s.store
  (ending.mapError (·.map .store), { s with store := store })

end Scheduler

end ShopValidation
