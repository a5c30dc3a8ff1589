import ShopValidation.Scheduler.State
import ShopValidation.Store.Tables
import ShopValidation.Worker.Callback
import ShopValidation.Worker.Host

/-!
# A scheduler under rehearsal

The store of a rehearsal is the tables in memory behind planned failures, and everything that is
asked of the store and the source is written down. The worker's unit of work is one batch; it waits
at the gate once it has its source.
-/

namespace ShopValidation

/-- The operations of a store that can be planned to fail. -/
inductive StoreCall where
  | needing
  | select
  | existsAny
  | insertBatch
  | applyBatch
deriving DecidableEq, Repr

namespace StoreCall

def all : List StoreCall := [.needing, .select, .existsAny, .insertBatch, .applyBatch]

/-- The name of an operation. -/
def name : StoreCall → String
  | .needing => "select_shops_needing_validation"
  | .select => "select_by_reason"
  | .existsAny => "exists_any"
  | .insertBatch => "insert_batch"
  | .applyBatch => "apply_batch"

/-- The operation with a name. -/
def ofName? (name : String) : Option StoreCall := all.find? (·.name = name)

/-- Which of them an operation is, if any. -/
def of? {α : Type} : Operation α → Option StoreCall
  | .needing _ _ => some .needing
  | .select _ _ => some .select
  | .existsAny => some .existsAny
  | .insertBatch _ => some .insertBatch
  | .applyBatch _ => some .applyBatch
  | _ => none

end StoreCall

/-- What is planned for a call: an error, a crash, or an answer without any effect. -/
inductive PlannedFailure where
  | refuse (message : String)
  | crash
  | ignore
deriving DecidableEq, Repr

/-- What happened in a rehearsal. -/
inductive Entry where
  | needing (excludeQueued : Bool) (staleBefore : Option Instant) (shops : List ShopId)
  | inserted (tasks : List TaskId)
  | selected (reason : Reason) (limit : Nat) (tasks : List TaskId)
  | asked (uids : List LocationUid)
  | applied (tasks : List TaskId)
  | probed (hasWork : Bool)
  | storeFailed (call : StoreCall)
  | paused (length : Duration)
  | called (name : String)
  | callRefused (name : String) (error : ValidationError)

/-- What is written down of an operation that was answered. -/
def Entry.of? {α : Type} : Operation α → α → Option Entry
  | .needing excludeQueued staleBefore, shops =>
    some (.needing excludeQueued staleBefore (shops.map (·.id)))
  | .select reason limit, rows => some (.selected reason limit (rows.map (·.task.id)))
  | .existsAny, hasWork => some (.probed hasWork)
  | .insertBatch _, tasks => some (.inserted tasks)
  | .applyBatch written, _ => some (.applied (written.map (·.taskId)))
  | _, _ => none

/-- The tables in memory, the failures that are planned, and what happened so far. -/
structure PlannedStore where
  tables : Tables := {}
  failures : List (StoreCall × PlannedFailure) := []
  journal : List Entry := []

namespace PlannedStore

/-- Write down what happened. -/
def note (store : PlannedStore) (entry : Entry) : PlannedStore :=
  { store with journal := store.journal ++ [entry] }

/-- Plan a failure. Failures of one operation happen in the order in which they are planned. -/
def plan (store : PlannedStore) (call : StoreCall) (failure : PlannedFailure) : PlannedStore :=
  { store with failures := store.failures ++ [(call, failure)] }

/-- The answer of an operation that has no effect, where there is one. -/
def idle? {α : Type} : Operation α → Option α
  | .insertBatch _ => some []
  | _ => none

/-- The planned failure that an operation meets, and the store without it. -/
def next? {α : Type} (store : PlannedStore) (operation : Operation α) :
    Option (StoreCall × PlannedFailure × PlannedStore) := do
  let call ← StoreCall.of? operation
  let i ← store.failures.findIdx? (·.1 = call)
  let (_, failure) ← store.failures[i]?
  return (call, failure, { store with failures := store.failures.eraseIdx i })

/-- Perform an operation on the tables and write it down. -/
def answer {α : Type} (operation : Operation α) (store : PlannedStore) :
    Ending StoreError α × PlannedStore :=
  match store.tables.apply operation with
  | .error error => (.error (.refused error), store)
  | .ok (answer, tables) =>
    let after := { store with tables := tables }
    (.ok answer, ((Entry.of? operation answer).map after.note).getD after)

/-- Perform an operation, or let it fail as planned. -/
def perform {α : Type} (operation : Operation α) (store : PlannedStore) :
    Ending StoreError α × PlannedStore :=
  match store.next? operation with
  | none => answer operation store
  | some (call, .refuse message, store) =>
    (.error (.refused (.storage (.planned message))), store.note (.storeFailed call))
  | some (call, .crash, store) => (.error .crashed, store.note (.storeFailed call))
  | some (_, .ignore, store) =>
    match idle? operation with
    | some nothing => (.ok nothing, store)
    | none => answer operation store

/-- The planned store as a store. -/
def backend : Backend PlannedStore := ⟨perform⟩

end PlannedStore

/-- A scheduler, and the batch that its worker has begun. The errand of a callback is to queue
requests. -/
structure SchedulerRehearsal where
  scheduler : Scheduler PlannedStore (Callback (List NewTask))
  begun : Except ValidationError Batch := .error .notStarted

namespace SchedulerRehearsal

/-- Write down what happened. -/
def note (r : SchedulerRehearsal) (entry : Entry) : SchedulerRehearsal :=
  { r with scheduler := { r.scheduler with store := r.scheduler.store.note entry } }

/-- Write down a question to the source before it is asked. -/
def watch (stage : Stage) (store : PlannedStore) : PlannedStore :=
  match stage with
  | .resolving picked => store.note (.asked (pickedUids picked))
  | _ => store

/-- Carry a batch to its end. -/
def finish (r : SchedulerRehearsal) (begun : Except ValidationError Batch) :
    Ending ValidationError Outcome × SchedulerRehearsal :=
  let (ending, scheduler) := r.scheduler.finishBatch PlannedStore.backend watch begun
  (ending, { r with scheduler := scheduler })

/-- Carry out one whole batch for a caller. -/
def processBatch (r : SchedulerRehearsal) : Ending ValidationError Outcome × SchedulerRehearsal :=
  r.finish r.scheduler.beginBatch

/-- Do the batch that the worker has begun. -/
def work (r : SchedulerRehearsal) : Bool × SchedulerRehearsal :=
  match r.finish r.begun with
  | (.ok _, r) => (true, r)
  | (.error _, r) => (false, r)

/-- Answer the question for more work. -/
def probe (r : SchedulerRehearsal) : Option Bool × SchedulerRehearsal :=
  let (ending, scheduler) := r.scheduler.hasWork PlannedStore.backend
  (ending.toOption, { r with scheduler := scheduler })

/-- The rehearsal with another worker. -/
def withWorker (r : SchedulerRehearsal) (w : Worker (Callback (List NewTask))) :
    SchedulerRehearsal :=
  { r with scheduler := { r.scheduler with worker := w } }

/-- Queue requests for a callback. Answers whether that ended without a crash; an error is written
down under the name of the callback. -/
def scheduleFor (r : SchedulerRehearsal) (name : String) (requests : List NewTask) :
    Bool × SchedulerRehearsal :=
  let (ending, scheduler) := r.scheduler.schedule PlannedStore.backend requests
  let r := { r with scheduler := scheduler }
  match ending with
  | .ok _ => (true, r)
  | .error (.refused error) => (true, r.note (.callRefused name error))
  | .error .crashed => (false, r)

/-- Run a callback. -/
def call (callback : Callback (List NewTask)) (r : SchedulerRehearsal) : SchedulerRehearsal :=
  match callback with
  | .silent => r
  | .planned name actions =>
    Action.perform
      (fun r => r.withWorker r.scheduler.worker.stop)
      (fun later r =>
        match r.scheduler.worker.whenIdle later with
        | .ok worker => r.withWorker worker
        | .error error => r.note (.callRefused name (.worker error)))
      (fun requests r => r.scheduleFor name requests)
      actions (r.note (.called name))

/-- The callbacks that the loop has taken and not begun. -/
def taken (r : SchedulerRehearsal) : List (Callback (List NewTask)) :=
  match r.scheduler.worker.phase with
  | .flushing rest | .calling rest => rest
  | _ => []

/-- A bound on the rounds and callbacks that lie ahead, as far as no pause causes them. -/
def rounds (r : SchedulerRehearsal) : Nat :=
  r.scheduler.store.tables.tasks.length + r.scheduler.store.failures.length
    + Callback.totalSize List.length (r.scheduler.worker.idleCallbacks ++ r.taken)

/-- The rehearsal as the host of its worker. -/
def host : Host SchedulerRehearsal (Callback (List NewTask)) where
  worker := fun r => r.scheduler.worker
  withWorker := withWorker
  prepare := fun r => { r with begun := r.scheduler.beginBatch }
  work := work
  probe := probe
  call := call
  paused := fun length r => r.note (.paused length)
  rounds := rounds

/-- The rehearsal after a call to the scheduler, and what its worker does at once because of it. -/
def afterCall {α : Type} (r : SchedulerRehearsal)
    (result : α × Scheduler PlannedStore (Callback (List NewTask))) : α × SchedulerRehearsal :=
  (result.1, host.drive .none { r with scheduler := result.2 })

/-- Start validation. -/
def start (r : SchedulerRehearsal) (source : Source) (testing : Bool) :
    Ending ValidationError Unit × SchedulerRehearsal :=
  r.afterCall (r.scheduler.start PlannedStore.backend source testing)

/-- Queue requests. -/
def schedule (r : SchedulerRehearsal) (requests : List NewTask) :
    Ending ValidationError (List TaskId) × SchedulerRehearsal :=
  r.afterCall (r.scheduler.schedule PlannedStore.backend requests)

/-- Queue one request. -/
def scheduleOne (r : SchedulerRehearsal) (request : NewTask) :
    Ending ValidationError TaskId × SchedulerRehearsal :=
  r.afterCall (r.scheduler.scheduleOne PlannedStore.backend request)

/-- Put another source in place. -/
def replaceSource (r : SchedulerRehearsal) (source : Source) :
    Except ValidationError Unit × SchedulerRehearsal :=
  match r.scheduler.replaceSource source with
  | .ok scheduler => (.ok (), { r with scheduler := scheduler })
  | .error error => (.error error, r)

/-- Plan a failure of the store. -/
def plan (r : SchedulerRehearsal) (call : StoreCall) (failure : PlannedFailure) :
    SchedulerRehearsal :=
  { r with scheduler := { r.scheduler with store := r.scheduler.store.plan call failure } }

/-- Set the clock by a function. -/
def changeClock (r : SchedulerRehearsal) (f : ManualClock → ManualClock) : SchedulerRehearsal :=
  r.withWorker { r.scheduler.worker with clock := f r.scheduler.worker.clock }

/-- The tables of the store. -/
def tables (r : SchedulerRehearsal) : Tables := r.scheduler.store.tables

/-- The rehearsal with other tables. -/
def withTables (r : SchedulerRehearsal) (tables : Tables) : SchedulerRehearsal :=
  { r with scheduler := { r.scheduler with store := { r.scheduler.store with tables := tables } } }

end SchedulerRehearsal

end ShopValidation
