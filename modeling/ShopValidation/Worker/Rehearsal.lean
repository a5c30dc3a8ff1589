import ShopValidation.Worker.Callback
import ShopValidation.Worker.Host

/-!
# A worker with planned work

The work of a rehearsal is a counter of pending units and two queues of answers, one for the units
and one for the questions for more work. Everything the worker calls is written down.
-/

namespace ShopValidation

/-- Work to be planned in addition. -/
structure Supply where
  pending : Nat := 0
  results : List String := []
  probes : List String := []
deriving DecidableEq, Repr

/-- What a callback of a rehearsal can do besides the usual. -/
inductive Errand where
  | wakeUp
  | add (supply : Supply)

/-- What happened in a rehearsal. -/
inductive Occurrence where
  | worked (result : String)
  | probed (hasWork : Bool)
  | probeFailed (answer : String)
  | paused (length : Duration)
  | called (name : String)
  | callRefused (name : String) (error : WorkerError)
deriving DecidableEq

/-- A worker, its planned work and what happened so far. -/
structure Rehearsal where
  worker : Worker (Callback Errand)
  supply : Supply
  trace : List Occurrence := []

namespace Rehearsal

/-- The answer that stands for success. Any other is a failure. -/
def success : String := "ok"

/-- Write down what happened. -/
def note (r : Rehearsal) (occurrence : Occurrence) : Rehearsal :=
  { r with trace := r.trace ++ [occurrence] }

/-- Plan more work. -/
def add (r : Rehearsal) (more : Supply) : Rehearsal :=
  { r with supply := ⟨r.supply.pending + more.pending, r.supply.results ++ more.results,
    r.supply.probes ++ more.probes⟩ }

/-- Do a unit of work as planned. A success lowers the counter. -/
def work (r : Rehearsal) : Bool × Rehearsal :=
  let result := r.supply.results.head?.getD success
  let succeeded := result == success
  let supply := { r.supply with
    results := r.supply.results.tail
    pending := if succeeded then r.supply.pending - 1 else r.supply.pending }
  (succeeded, { r with supply := supply }.note (.worked result))

/-- Answer the question for more work as planned. -/
def probe (r : Rehearsal) : Option Bool × Rehearsal :=
  let answer := r.supply.probes.head?.getD success
  let r := { r with supply := { r.supply with probes := r.supply.probes.tail } }
  if answer == success then
    let hasWork := decide (0 < r.supply.pending)
    (some hasWork, r.note (.probed hasWork))
  else (none, r.note (.probeFailed answer))

/-- Let a callback make a call to the worker. A refusal is written down under its name. -/
def callWorker (r : Rehearsal) (name : String)
    (result : Except WorkerError (Worker (Callback Errand))) : Rehearsal :=
  match result with
  | .ok worker => { r with worker := worker }
  | .error error => r.note (.callRefused name error)

/-- Run a callback. -/
def call (callback : Callback Errand) (r : Rehearsal) : Rehearsal :=
  match callback with
  | .silent => r
  | .planned name actions =>
    Action.perform
      (fun r => { r with worker := r.worker.stop })
      (fun later r => r.callWorker name (r.worker.whenIdle later))
      (fun errand r =>
        match errand with
        | .wakeUp => (true, r.callWorker name r.worker.wakeUp)
        | .add supply => (true, r.add supply))
      actions (r.note (.called name))

/-- What an errand can bring about. -/
def Errand.weight : Errand → Nat
  | .wakeUp => 1
  | .add supply => supply.pending + supply.results.length + supply.probes.length

/-- The callbacks that the loop has taken and not begun. -/
def taken (r : Rehearsal) : List (Callback Errand) :=
  match r.worker.phase with
  | .flushing rest | .calling rest => rest
  | _ => []

/-- A bound on the rounds and callbacks that lie ahead. -/
def rounds (r : Rehearsal) : Nat :=
  r.supply.pending + r.supply.results.length + r.supply.probes.length
    + Callback.totalSize Errand.weight (r.worker.idleCallbacks ++ r.taken)

/-- The rehearsal as the host of its worker. -/
def host : Host Rehearsal (Callback Errand) where
  worker := worker
  withWorker := fun r w => { r with worker := w }
  prepare := id
  work := work
  probe := probe
  call := call
  paused := fun length r => r.note (.paused length)
  rounds := rounds

end Rehearsal

end ShopValidation
