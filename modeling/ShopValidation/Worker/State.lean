import ShopValidation.Time.Clock
import ShopValidation.Worker.Error

/-!
# The state of a worker

A worker runs one loop on a thread of its own. The loop does a unit of work, asks whether there is
more, and sleeps when there is none. Callers on other threads start it, wake it, leave callbacks for
the moment it finds nothing to do, and stop it.

The state says where the loop stands, down to single calls and single critical sections, so that
everything callers can do in between can be said. Starts and joins in progress are part of it, since
they too take more than one critical section.
-/

namespace ShopValidation

/-- Which of the two questions for more work the loop asks in one round. -/
inductive Round where
  | first
  | second
deriving DecidableEq, Repr

/-- Where the loop stands. -/
inductive Phase (κ : Type) where
  /-- There is no thread yet. -/
  | absent
  /-- The thread exists and has not said so. -/
  | entering
  /-- The next unit of work is about to begin. -/
  | ready
  /-- A unit of work is being done. -/
  | working
  /-- The unit succeeded, which is not counted yet. -/
  | worked
  /-- The success is counted; a stop is looked for next. -/
  | counted
  /-- The wake-up flag is about to be cleared. -/
  | rearming
  /-- The question for more work is about to be asked. -/
  | checking (round : Round)
  /-- The question for more work is being answered. -/
  | probing (round : Round)
  /-- There is no work; the waiting callbacks are about to be taken. -/
  | collecting
  /-- Callbacks were taken; these have not begun. -/
  | flushing (rest : List κ)
  /-- A callback is running; these come after it. -/
  | calling (rest : List κ)
  /-- There is still no work; whether to sleep is about to be decided. -/
  | settling
  /-- The loop sleeps until there is a reason not to. -/
  | asleep
  /-- The work or a question failed, which is not counted yet. -/
  | failed
  /-- The failure is counted; a stop is looked for next. -/
  | charged (delay : Duration)
  /-- The pause after a failure is about to happen. -/
  | pausing (delay : Duration)
  /-- The pause is over; a stop is looked for next. -/
  | rested
  /-- The loop has ended and the thread has not said so. -/
  | leaving
  /-- The thread has ended. -/
  | exited
deriving DecidableEq

/-- A start in progress. -/
inductive Starter where
  /-- The start is reserved and nothing is launched. -/
  | reserved
  /-- The launch found no stop. -/
  | cleared
  /-- The thread exists and its handle is not stored yet. -/
  | spawned
deriving DecidableEq, Repr

/-- A call that stops the worker and waits for its thread. -/
inductive Joiner where
  /-- The stop is done; the handle is taken next. -/
  | stopped
  /-- The handle was looked for, and found or not. -/
  | holding (handle : Bool)
deriving DecidableEq, Repr

/-- A worker with callbacks of a type. -/
structure Worker (κ : Type) where
  name : String
  lifecycle : Lifecycle := .notStarted
  wakePending : Bool := false
  idleCallbacks : List κ := []
  stats : WorkerStats := {}
  policy : Backoff
  clock : ManualClock
  phase : Phase κ := .absent
  starters : List Starter := []
  handleStored : Bool := false
  joiners : List Joiner := []
  joined : Nat := 0

namespace Worker

variable {κ : Type}

/-- Whether a stop was asked for. -/
def stopRequested (w : Worker κ) : Bool := w.lifecycle = .stopped

/-- Whether the loop has no reason to stay awake. -/
def shouldSleep (w : Worker κ) : Bool :=
  !w.wakePending && w.idleCallbacks.isEmpty && !w.stopRequested

/-- Whether the thread has entered its loop and not left it. -/
def isActive (w : Worker κ) : Bool :=
  match w.phase with
  | .absent | .entering | .exited => false
  | _ => true

/-- Whether the thread has ended. -/
def hasExited (w : Worker κ) : Bool :=
  match w.phase with
  | .exited => true
  | _ => false

/-- The error for a caller that needs a running worker, if it is not running. -/
def notRunning? (w : Worker κ) : Option WorkerError :=
  match w.lifecycle with
  | .running => none
  | .notStarted => some .notStarted
  | .stopped => some .stopped

/-- Claim the start. -/
def reserve (w : Worker κ) : Except WorkerError (Worker κ) :=
  match w.lifecycle with
  | .notStarted => .ok { w with lifecycle := .running, starters := w.starters ++ [.reserved] }
  | .running => .error .alreadyStarted
  | .stopped => .error .stopped

/-- Give a claimed start back. What was left for the loop in the meantime is dropped. -/
def release (w : Worker κ) : Worker κ :=
  { w with
    lifecycle := if w.lifecycle = .running then .notStarted else w.lifecycle
    wakePending := false
    idleCallbacks := [] }

/-- Say that there may be new work. -/
def wakeUp (w : Worker κ) : Except WorkerError (Worker κ) :=
  match w.notRunning? with
  | some error => .error error
  | none => .ok { w with wakePending := true }

/-- Leave a callback for the next time the loop finds no work. -/
def whenIdle (w : Worker κ) (callback : κ) : Except WorkerError (Worker κ) :=
  match w.notRunning? with
  | some error => .error error
  | none => .ok { w with idleCallbacks := w.idleCallbacks ++ [callback], wakePending := true }

/-- Ask the loop to end after its current round. -/
def stop (w : Worker κ) : Worker κ := { w with lifecycle := .stopped }

end Worker

end ShopValidation
