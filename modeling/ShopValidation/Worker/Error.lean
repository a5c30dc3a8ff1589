import ShopValidation.Worker.Backoff

/-!
# The life of a worker

A worker is not started, running or stopped, and stopped is for good. A call that does not fit is
refused.
-/

namespace ShopValidation

/-- Where a worker is in its life. -/
inductive Lifecycle where
  | notStarted
  | running
  | stopped
deriving DecidableEq, Repr

/-- Why a worker refused a call. -/
inductive WorkerError where
  | alreadyStarted
  | notStarted
  | stopped
  | emptyBackoff
deriving DecidableEq, Repr

/-- The wording of a worker error. -/
def WorkerError.message : WorkerError → String
  | .alreadyStarted => "worker already started"
  | .notStarted => "worker not started"
  | .stopped => "worker stopped"
  | .emptyBackoff => "backoff delay list must not be empty"

/-- What a worker counts. The number of failures in a row is kept in a word of 32 bits and stays at
its largest value. -/
structure WorkerStats where
  iterations : Nat := 0
  succeeded : Nat := 0
  failures : Nat := 0
  consecutiveFailures : Nat := 0
  lastBackoff : Option Duration := none
deriving DecidableEq, Repr

namespace WorkerStats

/-- Count a success. -/
def addSuccess (stats : WorkerStats) : WorkerStats :=
  { stats with
    iterations := stats.iterations + 1
    succeeded := stats.succeeded + 1
    consecutiveFailures := 0 }

/-- Count a failure and the delay that follows it. -/
def addFailure (stats : WorkerStats) (delay : Duration) : WorkerStats :=
  { stats with
    iterations := stats.iterations + 1
    failures := stats.failures + 1
    consecutiveFailures := min (stats.consecutiveFailures + 1) 4294967295
    lastBackoff := some delay }

end WorkerStats

end ShopValidation
