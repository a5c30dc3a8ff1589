import ShopValidation.Worker.Step

/-!
# Driving a worker

A host supplies what the loop calls: the work, the question for more work and the callbacks. It
drives the loop from one place of rest to the next. The loop rests where it sleeps, at the gate
before a unit of work is done, and after the last pause it was allowed.

One drive is the succession of `Host.advance?`, each of which is one event of the worker. The number
of events is bounded by the number of rounds that the host can be in for.
-/

namespace ShopValidation

/-- What surrounds a worker with callbacks of type `κ` inside a larger state `σ`. -/
structure Host (σ κ : Type) where
  /-- The worker. -/
  worker : σ → Worker κ
  /-- Put a worker in the place of the old one. -/
  withWorker : σ → Worker κ → σ
  /-- Prepare a unit of work. -/
  prepare : σ → σ
  /-- Do the unit of work. Answers whether it succeeded. -/
  work : σ → Bool × σ
  /-- Answer the question for more work, or fail to. -/
  probe : σ → Option Bool × σ
  /-- Run a callback. -/
  call : κ → σ → σ
  /-- Take note of a pause. -/
  paused : Duration → σ → σ
  /-- A bound on the rounds and callbacks that lie ahead, as far as no pause causes them. -/
  rounds : σ → Nat

/-- What the loop may do before it has to rest. -/
structure Leave where
  /-- Whether units of work may be done. -/
  gateOpen : Bool
  /-- The number of pauses after which the loop rests, if it has to. -/
  pauses : Option Nat

namespace Leave

/-- Stay at the gate and after a pause. -/
def none : Leave := ⟨false, some 0⟩

/-- Stay at the gate only. -/
def toGate : Leave := ⟨false, Option.none⟩

/-- Work until there is nothing to do, with so many pauses at most. -/
def toWork (pauses : Option Nat) : Leave := ⟨true, pauses⟩

end Leave

/-- Where the loop has come to rest. -/
inductive Place where
  | off
  | gate
  | idle
  | backoff
  | exited
deriving DecidableEq, Repr

/-- The place of a phase in which the loop can rest. -/
def Phase.place? {κ : Type} : Phase κ → Option Place
  | .absent => some .off
  | .working => some .gate
  | .asleep => some .idle
  | .rested => some .backoff
  | .exited => some .exited
  | _ => none

/-- How a worker reacted to a caller. -/
inductive Reaction (ε : Type) where
  | accepted
  | refused (error : ε)
  | noReservation
  | notIdle
  | idle (seen : Bool)

namespace Host

variable {σ κ : Type} (host : Host σ κ)

/-- Take the worker through one event. -/
def fire (event : Event κ) (s : σ) : Option σ :=
  ((host.worker s).step event).map (host.withWorker s)

/-- One event of the loop, with what belongs to it. -/
def advance? (s : σ) : Option σ :=
  match (host.worker s).phase with
  | .absent | .exited => none
  | .entering => host.fire .enter s
  | .ready => (host.fire .beginWork s).map host.prepare
  | .working =>
    let (succeeded, s) := host.work s
    host.fire (.endWork succeeded) s
  | .worked => host.fire .countSuccess s
  | .counted => host.fire .checkAfterWork s
  | .rearming => host.fire .rearm s
  | .checking _ => host.fire .beginProbe s
  | .probing _ =>
    let (hasWork, s) := host.probe s
    host.fire (.endProbe hasWork) s
  | .collecting => host.fire .collect s
  | .flushing [] => host.fire .endFlush s
  | .flushing (callback :: _) =>
    (host.fire .beginCall s).bind fun s => host.fire .endCall (host.call callback s)
  | .calling _ => host.fire .endCall s
  | .settling => host.fire .settle s
  | .asleep => host.fire .awaken s
  | .failed => host.fire .countFailure s
  | .charged _ => host.fire .checkBeforePause s
  | .pausing delay => (host.fire .pause s).map (host.paused delay)
  | .rested => host.fire .checkAfterPause s
  | .leaving => host.fire .leave s

/-- Whether the loop has to rest before its next event. -/
def mustRest (leave : Leave) (s : σ) : Bool :=
  match (host.worker s).phase with
  | .working => !leave.gateOpen
  | .rested => leave.pauses = some 0
  | _ => false

/-- What is left of a leave after the next event. -/
def remaining (leave : Leave) (s : σ) : Leave :=
  match (host.worker s).phase with
  | .pausing _ => { leave with pauses := leave.pauses.map (· - 1) }
  | _ => leave

/-- Drive the loop until it rests, at most for a number of events. -/
def driveFor : Nat → Leave → σ → σ
  | 0, _, s => s
  | fuel + 1, leave, s =>
    if host.mustRest leave s then s
    else
      match host.advance? s with
      | none => s
      | some next => driveFor fuel (host.remaining leave s) next

/-- The most events that a round takes, its callbacks left out. -/
def eventsPerRound : Nat := 24

/-- Drive the loop until it rests. -/
def drive (leave : Leave) (s : σ) : σ :=
  host.driveFor (eventsPerRound * (host.rounds s + leave.pauses.getD 0 + 2)) leave s

/-- The state after a call and what the loop does at once because of it. -/
def afterCall (s : σ) (result : Except WorkerError (Worker κ)) : Reaction WorkerError × σ :=
  match result with
  | .error error => (.refused error, s)
  | .ok w => (.accepted, host.drive .none (host.withWorker s w))

/-- Claim the start. -/
def reserve (s : σ) : Reaction WorkerError × σ := host.afterCall s (host.worker s).reserve

/-- Launch a claimed start. The loop comes to rest at the gate. -/
def launch (s : σ) : Reaction WorkerError × σ :=
  if (host.worker s).starters.isEmpty then (.noReservation, s)
  else
    match (host.worker s).launch 0 with
    | (.error error, w) => (.refused error, host.withWorker s w)
    | (.ok (), w) => (.accepted, host.drive .none (host.withWorker s w))

/-- Give a claimed start back, if there is one. -/
def cancel (s : σ) : σ := (host.fire (.cancel 0) s).getD s

/-- Claim the start and launch it. -/
def start (s : σ) : Reaction WorkerError × σ :=
  match host.reserve s with
  | (.accepted, s) => host.launch s
  | refused => refused

/-- Wake the loop. -/
def wakeUp (s : σ) : Reaction WorkerError × σ := host.afterCall s (host.worker s).wakeUp

/-- Leave a callback for the loop. -/
def whenIdle (callback : κ) (s : σ) : Reaction WorkerError × σ :=
  host.afterCall s ((host.worker s).whenIdle callback)

/-- Stop the worker. A unit of work at the gate waits on. -/
def stop (s : σ) : σ := host.drive .toGate ((host.fire .stop s).getD s)

/-- Stop the worker and wait for its thread. -/
def stopAndJoin (s : σ) : σ :=
  let s := (host.fire .stopToJoin s).getD s
  let s := (host.fire (.takeHandle 0) s).getD s
  let s := host.drive (.toWork none) s
  (host.fire (.join 0) s).getD s

/-- Wait until the loop was seen idle, with a callback that only says so. A loop that still pauses
after its eighth failure is not waited for. -/
def waitIdle (callback : κ) (s : σ) : Reaction WorkerError × σ :=
  if (host.worker s).starters.isEmpty then
    let s := host.drive (.toWork (some 8)) s
    if (host.worker s).phase.place? = some .backoff then (.notIdle, s)
    else
      match (host.worker s).whenIdle callback with
      | .error error => (.refused error, s)
      | .ok w =>
        let s := host.drive (.toWork none) (host.withWorker s w)
        (.idle (host.worker s).idleCallbacks.isEmpty, s)
  else (.notIdle, s)

/-- Wait for no time at all until the loop was seen idle. -/
def glanceIdle (callback : κ) (s : σ) : Reaction WorkerError × σ :=
  match host.whenIdle callback s with
  | (.accepted, s) => (.idle false, s)
  | refused => refused

end Host

end ShopValidation
