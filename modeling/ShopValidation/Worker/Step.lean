import ShopValidation.Worker.State

/-!
# The steps of a worker

One function takes a worker through one event: a critical section of a caller, or a step of the
loop. An event that cannot happen now has no result. The calls into the work are two events, their
beginning and their end, and the end brings the answer.
-/

namespace ShopValidation

/-- What can happen to a worker. -/
inductive Event (κ : Type) where
  /-- A caller claims the start. -/
  | reserve
  /-- A caller gives a claimed start back. -/
  | cancel (starter : Nat)
  /-- A launch looks for a stop. -/
  | clear (starter : Nat)
  /-- A launch creates the thread. -/
  | spawn (starter : Nat)
  /-- A launch cannot create the thread. -/
  | failSpawn (starter : Nat)
  /-- A launch stores the handle of the thread. -/
  | storeHandle (starter : Nat)
  /-- A caller wakes the loop. -/
  | wakeUp
  /-- A caller leaves a callback. -/
  | whenIdle (callback : κ)
  /-- A caller stops the worker. -/
  | stop
  /-- A caller stops the worker, to wait for it. -/
  | stopToJoin
  /-- A waiting caller takes the handle of the thread, if it is there. -/
  | takeHandle (joiner : Nat)
  /-- A waiting caller returns. -/
  | join (joiner : Nat)
  /-- The thread enters its loop. -/
  | enter
  /-- A unit of work begins. -/
  | beginWork
  /-- A unit of work ends, well or not. -/
  | endWork (succeeded : Bool)
  /-- A success is counted. -/
  | countSuccess
  /-- The loop looks for a stop after its work. -/
  | checkAfterWork
  /-- The loop clears the wake-up flag. -/
  | rearm
  /-- The loop asks for more work. -/
  | beginProbe
  /-- The loop gets an answer, or none because the question failed. -/
  | endProbe (hasWork : Option Bool)
  /-- The loop takes all callbacks. -/
  | collect
  /-- The loop calls the next callback. -/
  | beginCall
  /-- A callback ends. -/
  | endCall
  /-- The loop goes on after the last callback. -/
  | endFlush
  /-- The loop decides whether to sleep. -/
  | settle
  /-- The loop wakes. -/
  | awaken
  /-- A failure is counted. -/
  | countFailure
  /-- The loop looks for a stop before its pause. -/
  | checkBeforePause
  /-- The loop pauses. -/
  | pause
  /-- The loop looks for a stop after its pause. -/
  | checkAfterPause
  /-- The thread ends. -/
  | leave
deriving DecidableEq

namespace Worker

variable {κ : Type}

/-- The state after a call that may be refused. A refused call changes nothing. -/
def afterCall (w : Worker κ) (result : Except WorkerError (Worker κ)) : Worker κ :=
  match result with
  | .ok after => after
  | .error _ => w

/-- Leave the loop where a stop was asked for, and go on to a phase otherwise. -/
def unlessStopped (w : Worker κ) (next : Phase κ) : Worker κ :=
  { w with phase := if w.stopRequested then .leaving else next }

/-- The phase after an answer to the question for more work. -/
def afterProbe (round : Round) : Option Bool → Phase κ
  | none => .failed
  | some true => .ready
  | some false =>
    match round with
    | .first => .collecting
    | .second => .settling

/-- Give back a start that is claimed and not launched. -/
def cancelStart (w : Worker κ) (i : Nat) : Option (Worker κ) :=
  if w.starters[i]? = some .reserved then
    some { w.release with starters := w.starters.eraseIdx i }
  else none

/-- Begin a launch. It ends at once where a stop was asked for, and the claim is used up. -/
def clearStart (w : Worker κ) (i : Nat) : Option (Worker κ) :=
  if w.starters[i]? = some .reserved then
    some { w with
      starters := if w.stopRequested then w.starters.eraseIdx i else w.starters.set i .cleared }
  else none

/-- Create the thread of a launch. -/
def spawn (w : Worker κ) (i : Nat) : Option (Worker κ) :=
  if w.starters[i]? = some .cleared then
    some { w with starters := w.starters.set i .spawned, phase := .entering }
  else none

/-- Give up a launch for which no thread could be created. The worker is stopped for good. -/
def failSpawn (w : Worker κ) (i : Nat) : Option (Worker κ) :=
  if w.starters[i]? = some .cleared then
    some { w with lifecycle := .stopped, starters := w.starters.eraseIdx i }
  else none

/-- Store the handle of a thread, which ends its launch. -/
def storeHandle (w : Worker κ) (i : Nat) : Option (Worker κ) :=
  if w.starters[i]? = some .spawned then
    some { w with starters := w.starters.eraseIdx i, handleStored := true }
  else none

/-- A whole launch with nothing in between, where a thread can be created. -/
def launch (w : Worker κ) (i : Nat) : Except WorkerError Unit × Worker κ :=
  let cleared := (w.clearStart i).getD w
  match (cleared.spawn i).bind (·.storeHandle i) with
  | some launched => (.ok (), launched)
  | none => (.error .stopped, cleared)

/-- Take the handle of the thread for a waiting caller. -/
def takeHandle (w : Worker κ) (j : Nat) : Option (Worker κ) :=
  if w.joiners[j]? = some .stopped then
    some { w with joiners := w.joiners.set j (.holding w.handleStored), handleStored := false }
  else none

/-- End the wait of a caller: at once without a handle, else when the thread has ended. -/
def join (w : Worker κ) (j : Nat) : Option (Worker κ) :=
  if w.joiners[j]? = some (.holding false) ∨
      w.joiners[j]? = some (.holding true) ∧ w.hasExited = true then
    some { w with joiners := w.joiners.eraseIdx j, joined := w.joined + 1 }
  else none

/-- A step of the loop. -/
def stepLoop (w : Worker κ) (event : Event κ) : Option (Worker κ) :=
  match w.phase, event with
  | .entering, .enter => some { w with phase := .ready }
  | .ready, .beginWork => some { w with phase := .working }
  | .working, .endWork succeeded =>
    some { w with phase := if succeeded then .worked else .failed }
  | .worked, .countSuccess =>
    some { w with policy := w.policy.reset, stats := w.stats.addSuccess, phase := .counted }
  | .counted, .checkAfterWork => some (w.unlessStopped .rearming)
  | .rearming, .rearm => some { w with wakePending := false, phase := .checking .first }
  | .checking round, .beginProbe => some { w with phase := .probing round }
  | .probing round, .endProbe hasWork => some { w with phase := afterProbe round hasWork }
  | .collecting, .collect =>
    some { w with idleCallbacks := [], phase := .flushing w.idleCallbacks }
  | .flushing (_ :: rest), .beginCall => some { w with phase := .calling rest }
  | .calling rest, .endCall => some { w with phase := .flushing rest }
  | .flushing [], .endFlush => some { w with phase := .checking .second }
  | .settling, .settle =>
    some (if w.shouldSleep then { w with phase := .asleep } else w.unlessStopped .ready)
  | .asleep, .awaken => if w.shouldSleep then none else some (w.unlessStopped .ready)
  | .failed, .countFailure =>
    some { w with
      policy := w.policy.advance
      stats := w.stats.addFailure w.policy.delay
      phase := .charged w.policy.delay }
  | .charged delay, .checkBeforePause => some (w.unlessStopped (.pausing delay))
  | .pausing delay, .pause => some { w with clock := w.clock.sleep delay, phase := .rested }
  | .rested, .checkAfterPause => some (w.unlessStopped .ready)
  | .leaving, .leave => some { w with phase := .exited }
  | _, _ => none

/-- What a worker is after an event, if the event can happen. -/
def step (w : Worker κ) : Event κ → Option (Worker κ)
  | .reserve => some (w.afterCall w.reserve)
  | .wakeUp => some (w.afterCall w.wakeUp)
  | .whenIdle callback => some (w.afterCall (w.whenIdle callback))
  | .stop => some w.stop
  | .stopToJoin => some { w.stop with joiners := w.joiners ++ [.stopped] }
  | .cancel i => w.cancelStart i
  | .clear i => w.clearStart i
  | .spawn i => w.spawn i
  | .failSpawn i => w.failSpawn i
  | .storeHandle i => w.storeHandle i
  | .takeHandle j => w.takeHandle j
  | .join j => w.join j
  | event => w.stepLoop event

/-- What a worker is after a sequence of events, if they can happen in this order. -/
def run (w : Worker κ) (events : List (Event κ)) : Option (Worker κ) := events.foldlM step w

@[simp] theorem run_nil (w : Worker κ) : w.run [] = some w := rfl

@[simp] theorem run_cons (w : Worker κ) (event : Event κ) (events : List (Event κ)) :
    w.run (event :: events) = (w.step event).bind (·.run events) := rfl

end Worker

end ShopValidation
