import ShopValidation.Geodata.Source
import ShopValidation.Scheduler.Error
import ShopValidation.Store.Operation

/-!
# Batches

A batch picks the most urgent tasks from the queue, asks the geodata source where their shops are,
and writes the answers back. A task whose shop was not resolved stays in the queue. A batch that
resolves nothing is a failure, so that its tasks are not tried again at once.

The stages of a batch are separate steps, since others may use the store and the clock in between.
-/

namespace ShopValidation

/-- What a batch did: the tasks that it picked, and those of them that are done. -/
structure Outcome where
  selected : Nat
  resolved : Nat
deriving DecidableEq, Repr

/-- How far a batch has come. -/
inductive Stage where
  /-- Tasks are being picked; these reasons come next. -/
  | selecting (picked : List QueuedTask) (reasons : List Reason)
  /-- The source is about to be asked. -/
  | resolving (picked : List QueuedTask)
  /-- The source has answered; the time is about to be read. -/
  | stamping (picked : List QueuedTask) (found : List Resolved)
  /-- The answers are about to be written. -/
  | applying (picked : List QueuedTask) (applied : List Applied)
  /-- The batch has ended. -/
  | finished (ending : Ending ValidationError Outcome)

/-- The number of steps to the end of a batch, at most. -/
def Stage.stepsLeft : Stage → Nat
  | .selecting _ reasons => reasons.length + 4
  | .resolving _ => 3
  | .stamping _ _ => 2
  | .applying _ _ => 1
  | .finished _ => 0

/-- The locations of picked tasks, each once, in the order in which they are first picked. -/
def pickedUids (picked : List QueuedTask) : List LocationUid :=
  (picked.map (·.shop.locationUid)).eraseDups

/-- The validations that an answer of the source brings about, in the order of the tasks. -/
def validations (picked : List QueuedTask) (found : List Resolved) (now : Instant) : List Applied :=
  picked.filterMap fun queued =>
    (lastPosition? found queued.shop.locationUid).map fun position =>
      ⟨queued.task.id, queued.shop.id, position, now⟩

/-- The memory in bytes that a picked task takes up in a batch. -/
def pickedTaskBytes : Nat := 152

/-- The largest number of bytes that can be set aside at once. -/
def largestAllocation : Nat := 9223372036854775807

/-- The first stage of a batch. Room for a full batch is set aside before anything is picked, and a
batch that is too large for any memory crashes there. -/
def Stage.first (batchMax : Nat) : Stage :=
  if batchMax * pickedTaskBytes ≤ largestAllocation then .selecting [] Reason.byPriority
  else .finished (.error .crashed)

/-- The stage after the last pick. Without any tasks the batch is done. -/
def Stage.picked : List QueuedTask → Stage
  | [] => .finished (.ok ⟨0, 0⟩)
  | picked => .resolving picked

/-- The stage after the source was asked. -/
def Stage.answered (picked : List QueuedTask) : Reply → Stage
  | .answered found => .stamping picked found
  | .failed error => .finished (.error (.refused (.geodata error)))
  | .crashed => .finished (.error .crashed)

/-- The stage after the time was read. A batch that resolved nothing fails. -/
def Stage.stamped (picked : List QueuedTask) (found : List Resolved) (now : Instant) : Stage :=
  match validations picked found now with
  | [] => .finished (.error (.refused (.noProgress picked.length)))
  | applied => .applying picked applied

/-- One step of a batch at a time, with the store and the source that it works on. -/
def Stage.step {σ : Type} (backend : Backend σ) (batchMax : Nat) (now : Instant) (stage : Stage)
    (store : σ) (source : Source) : Stage × σ × Source :=
  match stage with
  | .selecting picked [] => (.picked picked, store, source)
  | .selecting picked (reason :: reasons) =>
    if batchMax ≤ picked.length then (.picked picked, store, source)
    else
      match backend.perform (.select reason (batchMax - picked.length)) store with
      | (.ok rows, store) => (.selecting (picked ++ rows) reasons, store, source)
      | (.error failure, store) => (.finished (.error (failure.map .store)), store, source)
  | .resolving picked =>
    let (reply, source) := source.ask (pickedUids picked)
    (.answered picked reply, store, source)
  | .stamping picked found => (.stamped picked found now, store, source)
  | .applying picked applied =>
    match backend.perform (.applyBatch applied) store with
    | (.ok (), store) => (.finished (.ok ⟨picked.length, applied.length⟩), store, source)
    | (.error failure, store) => (.finished (.error (failure.map .store)), store, source)
  | .finished ending => (.finished ending, store, source)

theorem Stage.stepsLeft_picked_le (picked : List QueuedTask) :
    (Stage.picked picked).stepsLeft ≤ 3 := by
  cases picked <;> simp [Stage.picked, Stage.stepsLeft]

theorem Stage.stepsLeft_answered_le (picked : List QueuedTask) (reply : Reply) :
    (Stage.answered picked reply).stepsLeft ≤ 2 := by
  cases reply <;> simp [Stage.answered, Stage.stepsLeft]

theorem Stage.stepsLeft_stamped_le (picked : List QueuedTask) (found : List Resolved)
    (now : Instant) : (Stage.stamped picked found now).stepsLeft ≤ 1 := by
  unfold Stage.stamped
  split <;> simp [Stage.stepsLeft]

/-- Every step brings a batch nearer to its end. -/
theorem Stage.stepsLeft_step_le {σ : Type} (backend : Backend σ) (batchMax : Nat) (now : Instant)
    (stage : Stage) (store : σ) (source : Source) :
    (stage.step backend batchMax now store source).1.stepsLeft ≤ stage.stepsLeft - 1 := by
  have picked_le := Stage.stepsLeft_picked_le
  unfold Stage.step
  split
  · exact Nat.le_trans (picked_le _) (by simp [Stage.stepsLeft])
  · split
    · exact Nat.le_trans (picked_le _) (by simp [Stage.stepsLeft])
    · split <;> simp [Stage.stepsLeft]
  · exact Stage.stepsLeft_answered_le _ _
  · exact Stage.stepsLeft_stamped_le _ _ _
  · split <;> simp [Stage.stepsLeft]
  · simp [Stage.stepsLeft]

/-- A batch in progress: the place of its source among all sources, and how far it has come. -/
structure Batch where
  source : Nat
  stage : Stage

/-- How a batch ended. One that has not ended counts as crashed. -/
def Batch.ending (batch : Batch) : Ending ValidationError Outcome :=
  match batch.stage with
  | .finished ending => ending
  | _ => .error .crashed

end ShopValidation
