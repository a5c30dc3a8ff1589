import ShopValidation.Database.Row
import ShopValidation.Store.Operation

/-!
# The store in a database

Every operation on the store is a program: it sends commands, one after another, each of which may
depend on the replies so far, and ends with a result. Operations on several rows are transactions. A
transaction is committed once everything in it has succeeded, and rolled back otherwise.
-/

namespace ShopValidation

/-- A program that talks to the database and ends with a result. -/
inductive Program (α : Type) where
  | done (result : Except StoreError α)
  | send (command : Command) (next : DatabaseReply → Program α)

namespace Program

variable {α β : Type}

/-- The error that the database reports with a message. -/
def databaseError (message : String) : StoreError := .storage (.database message)

/-- Go on with the value of a program that succeeds. -/
def andThen (program : Program α) (next : α → Program β) : Program β :=
  match program with
  | .done (.ok a) => next a
  | .done (.error error) => .done (.error error)
  | .send command after => .send command fun reply => (after reply).andThen next

/-- Send a statement and read its rows. -/
def query (statement : Statement) (read : List Row → Except StoreError α) : Program α :=
  .send (.run statement) fun
    | .answered rows _ => .done (read rows)
    | .failed message => .done (.error (databaseError message))

/-- Send a statement that changes rows, with the error for the case that it changes none. -/
def execute (statement : Statement) (missing : Option StoreError) : Program Unit :=
  .send (.run statement) fun
    | .answered _ affected =>
      match missing with
      | some error => .done (if affected = 0 then .error error else .ok ())
      | none => .done (.ok ())
    | .failed message => .done (.error (databaseError message))

/-- End a transaction that has begun: commit what succeeded, roll back what did not. -/
def commit : Program α → Program α
  | .done (.ok a) =>
    .send .commit fun
      | .answered _ _ => .done (.ok a)
      | .failed message => .send .rollback fun _ => .done (.error (databaseError message))
  | .done (.error error) => .send .rollback fun _ => .done (.error error)
  | .send command next => .send command fun reply => (next reply).commit

/-- Carry out a program as one transaction. -/
def transaction (program : Program α) : Program α :=
  .send .begin fun
    | .answered _ _ => program.commit
    | .failed message => .done (.error (databaseError message))

/-- Insert requests in order, and answer their ids. -/
def insertTasks : List NewTask → Program (List TaskId)
  | [] => .done (.ok [])
  | request :: rest =>
    (query (.insertTask request) (Row.single Row.id)).andThen fun id =>
      (insertTasks rest).andThen fun ids => .done (.ok (⟨id⟩ :: ids))

/-- Write validations in order: each shop first, then its task, which may be gone already. -/
def applyAll : List Applied → Program Unit
  | [] => .done (.ok ())
  | applied :: rest =>
    (execute (.updateShop applied.coordinates applied.validatedAt applied.shopId)
      (some (.shopNotFound applied.shopId))).andThen fun _ =>
        (execute (.deleteTask applied.taskId) none).andThen fun _ => applyAll rest

/-- Insert requests, all or none. -/
def insertBatch (requests : List NewTask) : Program (List TaskId) :=
  transaction (insertTasks requests)

/-- Insert one request. -/
def insertOne (request : NewTask) : Program TaskId :=
  (insertBatch [request]).andThen fun ids =>
    match ids.getLast? with
    | some id => .done (.ok id)
    | none => .done (.error (.storage .noInsertedId))

/-- Create the tables where they do not exist. -/
def createTables : Program Unit := execute .createTables none

/-- The program of an operation. -/
def ofOperation {α : Type} : Operation α → Program α
  | .insertShop shop =>
    query (.insertShop shop) fun rows => (Row.single Row.id rows).map ShopId.mk
  | .getShop id =>
    query (.getShop id) fun rows =>
      match rows with
      | [] => .ok none
      | row :: _ => row.toShop.map some
  | .needing excludeQueued staleBefore =>
    query (.needing staleBefore excludeQueued) fun rows => rows.mapM Row.toShop
  | .confirm id position time => execute (.updateShop position time id) (some (.shopNotFound id))
  | .insert request => insertOne request
  | .select reason limit =>
    query (.selectTasks reason limit) fun rows => rows.mapM Row.toQueuedTask
  | .delete id => execute (.deleteTask id) (some (.taskNotFound id))
  | .existsAny => query .existsTask (Row.single Row.present)
  | .count => query .countTasks fun rows => (Row.single Row.count rows).map Int.toNat
  | .insertBatch requests => insertBatch requests
  | .applyBatch applied => transaction (applyAll applied)

/-- Run a program against a server with a state: what it sent, its result, and the state after. -/
def run {σ : Type} (server : Command → σ → DatabaseReply × σ) :
    Program α → σ → Except StoreError α × σ
  | .done result, s => (result, s)
  | .send command next, s =>
    let (reply, s) := server command s
    (next reply).run server s

/-- A command is sent, and the rest runs on what the server is after it. -/
theorem run_send {σ : Type} (server : Command → σ → DatabaseReply × σ) (command : Command)
    (next : DatabaseReply → Program α) (s : σ) :
    (send command next).run server s =
      (next (server command s).1).run server (server command s).2 := rfl

/-- A program that goes on runs on what the first has left, unless that has failed. -/
theorem run_andThen {σ : Type} (server : Command → σ → DatabaseReply × σ) (program : Program α)
    (next : α → Program β) (s : σ) :
    (program.andThen next).run server s =
      match program.run server s with
      | (.ok a, after) => (next a).run server after
      | (.error error, after) => (.error error, after) := by
  induction program generalizing s with
  | done result => cases result <;> rfl
  | send command after ih => exact ih _ _

/-- A transaction that has begun ends with a commit if it succeeds, and with a rollback if not. -/
theorem run_commit {σ : Type} (server : Command → σ → DatabaseReply × σ) (program : Program α)
    (s : σ) :
    program.commit.run server s =
      match program.run server s with
      | (.ok a, after) =>
        match server .commit after with
        | (.answered _ _, last) => (.ok a, last)
        | (.failed message, last) => (.error (databaseError message), (server .rollback last).2)
      | (.error error, after) => (.error error, (server .rollback after).2) := by
  induction program generalizing s with
  | done result =>
    cases result with
    | error error => rfl
    | ok a =>
      rcases hreply : server .commit s with ⟨reply, last⟩
      cases reply <;> simp [commit, run, hreply]
  | send command after ih => exact ih _ _

end Program

end ShopValidation
