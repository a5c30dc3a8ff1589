import ShopValidation.Database.Server

/-!
# Programs on a database that executes them

A program that goes on after another one runs on the state that the first has left. A transaction runs
on a copy of the tables: the copy takes their place if the program succeeds, and is dropped if it does
not. Numbers that were taken from a sequence are gone either way.
-/

namespace ShopValidation

/-- The row of a request under an id. -/
def NewTask.record (request : NewTask) (id : Int) : TaskRecord :=
  ⟨id, request.shopId.value, request.enqueuedAt.wholeMicros, request.source, request.reason.code⟩

namespace Contents

variable (contents : Contents)

/-- Whether there is a row of a shop. -/
def hasShop (id : ShopId) : Bool := contents.shops.any (·.id = id.value)

/-- Queue requests under the numbers after the last. -/
def enqueue (requests : List NewTask) (last : Int) : Contents :=
  { contents with
    tasks := contents.tasks ++ requests.mapIdx fun i request => request.record (last + i + 1) }

/-- How many numbers are taken from the sequence of task ids by requests of which one is refused: one
for each request up to the first whose shop is missing. -/
def attempts (requests : List NewTask) : Nat :=
  (requests.takeWhile (contents.hasShop ·.shopId)).length + 1

/-- Take a task off the queue. -/
def remove (id : TaskId) : Contents :=
  { contents with tasks := contents.tasks.filter (·.id ≠ id.value) }

/-- Write one validation and take its task off the queue. -/
def applyOne (applied : Applied) : Contents :=
  let time := applied.validatedAt.wholeMicros
  (contents.updateShop applied.coordinates time applied.shopId.value).remove applied.taskId

/-- Which shops are there does not depend on the queue. -/
@[simp] theorem hasShop_withTasks (tasks : List TaskRecord) (id : ShopId) :
    hasShop { contents with tasks := tasks } id = contents.hasShop id := rfl

/-- Which shops are there does not depend on their coordinates. -/
@[simp] theorem hasShop_applyOne (applied : Applied) (id : ShopId) :
    (contents.applyOne applied).hasShop id = contents.hasShop id := by
  simp only [hasShop, applyOne, remove, updateShop, List.any_map]
  congr 1
  funext shop
  simp only [Function.comp_apply]
  split <;> rfl

/-- Writing coordinates of a shop that is not there changes nothing. -/
theorem updateShop_of_not_hasShop {contents : Contents} {id : ShopId}
    (h : contents.hasShop id = false) (position : Coordinates) (time : Instant) :
    contents.updateShop position time id.value = contents := by
  have hnone : ∀ shop ∈ contents.shops, shop.id ≠ id.value := by
    simpa [hasShop] using h
  have hshops : (contents.shops.map fun shop => if shop.id = id.value then
      { shop with lat := some position.lat, lon := some position.lon, lastValidation := some time }
      else shop) = contents.shops := by
    refine (List.map_congr_left fun shop hmem => ?_).trans (List.map_id _)
    exact if_neg (hnone shop hmem)
  rw [updateShop, hshops]

/-- Taking off a task that is not there changes nothing. -/
theorem remove_of_not_any {contents : Contents} {id : TaskId}
    (h : contents.tasks.any (·.id = id.value) = false) : contents.remove id = contents := by
  have htasks : contents.tasks.filter (·.id ≠ id.value) = contents.tasks := by
    rw [List.filter_eq_self]
    simpa using h
  rw [remove, htasks]

end Contents

namespace Server

variable {α β : Type} {server after : Server} {contents : Contents}
  {requests : List NewTask} {applied : List Applied} {s t : Int}

/-- The server with these tables and last numbers, and without a transaction. -/
def resting (contents : Contents) (s t : Int) : Server :=
  { committed := contents, lastShopId := s, lastTaskId := t }

/-- The server with a transaction open that sees these tables. -/
def inside (server : Server) (contents : Contents) : Server :=
  { server with working := some contents, spoiled := false }

/-- A query that finds rows ends with what is read from them. -/
theorem run_query {statement : Statement} {read : List Row → Except StoreError α} {rows : List Row}
    (h : (resting contents s t).execute statement = (found rows, after)) :
    (Program.query statement read).run serve (resting contents s t) = (read rows, after) := by
  have hserve : serve (.run statement) (resting contents s t) = (found rows, after) := h
  rw [Program.query, Program.run, hserve]
  rfl

/-- A query that is refused ends with the error of the database. -/
theorem run_query_failed {statement : Statement} {read : List Row → Except StoreError α}
    {message : String} (h : (resting contents s t).execute statement = (.failed message, after)) :
    (Program.query statement read).run serve (resting contents s t) =
      (.error (Program.databaseError message), after) := by
  have hserve : serve (.run statement) (resting contents s t) = (.failed message, after) := h
  rw [Program.query, Program.run, hserve]
  rfl

/-- A transaction that succeeds leaves the tables that it saw at its end. -/
theorem run_transaction_ok {program : Program α} {a : α}
    (h : program.run serve (server.inside server.committed) = (.ok a, after.inside contents)) :
    (Program.transaction program).run serve server =
      (.ok a, resting contents after.lastShopId after.lastTaskId) := by
  have hrun := Program.run_commit serve program (server.inside server.committed)
  rw [h] at hrun
  exact hrun

/-- A transaction that fails leaves the tables as they were. -/
theorem run_transaction_error {program : Program α} {error : StoreError}
    (h : program.run serve (server.inside server.committed) = (.error error, after)) :
    (Program.transaction program).run serve server =
      (.error error, resting after.committed after.lastShopId after.lastTaskId) := by
  have hrun := Program.run_commit serve program (server.inside server.committed)
  rw [h] at hrun
  exact hrun

/-- A request for a shop that is there is queued under the next number. -/
theorem run_insertTask_ok {request : NewTask} (h : contents.hasShop request.shopId = true) :
    (Program.query (.insertTask request) (Row.single Row.id)).run serve (server.inside contents) =
      (.ok (server.lastTaskId + 1),
        { server with lastTaskId := server.lastTaskId + 1 }.inside
          { contents with
            tasks := contents.tasks ++ [request.record (server.lastTaskId + 1)] }) := by
  unfold Contents.hasShop at h
  simp only [Program.query, Program.run, serve, inside, Bool.false_eq_true, if_false, execute,
    Server.contents, Option.getD_some, h, if_true, found, withContents]
  rfl

/-- A request for a shop that is not there is refused, and a number is lost. -/
theorem run_insertTask_error {request : NewTask} (h : contents.hasShop request.shopId = false) :
    ∃ message,
      (Program.query (.insertTask request) (Row.single Row.id)).run serve (server.inside contents) =
        (.error (Program.databaseError message),
          { server with
            working := some contents
            spoiled := true
            lastTaskId := server.lastTaskId + 1 }) := by
  unfold Contents.hasShop at h
  simp only [Program.query, Program.run, serve, inside, Bool.false_eq_true, if_false, execute,
    Server.contents, Option.getD_some, h, refuse]
  exact ⟨_, rfl⟩

/-- Requests for shops that are all there are queued under the next numbers. -/
theorem run_insertTasks_ok (hshops : ∀ request ∈ requests, contents.hasShop request.shopId = true) :
    (Program.insertTasks requests).run serve (server.inside contents) =
      (.ok (requests.mapIdx fun i _ => ⟨server.lastTaskId + i + 1⟩),
        { server with lastTaskId := server.lastTaskId + requests.length }.inside
          (contents.enqueue requests server.lastTaskId)) := by
  induction requests generalizing server contents with
  | nil => simp [Program.insertTasks, Program.run, Contents.enqueue]
  | cons request rest ih =>
    obtain ⟨hshop, hrest⟩ := List.forall_mem_cons.mp hshops
    have hnext (i : Nat) : server.lastTaskId + 1 + i + 1 = server.lastTaskId + (i + 1 : Nat) + 1 := by
      omega
    have hlast :
        server.lastTaskId + 1 + rest.length = server.lastTaskId + (rest.length + 1 : Nat) := by
      omega
    rw [Program.insertTasks, Program.run_andThen, run_insertTask_ok hshop]
    simp only [Program.run_andThen]
    rw [ih (by simpa using hrest)]
    simp [Program.run, Contents.enqueue, List.mapIdx_cons, hnext, hlast]

/-- If the shop of a request is missing, its number and those of the requests before it are lost. -/
theorem run_insertTasks_error
    (hmissing : ∃ request ∈ requests, contents.hasShop request.shopId = false) :
    ∃ message working spoiled,
      (Program.insertTasks requests).run serve (server.inside contents) =
        (.error (Program.databaseError message),
          { server with
            working := working
            spoiled := spoiled
            lastTaskId := server.lastTaskId + contents.attempts requests }) := by
  induction requests generalizing server contents with
  | nil => simp at hmissing
  | cons request rest ih =>
    rw [Program.insertTasks, Program.run_andThen]
    cases hshop : contents.hasShop request.shopId with
    | false =>
      obtain ⟨message, hrun⟩ := @run_insertTask_error server _ _ hshop
      rw [hrun]
      exact ⟨message, some contents, true, by simp [Contents.attempts, hshop]⟩
    | true =>
      have hrest : ∃ request ∈ rest, contents.hasShop request.shopId = false := by
        simpa [hshop] using hmissing
      obtain ⟨message, working, spoiled, hrun⟩ := @ih
        { server with lastTaskId := server.lastTaskId + 1 }
        { contents with
          tasks := contents.tasks ++ [request.record (server.lastTaskId + 1)] } hrest
      rw [run_insertTask_ok hshop]
      simp only [Program.run_andThen]
      rw [hrun]
      refine ⟨message, working, spoiled, ?_⟩
      simp [Contents.attempts, hshop]
      omega

/-- A batch of requests for shops that are all there is queued. -/
theorem run_insertBatch_ok (hshops : ∀ request ∈ requests, contents.hasShop request.shopId = true) :
    (Program.insertBatch requests).run serve (resting contents s t) =
      (.ok (requests.mapIdx fun i _ => ⟨t + i + 1⟩),
        resting (contents.enqueue requests t) s (t + requests.length)) :=
  run_transaction_ok (run_insertTasks_ok hshops)

/-- A batch of requests with one for a missing shop is refused, and leaves a gap in the numbers. -/
theorem run_insertBatch_error
    (hmissing : ∃ request ∈ requests, contents.hasShop request.shopId = false) :
    ∃ message, (Program.insertBatch requests).run serve (resting contents s t) =
      (.error (Program.databaseError message),
        resting contents s (t + contents.attempts requests)) := by
  obtain ⟨message, working, spoiled, hrun⟩ :=
    @run_insertTasks_error (resting contents s t) contents _ hmissing
  exact ⟨message, run_transaction_error hrun⟩

/-- One request is queued if it is as a batch. -/
theorem run_insertOne_ok {request : NewTask} {id : TaskId}
    (h : (Program.insertBatch [request]).run serve server = (.ok [id], after)) :
    (Program.insertOne request).run serve server = (.ok id, after) := by
  rw [Program.insertOne, Program.run_andThen, h]
  rfl

/-- One request is refused if it is as a batch. -/
theorem run_insertOne_error {request : NewTask} {error : StoreError}
    (h : (Program.insertBatch [request]).run serve server = (.error error, after)) :
    (Program.insertOne request).run serve server = (.error error, after) := by
  rw [Program.insertOne, Program.run_andThen, h]

/-- Coordinates are written into the rows of a shop, and it is an error if there is none. -/
theorem run_updateShop {position : Coordinates} {time : Instant} {id : ShopId} {error : StoreError}
    (h : server.spoiled = false) :
    (Program.execute (.updateShop position time id) (some error)).run serve server =
      (if server.contents.hasShop id then .ok () else .error error,
        server.withContents
          (server.contents.updateShop position time.wholeMicros id.value)) := by
  simp only [Program.execute, Program.run, serve, h, Bool.false_eq_true, if_false, execute, changed]
  cases hshop : server.contents.hasShop id with
  | true =>
    have hsome : server.contents.shops.countP (·.id = id.value) ≠ 0 := by
      simpa [List.countP_eq_zero, Contents.hasShop] using hshop
    rw [if_neg hsome, if_pos rfl]
  | false =>
    have hnone : server.contents.shops.countP (·.id = id.value) = 0 := by
      simpa [List.countP_eq_zero, Contents.hasShop] using hshop
    rw [if_pos hnone, if_neg (by decide)]

/-- A task is taken off the queue, and it is an error if it is not there and has to be. -/
theorem run_deleteTask {id : TaskId} {missing : Option StoreError} (h : server.spoiled = false) :
    (Program.execute (.deleteTask id) missing).run serve server =
      (match missing with
        | some error =>
          if server.contents.tasks.any (·.id = id.value) then .ok () else .error error
        | none => .ok (),
        server.withContents (server.contents.remove id)) := by
  simp only [Program.execute, Program.run, serve, h, Bool.false_eq_true, if_false, execute, changed]
  cases missing with
  | none => rfl
  | some error =>
    cases htask : server.contents.tasks.any (·.id = id.value) with
    | true =>
      have hsome : server.contents.tasks.countP (·.id = id.value) ≠ 0 := by
        simpa [List.countP_eq_zero] using htask
      simp [hsome, Program.run, Contents.remove]
    | false =>
      have hnone : server.contents.tasks.countP (·.id = id.value) = 0 := by
        simpa [List.countP_eq_zero] using htask
      simp [hnone, Program.run, Contents.remove]

/-- One validation is written if its shop is there. -/
theorem run_applyAll_cons {one : Applied} :
    (Program.applyAll (one :: applied)).run serve (server.inside contents) =
      if contents.hasShop one.shopId then
        (Program.applyAll applied).run serve (server.inside (contents.applyOne one))
      else
        (.error (.shopNotFound one.shopId),
          server.inside (contents.updateShop one.coordinates one.validatedAt.wholeMicros
            one.shopId.value)) := by
  rw [Program.applyAll, Program.run_andThen, run_updateShop rfl]
  cases hshop : contents.hasShop one.shopId with
  | true =>
    have hcontents : (server.inside contents).contents = contents := rfl
    simp only [hcontents, hshop, if_true]
    rw [Program.run_andThen, run_deleteTask rfl]
    rfl
  | false =>
    have hcontents : (server.inside contents).contents = contents := rfl
    simp only [hcontents, hshop, Bool.false_eq_true, if_false]
    rfl

/-- Validations of shops that are all there are written in order. -/
theorem run_applyAll_ok (hshops : ∀ one ∈ applied, contents.hasShop one.shopId = true) :
    (Program.applyAll applied).run serve (server.inside contents) =
      (.ok (), server.inside (applied.foldl Contents.applyOne contents)) := by
  induction applied generalizing contents with
  | nil => rfl
  | cons one rest ih =>
    obtain ⟨hshop, hrest⟩ := List.forall_mem_cons.mp hshops
    rw [run_applyAll_cons, if_pos hshop, ih (by simpa using hrest)]
    rfl

/-- Of the validations whose shop is missing the first is reported. -/
theorem run_applyAll_error {missing : Applied}
    (hmissing : applied.find? (!contents.hasShop ·.shopId) = some missing) :
    ∃ contents', (Program.applyAll applied).run serve (server.inside contents) =
      (.error (.shopNotFound missing.shopId), server.inside contents') := by
  induction applied generalizing contents with
  | nil => cases hmissing
  | cons one rest ih =>
    rw [run_applyAll_cons]
    cases hshop : contents.hasShop one.shopId with
    | true =>
      rw [List.find?_cons_of_neg (by simpa using hshop)] at hmissing
      simpa using ih (by simpa using hmissing)
    | false =>
      rw [List.find?_cons_of_pos (by simpa using hshop)] at hmissing
      obtain rfl := Option.some.inj hmissing
      exact ⟨_, rfl⟩

/-- A batch of validations of shops that are all there is written. -/
theorem run_applyBatch_ok (hshops : ∀ one ∈ applied, contents.hasShop one.shopId = true) :
    (Program.transaction (Program.applyAll applied)).run serve (resting contents s t) =
      (.ok (), resting (applied.foldl Contents.applyOne contents) s t) :=
  run_transaction_ok (run_applyAll_ok hshops)

/-- A batch of validations with one of a missing shop changes nothing. -/
theorem run_applyBatch_error {missing : Applied}
    (hmissing : applied.find? (!contents.hasShop ·.shopId) = some missing) :
    (Program.transaction (Program.applyAll applied)).run serve (resting contents s t) =
      (.error (.shopNotFound missing.shopId), resting contents s t) := by
  obtain ⟨contents', hrun⟩ := @run_applyAll_error (resting contents s t) contents _ _ hmissing
  exact run_transaction_error hrun

end Server

end ShopValidation
