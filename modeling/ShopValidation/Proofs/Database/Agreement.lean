import ShopValidation.Proofs.Database.Rows

/-!
# Memory and database agree

The store in memory and the store in a database are given the same calls, each under its own ids. The
ids of the database grow faster: it loses a number for every shop that is refused, and in a batch of
requests that is refused one for every request up to the one that is at fault. So the ids that memory
hands out go with those of the database in a renaming that keeps their order, and under this renaming
both end every call alike and have the same rows after it.
-/

namespace ShopValidation

open Server

/-- The times that are sent with an operation. -/
def Operation.times {α : Type} : Operation α → List Instant
  | .insertShop shop => shop.createdAt :: shop.lastValidation.toList
  | .needing _ staleBefore => staleBefore.toList
  | .confirm _ _ time => [time]
  | .insert request => [request.enqueuedAt]
  | .insertBatch requests => requests.map (·.enqueuedAt)
  | .applyBatch applied => applied.map (·.validatedAt)
  | _ => []

namespace Tables

/-- How many numbers of shops the database loses by an operation: one for a shop that is refused. -/
def lostShops {α : Type} (tables : Tables) : Operation α → Nat
  | .insertShop shop => if tables.shops.any (·.locationUid = shop.locationUid) then 1 else 0
  | _ => 0

/-- How many numbers of tasks the database loses by requests: if they are refused, one for each up to
the first whose shop is missing. -/
def lostBy (tables : Tables) (requests : List NewTask) : Nat :=
  if requests.all (tables.hasShop ·.shopId) then 0
  else (requests.takeWhile (tables.hasShop ·.shopId)).length + 1

/-- How many numbers of tasks the database loses by an operation. -/
def lostTasks {α : Type} (tables : Tables) : Operation α → Nat
  | .insert request => tables.lostBy [request]
  | .insertBatch requests => tables.lostBy requests
  | _ => 0

end Tables

/-- An operation goes in the database as in memory: it ends alike, leaves rows that are alike, and uses
up the numbers that memory hands out and those that the database loses by it. -/
def Parallel (r : Renaming) (shopIds : List ShopId) (taskIds : List TaskId) (tables : Tables)
    (contents : Contents) (g k : Int) {α : Type} (operation : Operation α) : Prop :=
  ∃ ending contents',
    Server.backend.perform (r.operation operation)
        (resting contents (tables.lastShopId + g) (tables.lastTaskId + k)) =
      (ending, resting contents'
        ((Tables.backend.perform operation tables).2.lastShopId + (g + tables.lostShops operation))
        ((Tables.backend.perform operation tables).2.lastTaskId + (k + tables.lostTasks operation))) ∧
    r.EndsAlike operation (Tables.backend.perform operation tables).1 ending ∧
    Alike r shopIds taskIds (Tables.backend.perform operation tables).2 contents'

section Parallel

variable {r : Renaming} {shopIds : List ShopId} {taskIds : List TaskId} {tables after : Tables}
  {contents contents' : Contents} {g k s t : Int} {α : Type} {operation : Operation α}

/-- An operation that both answer. -/
theorem parallel_of_ok {answer : α} (hmemory : tables.apply operation = .ok (answer, after))
    (hdatabase : (Program.ofOperation (r.operation operation)).run serve
        (resting contents (tables.lastShopId + g) (tables.lastTaskId + k)) =
      (.ok (r.answer operation answer), resting contents' s t))
    (hs : s = after.lastShopId + (g + tables.lostShops operation))
    (ht : t = after.lastTaskId + (k + tables.lostTasks operation))
    (halike : Alike r shopIds taskIds after contents') :
    Parallel r shopIds taskIds tables contents g k operation := by
  have hperform := Tables.perform_of_eq_ok hmemory
  refine ⟨.ok (r.answer operation answer), contents', ?_, ?_, ?_⟩
  · simp only [Server.backend, hdatabase, hperform, ← hs, ← ht]
    rfl
  · rw [hperform]
    rfl
  · rw [hperform]
    exact halike

/-- A question that both answer from their rows. -/
theorem parallel_of_read {answer : α} {statement : Statement}
    {read : List Row → Except StoreError α} {rows : List Row}
    (h : Alike r shopIds taskIds tables contents)
    (hmemory : tables.apply operation = .ok (answer, tables))
    (hprogram : Program.ofOperation (r.operation operation) = Program.query statement read)
    (hfound : ∀ s t, (resting contents s t).execute statement =
      (found rows, resting contents s t))
    (hread : read rows = .ok (r.answer operation answer))
    (hlost : tables.lostShops operation = 0 ∧ tables.lostTasks operation = 0) :
    Parallel r shopIds taskIds tables contents g k operation := by
  obtain ⟨hshops, htasks⟩ := hlost
  refine parallel_of_ok hmemory (s := tables.lastShopId + g) (t := tables.lastTaskId + k) ?_
    (by simp [hshops]) (by simp [htasks]) h
  rw [hprogram, run_query (hfound _ _), hread]

/-- An operation that both refuse. -/
theorem parallel_of_error {error error' : StoreError} (h : Alike r shopIds taskIds tables contents)
    (hmemory : tables.apply operation = .error error)
    (hdatabase : (Program.ofOperation (r.operation operation)).run serve
        (resting contents (tables.lastShopId + g) (tables.lastTaskId + k)) =
      (.error error', resting contents s t))
    (hs : s = tables.lastShopId + (g + tables.lostShops operation))
    (ht : t = tables.lastTaskId + (k + tables.lostTasks operation))
    (halike : r.RefusesAlike operation error error') :
    Parallel r shopIds taskIds tables contents g k operation := by
  have hperform := Tables.perform_of_eq_error hmemory
  refine ⟨.error (.refused error'), contents, ?_, ?_, ?_⟩
  · simp only [Server.backend, hdatabase, hperform, ← hs, ← ht]
    rfl
  · rw [hperform]
    exact halike
  · rw [hperform]
    exact h

end Parallel

namespace Alike

variable {r : Renaming} {shopIds : List ShopId} {taskIds : List TaskId} {tables : Tables}
  {contents : Contents} {g k : Int}

/-- Both find a shop or neither does. -/
theorem getShop (h : Alike r shopIds taskIds tables contents) (id : ShopId) :
    Parallel r shopIds taskIds tables contents g k (.getShop id) := by
  refine parallel_of_read h rfl rfl ?_ (h.read_shop id) ⟨rfl, rfl⟩
  exact fun _ _ => rfl

/-- Both find the same shops that need validation. -/
theorem needing (h : Alike r shopIds taskIds tables contents) (excludeQueued : Bool)
    {staleBefore : Option Instant} (htimes : ∀ t ∈ staleBefore, t.IsWhole) :
    Parallel r shopIds taskIds tables contents g k (.needing excludeQueued staleBefore) := by
  refine parallel_of_read h rfl rfl ?_ (h.read_needing excludeQueued staleBefore) ⟨rfl, rfl⟩
  intro s t
  rw [execute, Instant.map_wholeMicros htimes]
  rfl

/-- Both find the same front of a queue. -/
theorem select (h : Alike r shopIds taskIds tables contents) (reason : Reason) (limit : Nat)
    (hlength : tables.tasks.length ≤ Statement.largestLimit) :
    Parallel r shopIds taskIds tables contents g k (.select reason limit) := by
  obtain ⟨rows, hrows, hread⟩ := h.select_eq reason limit hlength
  have hmemory : tables.apply (.select reason limit) = .ok (rows, tables) := by
    rw [Tables.apply, hrows]
    rfl
  refine parallel_of_read h hmemory rfl ?_ hread ⟨rfl, rfl⟩
  exact fun _ _ => rfl

/-- Both find a task or neither does. -/
theorem existsAny (h : Alike r shopIds taskIds tables contents) :
    Parallel r shopIds taskIds tables contents g k .existsAny := by
  have hread : Row.single Row.present [{ present := some (contents.tasks.any fun task =>
      Statement.selectableCodes.contains task.reason) }] = .ok (!tables.tasks.isEmpty) :=
    congrArg Except.ok h.any_selectable_eq
  refine parallel_of_read h rfl rfl ?_ hread ⟨rfl, rfl⟩
  exact fun _ _ => rfl

/-- Both count the same tasks. -/
theorem count (h : Alike r shopIds taskIds tables contents) :
    Parallel r shopIds taskIds tables contents g k .count := by
  have hread : (Row.single Row.count [{ count := some contents.tasks.length }]).map Int.toNat =
      .ok tables.tasks.length := by
    rw [h.tasks, List.length_map]
    rfl
  refine parallel_of_read h rfl rfl ?_ hread ⟨rfl, rfl⟩
  exact fun _ _ => rfl

/-- Both write coordinates, or report the shop that is missing. -/
theorem confirmShop (h : Alike r shopIds taskIds tables contents) (id : ShopId)
    (position : Coordinates) {time : Instant} (htime : time.IsWhole) :
    Parallel r shopIds taskIds tables contents g k (.confirm id position time) := by
  have hrun (s t : Int) : (Program.ofOperation (r.operation (.confirm id position time))).run serve
      (resting contents s t) =
      (if contents.hasShop (r.shop id) then .ok () else .error (.shopNotFound (r.shop id)),
        resting (contents.updateShop position time.wholeMicros (r.shop id).value) s t) :=
    run_updateShop rfl
  rw [htime.wholeMicros, h.hasShop_eq] at hrun
  cases hshop : tables.hasShop id with
  | true =>
    have hmemory : tables.apply (.confirm id position time) =
        .ok ((), tables.confirmShop id position time) := if_pos hshop
    rw [hshop, if_pos rfl] at hrun
    refine parallel_of_ok hmemory (hrun _ _) ?_ ?_ (h.confirm id position htime)
    · simp [Tables.lostShops, Tables.confirmShop]
    · simp [Tables.lostTasks, Tables.confirmShop]
  | false =>
    have hmemory : tables.apply (.confirm id position time) = .error (.shopNotFound id) :=
      if_neg (by simp [hshop])
    have hnone := (h.hasShop_eq id).trans hshop
    rw [Contents.updateShop_of_not_hasShop hnone, hshop, if_neg (by decide)] at hrun
    refine parallel_of_error h hmemory (hrun _ _) ?_ ?_ rfl
    · simp [Tables.lostShops]
    · simp [Tables.lostTasks]

/-- Both delete a task, or report that it is missing. -/
theorem delete (h : Alike r shopIds taskIds tables contents) (id : TaskId) :
    Parallel r shopIds taskIds tables contents g k (.delete id) := by
  have hrun (s t : Int) : (Program.ofOperation (r.operation (.delete id))).run serve
      (resting contents s t) =
      (if contents.tasks.any (·.id = (r.task id).value) then .ok ()
        else .error (.taskNotFound (r.task id)), resting (contents.remove (r.task id)) s t) :=
    @run_deleteTask (resting contents s t) (r.task id) (some (.taskNotFound (r.task id))) rfl
  rw [h.any_task_eq] at hrun
  cases htask : tables.tasks.any (·.id = id) with
  | true =>
    have hmemory : tables.apply (.delete id) = .ok ((), tables.remove id) := if_pos htask
    rw [htask, if_pos rfl] at hrun
    refine parallel_of_ok hmemory (hrun _ _) ?_ ?_ (h.remove id)
    · simp [Tables.lostShops, Tables.remove]
    · simp [Tables.lostTasks, Tables.remove]
  | false =>
    have hmemory : tables.apply (.delete id) = .error (.taskNotFound id) :=
      if_neg (by simp [htask])
    have hnone := (h.any_task_eq id).trans htask
    rw [Contents.remove_of_not_any hnone, htask, if_neg (by decide)] at hrun
    refine parallel_of_error h hmemory (hrun _ _) ?_ ?_ rfl
    · simp [Tables.lostShops]
    · simp [Tables.lostTasks]

/-- Both add a shop, or refuse one whose location is taken. The database then loses a number. -/
theorem insertShop (h : Alike r shopIds taskIds tables contents) {shop : NewShop}
    (htimes : ∀ t ∈ shop.lastValidation, t.IsWhole)
    (hid : (∀ old ∈ tables.shops, old.locationUid ≠ shop.locationUid) →
      ⟨tables.lastShopId + 1⟩ ∈ shopIds ∧
        r.shop ⟨tables.lastShopId + 1⟩ = ⟨tables.lastShopId + g + 1⟩) :
    Parallel r shopIds taskIds tables contents g k (.insertShop shop) := by
  have huid := h.any_uid_eq shop.locationUid
  cases htaken : tables.shops.any (·.locationUid = shop.locationUid) with
  | true =>
    have hmemory : tables.apply (.insertShop shop) =
        .error (.storage (.duplicateUid shop.locationUid)) := if_pos htaken
    have hrun (s t : Int) : (resting contents s t).execute (.insertShop shop) =
        (.failed "duplicate key value violates unique constraint \"shop_osm_uid_key\"",
          resting contents (s + 1) t) := if_pos (huid.trans htaken)
    refine parallel_of_error h hmemory (run_query_failed (hrun _ _)) ?_ ?_ trivial
    · rw [Tables.lostShops, if_pos htaken]
      omega
    · simp [Tables.lostTasks]
  | false =>
    have hfree : ∀ old ∈ tables.shops, old.locationUid ≠ shop.locationUid := by
      simpa using htaken
    obtain ⟨hmem, hid⟩ := hid hfree
    have hmemory := Tables.insertShop_eq_ok_iff.mpr ⟨hfree, rfl, rfl⟩
    have hrun (s t : Int) : (resting contents s t).execute (.insertShop shop) =
        (found [{ id := some (s + 1) }],
          resting { contents with
            shops := contents.shops ++ [⟨s + 1, shop.locationUid.render,
              shop.createdAt.wholeMicros, shop.creator, shop.lat, shop.lon,
              shop.lastValidation.map Instant.wholeMicros⟩] } (s + 1) t) :=
      if_neg (by rw [← Bool.not_eq_true] at htaken; exact huid ▸ htaken)
    have hread : (Row.single Row.id [{ id := some (tables.lastShopId + g + 1) }]).map ShopId.mk =
        .ok (r.answer (.insertShop shop) ⟨tables.lastShopId + 1⟩) := by
      rw [Renaming.answer, hid]
      rfl
    have halike := h.addShop hfree htimes hmem
    rw [hid] at halike
    refine parallel_of_ok hmemory ((run_query (hrun _ _)).trans (congrArg (·, _) hread)) ?_ ?_ halike
    · rw [Tables.lostShops, if_neg (by simp [htaken])]
      dsimp only
      omega
    · simp [Tables.lostTasks]

/-- The shops of requests are all there in both, or not in either. -/
theorem forall_hasShop_iff (h : Alike r shopIds taskIds tables contents) {requests : List NewTask} :
    (∀ request ∈ requests.map r.request, contents.hasShop request.shopId = true) ↔
      ∀ request ∈ requests, tables.hasShop request.shopId = true := by
  rw [List.forall_mem_map]
  refine forall₂_congr fun request _ => ?_
  exact Eq.congr_left (h.hasShop_eq request.shopId)

/-- The ids of new rows go together if each does. -/
theorem map_task_newRows {requests : List NewTask}
    (hids : ∀ id ∈ (tables.enqueue requests).1, r.task id = ⟨id.value + k⟩) :
    (tables.enqueue requests).1.map r.task =
      requests.mapIdx fun i _ => ⟨tables.lastTaskId + k + i + 1⟩ := by
  rw [List.map_congr_left hids]
  apply List.ext_getElem?
  intro i
  simp only [Tables.enqueue_eq, List.getElem?_map, List.getElem?_mapIdx, Tables.getElem?_newRows]
  cases requests[i]? with
  | none => rfl
  | some request =>
    simp only [Option.map_some, NewTask.toTask, Option.some.injEq, TaskId.mk.injEq]
    omega

/-- The database takes as many numbers for requests that it refuses as memory says it loses. -/
theorem attempts_eq (h : Alike r shopIds taskIds tables contents) {requests : List NewTask}
    (hshops : ¬∀ request ∈ requests, tables.hasShop request.shopId = true) :
    contents.attempts (requests.map r.request) = tables.lostBy requests := by
  have hsame : (fun request => contents.hasShop (NewTask.shopId request)) ∘ r.request =
      (tables.hasShop ·.shopId) := by
    funext request
    exact h.hasShop_eq request.shopId
  rw [Contents.attempts, Tables.lostBy, if_neg (by simpa using hshops), List.takeWhile_map,
    List.length_map, hsame]

/-- Requests for shops that are all there are queued by the database under the ids that go together
with those in memory. -/
theorem run_insertBatch_ok (h : Alike r shopIds taskIds tables contents) {requests : List NewTask}
    (hshops : ∀ request ∈ requests, tables.hasShop request.shopId = true)
    (hids : ∀ id ∈ (tables.enqueue requests).1, r.task id = ⟨id.value + k⟩) :
    (Program.insertBatch (requests.map r.request)).run serve
        (resting contents (tables.lastShopId + g) (tables.lastTaskId + k)) =
      (.ok ((tables.enqueue requests).1.map r.task),
        resting (contents.enqueue (requests.map r.request) (tables.lastTaskId + k))
          (tables.lastShopId + g) (tables.lastTaskId + k + requests.length)) := by
  have hanswer : (requests.map r.request).mapIdx
      (fun i _ => TaskId.mk (tables.lastTaskId + k + i + 1)) =
      requests.mapIdx fun i _ => ⟨tables.lastTaskId + k + i + 1⟩ := by
    apply List.ext_getElem?
    intro i
    rw [List.getElem?_mapIdx, List.getElem?_mapIdx, List.getElem?_map]
    cases requests[i]? <;> rfl
  rw [Server.run_insertBatch_ok (h.forall_hasShop_iff.mpr hshops), map_task_newRows hids, hanswer,
    List.length_map]

/-- Requests with one for a missing shop are refused by the database, which loses some numbers. -/
theorem run_insertBatch_error (h : Alike r shopIds taskIds tables contents)
    {requests : List NewTask}
    (hshops : ¬∀ request ∈ requests, tables.hasShop request.shopId = true) :
    ∃ message, (Program.insertBatch (requests.map r.request)).run serve
        (resting contents (tables.lastShopId + g) (tables.lastTaskId + k)) =
      (.error (Program.databaseError message),
        resting contents (tables.lastShopId + g)
          (tables.lastTaskId + k + tables.lostBy requests)) := by
  have hmissing : ∃ request ∈ requests.map r.request, contents.hasShop request.shopId = false := by
    simpa using mt h.forall_hasShop_iff.mp hshops
  rw [← h.attempts_eq hshops]
  exact Server.run_insertBatch_error hmissing

/-- A request for a missing shop makes memory name the shop that is missing. -/
theorem exists_insertBatch_eq_error {requests : List NewTask}
    (hshops : ¬∀ request ∈ requests, tables.hasShop request.shopId = true) :
    ∃ id, tables.insertBatch requests = .error (.shopNotFound id) := by
  unfold Tables.insertBatch
  cases hmissing : tables.missingShop? (requests.map NewTask.shopId) with
  | some id => exact ⟨id, rfl⟩
  | none =>
    exact absurd (List.forall_mem_map.mp (Tables.missingShop?_eq_none_iff.mp hmissing)) hshops

/-- Both queue requests, or refuse them. -/
theorem insertBatch (h : Alike r shopIds taskIds tables contents) {requests : List NewTask}
    (htimes : ∀ request ∈ requests, request.enqueuedAt.IsWhole)
    (hids : (∀ request ∈ requests, tables.hasShop request.shopId = true) →
      ∀ id ∈ (tables.enqueue requests).1, id ∈ taskIds ∧ r.task id = ⟨id.value + k⟩) :
    Parallel r shopIds taskIds tables contents g k (.insertBatch requests) := by
  by_cases hshops : ∀ request ∈ requests, tables.hasShop request.shopId = true
  · have hmemory := Tables.insertBatch_eq_ok_iff.mpr ⟨hshops, rfl⟩
    have hnew := hids hshops
    have heach := fun id hmem => (hnew id hmem).2
    have hlost : tables.lostBy requests = 0 := if_pos (by simpa using hshops)
    refine parallel_of_ok hmemory (h.run_insertBatch_ok hshops heach) ?_ ?_
      (h.enqueue hshops htimes (fun id hmem => (hnew id hmem).1) (map_task_newRows heach))
    · simp [Tables.lostShops]
    · simp only [Tables.lostTasks, hlost]
      omega
  · obtain ⟨id, hmemory⟩ := exists_insertBatch_eq_error hshops
    obtain ⟨message, hrun⟩ := h.run_insertBatch_error hshops (g := g) (k := k)
    refine parallel_of_error h hmemory hrun ?_ ?_ ⟨_, rfl⟩
    · simp [Tables.lostShops]
    · simp only [Tables.lostTasks]
      omega

/-- Both queue a request, or refuse it. -/
theorem insertTask (h : Alike r shopIds taskIds tables contents) {request : NewTask}
    (htime : request.enqueuedAt.IsWhole)
    (hid : tables.hasShop request.shopId = true →
      ⟨tables.lastTaskId + 1⟩ ∈ taskIds ∧
        r.task ⟨tables.lastTaskId + 1⟩ = ⟨tables.lastTaskId + 1 + k⟩) :
    Parallel r shopIds taskIds tables contents g k (.insert request) := by
  by_cases hshop : tables.hasShop request.shopId = true
  · have hshops : ∀ request' ∈ [request], tables.hasShop request'.shopId = true := by simpa
    have hnew : ∀ id ∈ (tables.enqueue [request]).1, id ∈ taskIds ∧ r.task id = ⟨id.value + k⟩ := by
      rw [Tables.enqueue_singleton]
      simpa using hid hshop
    have heach := fun id hmem => (hnew id hmem).2
    have hmemory : tables.apply (.insert request) =
        .ok (⟨tables.lastTaskId + 1⟩, (tables.enqueue [request]).2) := if_pos hshop
    have hlost : tables.lostBy [request] = 0 := if_pos (by simpa using hshop)
    have hbatch := h.run_insertBatch_ok hshops heach (g := g)
    have halike := h.enqueue hshops (by simpa using htime) (fun id hmem => (hnew id hmem).1)
      (map_task_newRows heach)
    rw [Tables.enqueue_singleton] at hbatch hmemory halike
    refine parallel_of_ok hmemory (run_insertOne_ok hbatch) ?_ ?_ halike
    · simp [Tables.lostShops]
    · simp only [Tables.lostTasks, hlost, List.length_singleton]
      omega
  · have hshops : ¬∀ request' ∈ [request], tables.hasShop request'.shopId = true := by
      simpa using hshop
    have hmemory : tables.apply (.insert request) = .error (.shopNotFound request.shopId) :=
      if_neg hshop
    obtain ⟨message, hbatch⟩ := h.run_insertBatch_error hshops (g := g) (k := k)
    refine parallel_of_error h hmemory (run_insertOne_error hbatch) ?_ ?_ ⟨_, rfl⟩
    · simp [Tables.lostShops]
    · simp only [Tables.lostTasks]
      omega

/-- Both write validations, or name the same shop as the first that is missing. -/
theorem applyBatch (h : Alike r shopIds taskIds tables contents) {applied : List Applied}
    (htimes : ∀ one ∈ applied, one.validatedAt.IsWhole) :
    Parallel r shopIds taskIds tables contents g k (.applyBatch applied) := by
  have hfind : (applied.map r.applied).find? (!contents.hasShop ·.shopId) =
      (applied.find? (!tables.hasShop ·.shopId)).map r.applied := by
    rw [List.find?_map]
    congr 2
    funext one
    exact congrArg not (h.hasShop_eq one.shopId)
  cases hmissing : applied.find? (!tables.hasShop ·.shopId) with
  | none =>
    have hall : ∀ one ∈ applied, tables.hasShop one.shopId = true := by simpa using hmissing
    have hmemory : tables.apply (.applyBatch applied) =
        .ok ((), applied.foldl Tables.applyOne tables) := by
      rw [Tables.apply, Tables.applyBatch, Tables.missingShop?_eq_none_iff.mpr (by simpa using hall)]
    have hdatabase : ∀ one ∈ applied.map r.applied, contents.hasShop one.shopId = true := by
      refine List.forall_mem_map.mpr fun one hmem => ?_
      exact (h.hasShop_eq one.shopId).trans (hall one hmem)
    refine parallel_of_ok hmemory (run_applyBatch_ok hdatabase) ?_ ?_ (h.foldl_applyOne htimes)
    · simp [Tables.lostShops, Tables.foldl_applyOne]
    · simp [Tables.lostTasks, Tables.foldl_applyOne]
  | some missing =>
    have hmemory : tables.apply (.applyBatch applied) = .error (.shopNotFound missing.shopId) := by
      have hid : tables.missingShop? (applied.map Applied.shopId) = some missing.shopId := by
        rw [Tables.missingShop?, List.find?_map]
        exact congrArg (Option.map Applied.shopId) hmissing
      rw [Tables.apply, Tables.applyBatch, hid]
    rw [hmissing] at hfind
    refine parallel_of_error h hmemory (run_applyBatch_error hfind) ?_ ?_ rfl
    · simp [Tables.lostShops]
    · simp [Tables.lostTasks]

end Alike

end ShopValidation
