import Mathlib.Data.List.Nodup
import ShopValidation.Store.Tables

/-!
# What the tables keep

Rows stand in the order of their ids, no id is above the last one handed out, every queued task is
for a shop that is there, and no two shops share a location. `Sound` says so, and every operation
keeps it, so that it holds for all tables that operations lead to.

Beside it stand the effects of the two operations that batches rely on: queueing requests appends
rows under the next ids, and writing validations confirms the shops that they name and takes their
tasks off the queue.
-/

namespace ShopValidation

/-- The shop after validations were written: confirmed by the last one that names it, if any does. -/
def Shop.confirmAll (applied : List Applied) (shop : Shop) : Shop :=
  match applied.reverse.find? (·.shopId = shop.id) with
  | some last => shop.confirm last.coordinates last.validatedAt
  | none => shop

namespace Shop

variable {applied : List Applied} {shop : Shop}

/-- A shop that validations name is confirmed by one of them, and any other stays as it is. -/
theorem confirmAll_cases (applied : List Applied) (shop : Shop) :
    (∃ last ∈ applied, last.shopId = shop.id ∧
      shop.confirmAll applied = shop.confirm last.coordinates last.validatedAt) ∨
    (∀ one ∈ applied, one.shopId ≠ shop.id) ∧ shop.confirmAll applied = shop := by
  unfold confirmAll
  cases hlast : applied.reverse.find? (·.shopId = shop.id) with
  | some last =>
    have hmem := List.mem_reverse.mp (List.mem_of_find?_eq_some hlast)
    exact .inl ⟨last, hmem, by simpa using List.find?_some hlast, rfl⟩
  | none => exact .inr ⟨by simpa using hlast, rfl⟩

/-- Writing validations does not change the id of a shop. -/
@[simp] theorem confirmAll_id : (shop.confirmAll applied).id = shop.id := by
  unfold confirmAll
  split <;> rfl

/-- Writing validations does not change the location of a shop. -/
@[simp] theorem confirmAll_locationUid :
    (shop.confirmAll applied).locationUid = shop.locationUid := by
  unfold confirmAll
  split <;> rfl

/-- Without validations nothing changes. -/
@[simp] theorem confirmAll_nil : shop.confirmAll [] = shop := rfl

/-- The first validation is written first. -/
theorem confirmAll_cons (one : Applied) (rest : List Applied) (shop : Shop) :
    shop.confirmAll (one :: rest) =
      (if shop.id = one.shopId then shop.confirm one.coordinates one.validatedAt
        else shop).confirmAll rest := by
  have hid : (if shop.id = one.shopId then shop.confirm one.coordinates one.validatedAt
      else shop).id = shop.id := by
    split <;> rfl
  unfold confirmAll
  rw [List.reverse_cons, List.find?_append, hid]
  cases rest.reverse.find? (·.shopId = shop.id) with
  | some last =>
    by_cases hone : shop.id = one.shopId
    · simp [hone, confirm]
    · simp [hone]
  | none =>
    by_cases hone : shop.id = one.shopId
    · simp [hone]
    · simp [hone, Ne.symm hone]

end Shop

namespace Tables

variable {tables after : Tables} {applied : List Applied}

/-- Every rule that the rows of the tables follow. -/
structure Sound (tables : Tables) : Prop where
  shops_increasing : (tables.shops.map (·.id.value)).Pairwise (· < ·)
  shop_issued : ∀ shop ∈ tables.shops, 0 < shop.id.value ∧ shop.id.value ≤ tables.lastShopId
  uids_nodup : (tables.shops.map (·.locationUid)).Nodup
  tasks_increasing : (tables.tasks.map (·.id.value)).Pairwise (· < ·)
  task_issued : ∀ task ∈ tables.tasks, 0 < task.id.value ∧ task.id.value ≤ tables.lastTaskId
  task_hasShop : ∀ task ∈ tables.tasks, tables.hasShop task.shopId = true
  lastShopId_nonneg : 0 ≤ tables.lastShopId
  lastTaskId_nonneg : 0 ≤ tables.lastTaskId

/-- Empty tables follow every rule. -/
theorem sound_empty : ({} : Tables).Sound where
  shops_increasing := .nil
  shop_issued := by simp
  uids_nodup := .nil
  tasks_increasing := .nil
  task_issued := by simp
  task_hasShop := by simp
  lastShopId_nonneg := Int.le_refl 0
  lastTaskId_nonneg := Int.le_refl 0

/-- There is a row of a shop when some row has its id. -/
theorem hasShop_iff {id : ShopId} :
    tables.hasShop id = true ↔ ∃ shop ∈ tables.shops, shop.id = id := by
  simp [hasShop]

/-- The row of a shop has its id. -/
theorem mem_of_shop? {id : ShopId} {shop : Shop} (h : tables.shop? id = some shop) :
    shop ∈ tables.shops ∧ shop.id = id :=
  ⟨List.mem_of_find?_eq_some h, by simpa using List.find?_some h⟩

/-- Rows of shops under one id are one row. -/
theorem Sound.shop_unique (h : tables.Sound) {a b : Shop} (ha : a ∈ tables.shops)
    (hb : b ∈ tables.shops) (hid : a.id = b.id) : a = b :=
  List.inj_on_of_nodup_map (h.shops_increasing.imp Int.ne_of_lt) ha hb (congrArg ShopId.value hid)

/-- Rows of tasks under one id are one row. -/
theorem Sound.task_unique (h : tables.Sound) {a b : Task} (ha : a ∈ tables.tasks)
    (hb : b ∈ tables.tasks) (hid : a.id = b.id) : a = b :=
  List.inj_on_of_nodup_map (h.tasks_increasing.imp Int.ne_of_lt) ha hb (congrArg TaskId.value hid)

/-- No two rows of shops have one id. -/
theorem Sound.shopIds_nodup (h : tables.Sound) : (tables.shops.map Shop.id).Nodup := by
  refine List.Nodup.of_map ShopId.value ?_
  rw [List.map_map]
  exact h.shops_increasing.imp Int.ne_of_lt

/-- No two rows of tasks have one id. -/
theorem Sound.taskIds_nodup (h : tables.Sound) : (tables.tasks.map Task.id).Nodup := by
  refine List.Nodup.of_map TaskId.value ?_
  rw [List.map_map]
  exact h.tasks_increasing.imp Int.ne_of_lt

/-- The next id is not that of a shop. -/
theorem Sound.shop_ne_next (h : tables.Sound) {shop : Shop} (hmem : shop ∈ tables.shops) :
    shop.id ≠ ⟨tables.lastShopId + 1⟩ := by
  intro heq
  have hissued := (h.shop_issued shop hmem).2
  rw [heq] at hissued
  dsimp only at hissued
  omega

/-- The next id is not that of a task. -/
theorem Sound.task_ne_next (h : tables.Sound) {task : Task} (hmem : task ∈ tables.tasks) :
    task.id ≠ ⟨tables.lastTaskId + 1⟩ := by
  intro heq
  have hissued := (h.task_issued task hmem).2
  rw [heq] at hissued
  dsimp only at hissued
  omega

/-- The rows that queueing requests adds. -/
def newRows (tables : Tables) (requests : List NewTask) : List Task :=
  requests.zipIdx.map fun (request, i) => request.toTask ⟨tables.lastTaskId + i + 1⟩

/-- Queueing requests appends their rows and answers with the ids of these. -/
theorem enqueue_eq (tables : Tables) (requests : List NewTask) :
    tables.enqueue requests =
      ((tables.newRows requests).map Task.id,
        { tables with
          tasks := tables.tasks ++ tables.newRows requests
          lastTaskId := tables.lastTaskId + requests.length }) := rfl

/-- Each new row is a request under the next id at its place. -/
theorem getElem?_newRows (tables : Tables) (requests : List NewTask) (i : Nat) :
    (tables.newRows requests)[i]? =
      requests[i]?.map fun request => request.toTask ⟨tables.lastTaskId + i + 1⟩ := by
  simp [newRows, Function.comp_def]

/-- New rows have the ids that follow the last one handed out. -/
theorem ids_newRows (tables : Tables) (requests : List NewTask) :
    (tables.newRows requests).map Task.id =
      (List.range' 1 requests.length).map fun i : Nat => ⟨tables.lastTaskId + i⟩ := by
  apply List.ext_getElem?
  intro i
  rw [List.getElem?_map, getElem?_newRows, List.getElem?_map]
  by_cases hi : i < requests.length
  · rw [List.getElem?_eq_getElem hi, List.getElem?_range' hi]
    simp only [Option.map_some, NewTask.toTask, Option.some.injEq, TaskId.mk.injEq]
    omega
  · have hnone : (List.range' 1 requests.length)[i]? = none := by simpa using hi
    rw [List.getElem?_eq_none (Nat.le_of_not_lt hi), hnone]
    rfl

/-- The requests under the ids that were answered are the new rows. -/
theorem zipWith_toTask_ids (tables : Tables) (requests : List NewTask) :
    requests.zipWith NewTask.toTask ((tables.newRows requests).map Task.id) =
      tables.newRows requests := by
  apply List.ext_getElem?
  intro i
  rw [List.getElem?_zipWith, List.getElem?_map, getElem?_newRows]
  cases requests[i]? <;> rfl

/-- New rows are their requests, apart from the ids. -/
theorem toNewTask_newRows (tables : Tables) (requests : List NewTask) :
    (tables.newRows requests).map Task.toNewTask = requests := by
  apply List.ext_getElem?
  intro i
  rw [List.getElem?_map, getElem?_newRows]
  cases requests[i]? <;> rfl

/-- New rows are for the shops of their requests. -/
theorem newRows_shopId (tables : Tables) (requests : List NewTask) :
    (tables.newRows requests).map (·.shopId) = requests.map (·.shopId) := by
  have hrows := congrArg (List.map NewTask.shopId) (toNewTask_newRows tables requests)
  rwa [List.map_map] at hrows

/-- The id of a new row is above all ids handed out before, and not above the last one after. -/
theorem id_newRows {requests : List NewTask} {task : Task} (h : task ∈ tables.newRows requests) :
    tables.lastTaskId < task.id.value ∧ task.id.value ≤ tables.lastTaskId + requests.length := by
  obtain ⟨i, hi⟩ := List.mem_iff_getElem?.mp h
  rw [getElem?_newRows] at hi
  obtain ⟨request, hrequest, rfl⟩ := Option.map_eq_some_iff.mp hi
  have hlt := (List.getElem?_eq_some_iff.mp hrequest).1
  simp only [NewTask.toTask]
  omega

/-- New rows stand in the order of their ids. -/
theorem newRows_increasing (tables : Tables) (requests : List NewTask) :
    ((tables.newRows requests).map (·.id.value)).Pairwise (· < ·) := by
  have hid : ∀ k (hk : k < ((tables.newRows requests).map (·.id.value)).length),
      ((tables.newRows requests).map (·.id.value))[k] = tables.lastTaskId + k + 1 := by
    intro k hk
    simp [newRows, NewTask.toTask]
  apply List.pairwise_iff_getElem.mpr
  intro i j hi hj hlt
  rw [hid i hi, hid j hj]
  omega

/-- One request is queued under the next id. -/
theorem enqueue_singleton (tables : Tables) (request : NewTask) :
    tables.enqueue [request] =
      ([⟨tables.lastTaskId + 1⟩],
        { tables with
          tasks := tables.tasks ++ [request.toTask ⟨tables.lastTaskId + 1⟩]
          lastTaskId := tables.lastTaskId + 1 }) := by
  simp [enqueue_eq, newRows, NewTask.toTask]

/-- Queueing one request and then the rest queues all of them. -/
theorem enqueue_cons (tables : Tables) (request : NewTask) (rest : List NewTask) :
    tables.enqueue (request :: rest) =
      (⟨tables.lastTaskId + 1⟩ :: ((tables.enqueue [request]).2.enqueue rest).1,
        ((tables.enqueue [request]).2.enqueue rest).2) := by
  have hrows : tables.newRows (request :: rest) =
      request.toTask ⟨tables.lastTaskId + 1⟩ :: (tables.enqueue [request]).2.newRows rest := by
    apply List.ext_getElem?
    intro i
    cases i with
    | zero => simp [getElem?_newRows]
    | succ i =>
      have hid : tables.lastTaskId + (i + 1 : Int) + 1 = tables.lastTaskId + 1 + i + 1 := by omega
      simp [getElem?_newRows, enqueue_singleton, hid]
  rw [enqueue_eq _ (request :: rest), hrows, enqueue_singleton, enqueue_eq]
  simp [NewTask.toTask]
  omega

/-- Writing one validation confirms the shop that it names and takes its task off the queue. -/
theorem foldl_applyOne (applied : List Applied) (tables : Tables) :
    applied.foldl applyOne tables =
      { tables with
        shops := tables.shops.map (·.confirmAll applied)
        tasks := tables.tasks.filter (·.id ∉ applied.map Applied.taskId) } := by
  induction applied generalizing tables with
  | nil => simp
  | cons one rest ih =>
    rw [List.foldl_cons, ih]
    simp only [applyOne, confirmShop, remove, List.map_map, List.filter_filter]
    congr 1
    · apply List.map_congr_left
      intro shop _
      rewrite [Shop.confirmAll_cons]
      rfl
    · apply List.filter_congr
      intro task _
      rw [Bool.eq_iff_iff]
      simp only [Bool.and_eq_true, decide_eq_true_eq, List.map_cons, List.mem_cons, not_or]
      exact and_comm

/-- No shop is missing when there is a row of each. -/
theorem missingShop?_eq_none_iff {ids : List ShopId} :
    tables.missingShop? ids = none ↔ ∀ id ∈ ids, tables.hasShop id = true := by
  simp [missingShop?]

/-- A batch of requests is queued when the shops of all are there. -/
theorem insertBatch_eq_ok_iff {requests : List NewTask} {ids : List TaskId} :
    tables.insertBatch requests = .ok (ids, after) ↔
      (∀ request ∈ requests, tables.hasShop request.shopId = true) ∧
        tables.enqueue requests = (ids, after) := by
  unfold insertBatch
  cases hmissing : tables.missingShop? (requests.map NewTask.shopId) with
  | some id =>
    refine iff_of_false nofun fun h => ?_
    have hnone := missingShop?_eq_none_iff.mpr (List.forall_mem_map.mpr h.1)
    rw [hmissing] at hnone
    cases hnone
  | none =>
    have hall := List.forall_mem_map.mp (missingShop?_eq_none_iff.mp hmissing)
    simp only [Except.ok.injEq]
    exact (and_iff_right hall).symm

/-- A batch of validations is written when the shops of all are there. -/
theorem applyBatch_eq_ok_iff {done : Unit} :
    tables.applyBatch applied = .ok (done, after) ↔
      (∀ one ∈ applied, tables.hasShop one.shopId = true) ∧
        after =
          { tables with
            shops := tables.shops.map (·.confirmAll applied)
            tasks := tables.tasks.filter (·.id ∉ applied.map Applied.taskId) } := by
  unfold applyBatch
  cases hmissing : tables.missingShop? (applied.map Applied.shopId) with
  | some id =>
    refine iff_of_false nofun fun h => ?_
    have hnone := missingShop?_eq_none_iff.mpr (List.forall_mem_map.mpr h.1)
    rw [hmissing] at hnone
    cases hnone
  | none =>
    have hall := List.forall_mem_map.mp (missingShop?_eq_none_iff.mp hmissing)
    rw [← foldl_applyOne, and_iff_right hall]
    simp only [Except.ok.injEq, Prod.mk.injEq, true_and, eq_comm]

/-- The queue of a reason holds the tasks with that reason. -/
theorem mem_queue {reason : Reason} {task : Task} :
    task ∈ tables.queue reason ↔ task ∈ tables.tasks ∧ task.reason = reason := by
  simp [queue]

/-- Picked rows are the front of the queue, each beside the row of its shop. -/
theorem select_eq_ok {reason : Reason} {limit : Nat} {rows : List QueuedTask}
    (h : tables.select reason limit = .ok rows) :
    rows.map QueuedTask.task = (tables.queue reason).take limit ∧
      ∀ row ∈ rows, tables.shop? row.task.shopId = some row.shop := by
  unfold select at h
  generalize (tables.queue reason).take limit = tasks at h ⊢
  induction tasks generalizing rows with
  | nil =>
    cases h
    simp
  | cons task tasks ih =>
    rw [List.mapM_cons, withShop] at h
    cases hshop : tables.shop? task.shopId with
    | none =>
      rw [hshop] at h
      cases h
    | some shop =>
      cases hrest : tasks.mapM tables.withShop with
      | error error =>
        rw [hshop, hrest] at h
        cases h
      | ok rest =>
        rw [hshop, hrest] at h
        cases h
        obtain ⟨htasks, hshops⟩ := ih hrest
        exact ⟨by simp [htasks], List.forall_mem_cons.mpr ⟨hshop, hshops⟩⟩

/-- Picked tasks are in the queue, with the reason for which they were picked. -/
theorem mem_of_select {reason : Reason} {limit : Nat} {rows : List QueuedTask} {queued : QueuedTask}
    (h : tables.select reason limit = .ok rows) (hqueued : queued ∈ rows) :
    queued.task ∈ tables.tasks ∧ queued.task.reason = reason := by
  have htask : queued.task ∈ (tables.queue reason).take limit :=
    (select_eq_ok h).1 ▸ List.mem_map_of_mem hqueued
  exact mem_queue.mp (List.mem_of_mem_take htask)

/-- Shops may change where neither their ids nor their locations do. -/
theorem Sound.mapShops (h : tables.Sound) {f : Shop → Shop} (hid : ∀ shop, (f shop).id = shop.id)
    (huid : ∀ shop, (f shop).locationUid = shop.locationUid) :
    { tables with shops := tables.shops.map f }.Sound where
  shops_increasing := by simpa [Function.comp_def, hid] using h.shops_increasing
  shop_issued := by simpa [hid] using h.shop_issued
  uids_nodup := by simpa [Function.comp_def, huid] using h.uids_nodup
  tasks_increasing := h.tasks_increasing
  task_issued := h.task_issued
  task_hasShop task htask := by
    simpa [hasShop, hid] using h.task_hasShop task htask
  lastShopId_nonneg := h.lastShopId_nonneg
  lastTaskId_nonneg := h.lastTaskId_nonneg

/-- Tasks may leave the queue. -/
theorem Sound.filterTasks (h : tables.Sound) (p : Task → Bool) :
    { tables with tasks := tables.tasks.filter p }.Sound :=
  { h with
    tasks_increasing := h.tasks_increasing.sublist (List.filter_sublist.map _)
    task_issued := fun task htask => h.task_issued task (List.mem_of_mem_filter htask)
    task_hasShop := fun task htask => h.task_hasShop task (List.mem_of_mem_filter htask) }

/-- Requests for shops that are there may be queued. -/
theorem Sound.enqueue (h : tables.Sound) {requests : List NewTask}
    (hshops : ∀ request ∈ requests, tables.hasShop request.shopId = true) :
    (tables.enqueue requests).2.Sound where
  shops_increasing := h.shops_increasing
  shop_issued := h.shop_issued
  uids_nodup := h.uids_nodup
  tasks_increasing := by
    have hbelow : ∀ old ∈ tables.tasks, ∀ new ∈ tables.newRows requests,
        old.id.value < new.id.value := by
      intro old hold new hnew
      have hle := (h.task_issued old hold).2
      have hlt := (id_newRows hnew).1
      omega
    rw [enqueue_eq, List.map_append, List.pairwise_append]
    exact ⟨h.tasks_increasing, newRows_increasing tables requests,
      List.forall_mem_map.mpr fun old hold => List.forall_mem_map.mpr (hbelow old hold)⟩
  task_issued task htask := by
    have hnonneg := h.lastTaskId_nonneg
    rcases List.mem_append.mp htask with hold | hnew
    · have hissued := h.task_issued task hold
      simp only [enqueue_eq]
      omega
    · have hid := id_newRows hnew
      simp only [enqueue_eq]
      omega
  task_hasShop task htask := by
    rcases List.mem_append.mp htask with hold | hnew
    · exact h.task_hasShop task hold
    · have hmem : task.shopId ∈ (tables.newRows requests).map (·.shopId) := List.mem_map_of_mem hnew
      rw [newRows_shopId] at hmem
      obtain ⟨request, hrequest, hshop⟩ := List.mem_map.mp hmem
      exact hshop ▸ hshops request hrequest
  lastShopId_nonneg := h.lastShopId_nonneg
  lastTaskId_nonneg := by
    have hnonneg := h.lastTaskId_nonneg
    simp only [enqueue_eq]
    omega

/-- A shop at a location of its own may be added. -/
theorem Sound.addShop (h : tables.Sound) {shop : NewShop}
    (hfree : ∀ old ∈ tables.shops, old.locationUid ≠ shop.locationUid) :
    { tables with
      shops := tables.shops ++ [shop.toShop ⟨tables.lastShopId + 1⟩]
      lastShopId := tables.lastShopId + 1 }.Sound where
  shops_increasing := by
    have hbelow : ∀ old ∈ tables.shops, old.id.value < tables.lastShopId + 1 := by
      intro old hold
      have hle := (h.shop_issued old hold).2
      omega
    rw [List.map_append, List.pairwise_append]
    refine ⟨h.shops_increasing, List.pairwise_singleton _ _, List.forall_mem_map.mpr ?_⟩
    intro old hold
    simpa [NewShop.toShop] using hbelow old hold
  shop_issued old hold := by
    have hnonneg := h.lastShopId_nonneg
    rcases List.mem_append.mp hold with hold | hnew
    · have hissued := h.shop_issued old hold
      dsimp only
      omega
    · obtain rfl := List.mem_singleton.mp hnew
      simp only [NewShop.toShop]
      omega
  uids_nodup := by
    have hnew : shop.locationUid ∉ tables.shops.map (·.locationUid) := by
      intro hmem
      obtain ⟨old, hold, huid⟩ := List.mem_map.mp hmem
      exact hfree old hold huid
    rw [List.map_append]
    exact h.uids_nodup.append (List.nodup_singleton _) (List.disjoint_singleton.mpr hnew)
  tasks_increasing := h.tasks_increasing
  task_issued := h.task_issued
  task_hasShop task htask := by
    obtain ⟨old, hold, hid⟩ := hasShop_iff.mp (h.task_hasShop task htask)
    exact hasShop_iff.mpr ⟨old, List.mem_append_left _ hold, hid⟩
  lastShopId_nonneg := by
    have hnonneg := h.lastShopId_nonneg
    dsimp only
    omega
  lastTaskId_nonneg := h.lastTaskId_nonneg

/-- A shop is added under the next id when its location is free. -/
theorem insertShop_eq_ok_iff {shop : NewShop} {id : ShopId} :
    tables.insertShop shop = .ok (id, after) ↔
      (∀ old ∈ tables.shops, old.locationUid ≠ shop.locationUid) ∧
        id = ⟨tables.lastShopId + 1⟩ ∧
        after =
          { tables with
            shops := tables.shops ++ [shop.toShop ⟨tables.lastShopId + 1⟩]
            lastShopId := tables.lastShopId + 1 } := by
  unfold insertShop
  split
  · rename_i htaken
    refine iff_of_false nofun fun h => ?_
    obtain ⟨old, hold, huid⟩ := List.any_eq_true.mp htaken
    exact h.1 old hold (of_decide_eq_true huid)
  · rename_i hfree
    have hall : ∀ old ∈ tables.shops, old.locationUid ≠ shop.locationUid := by simpa using hfree
    simp only [Except.ok.injEq, Prod.mk.injEq, eq_comm]
    exact (and_iff_right hall).symm

/-- Every operation that is not refused keeps the rules. -/
theorem Sound.apply {α : Type} (h : tables.Sound) {operation : Operation α} {answer : α}
    (happly : tables.apply operation = .ok (answer, after)) : after.Sound := by
  cases operation with
  | insertShop shop =>
    obtain ⟨hfree, -, rfl⟩ := insertShop_eq_ok_iff.mp happly
    exact h.addShop hfree
  | getShop | needing | existsAny | count =>
    cases happly
    exact h
  | confirm id position time =>
    simp only [Tables.apply] at happly
    split at happly <;> cases happly
    exact h.mapShops (fun shop => by split <;> rfl) (fun shop => by split <;> rfl)
  | insert request =>
    simp only [Tables.apply, Tables.insert] at happly
    split at happly <;> cases happly
    exact h.enqueue (by simpa)
  | select reason limit =>
    simp only [Tables.apply] at happly
    cases hselect : tables.select reason limit <;> rw [hselect] at happly <;> cases happly
    exact h
  | delete id =>
    simp only [Tables.apply, Tables.delete] at happly
    split at happly <;> cases happly
    exact h.filterTasks _
  | insertBatch requests =>
    obtain ⟨hshops, henqueue⟩ := insertBatch_eq_ok_iff.mp happly
    have hsound := h.enqueue hshops
    rwa [henqueue] at hsound
  | applyBatch applied =>
    obtain ⟨-, rfl⟩ := applyBatch_eq_ok_iff.mp happly
    exact (h.mapShops (f := (·.confirmAll applied)) (fun _ => Shop.confirmAll_id)
      (fun _ => Shop.confirmAll_locationUid)).filterTasks _

/-- An operation that is not refused is performed as the tables say. -/
theorem perform_of_eq_ok {α : Type} {operation : Operation α} {answer : α}
    (h : tables.apply operation = .ok (answer, after)) :
    backend.perform operation tables = (.ok answer, after) := by
  simp only [backend, h]

/-- An operation that is refused has no effect. -/
theorem perform_of_eq_error {α : Type} {operation : Operation α} {error : StoreError}
    (h : tables.apply operation = .error error) :
    backend.perform operation tables = (.error (.refused error), tables) := by
  simp only [backend, h]

/-- An operation is performed as the tables say, or refused and without effect. -/
theorem perform_cases {α : Type} (operation : Operation α) (tables : Tables) :
    (∃ answer after, tables.apply operation = .ok (answer, after) ∧
      backend.perform operation tables = (.ok answer, after)) ∨
    ∃ error, tables.apply operation = .error error ∧
      backend.perform operation tables = (.error (.refused error), tables) := by
  cases happly : tables.apply operation with
  | ok answer => exact .inl ⟨answer.1, answer.2, rfl, perform_of_eq_ok happly⟩
  | error error => exact .inr ⟨error, rfl, perform_of_eq_error happly⟩

/-- Whether or not it is refused, an operation keeps the rules. -/
theorem Sound.perform {α : Type} (h : tables.Sound) (operation : Operation α) :
    (backend.perform operation tables).2.Sound := by
  rcases perform_cases operation tables with ⟨answer, after, happly, heq⟩ | ⟨error, -, heq⟩
  · rw [heq]
    exact h.apply happly
  · rw [heq]
    exact h

/-- Tables that operations lead to, from empty ones. -/
inductive Reachable : Tables → Prop where
  | empty : Reachable {}
  | operation {α : Type} {tables after : Tables} (operation : Operation α) (answer : α)
    (hbefore : Reachable tables) (happly : tables.apply operation = .ok (answer, after)) :
    Reachable after

/-- All tables that operations lead to follow the rules. -/
theorem Reachable.sound (h : tables.Reachable) : tables.Sound := by
  induction h with
  | empty => exact sound_empty
  | operation _ _ _ happly ih => exact ih.apply happly

end Tables

end ShopValidation
