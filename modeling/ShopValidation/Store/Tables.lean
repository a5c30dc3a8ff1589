import ShopValidation.Store.Operation

/-!
# Tables in memory

The store as two tables in the order of their ids, with the last id that each has handed out. An id
is handed out once; a deletion does not give it back. An operation that is refused changes nothing.
-/

namespace ShopValidation

/-- The shops and the queue. -/
structure Tables where
  shops : List Shop := []
  tasks : List Task := []
  lastShopId : Int := 0
  lastTaskId : Int := 0

namespace Tables

/-- The row of a shop. -/
def shop? (tables : Tables) (id : ShopId) : Option Shop := tables.shops.find? (·.id = id)

/-- Whether there is a row of a shop. -/
def hasShop (tables : Tables) (id : ShopId) : Bool := tables.shops.any (·.id = id)

theorem isSome_shop? (tables : Tables) (id : ShopId) :
    (tables.shop? id).isSome = tables.hasShop id := by
  rw [Bool.eq_iff_iff]
  simp [shop?, hasShop]

/-- Whether a task for a shop is queued. -/
def isQueued (tables : Tables) (id : ShopId) : Bool := tables.tasks.any (·.shopId = id)

/-- Add a shop, unless its location is taken. -/
def insertShop (tables : Tables) (shop : NewShop) : Except StoreError (ShopId × Tables) :=
  if tables.shops.any (·.locationUid = shop.locationUid) then
    .error (.storage (.duplicateUid shop.locationUid))
  else
    let id : ShopId := ⟨tables.lastShopId + 1⟩
    .ok (id, { tables with shops := tables.shops ++ [shop.toShop id], lastShopId := id.value })

/-- The shops that need validation, in the order of their ids. -/
def needing (tables : Tables) (excludeQueued : Bool) (staleBefore : Option Instant) : List Shop :=
  tables.shops.filter fun shop =>
    shop.needsValidation staleBefore && !(excludeQueued && tables.isQueued shop.id)

/-- Write confirmed coordinates into the row of a shop. -/
def confirmShop (tables : Tables) (id : ShopId) (position : Coordinates) (time : Instant) : Tables :=
  { tables with
    shops := tables.shops.map fun shop => if shop.id = id then shop.confirm position time else shop }

/-- Queue requests under the next ids. -/
def enqueue (tables : Tables) (requests : List NewTask) : List TaskId × Tables :=
  let rows := requests.zipIdx.map fun (request, i) => request.toTask ⟨tables.lastTaskId + i + 1⟩
  (rows.map Task.id,
    { tables with
      tasks := tables.tasks ++ rows
      lastTaskId := tables.lastTaskId + requests.length })

/-- The shop of the first request whose shop is missing. -/
def missingShop? (tables : Tables) (ids : List ShopId) : Option ShopId :=
  ids.find? (!tables.hasShop ·)

/-- Queue all requests, or none where a shop is missing. -/
def insertBatch (tables : Tables) (requests : List NewTask) :
    Except StoreError (List TaskId × Tables) :=
  match tables.missingShop? (requests.map NewTask.shopId) with
  | some id => .error (.shopNotFound id)
  | none => .ok (tables.enqueue requests)

/-- Queue one request. -/
def insert (tables : Tables) (request : NewTask) : Except StoreError (TaskId × Tables) :=
  if tables.hasShop request.shopId then
    .ok (⟨tables.lastTaskId + 1⟩, (tables.enqueue [request]).2)
  else .error (.shopNotFound request.shopId)

/-- The queue of a reason, oldest first. -/
def queue (tables : Tables) (reason : Reason) : List Task :=
  (tables.tasks.filter (·.reason = reason)).mergeSort Task.precedes

/-- A task beside its shop. -/
def withShop (tables : Tables) (task : Task) : Except StoreError QueuedTask :=
  match tables.shop? task.shopId with
  | some shop => .ok ⟨task, shop⟩
  | none => .error (.shopNotFound task.shopId)

/-- The front of the queue of a reason. -/
def select (tables : Tables) (reason : Reason) (limit : Nat) : Except StoreError (List QueuedTask) :=
  ((tables.queue reason).take limit).mapM tables.withShop

/-- Take a task off the queue. -/
def remove (tables : Tables) (id : TaskId) : Tables :=
  { tables with tasks := tables.tasks.filter (·.id ≠ id) }

/-- Delete a task that is there. -/
def delete (tables : Tables) (id : TaskId) : Except StoreError (Unit × Tables) :=
  if tables.tasks.any (·.id = id) then .ok ((), tables.remove id) else .error (.taskNotFound id)

/-- Write one validation and take its task off the queue, if it is still there. -/
def applyOne (tables : Tables) (applied : Applied) : Tables :=
  (tables.confirmShop applied.shopId applied.coordinates applied.validatedAt).remove applied.taskId

/-- Write all validations in order, or none where a shop is missing. -/
def applyBatch (tables : Tables) (applied : List Applied) : Except StoreError (Unit × Tables) :=
  match tables.missingShop? (applied.map Applied.shopId) with
  | some id => .error (.shopNotFound id)
  | none => .ok ((), applied.foldl applyOne tables)

/-- Perform an operation: its answer and the tables after it, or the error that refuses it. -/
def apply {α : Type} (tables : Tables) : Operation α → Except StoreError (α × Tables)
  | .insertShop shop => tables.insertShop shop
  | .getShop id => .ok (tables.shop? id, tables)
  | .needing excludeQueued staleBefore => .ok (tables.needing excludeQueued staleBefore, tables)
  | .confirm id position time =>
    if tables.hasShop id then .ok ((), tables.confirmShop id position time)
    else .error (.shopNotFound id)
  | .insert request => tables.insert request
  | .select reason limit => (tables.select reason limit).map (·, tables)
  | .delete id => tables.delete id
  | .existsAny => .ok (!tables.tasks.isEmpty, tables)
  | .count => .ok (tables.tasks.length, tables)
  | .insertBatch requests => tables.insertBatch requests
  | .applyBatch applied => tables.applyBatch applied

/-- The tables as a store. -/
def backend : Backend Tables where
  perform := fun operation tables =>
    match tables.apply operation with
    | .ok (answer, after) => (.ok answer, after)
    | .error error => (.error (.refused error), tables)

end Tables

end ShopValidation
