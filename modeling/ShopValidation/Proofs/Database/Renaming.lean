import ShopValidation.Database.Server
import ShopValidation.Proofs.Store.History

/-!
# The same rows under other ids

Two stores number their rows on their own. A renaming takes the ids of the one to those of the other.
The tables in memory and those of a database correspond under a renaming when each has the rows of the
other in the same order, under the ids that go together.
-/

namespace ShopValidation

/-- A translation of ids. -/
structure Renaming where
  shop : ShopId → ShopId
  task : TaskId → TaskId

namespace Renaming

variable (r : Renaming)

/-- A shop under the other id. -/
def shopRow (shop : Shop) : Shop := { shop with id := r.shop shop.id }

/-- A request for the shop with the other id. -/
def request (request : NewTask) : NewTask := { request with shopId := r.shop request.shopId }

/-- A task under the other id, for the shop with the other id. -/
def taskRow (task : Task) : Task := (r.request task.toNewTask).toTask (r.task task.id)

/-- A task beside its shop, under the other ids. -/
def queued (row : QueuedTask) : QueuedTask := ⟨r.taskRow row.task, r.shopRow row.shop⟩

/-- A validation of the shop with the other id. -/
def applied (applied : Applied) : Applied :=
  { applied with taskId := r.task applied.taskId, shopId := r.shop applied.shopId }

/-- An operation on the other ids. -/
def operation {α : Type} : Operation α → Operation α
  | .insertShop shop => .insertShop shop
  | .getShop id => .getShop (r.shop id)
  | .needing excludeQueued staleBefore => .needing excludeQueued staleBefore
  | .confirm id position time => .confirm (r.shop id) position time
  | .insert request => .insert (r.request request)
  | .select reason limit => .select reason limit
  | .delete id => .delete (r.task id)
  | .existsAny => .existsAny
  | .count => .count
  | .insertBatch requests => .insertBatch (requests.map r.request)
  | .applyBatch applied => .applyBatch (applied.map r.applied)

/-- The answer to an operation under the other ids. -/
def answer {α : Type} : Operation α → α → α
  | .insertShop _, id => r.shop id
  | .getShop _, found => found.map r.shopRow
  | .needing _ _, shops => shops.map r.shopRow
  | .confirm _ _ _, done => done
  | .insert _, id => r.task id
  | .select _ _, rows => rows.map r.queued
  | .delete _, done => done
  | .existsAny, found => found
  | .count, n => n
  | .insertBatch _, ids => ids.map r.task
  | .applyBatch _, done => done

/-- Whether an error of memory and one of the database refuse an operation alike. A request for a
missing shop is a storage error of the database, whose wording is its own. All other errors are the
same, up to the wording of storage errors. -/
def RefusesAlike {α : Type} (operation : Operation α) : StoreError → StoreError → Prop
  | .storage _, .storage _ => True
  | .shopNotFound id, error =>
    match operation with
    | .insert _ | .insertBatch _ => ∃ fault, error = .storage fault
    | _ => error = .shopNotFound (r.shop id)
  | .taskNotFound id, error => error = .taskNotFound (r.task id)
  | _, _ => False

/-- Whether memory and the database end an operation alike. -/
def EndsAlike {α : Type} (operation : Operation α) :
    Ending StoreError α → Ending StoreError α → Prop
  | .ok a, .ok b => b = r.answer operation a
  | .error (.refused error), .error (.refused error') => r.RefusesAlike operation error error'
  | _, _ => False

/-- The row of a shop in the database. -/
def shopRecord (created : ShopId → Instant) (shop : Shop) : ShopRecord :=
  ⟨(r.shop shop.id).value, shop.locationUid.render, created shop.id, shop.creator, shop.lat,
    shop.lon, shop.lastValidation⟩

/-- The row of a task in the database. -/
def taskRecord (task : Task) : TaskRecord :=
  ⟨(r.task task.id).value, (r.shop task.shopId).value, task.enqueuedAt, task.source,
    task.reason.code⟩

/-- The database has the rows of memory, in the same order and under the other ids. The times when
shops were created are in the database only. -/
structure Corresponds (tables : Tables) (contents : Contents) : Prop where
  shops : ∃ created, contents.shops = tables.shops.map (r.shopRecord created)
  tasks : contents.tasks = tables.tasks.map r.taskRecord

/-- A renaming that tells ids that were handed out from all others and keeps their order. -/
structure Faithful (shopIds : List ShopId) (taskIds : List TaskId) : Prop where
  shop_inj : ∀ a ∈ shopIds, ∀ b, r.shop a = r.shop b → a = b
  shop_lt : ∀ a ∈ shopIds, ∀ b ∈ shopIds, a.value < b.value → (r.shop a).value < (r.shop b).value
  task_inj : ∀ a ∈ taskIds, ∀ b, r.task a = r.task b → a = b
  task_lt : ∀ a ∈ taskIds, ∀ b ∈ taskIds, a.value < b.value → (r.task a).value < (r.task b).value

end Renaming

end ShopValidation
