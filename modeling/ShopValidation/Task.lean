import ShopValidation.Shop

/-!
# Validation tasks

A task asks for one shop to be validated. It waits in a queue until a batch has resolved the shop,
and its row never changes.
-/

namespace ShopValidation

/-- A request to validate a shop, not yet queued. -/
structure NewTask where
  shopId : ShopId
  source : UserId
  reason : Reason
  enqueuedAt : Instant
deriving DecidableEq

/-- A queued task. -/
structure Task extends NewTask where
  id : TaskId
deriving DecidableEq

/-- The row of a request under an id. -/
def NewTask.toTask (request : NewTask) (id : TaskId) : Task := { request with id := id }

/-- A queued task beside the shop it refers to. -/
structure QueuedTask where
  task : Task
  shop : Shop

/-- What the geodata source says about one location. -/
structure Resolved where
  uid : LocationUid
  lat : Float
  lon : Float

/-- The position in an answer. -/
def Resolved.coordinates (answer : Resolved) : Coordinates := ⟨answer.lat, answer.lon⟩

/-- A validation to be written: the coordinates of a shop, and the task that is done with it. -/
structure Applied where
  taskId : TaskId
  shopId : ShopId
  coordinates : Coordinates
  validatedAt : Instant

/-- Whether one task comes before another in the queue of its reason: the older one, and of two
equally old ones the one with the smaller id. -/
def Task.precedes (a b : Task) : Bool :=
  a.enqueuedAt.isBefore b.enqueuedAt ||
    (a.enqueuedAt = b.enqueuedAt && a.id.value ≤ b.id.value)

end ShopValidation
