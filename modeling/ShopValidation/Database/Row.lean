import ShopValidation.Database.Statement
import ShopValidation.Store.Error

/-!
# Rows of the database

A row has the columns that its statement asks for; any of them can be null. A row is read column by
column in a fixed order, and the first column that cannot be read is the one reported.
-/

namespace ShopValidation

/-- A row with the columns of every statement. -/
structure Row where
  id : Option Int := none
  osmUid : Option String := none
  lat : Option Float := none
  lon : Option Float := none
  lastValidation : Option Instant := none
  creator : Option UserId := none
  taskId : Option Int := none
  shopId : Option Int := none
  enqueuedAt : Option Instant := none
  source : Option UserId := none
  reason : Option Int := none
  present : Option Bool := none
  count : Option Int := none

/-- What the database answers: rows and the number of rows that were changed, or an error. -/
inductive DatabaseReply where
  | answered (rows : List Row) (affected : Nat)
  | failed (message : String)

namespace Row

/-- The value of a column that must not be null. -/
def required {α : Type} (column : ColumnRef) : Option α → Except StoreError α
  | some a => .ok a
  | none => .error (.storage (.unexpectedNull column))

/-- Read a location uid. -/
def readUid (text : String) : Except StoreError LocationUid :=
  (LocationUid.parse text).mapError fun cause => .corrupt (.locationUid text cause)

/-- Read the code of a reason. -/
def readReason (code : Int) : Except StoreError Reason :=
  match Reason.ofCode? code with
  | some reason => .ok reason
  | none => .error (.corrupt (.reason code))

/-- Read a shop. -/
def toShop (row : Row) : Except StoreError Shop := do
  let uid ← readUid (← required (.named "osm_uid") row.osmUid)
  let id ← required (.named "id") row.id
  let creator ← required (.named "creator_user_id") row.creator
  return ⟨⟨id⟩, uid, row.lat, row.lon, row.lastValidation.map Instant.wholeMicros, creator⟩

/-- Read a task with its shop. -/
def toQueuedTask (row : Row) : Except StoreError QueuedTask := do
  let reason ← readReason (← required (.named "reason") row.reason)
  let taskId ← required (.named "task_id") row.taskId
  let shopId ← required (.named "shop_id") row.shopId
  let source ← required (.named "source_user_id") row.source
  let enqueuedAt ← required (.named "enqueuing_time") row.enqueuedAt
  let request : NewTask := ⟨⟨shopId⟩, source, reason, enqueuedAt.wholeMicros⟩
  return ⟨request.toTask ⟨taskId⟩, ← row.toShop⟩

/-- The first row, where there has to be one. -/
def first : List Row → Except StoreError Row
  | row :: _ => .ok row
  | [] => .error (.storage .noRow)

/-- The single value of the first row. -/
def single {α : Type} (column : Row → Option α) (rows : List Row) : Except StoreError α := do
  required .first (column (← first rows))

end Row

end ShopValidation
