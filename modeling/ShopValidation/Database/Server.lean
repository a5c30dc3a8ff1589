import ShopValidation.Database.Program

/-!
# A database that executes the statements

The meaning of each statement on two tables. A condition is true, false or unknown, and a row is
kept only where it is true. Ids come from sequences that never go back, so an insertion that fails
leaves a gap. A transaction works on the tables as they were at its beginning, and an error in it
spoils the rest of it.
-/

namespace ShopValidation

/-- The truth of a condition, which is unknown where it compares with a null. -/
abbrev Truth := Option Bool

namespace Truth

/-- Negation leaves the unknown unknown. -/
def negate : Truth → Truth := Option.map (!·)

/-- A conjunction is false as soon as one side is. -/
def conj : Truth → Truth → Truth
  | some false, _ | _, some false => some false
  | some true, some true => some true
  | _, _ => none

/-- A disjunction is true as soon as one side is. -/
def disj : Truth → Truth → Truth
  | some true, _ | _, some true => some true
  | some false, some false => some false
  | _, _ => none

/-- Whether a row with this condition is kept. -/
def holds (t : Truth) : Bool := t = some true

/-- The condition that a value is null. -/
def isNull {α : Type} (value : Option α) : Truth := some value.isNone

/-- The condition that one time is before another. -/
def isBefore : Option Instant → Option Instant → Truth
  | some a, some b => some (a.isBefore b)
  | _, _ => none

end Truth

/-- A row of the table of shops. -/
structure ShopRecord where
  id : Int
  osmUid : String
  createdAt : Instant
  creator : UserId
  lat : Option Float
  lon : Option Float
  lastValidation : Option Instant

/-- A row of the queue. The reason is a code that this library need not know. -/
structure TaskRecord where
  id : Int
  shopId : Int
  enqueuedAt : Instant
  source : UserId
  reason : Int

/-- The contents of both tables. -/
structure Contents where
  shops : List ShopRecord := []
  tasks : List TaskRecord := []

/-- A database: what is committed, what the open transaction sees if there is one, and the last ids
that were handed out. -/
structure Server where
  committed : Contents := {}
  working : Option Contents := none
  spoiled : Bool := false
  lastShopId : Int := 0
  lastTaskId : Int := 0

namespace ShopRecord

/-- The columns of a shop in an answer. -/
def row (shop : ShopRecord) : Row :=
  { id := some shop.id
    osmUid := some shop.osmUid
    lat := shop.lat
    lon := shop.lon
    lastValidation := shop.lastValidation
    creator := some shop.creator }

/-- The condition under which a shop needs validation. -/
def needsValidation (shop : ShopRecord) (staleBefore : Option Instant) : Truth :=
  Truth.disj (Truth.isNull shop.lat) <|
    Truth.disj (Truth.isNull shop.lon) <|
      Truth.disj (Truth.isNull shop.lastValidation) <|
        Truth.conj (Truth.isNull staleBefore).negate
          (Truth.isBefore shop.lastValidation staleBefore)

end ShopRecord

namespace TaskRecord

/-- The columns of a task beside those of its shop. -/
def rowWith (task : TaskRecord) (shop : ShopRecord) : Row :=
  { shop.row with
    taskId := some task.id
    shopId := some task.shopId
    enqueuedAt := some task.enqueuedAt
    source := some task.source
    reason := some task.reason }

/-- The order of a selection: by time, then by id. -/
def precedes (a b : TaskRecord) : Bool :=
  a.enqueuedAt.isBefore b.enqueuedAt || (a.enqueuedAt = b.enqueuedAt && a.id ≤ b.id)

end TaskRecord

namespace Contents

/-- The condition that a task for a shop is queued. -/
def existsTaskOf (contents : Contents) (shop : ShopRecord) : Truth :=
  some (contents.tasks.any (·.shopId = shop.id))

/-- The shops that need validation, by id. -/
def needing (contents : Contents) (staleBefore : Option Instant) (excludeQueued : Bool) :
    List ShopRecord :=
  (contents.shops.filter fun shop =>
    (Truth.conj (shop.needsValidation staleBefore)
      (Truth.disj (Truth.negate (some excludeQueued))
        (contents.existsTaskOf shop).negate)).holds).mergeSort (·.id ≤ ·.id)

/-- The tasks of a reason, each beside its shop, in the order of a selection. -/
def selectTasks (contents : Contents) (reason : Int) : List (TaskRecord × ShopRecord) :=
  ((contents.tasks.filter (·.reason = reason)).mergeSort TaskRecord.precedes).flatMap fun task =>
    (contents.shops.filter (·.id = task.shopId)).map (task, ·)

/-- Write confirmed coordinates into the rows of a shop. -/
def updateShop (contents : Contents) (position : Coordinates) (time : Instant) (id : Int) :
    Contents :=
  { contents with
    shops := contents.shops.map fun shop =>
      if shop.id = id then
        { shop with lat := some position.lat, lon := some position.lon, lastValidation := some time }
      else shop }

end Contents

namespace Server

/-- The tables that a statement sees. -/
def contents (server : Server) : Contents := server.working.getD server.committed

/-- The database after a change to the tables. Outside a transaction it is committed at once. -/
def withContents (server : Server) (contents : Contents) : Server :=
  match server.working with
  | some _ => { server with working := some contents }
  | none => { server with committed := contents }

/-- An answer without rows. -/
def changed (affected : Nat) : DatabaseReply := .answered [] affected

/-- The reply to a query. -/
def found (rows : List Row) : DatabaseReply := .answered rows rows.length

/-- Refuse a statement, which spoils an open transaction. -/
def refuse (server : Server) (message : String) : DatabaseReply × Server :=
  (.failed message, { server with spoiled := server.working.isSome })

/-- Execute a statement. -/
def execute (server : Server) : Statement → DatabaseReply × Server
  | .createTables => (changed 0, server)
  | .insertShop shop =>
    let id := server.lastShopId + 1
    let after := { server with lastShopId := id }
    if server.contents.shops.any (·.osmUid = shop.locationUid.render) then
      after.refuse "duplicate key value violates unique constraint \"shop_osm_uid_key\""
    else
      let record : ShopRecord :=
        ⟨id, shop.locationUid.render, shop.createdAt.wholeMicros, shop.creator, shop.lat, shop.lon,
          shop.lastValidation.map Instant.wholeMicros⟩
      (found [{ id := some id }],
        after.withContents { server.contents with shops := server.contents.shops ++ [record] })
  | .getShop id =>
    (found ((server.contents.shops.filter (·.id = id.value)).map ShopRecord.row), server)
  | .needing staleBefore excludeQueued =>
    (found ((server.contents.needing (staleBefore.map Instant.wholeMicros) excludeQueued).map
      ShopRecord.row), server)
  | .updateShop position time id =>
    (changed (server.contents.shops.countP (·.id = id.value)),
      server.withContents (server.contents.updateShop position time.wholeMicros id.value))
  | .insertTask request =>
    let id := server.lastTaskId + 1
    let after := { server with lastTaskId := id }
    if server.contents.shops.any (·.id = request.shopId.value) then
      let record : TaskRecord :=
        ⟨id, request.shopId.value, request.enqueuedAt.wholeMicros, request.source,
          request.reason.code⟩
      (found [{ id := some id }],
        after.withContents { server.contents with tasks := server.contents.tasks ++ [record] })
    else
      after.refuse ("insert or update on table \"shops_validation_queue\" violates "
        ++ "foreign key constraint \"shops_validation_queue_shop_id_fkey\"")
  | .selectTasks reason limit =>
    (found (((server.contents.selectTasks reason.code).take (min limit Statement.largestLimit)).map
      fun pair => pair.1.rowWith pair.2), server)
  | .deleteTask id =>
    (changed (server.contents.tasks.countP (·.id = id.value)),
      server.withContents
        { server.contents with tasks := server.contents.tasks.filter (·.id ≠ id.value) })
  | .existsTask =>
    let selectable := server.contents.tasks.any fun task =>
      Statement.selectableCodes.contains task.reason
    (found [{ present := some selectable }], server)
  | .countTasks => (found [{ count := some server.contents.tasks.length }], server)

/-- Serve a command. After an error in a transaction every statement up to its end is refused. -/
def serve (command : Command) (server : Server) : DatabaseReply × Server :=
  match command with
  | .begin => (changed 0, { server with working := some server.committed, spoiled := false })
  | .commit =>
    (changed 0,
      { server with
        committed := if server.spoiled then server.committed else server.contents
        working := none
        spoiled := false })
  | .rollback => (changed 0, { server with working := none, spoiled := false })
  | .run statement =>
    if server.spoiled then
      (.failed "current transaction is aborted, commands ignored until end of transaction block",
        server)
    else server.execute statement

/-- The database as a store. -/
def backend : Backend Server where
  perform := fun operation server =>
    let (result, server) := (Program.ofOperation operation).run serve server
    (result.mapError .refused, server)

end Server

end ShopValidation
