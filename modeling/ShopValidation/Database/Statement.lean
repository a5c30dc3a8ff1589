import ShopValidation.Task

/-!
# Statements to the database

Every statement that is sent, with its text and its parameters. The database keeps times in whole
microseconds; a time that is sent is cut towards the start of the year 2000.
-/

namespace ShopValidation

/-- The start of the year 2000 in nanoseconds. -/
def databaseEpoch : Int := 946684800000000000

/-- The time that the database keeps for an instant. -/
def Instant.wholeMicros (t : Instant) : Instant :=
  (Instant.ofNanos? (databaseEpoch + (t.nanos - databaseEpoch).tdiv 1000 * 1000)).getD t

/-- A value that is sent with a statement. -/
inductive Parameter where
  | integer (n : Int)
  | integers (ns : List Int)
  | text (s : String)
  | user (id : UserId)
  | double (x : Float)
  | time (t : Instant)
  | flag (b : Bool)
  | null

namespace Parameter

/-- The value of an optional parameter. -/
def ofOption {α : Type} (f : α → Parameter) : Option α → Parameter
  | some a => f a
  | none => .null

/-- The time that is sent for an instant. -/
def ofInstant (t : Instant) : Parameter := .time t.wholeMicros

end Parameter

/-- A statement. -/
inductive Statement where
  | createTables
  | insertShop (shop : NewShop)
  | getShop (id : ShopId)
  | needing (staleBefore : Option Instant) (excludeQueued : Bool)
  | updateShop (position : Coordinates) (time : Instant) (id : ShopId)
  | insertTask (request : NewTask)
  | selectTasks (reason : Reason) (limit : Nat)
  | deleteTask (id : TaskId)
  | existsTask
  | countTasks

namespace Statement

/-- The columns of a shop. -/
def shopColumns : String :=
  "s.id, s.osm_uid, s.lat, s.lon, s.last_auto_validation_time, s.creator_user_id"

/-- The text of a statement. -/
def sql : Statement → String
  | .createTables =>
    "CREATE TABLE IF NOT EXISTS shop ( id BIGSERIAL PRIMARY KEY, osm_uid TEXT NOT NULL UNIQUE, "
      ++ "creation_time TIMESTAMPTZ NOT NULL, creator_user_id UUID NOT NULL, "
      ++ "lat DOUBLE PRECISION NULL, lon DOUBLE PRECISION NULL, "
      ++ "last_auto_validation_time TIMESTAMPTZ NULL ); "
      ++ "CREATE TABLE IF NOT EXISTS shops_validation_queue ( id BIGSERIAL PRIMARY KEY, "
      ++ "shop_id BIGINT NOT NULL REFERENCES shop (id), enqueuing_time TIMESTAMPTZ NOT NULL, "
      ++ "source_user_id UUID NOT NULL, reason SMALLINT NOT NULL ); "
      ++ "CREATE INDEX IF NOT EXISTS shops_validation_queue_reason_time "
      ++ "ON shops_validation_queue (reason, enqueuing_time, id); "
      ++ "CREATE INDEX IF NOT EXISTS shops_validation_queue_shop "
      ++ "ON shops_validation_queue (shop_id);"
  | .insertShop _ =>
    "INSERT INTO shop ( osm_uid, creation_time, creator_user_id, lat, lon, "
      ++ "last_auto_validation_time ) VALUES ($1, $2, $3, $4, $5, $6) RETURNING id"
  | .getShop _ => "SELECT " ++ shopColumns ++ " FROM shop s WHERE s.id = $1"
  | .needing _ _ =>
    "SELECT " ++ shopColumns ++ " FROM shop s WHERE ( s.lat IS NULL OR s.lon IS NULL "
      ++ "OR s.last_auto_validation_time IS NULL "
      ++ "OR ($1::timestamptz IS NOT NULL AND s.last_auto_validation_time < $1) ) "
      ++ "AND ( NOT $2 OR NOT EXISTS ( "
      ++ "SELECT 1 FROM shops_validation_queue q WHERE q.shop_id = s.id ) ) ORDER BY s.id"
  | .updateShop _ _ _ =>
    "UPDATE shop SET lat = $1, lon = $2, last_auto_validation_time = $3 WHERE id = $4"
  | .insertTask _ =>
    "INSERT INTO shops_validation_queue (shop_id, enqueuing_time, source_user_id, reason) "
      ++ "VALUES ($1, $2, $3, $4) RETURNING id"
  | .selectTasks _ _ =>
    "SELECT q.id AS task_id, q.shop_id, q.enqueuing_time, q.source_user_id, q.reason, "
      ++ shopColumns ++ " FROM shops_validation_queue q JOIN shop s ON s.id = q.shop_id "
      ++ "WHERE q.reason = $1 ORDER BY q.enqueuing_time, q.id LIMIT $2"
  | .deleteTask _ => "DELETE FROM shops_validation_queue WHERE id = $1"
  | .existsTask => "SELECT EXISTS (SELECT 1 FROM shops_validation_queue WHERE reason = ANY($1))"
  | .countTasks => "SELECT COUNT(*) FROM shops_validation_queue"

/-- The largest limit that can be sent. -/
def largestLimit : Nat := 9223372036854775807

/-- The codes of the reasons that a selection can ask for. -/
def selectableCodes : List Int := Reason.all.map Reason.code

/-- The parameters of a statement, in order. -/
def parameters : Statement → List Parameter
  | .createTables => []
  | .insertShop shop =>
    [.text shop.locationUid.render, .ofInstant shop.createdAt, .user shop.creator,
      .ofOption .double shop.lat, .ofOption .double shop.lon,
      .ofOption .ofInstant shop.lastValidation]
  | .getShop id => [.integer id.value]
  | .needing staleBefore excludeQueued => [.ofOption .ofInstant staleBefore, .flag excludeQueued]
  | .updateShop position time id =>
    [.double position.lat, .double position.lon, .ofInstant time, .integer id.value]
  | .insertTask request =>
    [.integer request.shopId.value, .ofInstant request.enqueuedAt, .user request.source,
      .integer request.reason.code]
  | .selectTasks reason limit => [.integer reason.code, .integer (min limit largestLimit : Nat)]
  | .deleteTask id => [.integer id.value]
  | .existsTask => [.integers selectableCodes]
  | .countTasks => []

end Statement

/-- What is sent to the database: a statement, or the beginning or the end of a transaction. -/
inductive Command where
  | begin
  | commit
  | rollback
  | run (statement : Statement)

end ShopValidation
