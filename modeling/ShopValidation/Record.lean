import ShopValidation.Json.Record
import ShopValidation.Task
import ShopValidation.Time.Rfc3339

/-!
# Reading domain values from JSON

One reader for each kind of value that is exchanged as JSON. Every reader is strict: a value of the
wrong kind, a missing field or an identifier that cannot be parsed is refused.
-/

namespace ShopValidation

open Json

namespace LocationUid

/-- Read a uid from its text. -/
def ofJson? (value : Value) : Option LocationUid := value.toText?.bind (parse · |>.toOption)

end LocationUid

namespace UserId

/-- Read a user id from its text. -/
def ofJson? (value : Value) : Option UserId := value.toText?.bind (parse · |>.toOption)

end UserId

namespace ShopId

/-- Read a shop id from an integer. -/
def ofJson? (value : Value) : Option ShopId := (value.toInt? rowIdBounds).map ShopId.mk

end ShopId

namespace TaskId

/-- Read a task id from an integer. -/
def ofJson? (value : Value) : Option TaskId := (value.toInt? rowIdBounds).map TaskId.mk

end TaskId

namespace ElementType

/-- Read a kind of element from its name. -/
def ofJson? (value : Value) : Option ElementType := value.choice? ofName?

end ElementType

namespace Reason

/-- Read a reason from its name. -/
def ofJson? (value : Value) : Option Reason := value.choice? ofName?

end Reason

namespace Instant

/-- Read an instant from its text. -/
def ofJson? (value : Value) : Option Instant := value.toText?.bind Rfc3339.read

end Instant

namespace Coordinates

/-- Read a pair of coordinates. -/
def ofJson? (value : Value) : Option Coordinates := do
  match ← value.recordFields? ["lat", "lon"] with
  | [lat, lon] => return ⟨← Value.required Value.toFloat? lat, ← Value.required Value.toFloat? lon⟩
  | _ => none

end Coordinates

namespace Resolved

/-- Read one answer of the geodata source. -/
def ofJson? (value : Value) : Option Resolved := do
  match ← value.recordFields? ["uid", "lat", "lon"] with
  | [uid, lat, lon] =>
    return ⟨← Value.required LocationUid.ofJson? uid, ← Value.required Value.toFloat? lat,
      ← Value.required Value.toFloat? lon⟩
  | _ => none

end Resolved

namespace Shop

/-- Read a stored shop. -/
def ofJson? (value : Value) : Option Shop := do
  match ← value.recordFields?
    ["id", "location_uid", "lat", "lon", "last_validation_time", "creator"] with
  | [id, uid, lat, lon, last, creator] =>
    return ⟨← Value.required ShopId.ofJson? id, ← Value.required LocationUid.ofJson? uid,
      ← Value.optional Value.toFloat? lat, ← Value.optional Value.toFloat? lon,
      ← Value.optional Instant.ofJson? last, ← Value.required UserId.ofJson? creator⟩
  | _ => none

end Shop

namespace NewShop

/-- Read a shop without a row. -/
def ofJson? (value : Value) : Option NewShop := do
  match ← value.recordFields?
    ["location_uid", "lat", "lon", "last_validation_time", "creator", "created_at"] with
  | [uid, lat, lon, last, creator, created] =>
    return ⟨← Value.required LocationUid.ofJson? uid, ← Value.optional Value.toFloat? lat,
      ← Value.optional Value.toFloat? lon, ← Value.optional Instant.ofJson? last,
      ← Value.required UserId.ofJson? creator, ← Value.required Instant.ofJson? created⟩
  | _ => none

end NewShop

namespace NewTask

/-- Read a request that is not queued. -/
def ofJson? (value : Value) : Option NewTask := do
  match ← value.recordFields? ["shop_id", "source", "reason", "enqueued_at"] with
  | [shop, source, reason, enqueued] =>
    return ⟨← Value.required ShopId.ofJson? shop, ← Value.required UserId.ofJson? source,
      ← Value.required Reason.ofJson? reason, ← Value.required Instant.ofJson? enqueued⟩
  | _ => none

end NewTask

namespace Task

/-- Read a queued task. -/
def ofJson? (value : Value) : Option Task := do
  match ← value.recordFields? ["id", "shop_id", "source", "reason", "enqueued_at"] with
  | [id, shop, source, reason, enqueued] =>
    let request : NewTask :=
      ⟨← Value.required ShopId.ofJson? shop, ← Value.required UserId.ofJson? source,
        ← Value.required Reason.ofJson? reason, ← Value.required Instant.ofJson? enqueued⟩
    return request.toTask (← Value.required TaskId.ofJson? id)
  | _ => none

end Task

end ShopValidation
