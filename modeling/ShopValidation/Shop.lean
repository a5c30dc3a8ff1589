import ShopValidation.Identifier
import ShopValidation.Location
import ShopValidation.Reason
import ShopValidation.Time.Instant
import ShopValidation.UserId

/-!
# Shops

What validation knows of a shop: where it lies in the map data, its coordinates, and when these were
last confirmed.
-/

namespace ShopValidation

/-- A geographic position. -/
structure Coordinates where
  lat : Float
  lon : Float

/-- A stored shop. -/
structure Shop where
  id : ShopId
  locationUid : LocationUid
  lat : Option Float
  lon : Option Float
  lastValidation : Option Instant
  creator : UserId

namespace Shop

/-- Both coordinates, if both are known. -/
def coordinates (shop : Shop) : Option Coordinates :=
  match shop.lat, shop.lon with
  | some lat, some lon => some ⟨lat, lon⟩
  | _, _ => none

/-- What the shop lacks, if anything. Missing coordinates count before a missing time. -/
def missingReason (shop : Shop) : Option Reason :=
  if shop.coordinates.isNone then some .coordsWereNull
  else if shop.lastValidation.isNone then some .neverValidatedBefore
  else none

/-- Whether the last validation was strictly before a time. -/
def validatedBefore (shop : Shop) (cutoff : Instant) : Bool :=
  shop.lastValidation.any (·.isBefore cutoff)

/-- Whether the shop has to be validated: it lacks something, or its validation is too old. -/
def needsValidation (shop : Shop) (staleBefore : Option Instant) : Bool :=
  shop.missingReason.isSome || staleBefore.any shop.validatedBefore

/-- The shop with confirmed coordinates. -/
def confirm (shop : Shop) (position : Coordinates) (time : Instant) : Shop :=
  { shop with lat := some position.lat, lon := some position.lon, lastValidation := some time }

@[simp] theorem confirm_id (shop : Shop) (position : Coordinates) (t : Instant) :
    (shop.confirm position t).id = shop.id := rfl

@[simp] theorem confirm_locationUid (shop : Shop) (position : Coordinates) (t : Instant) :
    (shop.confirm position t).locationUid = shop.locationUid := rfl

@[simp] theorem confirm_creator (shop : Shop) (position : Coordinates) (t : Instant) :
    (shop.confirm position t).creator = shop.creator := rfl

@[simp] theorem missingReason_confirm (shop : Shop) (position : Coordinates) (t : Instant) :
    (shop.confirm position t).missingReason = none := rfl

end Shop

/-- A shop that has no row yet. -/
structure NewShop where
  locationUid : LocationUid
  lat : Option Float := none
  lon : Option Float := none
  lastValidation : Option Instant := none
  creator : UserId
  createdAt : Instant

namespace NewShop

/-- Set both coordinates. -/
def withCoordinates (shop : NewShop) (lat lon : Float) : NewShop :=
  { shop with lat := some lat, lon := some lon }

/-- Set the time of the last validation. -/
def validatedAt (shop : NewShop) (t : Instant) : NewShop := { shop with lastValidation := some t }

/-- The row of a shop under an id. -/
def toShop (shop : NewShop) (id : ShopId) : Shop :=
  ⟨id, shop.locationUid, shop.lat, shop.lon, shop.lastValidation, shop.creator⟩

end NewShop

end ShopValidation
