import ShopValidation.Text.IntegerLiteral

/-!
# Row identifiers

Shops and validation tasks are numbered by their stores, with integers of sixty-four bits.
-/

namespace ShopValidation

/-- The integers that can be a row id. -/
def rowIdBounds : Text.Bounds := .signed64

/-- The id of a shop row. -/
structure ShopId where
  value : Int
deriving DecidableEq, Repr

/-- The id of a validation task row. -/
structure TaskId where
  value : Int
deriving DecidableEq, Repr

namespace ShopId

/-- Read the decimal text of an id. -/
def parse (text : String) : Except Text.IntegerError ShopId :=
  (Text.readInteger rowIdBounds text.toList).map ShopId.mk

/-- The decimal text of an id. -/
def render (id : ShopId) : String := toString id.value

end ShopId

namespace TaskId

/-- Read the decimal text of an id. -/
def parse (text : String) : Except Text.IntegerError TaskId :=
  (Text.readInteger rowIdBounds text.toList).map TaskId.mk

/-- The decimal text of an id. -/
def render (id : TaskId) : String := toString id.value

end TaskId

end ShopValidation
