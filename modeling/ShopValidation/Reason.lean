/-!
# Reasons for validating a shop

Each queued task says why the shop is validated. Reasons have a stable code in storage and an order
of priority. A shop that was never validated, or has no coordinates, comes before all others.
-/

namespace ShopValidation

/-- Why the coordinates of a shop have to be confirmed. -/
inductive Reason where
  | coordsWereNull
  | neverValidatedBefore
  | shopMoved
  | periodicRevalidation
deriving DecidableEq, Repr

namespace Reason

/-- Every reason, in the order of the codes. -/
def all : List Reason := [.coordsWereNull, .neverValidatedBefore, .shopMoved, .periodicRevalidation]

/-- The reasons that come before all others, first one first. -/
def urgent : List Reason := [.neverValidatedBefore, .coordsWereNull]

/-- Every reason, highest priority first. -/
def byPriority : List Reason := urgent ++ all.filter fun reason => !urgent.contains reason

/-- The code of a reason in storage. -/
def code : Reason → Int
  | .coordsWereNull => 1
  | .neverValidatedBefore => 2
  | .shopMoved => 3
  | .periodicRevalidation => 4

/-- The reason with a code. -/
def ofCode? (code : Int) : Option Reason := all.find? (·.code = code)

/-- The name of a reason. -/
def name : Reason → String
  | .coordsWereNull => "coords_were_null"
  | .neverValidatedBefore => "never_validated_before"
  | .shopMoved => "shop_moved"
  | .periodicRevalidation => "periodic_revalidation"

/-- The reason with a name. -/
def ofName? (name : String) : Option Reason := all.find? (·.name = name)

theorem mem_all (reason : Reason) : reason ∈ all := by cases reason <;> decide

theorem mem_byPriority (reason : Reason) : reason ∈ byPriority := by cases reason <;> decide

theorem nodup_byPriority : byPriority.Nodup := by decide

@[simp] theorem ofCode?_code (reason : Reason) : ofCode? reason.code = some reason := by
  cases reason <;> decide

end Reason

end ShopValidation
