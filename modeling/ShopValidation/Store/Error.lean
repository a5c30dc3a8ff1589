import ShopValidation.DomainError
import ShopValidation.Shop

/-!
# Errors of stores

A store does not find a row, finds one that it cannot read, or fails as a whole.
-/

namespace ShopValidation

/-- A stored value that means nothing. -/
inductive Corruption where
  | locationUid (text : String) (cause : LocationError)
  | reason (code : Int)
deriving DecidableEq, Repr

/-- The wording of a corruption. -/
def Corruption.message : Corruption → String
  | .locationUid text cause =>
    "shop.osm_uid " ++ Text.quoted text ++ ": " ++ (DomainError.location cause).message
  | .reason code => "shops_validation_queue.reason: " ++ (DomainError.unknownReason code).message

/-- How a statement refers to a column of its answer. -/
inductive ColumnRef where
  | named (name : String)
  | first
deriving DecidableEq, Repr

/-- The wording of a column. -/
def ColumnRef.message : ColumnRef → String
  | .named name => Text.quoted name
  | .first => "0"

/-- Why a store failed as a whole. -/
inductive StorageFault where
  | duplicateUid (uid : LocationUid)
  | noTaskId
  | noInsertedId
  | planned (message : String)
  | database (message : String)
  | noRow
  | unexpectedNull (column : ColumnRef)
deriving DecidableEq

/-- The wording of a storage fault. -/
def StorageFault.message : StorageFault → String
  | .duplicateUid uid => "duplicate location uid " ++ uid.render
  | .noTaskId => "no task id returned"
  | .noInsertedId => "insert returned no id"
  | .planned message => message
  | .database message => "error returned from database: " ++ message
  | .noRow => "no rows returned by a query that expected to return at least one row"
  | .unexpectedNull column =>
    "error occurred while decoding column " ++ column.message
      ++ ": unexpected null; try decoding as an `Option`"

/-- Why a store refused an operation. -/
inductive StoreError where
  | shopNotFound (id : ShopId)
  | taskNotFound (id : TaskId)
  | corrupt (cause : Corruption)
  | storage (cause : StorageFault)
deriving DecidableEq

/-- The wording of a store error. -/
def StoreError.message : StoreError → String
  | .shopNotFound id => "shop not found: " ++ id.render
  | .taskNotFound id => "validation task not found: " ++ id.render
  | .corrupt cause => "corrupt row: " ++ cause.message
  | .storage cause => "storage error: " ++ cause.message

end ShopValidation
