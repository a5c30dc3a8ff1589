import ShopValidation.Identifier
import ShopValidation.Location
import ShopValidation.UserId

/-!
# Errors of domain values

A text that is no identifier, or a stored code that no reason has.
-/

namespace ShopValidation

/-- Why a domain value was refused. -/
inductive DomainError where
  | location (cause : LocationError)
  | shopId (cause : Text.IntegerError)
  | taskId (cause : Text.IntegerError)
  | userId (cause : UserIdError)
  | unknownReason (code : Int)
deriving DecidableEq, Repr

/-- The wording of a domain error. -/
def DomainError.message : DomainError → String
  | .location cause => "invalid identifier: " ++ cause.message
  | .shopId cause => "invalid identifier: ShopId: " ++ cause.message
  | .taskId cause => "invalid identifier: TaskId: " ++ cause.message
  | .userId cause => "invalid identifier: UserId: " ++ cause.message
  | .unknownReason code => s!"unknown ValidationReason code: {code}"

end ShopValidation
