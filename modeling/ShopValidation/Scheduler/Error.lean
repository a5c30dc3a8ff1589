import ShopValidation.Geodata.Answer
import ShopValidation.Store.Error
import ShopValidation.Worker.Error

/-!
# Errors of validation

An error of the store, the geodata source or the worker, passed on as it is, or one of validation
itself.
-/

namespace ShopValidation

/-- Why validation refused a call or a batch failed. -/
inductive ValidationError where
  | store (cause : StoreError)
  | geodata (cause : GeodataError)
  | worker (cause : WorkerError)
  | notTesting
  | notStarted
  | noProgress (selected : Nat)
deriving DecidableEq

/-- The wording of an error, where it has a fixed one. -/
def ValidationError.message? : ValidationError → Option String
  | .store cause => some cause.message
  | .geodata cause => cause.message?
  | .worker cause => some cause.message
  | .notTesting => some "geodata resolver can only be replaced in testing mode"
  | .notStarted => some "validation scheduler has not been started"
  | .noProgress selected =>
    some s!"geodata source resolved none of the {selected} selected shops"

end ShopValidation
