import ShopValidation.Store.Error
import ShopValidation.Task

/-!
# Operations on stores

What can be asked of a store, with the type of its answer. A store is known by how it performs the
operations: it answers, refuses with an error, or crashes.
-/

namespace ShopValidation

/-- An operation on a store that answers with a value of the type. -/
inductive Operation : Type → Type where
  | insertShop (shop : NewShop) : Operation ShopId
  | getShop (id : ShopId) : Operation (Option Shop)
  | needing (excludeQueued : Bool) (staleBefore : Option Instant) : Operation (List Shop)
  | confirm (id : ShopId) (position : Coordinates) (time : Instant) : Operation Unit
  | insert (request : NewTask) : Operation TaskId
  | select (reason : Reason) (limit : Nat) : Operation (List QueuedTask)
  | delete (id : TaskId) : Operation Unit
  | existsAny : Operation Bool
  | count : Operation Nat
  | insertBatch (requests : List NewTask) : Operation (List TaskId)
  | applyBatch (applied : List Applied) : Operation Unit

/-- Why a call did not answer. -/
inductive Failure (ε : Type) where
  | refused (error : ε)
  | crashed
deriving DecidableEq

/-- A failure with its error seen as another. -/
def Failure.map {ε ε' : Type} (f : ε → ε') : Failure ε → Failure ε'
  | .refused error => .refused (f error)
  | .crashed => .crashed

/-- How a call ends. -/
abbrev Ending (ε α : Type) := Except (Failure ε) α

/-- A kind of store with states of type `σ`. -/
structure Backend (σ : Type) where
  perform : {α : Type} → Operation α → σ → Ending StoreError α × σ

end ShopValidation
