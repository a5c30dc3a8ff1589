import ShopValidation.Task

/-!
# Answers of the geodata source

The source is asked where a list of locations is now. It answers with the positions it knows, in any
order; a location that is missing from the answer was not resolved this time. Or it fails.
-/

namespace ShopValidation

/-- What is wrong with the body of an answer. -/
inductive BodyFault where
  | notReadable
  | noElements
deriving DecidableEq, Repr

/-- Why the source did not answer. -/
inductive GeodataError where
  | http (status : Option Nat)
  | malformed (fault : BodyFault)
  | lookup (message : String)
deriving DecidableEq, Repr

/-- The wording of an error, where it has a fixed one. -/
def GeodataError.message? : GeodataError → Option String
  | .http _ => none
  | .malformed .notReadable => none
  | .malformed .noElements => some "malformed geodata response: no 'elements' in response"
  | .lookup message => some ("geodata lookup failed: " ++ message)

/-- What became of a question to the source: an answer, an error, or a crash of the asker. -/
inductive Reply where
  | answered (found : List Resolved)
  | failed (error : GeodataError)
  | crashed

/-- The last position that an answer gives for a location. -/
def lastPosition? (found : List Resolved) (uid : LocationUid) : Option Coordinates :=
  (found.reverse.find? (·.uid = uid)).map Resolved.coordinates

theorem lastPosition?_nil (uid : LocationUid) : lastPosition? [] uid = none := rfl

end ShopValidation
