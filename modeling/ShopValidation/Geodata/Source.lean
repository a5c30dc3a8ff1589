import ShopValidation.Geodata.Response

/-!
# Geodata sources

A source is known by how it replies to the questions it is asked, one after another. A source may
answer from a table of positions, always fail, or follow a script.
-/

namespace ShopValidation

/-- A source of positions: its reply to the n-th question, and the questions asked so far. -/
structure Source where
  reply : Nat → List LocationUid → Reply
  asked : List (List LocationUid) := []

namespace Source

/-- Ask for a list of locations. -/
def ask (source : Source) (uids : List LocationUid) : Reply × Source :=
  (source.reply source.asked.length uids, { source with asked := source.asked ++ [uids] })

end Source

/-- Fixed positions. A location without a position of its own has the one for everywhere, if there
is such. -/
structure PositionTable where
  known : List (LocationUid × Coordinates) := []
  everywhere : Option Coordinates := none

namespace PositionTable

/-- Set the position of a location, in place of an earlier one. -/
def set (table : PositionTable) (uid : LocationUid) (position : Coordinates) : PositionTable :=
  { table with known := (uid, position) :: table.known }

/-- The position of a location. -/
def position? (table : PositionTable) (uid : LocationUid) : Option Coordinates :=
  match table.known.lookup uid with
  | some position => some position
  | none => table.everywhere

/-- Answer a question, in the order of the question. -/
def resolve (table : PositionTable) (uids : List LocationUid) : List Resolved :=
  uids.filterMap fun uid => (table.position? uid).map fun p => ⟨uid, p.lat, p.lon⟩

/-- The source that answers from a table. -/
def source (table : PositionTable) : Source where
  reply := fun _ uids => .answered (table.resolve uids)

end PositionTable

/-- One planned reply of a scripted source. -/
inductive PlannedReply where
  | fail (message : String)
  | crash
  | body (text : String)
  | everywhere (position : Coordinates)
  | exactly (found : List Resolved)

/-- Carry out a planned reply to a question. -/
def PlannedReply.perform (planned : PlannedReply) (uids : List LocationUid) : Reply :=
  match planned with
  | .fail message => .failed (.lookup message)
  | .crash => .crashed
  | .body text =>
    match Response.parse text with
    | .ok found => .answered found
    | .error error => .failed error
  | .everywhere position => .answered (uids.map fun uid => ⟨uid, position.lat, position.lon⟩)
  | .exactly found => .answered found

namespace Source

/-- The source that always fails, with one message. -/
def failing (message : String) : Source where
  reply := fun _ _ => .failed (.lookup message)

/-- The source that follows a script, and after its end resolves nothing. -/
def scripted (script : List PlannedReply) : Source where
  reply := fun n uids =>
    match script[n]? with
    | some planned => planned.perform uids
    | none => .answered []

end Source

end ShopValidation
