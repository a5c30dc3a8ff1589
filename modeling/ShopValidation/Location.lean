import ShopValidation.Text.IntegerLiteral
import ShopValidation.Text.Quoted

/-!
# Locations in the map data

A shop lies at an element of the map: a node, a relation or a way. Element ids are unique only within
a kind, so a location uid puts a one-digit code for the kind before the id, as in `1:123456`. The id
is kept digit for digit, and two uids are equal when kind and digits are.
-/

namespace ShopValidation

/-- The kinds of element in the map data. -/
inductive ElementType where
  | node
  | relation
  | way
deriving DecidableEq, Repr

namespace ElementType

/-- Every kind, in the order of the codes. -/
def all : List ElementType := [.node, .relation, .way]

/-- The code of a kind in a location uid. -/
def code : ElementType → Int
  | .node => 1
  | .relation => 2
  | .way => 3

/-- The kind with a code. -/
def ofCode? (code : Int) : Option ElementType := all.find? (·.code = code)

/-- The name of a kind in map queries and records. -/
def name : ElementType → String
  | .node => "node"
  | .relation => "relation"
  | .way => "way"

/-- The kind with a name. -/
def ofName? (name : String) : Option ElementType := all.find? (·.name = name)

theorem mem_all (kind : ElementType) : kind ∈ all := by cases kind <;> decide

@[simp] theorem ofCode?_code (kind : ElementType) : ofCode? kind.code = some kind := by
  cases kind <;> decide

theorem code_of_ofCode? {code : Int} {kind : ElementType} (h : ofCode? code = some kind) :
    kind.code = code := by
  simpa using List.find?_some h

end ElementType

/-- Why a text is no location uid. -/
inductive LocationError where
  | missingColon (text : String)
  | badTypeCode (text : String)
  | notNumeric (id : String)
deriving DecidableEq, Repr

/-- The wording of a location error. -/
def LocationError.message : LocationError → String
  | .missingColon text => "LocationUid: missing ':' in " ++ Text.quoted text
  | .badTypeCode text => "LocationUid: bad type code in " ++ Text.quoted text
  | .notNumeric id => "LocationUid: osm id must be numeric, got " ++ Text.quoted id

/-- Whether a text is one or more decimal digits. -/
def isElementId (text : List Char) : Bool := !text.isEmpty && text.all Char.isDigit

/-- The place of a shop in the map data. -/
structure LocationUid where
  kind : ElementType
  id : String
  isElementId_id : isElementId id.toList = true
deriving DecidableEq

namespace LocationUid

/-- The uid of an element, if the id is a run of digits. -/
def make (kind : ElementType) (id : String) : Except LocationError LocationUid :=
  if h : isElementId id.toList = true then .ok ⟨kind, id, h⟩ else .error (.notNumeric id)

/-- Split a text at its first colon. -/
def splitColon? (text : List Char) : Option (List Char × List Char) :=
  match text.dropWhile (· ≠ ':') with
  | [] => none
  | _ :: after => some (text.takeWhile (· ≠ ':'), after)

/-- Read a code as an integer of sixteen bits and look up its kind. -/
def readCode? (text : List Char) : Option ElementType :=
  (Text.readInteger .signed16 text).toOption.bind ElementType.ofCode?

/-- Read the text of a uid. The code is judged before the id. -/
def parse (text : String) : Except LocationError LocationUid :=
  match splitColon? text.toList with
  | none => .error (.missingColon text)
  | some (code, id) =>
    match readCode? code with
    | none => .error (.badTypeCode text)
    | some kind => make kind (String.ofList id)

/-- The text of a uid: code, colon, id. -/
def render (uid : LocationUid) : String :=
  toString uid.kind.code ++ ":" ++ uid.id

theorem make_kind_id (uid : LocationUid) : make uid.kind uid.id = .ok uid := by
  simp [make, uid.isElementId_id]

end LocationUid

end ShopValidation
