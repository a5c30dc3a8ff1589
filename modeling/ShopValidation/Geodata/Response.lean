import ShopValidation.Geodata.Answer
import ShopValidation.Json.Record

/-!
# Reading the body of an answer

The body is a JSON text with a list of elements. Each element is read on its own, and one that cannot
be used is passed over, so no element can spoil the answer for another. An element counts if its
kind, id and position are there; the position of its centre, if it has a centre, is taken before its
own.
-/

namespace ShopValidation

open Json

/-- How deep the elements may nest, below the list of elements and the body around it. -/
def elementDepth : Nat := 125

/-- One element of an answer, each part as far as it was given. -/
structure Element where
  kind : Option String
  id : Option Value
  lat : Option Float
  lon : Option Float
  center : Option (Option Float × Option Float)

namespace Element

/-- Read the fields of a position, from an object or from an array of exactly two. -/
def readCenter? : Value → Option (Option Float × Option Float)
  | .object fields => do
    return (← Value.optional Value.toFloat? (Value.lastField? "lat" fields),
      ← Value.optional Value.toFloat? (Value.lastField? "lon" fields))
  | .array [lat, lon] => do
    return (← Value.optional Value.toFloat? (some lat), ← Value.optional Value.toFloat? (some lon))
  | _ => none

/-- Read the parts of an element. -/
def readParts? (kind id lat lon center : Option Value) : Option Element := do
  return {
    kind := ← Value.optional Value.toText? kind
    id := ← Value.optional some id
    lat := ← Value.optional Value.toFloat? lat
    lon := ← Value.optional Value.toFloat? lon
    center := ← Value.optional readCenter? center }

/-- Read an element, from an object or from an array of exactly its five parts. A part that is
missing or null is absent; one of a wrong type makes the element unreadable. -/
def ofJson? : Value → Option Element
  | .object fields =>
    readParts? (Value.lastField? "type" fields) (Value.lastField? "id" fields)
      (Value.lastField? "lat" fields) (Value.lastField? "lon" fields)
      (Value.lastField? "center" fields)
  | .array [kind, id, lat, lon, center] =>
    readParts? (some kind) (some id) (some lat) (some lon) (some center)
  | _ => none

/-- The digits of an id: of an integer that is not negative, or the text of a string. -/
def idText? : Value → Option String
  | .number literal => (literal.toInt? .unsigned64).map toString
  | .text content => content
  | _ => none

/-- The uid of an element. -/
def uid? (element : Element) : Option LocationUid := do
  let kind ← ElementType.ofName? (← element.kind)
  (LocationUid.make kind (← idText? (← element.id))).toOption

/-- The position of an element: of its centre if it has one. -/
def position (element : Element) : Option Float × Option Float :=
  element.center.getD (element.lat, element.lon)

/-- What an element says about a location, if it says anything. -/
def resolved? (value : Value) : Option Resolved := do
  let element ← ofJson? value
  let uid ← element.uid?
  match element.position with
  | (some lat, some lon) => return ⟨uid, lat, lon⟩
  | _ => none

end Element

namespace Response

/-- Keep the list of elements, if it can be kept. -/
def keepElements : Value → Except GeodataError (List Value)
  | .null => .error (.malformed .noElements)
  | .array items =>
    if items.all (Value.isKeepable elementDepth) then .ok items else .error (.malformed .notReadable)
  | _ => .error (.malformed .notReadable)

/-- Find the elements in a body: the field of that name, or the only item of an array. -/
def elements : Value → Except GeodataError (List Value)
  | .object fields =>
    match Value.namedFields? ["elements"] fields with
    | some [some value] => keepElements value
    | some _ => .error (.malformed .noElements)
    | none => .error (.malformed .notReadable)
  | .array [value] => keepElements value
  | _ => .error (.malformed .notReadable)

/-- What the elements of an answer say, in their order. -/
def ofElements (items : List Value) : List Resolved := items.filterMap Element.resolved?

/-- Read a body. -/
def parse (body : String) : Except GeodataError (List Resolved) :=
  match Value.parse? body with
  | none => .error (.malformed .notReadable)
  | some value => (elements value).map ofElements

/-- The elements of a list are read one by one. -/
theorem ofElements_append (xs ys : List Value) :
    ofElements (xs ++ ys) = ofElements xs ++ ofElements ys := by
  simp [ofElements]

end Response

end ShopValidation
