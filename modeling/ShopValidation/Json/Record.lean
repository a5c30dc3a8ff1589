import ShopValidation.Json.Value

/-!
# Records as JSON

A record is an object with the fields in any order, or an array of all its fields in their own
order. In an object, unknown fields are passed over and no known field may come twice. An optional
field may be missing or null. A name from a fixed list may also stand as the only field of an object,
with null for its value.
-/

namespace ShopValidation.Json.Value

/-- The values of named fields in an object, in the order of the names. -/
def namedFields? (names : List String) (fields : List (Option String × Value)) :
    Option (List (Option Value)) :=
  if fields.all (·.1.isSome) then
    names.mapM fun name =>
      match fields.filter (·.1 = some name) with
      | [] => some none
      | [field] => some (some field.2)
      | _ => none
  else none

/-- The values of the fields of a record, in the order of their names. -/
def recordFields? (names : List String) : Value → Option (List (Option Value))
  | .object fields => namedFields? names fields
  | .array items => if items.length = names.length then some (items.map some) else none
  | _ => none

/-- Read a field that has to be there. -/
def required {α : Type} (read : Value → Option α) (field : Option Value) : Option α :=
  field.bind read

/-- Read a field that may be missing or null. -/
def optional {α : Type} (read : Value → Option α) (field : Option Value) : Option (Option α) :=
  match field with
  | none | some .null => some none
  | some value => (read value).map some

/-- Read a name of a fixed list. -/
def choice? {α : Type} (ofName? : String → Option α) : Value → Option α
  | .text content => content.bind ofName?
  | .object [(some name, .null)] => ofName? name
  | _ => none

end ShopValidation.Json.Value
