import ShopValidation.Location

/-!
# Queries to the map data

A query asks for all elements of a list at once. It has one section for each kind that occurs, with
the ids of that kind in list order, and asks for the centre of elements that have no position of
their own.
-/

namespace ShopValidation.Query

/-- The order of the sections. -/
def kindOrder : List ElementType := [.node, .way, .relation]

/-- The ids of one kind, in list order. -/
def idsOf (kind : ElementType) (uids : List LocationUid) : List (List Char) :=
  (uids.filter (·.kind = kind)).map (·.id.toList)

/-- The section of one kind; nothing if no id is of that kind. -/
def sectionText (kind : ElementType) (ids : List (List Char)) : List Char :=
  if ids.isEmpty then []
  else kind.name.toList ++ ['(', 'i', 'd', ':'] ++ [','].intercalate ids ++ [')', ';']

/-- The characters of a query. -/
def chars (uids : List LocationUid) : List Char :=
  "[out:json];(".toList ++ kindOrder.flatMap (fun kind => sectionText kind (idsOf kind uids)) ++
    ");out center;".toList

/-- The text of a query. -/
def render (uids : List LocationUid) : String := String.ofList (chars uids)

end ShopValidation.Query
