import ShopValidation.Json.Token

/-!
# JSON values

Tokens are put together by a machine with a stack of unfinished arrays and objects, so nesting may go
to any depth. Fields keep their order and repetitions: what a repeated field means is up to the
reader of the object.
-/

namespace ShopValidation.Json

/-- A JSON value. A string, or the name of a field, that stands for no text is `none`. -/
inductive Value where
  | null
  | bool (value : Bool)
  | number (literal : Number)
  | text (content : Option String)
  | array (items : List Value)
  | object (fields : List (Option String × Value))

/-- An array or an object that is not closed yet, with its latest part first. -/
inductive Frame where
  | array (items : List Value)
  | object (fields : List (Option String × Value)) (name : Option String)

/-- What the next token has to be. -/
inductive Expected where
  | value
  | firstItem
  | firstName (fields : List (Option String × Value))
  | name (fields : List (Option String × Value))
  | colon (fields : List (Option String × Value)) (name : Option String)
  | afterValue (done : Value)

/-- The machine: what has to come next, and the unfinished arrays and objects around it, innermost
first. -/
structure Builder where
  expected : Expected
  stack : List Frame

namespace Builder

/-- Begin a value, or finish it at once if it is a single token. -/
def begin (stack : List Frame) : Token → Option Builder
  | .openArray => some ⟨.firstItem, stack⟩
  | .openObject => some ⟨.firstName [], stack⟩
  | .null => some ⟨.afterValue .null, stack⟩
  | .bool value => some ⟨.afterValue (.bool value), stack⟩
  | .number literal => some ⟨.afterValue (.number literal), stack⟩
  | .text content => some ⟨.afterValue (.text content), stack⟩
  | _ => none

/-- Take one token. -/
def step (machine : Builder) (token : Token) : Option Builder :=
  match machine.expected, machine.stack with
  | .value, stack => begin stack token
  | .firstItem, stack =>
    match token with
    | .closeArray => some ⟨.afterValue (.array []), stack⟩
    | token => begin (.array [] :: stack) token
  | .firstName fields, stack =>
    match token with
    | .closeObject => some ⟨.afterValue (.object fields.reverse), stack⟩
    | .text name => some ⟨.colon fields name, stack⟩
    | _ => none
  | .name fields, stack =>
    match token with
    | .text name => some ⟨.colon fields name, stack⟩
    | _ => none
  | .colon fields name, stack =>
    match token with
    | .colon => some ⟨.value, .object fields name :: stack⟩
    | _ => none
  | .afterValue done, .array items :: stack =>
    match token with
    | .comma => some ⟨.value, .array (done :: items) :: stack⟩
    | .closeArray => some ⟨.afterValue (.array (done :: items).reverse), stack⟩
    | _ => none
  | .afterValue done, .object fields name :: stack =>
    match token with
    | .comma => some ⟨.name ((name, done) :: fields), stack⟩
    | .closeObject => some ⟨.afterValue (.object ((name, done) :: fields).reverse), stack⟩
    | _ => none
  | .afterValue _, [] => none

/-- The finished value, once everything is closed. -/
def result? : Builder → Option Value
  | ⟨.afterValue done, []⟩ => some done
  | _ => none

end Builder

namespace Value

/-- Read a whole text as one JSON value. -/
def parse? (text : String) : Option Value := do
  let tokens ← tokens? text.toList
  let machine ← tokens.foldlM Builder.step ⟨.value, []⟩
  machine.result?

/-- Whether a value can be kept: arrays and objects nest at most `depth` deep, every string stands
for a text, and every number has a finite floating-point value. -/
def isKeepable : (depth : Nat) → Value → Bool
  | _, .null => true
  | _, .bool _ => true
  | _, .number literal => literal.isFinite
  | _, .text content => content.isSome
  | 0, .array _ => false
  | 0, .object _ => false
  | depth + 1, .array items => items.all (isKeepable depth)
  | depth + 1, .object fields =>
    fields.all fun field => field.1.isSome && isKeepable depth field.2

/-- The value of the last field with a name. -/
def lastField? (name : String) (fields : List (Option String × Value)) : Option Value :=
  (fields.reverse.find? (·.1 = some name)).map (·.2)

/-- The text of a string. -/
def toText? : Value → Option String
  | .text content => content
  | _ => none

/-- The floating-point number of a number literal that has a finite one. -/
def toFloat? : Value → Option Float
  | .number literal => if literal.isFinite then some literal.toFloat else none
  | _ => none

/-- The integer of an integral literal within bounds. -/
def toInt? (bounds : Text.Bounds) : Value → Option Int
  | .number literal => literal.toInt? bounds
  | _ => none

end Value

end ShopValidation.Json
