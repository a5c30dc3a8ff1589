/-!
# Integer literals with bounds

An optional sign and decimal digits, nothing else. The digits are read from left to right into an
interval, and the first problem met is the one reported: a character that is no digit, or a value
that leaves the interval. A minus sign is a sign only where the interval has negative values.
-/

namespace ShopValidation.Text

/-- The closed interval of integers that a literal may denote. -/
structure Bounds where
  lower : Int
  upper : Int
deriving DecidableEq, Repr

namespace Bounds

/-- The integers of a signed word of 16 bits. -/
def signed16 : Bounds := ⟨-32768, 32767⟩

/-- The integers of a signed word of 64 bits. -/
def signed64 : Bounds := ⟨-9223372036854775808, 9223372036854775807⟩

/-- The integers of an unsigned word of 32 bits. -/
def unsigned32 : Bounds := ⟨0, 4294967295⟩

/-- The integers of an unsigned word of 64 bits. -/
def unsigned64 : Bounds := ⟨0, 18446744073709551615⟩

end Bounds

/-- Why a text is no integer literal for some bounds. -/
inductive IntegerError where
  | empty
  | invalidDigit
  | tooLarge
  | tooSmall
deriving DecidableEq, Repr

/-- The wording of an integer error. -/
def IntegerError.message : IntegerError → String
  | .empty => "cannot parse integer from empty string"
  | .invalidDigit => "invalid digit found in string"
  | .tooLarge => "number too large to fit in target type"
  | .tooSmall => "number too small to fit in target type"

/-- The value of a decimal digit. -/
def digitValue (c : Char) : Nat := c.toNat - 48

/-- Append decimal digits to a value that is already read, away from zero in the direction of
the sign, staying within the bounds at every digit. -/
def readDigits (bounds : Bounds) (negative : Bool) : Int → List Char → Except IntegerError Int
  | value, [] => .ok value
  | value, c :: rest =>
    if c.isDigit then
      let next := if negative then value * 10 - digitValue c else value * 10 + digitValue c
      if bounds.upper < next then .error .tooLarge
      else if next < bounds.lower then .error .tooSmall
      else readDigits bounds negative next rest
    else .error .invalidDigit

/-- Read a whole text as an integer literal within the bounds. -/
def readInteger (bounds : Bounds) (text : List Char) : Except IntegerError Int :=
  match text with
  | [] => .error .empty
  | ['+'] | ['-'] => .error .invalidDigit
  | '+' :: rest => readDigits bounds false 0 rest
  | '-' :: rest =>
    if bounds.lower < 0 then readDigits bounds true 0 rest else .error .invalidDigit
  | text => readDigits bounds false 0 text

example : readInteger .signed16 ['+', '0', '1'] = .ok 1 := rfl
example : readInteger .unsigned64 ['-', '0'] = .error .invalidDigit := rfl
example : readInteger .signed16 ['-', '3', '2', '7', '6', '9', 'x'] = .error .tooSmall := rfl
example : readInteger .signed16 ['3', '2', '7', '6', '7'] = .ok 32767 := rfl

end ShopValidation.Text
