import ShopValidation.Text.IntegerLiteral

/-!
# Number literals

A number literal is kept as its sign, its digits before and after the point, and its exponent, so that
an integer is read exactly. A literal with neither fraction nor exponent is integral. Minus zero is not
an integer, since no integer has that sign.

A floating-point number is read in two steps. The digits are taken up one after another as long as
they make a number of sixty-four bits, and the number is then multiplied or divided by the power of ten
that is left. Both steps round, so the result need not be the nearest number. A literal that is too
large for a floating-point number leads to an infinity.
-/

namespace ShopValidation.Json

/-- The value of a run of decimal digits. -/
def decimalValue (digits : List Char) : Nat :=
  digits.foldl (fun value c => 10 * value + Text.digitValue c) 0

/-- A run of decimal digits. -/
abbrev Digits : Type := { digits : List Char // ∀ c ∈ digits, c.isDigit = true }

/-- A number literal. -/
structure Number where
  negative : Bool
  whole : Digits
  fraction : Digits
  exponent : Option Int
deriving DecidableEq, Repr

/-- The power of ten with a natural exponent. -/
def powerOfTen (n : Nat) : Float := Float.ofScientific 1 false n

/-- The largest exponent of a power of ten that is a floating-point number. -/
def largestPower : Nat := 308

/-- Divide by the largest power of ten again and again, or until nothing is left. -/
def divided (x : Float) : Nat → Float
  | 0 => x
  | rounds + 1 => if x = 0 then 0 else divided (x / powerOfTen largestPower) rounds

/-- A number times a power of ten. With an exponent beyond the largest, only zero is not too large. The
powers beyond the smallest are divided by in several rounds. -/
def scaled (significand : Nat) : Int → Float
  | .ofNat n =>
    if n ≤ largestPower then significand.toUInt64.toFloat * powerOfTen n
    else if significand = 0 then 0
    else 1 / 0
  | .negSucc n =>
    divided significand.toUInt64.toFloat (n / largestPower) / powerOfTen (n % largestPower + 1)

/-- Take up digits behind a number, as long as it has sixty-four bits. Answers the number, and the
digits that are left. -/
def takeUp (significand : Nat) : List Char → Nat × List Char
  | [] => (significand, [])
  | c :: rest =>
    if 10 * significand + Text.digitValue c < 18446744073709551616 then
      takeUp (10 * significand + Text.digitValue c) rest
    else (significand, c :: rest)

namespace Number

/-- Whether the literal is one of an integer. -/
def integral (number : Number) : Bool := number.fraction.val.isEmpty && number.exponent.isNone

/-- The integer of an integral literal within bounds. -/
def toInt? (number : Number) (bounds : Text.Bounds) : Option Int :=
  let size := decimalValue number.whole.val
  let value := if number.negative then -(size : Int) else size
  if number.integral && !(number.negative && size = 0) &&
      bounds.lower ≤ value && value ≤ bounds.upper then some value
  else none

/-- A number with the sign of the literal. -/
def signed (number : Number) (size : Float) : Float := if number.negative then -size else size

/-- The number that is taken up from the digits, and the exponent of the power of ten that belongs to
it: each digit before the point that is left raises it, and each one after the point that is taken up
lowers it. -/
def parts (number : Number) : Nat × Int :=
  let (front, left) := takeUp 0 number.whole.val
  let (significand, dropped) := takeUp front number.fraction.val
  (significand, number.exponent.getD 0 + left.length + dropped.length - number.fraction.val.length)

/-- The floating-point number that is read from the literal. -/
def toFloat (number : Number) : Float := number.signed (scaled number.parts.1 number.parts.2)

/-- Whether the literal has a finite floating-point value. -/
def isFinite (number : Number) : Bool := number.toFloat.isFinite

end Number

/-- Read the digits at the front of a text. -/
def takeDigits (text : List Char) : Digits × List Char :=
  (⟨text.takeWhile Char.isDigit, List.all_eq_true.mp List.all_takeWhile⟩,
    text.dropWhile Char.isDigit)

/-- Read the integer part: a zero alone, or digits that begin with another. -/
def takeWhole? (text : List Char) : Option (Digits × List Char) :=
  let (digits, rest) := takeDigits text
  match digits.val with
  | [] => none
  | '0' :: _ :: _ => none
  | _ => some (digits, rest)

/-- Read the fraction, if there is one. It has at least one digit. -/
def takeFraction? : List Char → Option (Digits × List Char)
  | '.' :: rest =>
    let (digits, rest) := takeDigits rest
    if digits.val.isEmpty then none else some (digits, rest)
  | text => some (⟨[], by simp⟩, text)

/-- Read the exponent, if there is one. It has at least one digit. -/
def takeExponent? (text : List Char) : Option (Option Int × List Char) :=
  match text with
  | mark :: rest =>
    if mark = 'e' ∨ mark = 'E' then
      let (negative, rest) :=
        match rest with
        | '-' :: rest => (true, rest)
        | '+' :: rest => (false, rest)
        | rest => (false, rest)
      let (digits, rest) := takeDigits rest
      if digits.val.isEmpty then none
      else
        let size : Int := decimalValue digits.val
        some (some (if negative then -size else size), rest)
    else some (none, text)
  | [] => some (none, [])

/-- Read a number literal at the front of a text. -/
def takeNumber? (text : List Char) : Option (Number × List Char) := do
  let (negative, text) :=
    match text with
    | '-' :: rest => (true, rest)
    | text => (false, text)
  let (whole, text) ← takeWhole? text
  let (fraction, text) ← takeFraction? text
  let (exponent, text) ← takeExponent? text
  return (⟨negative, whole, fraction, exponent⟩, text)

end ShopValidation.Json
