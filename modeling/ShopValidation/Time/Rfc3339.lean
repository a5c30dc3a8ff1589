import ShopValidation.Text.Blank
import ShopValidation.Time.Instant

/-!
# The text of an instant

Instants are written as date, `T`, time of day and `Z`. The fraction of the second is left out when
it is zero and otherwise has the fewest of three, six or nine digits that are exact; a leap second
is second 60.

Reading is more generous. Numbers may have fewer digits and blanks before them, the separator may be
a lower-case `t` or a space, and a fraction may have any length, of which the first nine digits
count. The offset from UTC is `Z`, `UTC` or a sign, two digits of hours and two of minutes, below a
day; blanks may stand around it.
-/

namespace ShopValidation.Rfc3339

/-- The decimal text of a number, with leading zeros up to a width. -/
def padded (width value : Nat) : List Char :=
  let digits := Nat.toDigits 10 value
  List.replicate (width - digits.length) '0' ++ digits

/-- A year: four digits, or a sign and at least four digits outside the years 0 to 9999. -/
def yearText (year : Int) : List Char :=
  if 0 ≤ year ∧ year ≤ 9999 then padded 4 year.toNat
  else (if year < 0 then '-' else '+') :: padded 4 year.natAbs

/-- The fraction of a second, with its point. -/
def fractionText (nano : Nat) : List Char :=
  if nano = 0 then []
  else if nano % 1000000 = 0 then '.' :: padded 3 (nano / 1000000)
  else if nano % 1000 = 0 then '.' :: padded 6 (nano / 1000)
  else '.' :: padded 9 nano

/-- The text of an instant, in UTC. -/
def render (t : Instant) : String :=
  let date := Date.ofDayNumber (t.second / 86400)
  let ofDay := (t.second % 86400).toNat
  let second := ofDay % 60 + (if t.inLeapSecond then 1 else 0)
  String.ofList <|
    yearText date.year ++ ['-'] ++ padded 2 date.month ++ ['-'] ++ padded 2 date.day ++ ['T'] ++
    padded 2 (ofDay / 3600) ++ [':'] ++ padded 2 (ofDay / 60 % 60) ++ [':'] ++ padded 2 second ++
    fractionText (t.nano % 1000000000) ++ ['Z']

/-- The value of a run of decimal digits. -/
def digitsValue (digits : List Char) : Nat :=
  digits.foldl (fun value c => value * 10 + (c.toNat - 48)) 0

/-- Read a number of one or more digits, at most `width` of them. -/
def takeDigits (width : Nat) (text : List Char) : Option (Nat × List Char) :=
  let digits := (text.take width).takeWhile Char.isDigit
  if digits.isEmpty then none else some (digitsValue digits, text.drop digits.length)

/-- Read a number after any blanks. -/
def takeNumber (width : Nat) (text : List Char) : Option (Nat × List Char) :=
  takeDigits width (text.dropWhile Text.isBlank)

/-- Read a signed year of any length, or an unsigned one of at most four digits, after any
blanks. -/
def takeYear (text : List Char) : Option (Int × List Char) :=
  match text.dropWhile Text.isBlank with
  | '+' :: rest => (takeDigits rest.length rest).map fun r => ((r.1 : Int), r.2)
  | '-' :: rest => (takeDigits rest.length rest).map fun r => (-(r.1 : Int), r.2)
  | text => (takeDigits 4 text).map fun r => ((r.1 : Int), r.2)

/-- Read one given character. -/
def takeChar (expected : Char) : List Char → Option (List Char)
  | c :: rest => if c = expected then some rest else none
  | [] => none

/-- Read the separator between date and time of day. -/
def takeSeparator : List Char → Option (List Char)
  | c :: rest => if c = 'T' ∨ c = 't' ∨ c = ' ' then some rest else none
  | [] => none

/-- Read an optional fraction of a second, in nanoseconds. -/
def takeFraction : List Char → Option (Nat × List Char)
  | '.' :: rest =>
    let digits := rest.takeWhile Char.isDigit
    if digits.isEmpty then none
    else
      let kept := digits.take 9
      some (digitsValue (kept ++ List.replicate (9 - kept.length) '0'), rest.drop digits.length)
  | text => some (0, text)

/-- Whether an offset with this sign goes back, where the character is a sign. -/
def signGoesBack? (c : Char) : Option Bool :=
  if c = '+' then some false
  else if c = '-' ∨ c = Char.ofNat 0x2212 then some true
  else none

/-- Read two digits. -/
def takeTwo : List Char → Option (Nat × List Char)
  | a :: b :: rest => if a.isDigit ∧ b.isDigit then some (digitsValue [a, b], rest) else none
  | _ => none

/-- Read a signed offset in seconds. Colons and blanks may stand between hours and minutes. -/
def takeSignedOffset : List Char → Option (Int × List Char)
  | [] => none
  | sign :: rest => do
    let back ← signGoesBack? sign
    let (hours, rest) ← takeTwo rest
    let (minutes, rest) ← takeTwo (rest.dropWhile fun c => c = ':' || Text.isBlank c)
    let seconds : Int := hours * 3600 + minutes * 60
    guard (minutes ≤ 59 ∧ seconds < 86400)
    return (if back then -seconds else seconds, rest)

/-- Whether a text begins with the letters of UTC. -/
def beginsWithUtc (text : List Char) : Bool :=
  (text.take 3).map Char.toUpper = ['U', 'T', 'C']

/-- Read an offset from UTC in seconds. -/
def takeOffset (text : List Char) : Option (Int × List Char) :=
  if beginsWithUtc text then some (0, text.drop 3)
  else
    match text with
    | 'Z' :: rest | 'z' :: rest => some (0, rest)
    | text => takeSignedOffset text

/-- Read the text of an instant. The date must lie in the representable years both as written and
in UTC. -/
def readChars (text : List Char) : Option Instant := do
  let (year, text) ← takeYear text
  let (month, text) ← takeNumber 2 (← takeChar '-' text)
  let (day, text) ← takeNumber 2 (← takeChar '-' text)
  let (hour, text) ← takeNumber 2 (← takeSeparator text)
  let (minute, text) ← takeNumber 2 (← takeChar ':' text)
  let (second, text) ← takeNumber 2 (← takeChar ':' text)
  let (nano, text) ← takeFraction text
  let (offset, text) ← takeOffset (text.dropWhile Text.isBlank)
  let date : Date := ⟨year, month, day⟩
  guard (date.isValid ∧ hour ≤ 23 ∧ minute ≤ 59 ∧ second ≤ 60 ∧ text.all Text.isBlank)
  let ofDay : Int := hour * 3600 + minute * 60 + min second 59
  let leap := if second = 60 then 1000000000 else 0
  let written := date.dayNumber * 86400 + ofDay
  let _ ← Instant.ofParts? written (nano + leap)
  Instant.ofParts? (written - offset) (nano + leap)

/-- `readChars` on a string. -/
def read (text : String) : Option Instant := readChars text.toList

end ShopValidation.Rfc3339
