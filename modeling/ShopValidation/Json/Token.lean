import ShopValidation.Json.Number
import ShopValidation.Text.Hex

/-!
# Tokens of JSON text

A JSON text is cut into brackets, separators, words, numbers and strings. The lexical rules are
strict: four kinds of blank between tokens, no raw controls inside strings, numbers without leading
zeros. A string whose escapes include half of a surrogate pair is well formed but stands for no text.
-/

namespace ShopValidation.Json

/-- The tokens. A string token holds its text, if it stands for one. -/
inductive Token where
  | openArray
  | closeArray
  | openObject
  | closeObject
  | comma
  | colon
  | null
  | bool (value : Bool)
  | number (literal : Number)
  | text (content : Option String)
deriving DecidableEq, Repr

/-- The blanks between tokens. -/
def isGap (c : Char) : Bool := c = ' ' || c = '\n' || c = '\t' || c = '\r'

/-- The character of a one-letter escape. -/
def escaped? (c : Char) : Option Char :=
  if c = '"' ∨ c = '\\' ∨ c = '/' then some c
  else if c = 'b' then some (Char.ofNat 8)
  else if c = 'f' then some (Char.ofNat 12)
  else if c = 'n' then some '\n'
  else if c = 'r' then some '\r'
  else if c = 't' then some '\t'
  else none

/-- A unit of a string: a character, or a UTF-16 code unit from a numeric escape. -/
inductive Piece where
  | char (c : Char)
  | unit (value : Nat)
deriving DecidableEq, Repr

/-- The value of four hexadecimal digits. -/
def unitValue? (a b c d : Char) : Option Nat := do
  return 4096 * (← Text.hexValue? a) + 256 * (← Text.hexValue? b) + 16 * (← Text.hexValue? c) +
    (← Text.hexValue? d)

/-- Read the rest of a string after its opening quote, as units. -/
def takePieces? : List Char → Option (List Piece × List Char)
  | [] => none
  | '"' :: rest => some ([], rest)
  | '\\' :: 'u' :: a :: b :: c :: d :: rest => do
    let unit ← unitValue? a b c d
    let (pieces, rest) ← takePieces? rest
    return (.unit unit :: pieces, rest)
  | '\\' :: c :: rest => do
    let char ← escaped? c
    let (pieces, rest) ← takePieces? rest
    return (.char char :: pieces, rest)
  | c :: rest => do
    if c = '\\' ∨ c.toNat < 0x20 then none
    let (pieces, rest) ← takePieces? rest
    return (.char c :: pieces, rest)

/-- Whether a code unit is the first half of a surrogate pair. -/
def isHighHalf (unit : Nat) : Bool := 0xD800 ≤ unit && unit < 0xDC00

/-- Whether a code unit is the second half of a surrogate pair. -/
def isLowHalf (unit : Nat) : Bool := 0xDC00 ≤ unit && unit < 0xE000

/-- The characters of a string, joining surrogate pairs; nothing if a half stands alone. -/
def joinPieces? : List Piece → Option (List Char)
  | [] => some []
  | .char c :: rest => (joinPieces? rest).map (c :: ·)
  | .unit high :: .unit low :: rest =>
    if isHighHalf high then
      if isLowHalf low then
        (joinPieces? rest).map
          (Char.ofNat (0x10000 + 1024 * (high - 0xD800) + (low - 0xDC00)) :: ·)
      else none
    else if isLowHalf high then none
    else (joinPieces? (.unit low :: rest)).map (Char.ofNat high :: ·)
  | .unit unit :: rest =>
    if isHighHalf unit || isLowHalf unit then none
    else (joinPieces? rest).map (Char.ofNat unit :: ·)

/-- Read a word at the front of a text. -/
def takeWord? (word : List Char) (text : List Char) : Option (List Char) :=
  if word.isPrefixOf text then some (text.drop word.length) else none

/-- Read one token at the front of a text that does not begin with a gap. -/
def takeToken? (text : List Char) : Option (Token × List Char) :=
  match text with
  | [] => none
  | '[' :: rest => some (.openArray, rest)
  | ']' :: rest => some (.closeArray, rest)
  | ',' :: rest => some (.comma, rest)
  | ':' :: rest => some (.colon, rest)
  | '"' :: rest =>
    (takePieces? rest).map fun r => (.text ((joinPieces? r.1).map String.ofList), r.2)
  | 'n' :: rest => (takeWord? ['u', 'l', 'l'] rest).map fun rest => (.null, rest)
  | 't' :: rest => (takeWord? ['r', 'u', 'e'] rest).map fun rest => (.bool true, rest)
  | 'f' :: rest => (takeWord? ['a', 'l', 's', 'e'] rest).map fun rest => (.bool false, rest)
  | c :: rest =>
    if c = Char.ofNat 0x7B then some (.openObject, rest)
    else if c = Char.ofNat 0x7D then some (.closeObject, rest)
    else (takeNumber? text).map fun r => (.number r.1, r.2)

/-- Cut a whole text into tokens. Every token takes at least one character. -/
def tokens? (text : List Char) : Option (List Token) :=
  match text with
  | [] => some []
  | c :: rest =>
    if isGap c then tokens? rest
    else
      match takeToken? (c :: rest) with
      | none => none
      | some (token, after) =>
        if _shorter : after.length < (c :: rest).length then (tokens? after).map (token :: ·)
        else none
termination_by text.length
decreasing_by
  · exact Nat.lt_succ_self rest.length
  · assumption

end ShopValidation.Json
