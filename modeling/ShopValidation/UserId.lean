import ShopValidation.Text.Hex

/-!
# User identifiers

A user id has 128 bits. It is written as 32 hexadecimal digits in groups of 8, 4, 4, 4 and 12 with
hyphens between them. It may also be read without hyphens, in braces, or after `urn:uuid:`. A text
that is none of these gets the most specific complaint: a wrong character first, then the overall
length, the number of groups, and the length of a group. Lengths and offsets count bytes of UTF-8.
-/

namespace ShopValidation

/-- The number of user ids: one for every word of 128 bits. -/
def userIdCount : Nat := 340282366920938463463374607431768211456

/-- The id of a user. -/
structure UserId where
  value : Nat
  value_lt : value < userIdCount
deriving DecidableEq

/-- Why a text is no user id. -/
inductive UserIdError where
  | length (found : Nat)
  | character (found : Char) (offset : Nat)
  | groupCount (found : Nat)
  | groupLength (group expected found : Nat)
deriving DecidableEq, Repr

/-- The wording of a user id error. -/
def UserIdError.message : UserIdError → String
  | .length found => s!"invalid length: found {found}"
  | .character found offset => s!"invalid character: found `{found}` at {offset}"
  | .groupCount found => s!"invalid group count: expected 5, found {found}"
  | .groupLength group expected found =>
    s!"invalid group length in group {group}: expected {expected}, found {found}"

namespace UserId

/-- The length of a text in bytes. -/
def byteLength (text : List Char) : Nat := text.foldr (fun c n => c.utf8Size + n) 0

/-- The value of a run of hexadecimal digits. -/
def digitsValue? (digits : List Char) : Option Nat :=
  digits.foldlM (fun value c => (Text.hexValue? c).map (16 * value + ·)) 0

/-- The id of exactly 32 hexadecimal digits. -/
def ofDigits? (digits : List Char) : Option UserId :=
  if digits.length = 32 then
    (digitsValue? digits).bind fun value => if h : value < userIdCount then some ⟨value, h⟩ else none
  else none

/-- The id of 32 digits in five groups. -/
def ofGroups? (text : List Char) : Option UserId :=
  if [8, 13, 18, 23].all (fun at_ => text[at_]? = some '-') then
    ofDigits? (text.take 8 ++ (text.drop 9).take 4 ++ (text.drop 14).take 4 ++
      (text.drop 19).take 4 ++ text.drop 24)
  else none

/-- The mark of a name of this kind, which may be in either case. -/
def urnMark : List Char := ['u', 'r', 'n', ':', 'u', 'u', 'i', 'd', ':']

/-- The text after the mark, if it begins with it. -/
def afterUrnMark? (text : List Char) : Option (List Char) :=
  if (text.take 9).map Char.toLower = urnMark then some (text.drop 9) else none

/-- The text between braces, if it stands in them. -/
def insideBraces? (text : List Char) : Option (List Char) :=
  match text with
  | open_ :: rest =>
    if open_ = Char.ofNat 0x7B ∧ rest.getLast? = some (Char.ofNat 0x7D) then some rest.dropLast
    else none
  | [] => none

/-- The part that has to be a hyphenated id, if the byte length and the wrapping say so. -/
def hyphenatedPart? (text : List Char) : Option (List Char) :=
  if byteLength text = 36 then some text
  else if byteLength text = 38 then insideBraces? text
  else if byteLength text = 45 then afterUrnMark? text
  else none

/-- What a scan of a refused text has seen: whether it must be hyphenated, the byte offset reached,
and the offsets of the hyphens, last one first. -/
structure Scan where
  hyphenated : Bool
  offset : Nat := 0
  hyphens : List Nat := []

/-- Scan a text for hyphens, up to the first character that is neither hyphen nor digit. -/
def scan : Scan → List Char → Except (Char × Nat) Scan
  | seen, [] => .ok seen
  | seen, c :: rest =>
    if c = '-' then
      scan ⟨true, seen.offset + 1, seen.offset :: seen.hyphens⟩ rest
    else if Text.isHexDigit c then scan { seen with offset := seen.offset + 1 } rest
    else .error (c, seen.offset)

/-- The first of the leading four groups whose hyphen is not where it belongs. -/
def firstBadGroup (group : Nat) : (wanted found : List Nat) → Option UserIdError
  | want :: wanted, at_ :: found =>
    if at_ = want then firstBadGroup (group + 1) wanted found
    else
      let start := if group = 0 then 0 else 4 + 5 * group
      some (.groupLength group (if group = 0 then 8 else 4) (at_ - start))
  | _, _ => none

/-- The complaint about a text that is no user id: the text itself, the part of it that is scanned,
the number of bytes before that part, and whether the part must be hyphenated. -/
def complaint (text part : List Char) (before : Nat) (hyphenated : Bool) : UserIdError :=
  match scan ⟨hyphenated, 0, []⟩ part with
  | .error (c, offset) => .character c (before + offset)
  | .ok seen =>
    if !seen.hyphenated then .length (byteLength text)
    else if seen.hyphens.length ≠ 4 then .groupCount (seen.hyphens.length + 1)
    else
      (firstBadGroup 0 [8, 13, 18, 23] seen.hyphens.reverse).getD
        (.groupLength 4 12 (byteLength text - 24))

/-- Find out what is wrong with a text that could not be read. -/
def diagnose (text : List Char) : UserIdError :=
  match hyphenatedPart? text with
  | some inner => complaint inner inner 0 true
  | none =>
    if text.isEmpty ∨ 45 < byteLength text then .length (byteLength text)
    else match insideBraces? text, afterUrnMark? text with
      | some inner, _ => complaint text inner 1 true
      | none, some inner => complaint text inner 9 true
      | none, none => complaint text text 0 false

/-- Read a user id in any of its forms. -/
def readChars (text : List Char) : Except UserIdError UserId :=
  let found :=
    if byteLength text = 32 then ofDigits? text else (hyphenatedPart? text).bind ofGroups?
  match found with
  | some id => .ok id
  | none => .error (diagnose text)

/-- `readChars` on a string. -/
def parse (text : String) : Except UserIdError UserId := readChars text.toList

/-- The text of an id: lower-case digits in five groups. -/
def render (id : UserId) : String :=
  let digits := Text.hexTextPadded 32 id.value
  String.ofList <|
    digits.take 8 ++ ['-'] ++ (digits.drop 8).take 4 ++ ['-'] ++ (digits.drop 12).take 4 ++ ['-'] ++
    (digits.drop 16).take 4 ++ ['-'] ++ digits.drop 20

end UserId

end ShopValidation
