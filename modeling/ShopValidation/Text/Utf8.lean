/-!
# Reading UTF-8 with replacement

Bytes are read as UTF-8 by a machine that remembers an unfinished character. Where the bytes are no
UTF-8, each longest beginning of a character that is not finished, and each byte that begins none,
becomes the replacement character. A byte order mark is a character like any other.
-/

namespace ShopValidation.Text

/-- The character that stands for bytes that are no UTF-8. -/
def replacement : Char := Char.ofNat 0xFFFD

/-- A character of which some bytes have been read: its bits so far, the number of bytes that are
owed, and the range in which the next of them must lie. -/
structure Unfinished where
  bits : Nat
  owed : Nat
  lower : Nat := 0x80
  upper : Nat := 0xBF
deriving DecidableEq, Repr

/-- What a byte means where a character may begin: a character of one byte, a longer character, or
none at all. -/
def firstByte (byte : Nat) : Option (Char ⊕ Unfinished) :=
  if byte < 0x80 then some (.inl (Char.ofNat byte))
  else if 0xC2 ≤ byte ∧ byte ≤ 0xDF then some (.inr ⟨byte - 0xC0, 1, 0x80, 0xBF⟩)
  else if byte = 0xE0 then some (.inr ⟨0, 2, 0xA0, 0xBF⟩)
  else if byte = 0xED then some (.inr ⟨0xD, 2, 0x80, 0x9F⟩)
  else if 0xE1 ≤ byte ∧ byte ≤ 0xEF then some (.inr ⟨byte - 0xE0, 2, 0x80, 0xBF⟩)
  else if byte = 0xF0 then some (.inr ⟨0, 3, 0x90, 0xBF⟩)
  else if byte = 0xF4 then some (.inr ⟨4, 3, 0x80, 0x8F⟩)
  else if 0xF1 ≤ byte ∧ byte ≤ 0xF3 then some (.inr ⟨byte - 0xF0, 3, 0x80, 0xBF⟩)
  else none

/-- The characters that a byte completes where a character may begin, and what it leaves open. -/
def startWith (byte : Nat) : List Char × Option Unfinished :=
  match firstByte byte with
  | some (.inl c) => ([c], none)
  | some (.inr begun) => ([], some begun)
  | none => ([replacement], none)

/-- The characters that a byte completes, and what it leaves open. -/
def takeByte (open_ : Option Unfinished) (byte : Nat) : List Char × Option Unfinished :=
  match open_ with
  | none => startWith byte
  | some begun =>
    if begun.lower ≤ byte ∧ byte ≤ begun.upper then
      let bits := begun.bits * 64 + (byte - 0x80)
      if begun.owed ≤ 1 then ([Char.ofNat bits], none) else ([], some ⟨bits, begun.owed - 1, 0x80, 0xBF⟩)
    else
      let (chars, next) := startWith byte
      (replacement :: chars, next)

/-- Read bytes after an unfinished character. -/
def decodeFrom (open_ : Option Unfinished) : List UInt8 → List Char
  | [] => if open_.isSome then [replacement] else []
  | byte :: rest =>
    let (chars, next) := takeByte open_ byte.toNat
    chars ++ decodeFrom next rest

/-- Read bytes as UTF-8, with replacement. -/
def decodeUtf8 (bytes : List UInt8) : String := String.ofList (decodeFrom none bytes)

/-- The bytes of a text in UTF-8. -/
def utf8Bytes (text : List Char) : List UInt8 := text.flatMap String.utf8EncodeChar

example : decodeFrom none [0xC3, 0xA9] = [Char.ofNat 0xE9] := by decide
example : decodeFrom none [0xE2, 0x82, 0x41] = [replacement, 'A'] := by decide

end ShopValidation.Text
