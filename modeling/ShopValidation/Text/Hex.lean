/-!
# Hexadecimal digits

Values of digits, texts of numbers and texts of bytes, shared by quoted text, user ids, escapes in
JSON and percent encoding.
-/

namespace ShopValidation.Text

/-- The value of a hexadecimal digit of either case. -/
def hexValue? (c : Char) : Option Nat :=
  if '0' ≤ c ∧ c ≤ '9' then some (c.toNat - 48)
  else if 'a' ≤ c ∧ c ≤ 'f' then some (c.toNat - 87)
  else if 'A' ≤ c ∧ c ≤ 'F' then some (c.toNat - 55)
  else none

/-- Whether a character is a hexadecimal digit. -/
def isHexDigit (c : Char) : Bool := (hexValue? c).isSome

/-- The lower-case digit of a value below sixteen. -/
def hexDigit (value : Nat) : Char := Nat.digitChar (value % 16)

/-- The upper-case digit of a value below sixteen. -/
def hexDigitUpper (value : Nat) : Char := (hexDigit value).toUpper

/-- The lower-case hexadecimal text of a number, without leading zeros. -/
def hexText (value : Nat) : List Char := Nat.toDigits 16 value

/-- The lower-case hexadecimal text of a number in exactly `width` digits. -/
def hexTextPadded : (width : Nat) → Nat → List Char
  | 0, _ => []
  | width + 1, value => hexTextPadded width (value / 16) ++ [hexDigit value]

/-- Read a text of hexadecimal digits, two for each byte. -/
def hexBytes? : List Char → Option (List UInt8)
  | [] => some []
  | [_] => none
  | high :: low :: rest => do
    let h ← hexValue? high
    let l ← hexValue? low
    return UInt8.ofNat (16 * h + l) :: (← hexBytes? rest)

theorem hexTextPadded_length (width value : Nat) : (hexTextPadded width value).length = width := by
  induction width generalizing value with
  | zero => rfl
  | succ width ih => simp [hexTextPadded, ih]

example : hexText 0xAD = ['a', 'd'] := by decide
example : hexTextPadded 4 10 = ['0', '0', '0', 'a'] := by decide

end ShopValidation.Text
