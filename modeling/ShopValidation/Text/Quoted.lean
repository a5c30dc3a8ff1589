import ShopValidation.Text.Hidden
import ShopValidation.Text.Hex

/-!
# Quoted text

The form in which messages show a text that was refused: in double quotes, with escapes for the
quote, the backslash, the common controls and every hidden character. A single quote stands for
itself.
-/

namespace ShopValidation.Text

/-- The written form of one character between double quotes. -/
def quoteChar (c : Char) : List Char :=
  if c = Char.ofNat 0 then ['\\', '0']
  else if c = '\t' then ['\\', 't']
  else if c = '\r' then ['\\', 'r']
  else if c = '\n' then ['\\', 'n']
  else if c = '"' then ['\\', '"']
  else if c = '\\' then ['\\', '\\']
  else if isHidden c then ['\\', 'u', Char.ofNat 0x7B] ++ hexText c.toNat ++ [Char.ofNat 0x7D]
  else [c]

/-- A text in double quotes, each character in its written form. -/
def quoted (text : String) : String :=
  String.ofList ('"' :: (text.toList.flatMap quoteChar ++ ['"']))

/-- The quote and the backslash are the two printable characters with an escape. -/
example : quoteChar '"' = ['\\', '"'] := rfl

example : quoteChar '\\' = ['\\', '\\'] := rfl

end ShopValidation.Text
