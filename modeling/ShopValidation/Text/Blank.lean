/-!
# Blank characters and trimming

A character is blank when it has the Unicode property White_Space. Settings are read after their
blank ends are cut off; a character inside the text is never touched.
-/

namespace ShopValidation.Text

/-- The code points with the property White_Space, as inclusive ranges in increasing order. -/
def blankRanges : List (Nat × Nat) :=
  [(0x09, 0x0D), (0x20, 0x20), (0x85, 0x85), (0xA0, 0xA0), (0x1680, 0x1680), (0x2000, 0x200A),
   (0x2028, 0x2029), (0x202F, 0x202F), (0x205F, 0x205F), (0x3000, 0x3000)]

/-- Whether a character has the property White_Space. -/
def isBlank (c : Char) : Bool :=
  blankRanges.any fun range => range.1 ≤ c.toNat && c.toNat ≤ range.2

/-- Cut the blank characters off both ends. -/
def trim (text : List Char) : List Char :=
  ((text.dropWhile isBlank).reverse.dropWhile isBlank).reverse

/-- `trim` on a string. -/
def trimmed (text : String) : String :=
  String.ofList (trim text.toList)

@[simp] theorem trim_nil : trim [] = [] := rfl

@[simp] theorem trimmed_toList (text : String) : (trimmed text).toList = trim text.toList := by
  simp [trimmed]

example : [' ', '\t', '\n', '\r'].all isBlank = true := by decide
example : trim [' ', 'a', ' ', 'b', Char.ofNat 0x3000] = ['a', ' ', 'b'] := by decide

end ShopValidation.Text
