import ScriptLint.Text.Basic

/-!
# Blanks

The **blanks** are the white space of Unicode together with the four separators U+001C to U+001F.
The byte order mark and the zero width space are not among them.

* `Text.strip`, `Text.stripEnd`: a text without the blanks at its ends.
-/

namespace ScriptLint

/-- The blanks as closed ranges. -/
def CodePoint.blankRanges : List (Nat × Nat) :=
  [(0x9, 0xD), (0x1C, 0x20), (0x85, 0x85), (0xA0, 0xA0), (0x1680, 0x1680), (0x2000, 0x200A),
   (0x2028, 0x2029), (0x202F, 0x202F), (0x205F, 0x205F), (0x3000, 0x3000)]

/-- Is this code point white space? -/
def CodePoint.isBlank (c : CodePoint) : Bool :=
  CodePoint.blankRanges.any fun r => r.1 ≤ c.val && c.val ≤ r.2

namespace Text

/-- The text without its trailing blanks. -/
def stripEnd (t : Text) : Text := (t.reverse.dropWhile CodePoint.isBlank).reverse

/-- The text without the blanks at both ends. -/
def strip (t : Text) : Text := stripEnd (t.dropWhile CodePoint.isBlank)

/-- Is there nothing but blanks? -/
def isBlank (t : Text) : Bool := t.all CodePoint.isBlank

end Text

end ScriptLint
