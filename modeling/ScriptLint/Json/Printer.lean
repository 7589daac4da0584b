import ScriptLint.Json.Basic
import ScriptLint.Number.Decimal

/-!
# Writing JSON

A value is written on one line in ASCII alone, with a blank after each comma and colon.  Every
code point beyond ASCII is escaped, those above U+FFFF as two surrogates.
-/

namespace ScriptLint.Json

/-- The escape `\uXXXX` of a number below `2 ^ 16`. -/
def unicodeEscape (n : Nat) : Text :=
  let digits := (Nat.toDigits 16 n).map CodePoint.ofChar
  ("\\u" : Text) ++ List.replicate (4 - digits.length) (CodePoint.ofChar '0') ++ digits

/-- One code point inside a quoted text. -/
def quoteOne (c : CodePoint) : Text :=
  match c.val with
  | 0x22 => "\\\""
  | 0x5C => "\\\\"
  | 0x0A => "\\n"
  | 0x0D => "\\r"
  | 0x09 => "\\t"
  | 0x0C => "\\f"
  | 0x08 => "\\b"
  | n =>
    if 0x20 ≤ n ∧ n < 0x7F then [c]
    else if n < 0x10000 then unicodeEscape n
    else
      unicodeEscape (0xD800 + (n - 0x10000) / 0x400)
        ++ unicodeEscape (0xDC00 + (n - 0x10000) % 0x400)

/-- A quoted text. -/
def quote (t : Text) : Text :=
  CodePoint.ofChar '"' :: t.flatMap quoteOne ++ [CodePoint.ofChar '"']

/-- A binary number, with the words for infinities and no numbers. -/
def writeFloat (x : Binary64) : Text :=
  if x.isNaN then "NaN"
  else if x.isInfinite then (if x.negative then "-Infinity" else "Infinity")
  else x.toText

mutual

/-- A value as text. -/
def write : Json → Text
  | .null => "null"
  | .bool true => "true"
  | .bool false => "false"
  | .int n => Text.ofInt n
  | .float x => writeFloat x
  | .str t => quote t
  | .arr items => CodePoint.ofChar '[' :: writeItems items ++ [CodePoint.ofChar ']']
  | .obj entries => CodePoint.ofChar '{' :: writeEntries entries ++ [CodePoint.ofChar '}']

/-- The items of a list, separated by commas. -/
def writeItems : List Json → Text
  | [] => []
  | [item] => write item
  | item :: next :: rest => write item ++ (", " : Text) ++ writeItems (next :: rest)

/-- The members of an object, separated by commas. -/
def writeEntries : List (Text × Json) → Text
  | [] => []
  | [entry] => quote entry.1 ++ (": " : Text) ++ write entry.2
  | entry :: next :: rest =>
    quote entry.1 ++ (": " : Text) ++ write entry.2 ++ (", " : Text) ++ writeEntries (next :: rest)

end

end ScriptLint.Json
