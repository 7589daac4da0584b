import ScriptLint.Fault
import ScriptLint.Json.Basic
import ScriptLint.Number.Decimal
import ScriptLint.Number.Numeral
import ScriptLint.Text.Printable
import ScriptLint.Text.Search

/-!
# Values in messages

Messages show a value as it would be written down: `None`, `True` and `False` are the words for
the absent value and the truth values, texts inside lists and objects are quoted, and a text by
itself stands as it is.

* `Text.quoted`: single quotes, unless the text holds a single quote and no double quote.
* `Json.shown`: a value inside another one.
* `Json.displayed`: a value by itself.
* `Json.inMessage`: a value by itself, unless it is an integer that is too long to be written.
-/

namespace ScriptLint

/-- The lower-case hexadecimal digits of a number, padded to a width. -/
def Text.hex (width n : Nat) : Text :=
  let digits := (Nat.toDigits 16 n).map CodePoint.ofChar
  List.replicate (width - digits.length) (CodePoint.ofChar '0') ++ digits

/-- One code point inside quotes of the given kind. -/
def CodePoint.quoted (mark c : CodePoint) : Text :=
  if c = mark ∨ c.val = 0x5C then [CodePoint.ofChar '\\', c]
  else
    match c.val with
    | 0x0A => "\\n"
    | 0x0D => "\\r"
    | 0x09 => "\\t"
    | n =>
      if c.isPrintable then [c]
      else if n < 0x100 then ("\\x" : Text) ++ Text.hex 2 n
      else if n < 0x10000 then ("\\u" : Text) ++ Text.hex 4 n
      else ("\\U" : Text) ++ Text.hex 8 n

/-- A text in quotes. -/
def Text.quoted (t : Text) : Text :=
  let single := CodePoint.ofChar '\''
  let double := CodePoint.ofChar '"'
  let mark := if t.contains single && !t.contains double then double else single
  mark :: t.flatMap (CodePoint.quoted mark) ++ [mark]

namespace Json

mutual

/-- A value inside another one. -/
def shown : Json → Text
  | .null => "None"
  | .bool true => "True"
  | .bool false => "False"
  | .int n => Text.ofInt n
  | .float x => x.toText
  | .str t => Text.quoted t
  | .arr items => CodePoint.ofChar '[' :: shownItems items ++ [CodePoint.ofChar ']']
  | .obj entries => CodePoint.ofChar '{' :: shownEntries entries ++ [CodePoint.ofChar '}']

/-- The items of a list, separated by commas. -/
def shownItems : List Json → Text
  | [] => []
  | [item] => shown item
  | item :: next :: rest => shown item ++ (", " : Text) ++ shownItems (next :: rest)

/-- The members of an object, separated by commas. -/
def shownEntries : List (Text × Json) → Text
  | [] => []
  | [entry] => Text.quoted entry.1 ++ (": " : Text) ++ shown entry.2
  | entry :: next :: rest =>
    Text.quoted entry.1 ++ (": " : Text) ++ shown entry.2 ++ (", " : Text)
      ++ shownEntries (next :: rest)

end

/-- A value by itself: a text stands as it is. -/
def displayed : Json → Text
  | .str t => t
  | j => shown j

/-- The refusal of an integer that is too long to be written. -/
def tooLongToWrite : Fault :=
  .refused (("Exceeds the limit (" : Text) ++ Text.ofNat Numeral.maxDigits
    ++ (" digits) for integer string conversion; " : Text)
    ++ ("use sys.set_int_max_str_digits() to increase the limit" : Text))

/-- A value by itself, as part of a message.  An integer may have at most `Numeral.maxDigits`
digits. -/
def inMessage : Json → Except Fault Text
  | .int n =>
    if n.natAbs < tenTo Numeral.maxDigits then .ok (Text.ofInt n) else .error tooLongToWrite
  | j => .ok j.displayed

end Json

end ScriptLint
