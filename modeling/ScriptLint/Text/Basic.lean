/-!
# Text as a sequence of code points

Sources, names and messages are lists of Unicode **code points**.  A lone surrogate is a code
point like any other: request bodies may carry one, so text is not restricted to scalar values,
and every offset and every column counts code points.

* `CodePoint`: a number below `0x110000`; a `Char` coerces to it.
* `Text`: a list of code points; a `String` coerces to it.
* `Text.ofNat`, `Text.ofInt`: decimal numerals.
* `Text.le`: the order of code points, used wherever names are sorted.
-/

namespace ScriptLint

/-- A Unicode **code point**, lone surrogates included. -/
structure CodePoint where
  val : Nat
  isLt : val < 0x110000
deriving DecidableEq

namespace CodePoint

instance : Hashable CodePoint := ⟨fun c => hash c.val⟩

/-- The code point of a character. -/
def ofChar (c : Char) : CodePoint :=
  ⟨c.toNat, by
    have h := c.valid
    simp only [UInt32.isValidChar, Nat.isValidChar] at h
    simp only [Char.toNat]
    omega⟩

instance : Coe Char CodePoint := ⟨ofChar⟩

/-- The replacement character, U+FFFD. -/
def replacement : CodePoint := ⟨0xFFFD, by decide⟩

/-- The code point with a given number; a number out of range gives the replacement
character. -/
def ofNat (n : Nat) : CodePoint :=
  if h : n < 0x110000 then ⟨n, h⟩ else replacement

/-- The surrogates are the code points from U+D800 to U+DFFF. -/
def isSurrogate (c : CodePoint) : Bool := 0xD800 ≤ c.val && c.val < 0xE000

/-- The numbers of the surrogates that come first in a pair. -/
def isHighSurrogate (n : Nat) : Bool := 0xD800 ≤ n && n < 0xDC00

/-- The numbers of the surrogates that come second in a pair. -/
def isLowSurrogate (n : Nat) : Bool := 0xDC00 ≤ n && n < 0xE000

/-- The code point of two surrogates that belong together. -/
def ofSurrogates (high low : Nat) : CodePoint :=
  .ofNat (0x10000 + (high - 0xD800) * 0x400 + (low - 0xDC00))

/-- The value of an ASCII decimal digit. -/
def digit? (c : CodePoint) : Option Nat :=
  if 48 ≤ c.val ∧ c.val ≤ 57 then some (c.val - 48) else none

/-- The value of an ASCII digit in bases up to 36, in either case. -/
def digitIn? (base : Nat) (c : CodePoint) : Option Nat :=
  let value :=
    if 48 ≤ c.val ∧ c.val ≤ 57 then some (c.val - 48)
    else if 97 ≤ c.val ∧ c.val ≤ 122 then some (c.val - 87)
    else if 65 ≤ c.val ∧ c.val ≤ 90 then some (c.val - 55)
    else none
  value.filter (· < base)

/-- An ASCII capital becomes small; every other code point stays. -/
def lower (c : CodePoint) : CodePoint :=
  if h : 65 ≤ c.val ∧ c.val ≤ 90 then ⟨c.val + 32, by omega⟩ else c

/-- An ASCII small letter becomes a capital; every other code point stays. -/
def upper (c : CodePoint) : CodePoint :=
  if h : 97 ≤ c.val ∧ c.val ≤ 122 then ⟨c.val - 32, by omega⟩ else c

end CodePoint

/-- A **text** is a list of code points. -/
abbrev Text := List CodePoint

namespace Text

/-- The code points of a string. -/
def ofString (s : String) : Text := s.toList.map CodePoint.ofChar

instance : Coe String Text := ⟨ofString⟩

@[simp]
theorem ofString_inj {s t : String} : ofString s = ofString t ↔ s = t := by
  have hChar : ∀ a b : Char, CodePoint.ofChar a = CodePoint.ofChar b → a = b := by
    intro a b h
    exact Char.toNat_inj.mp (congrArg CodePoint.val h)
  rw [ofString, ofString, List.map_inj_right hChar, String.toList_inj]

/-- The decimal numeral of a natural number. -/
def ofNat (n : Nat) : Text := (Nat.toDigits 10 n).map CodePoint.ofChar

/-- The decimal numeral of an integer, with a minus sign when it is negative. -/
def ofInt : Int → Text
  | .ofNat n => ofNat n
  | .negSucc n => CodePoint.ofChar '-' :: ofNat (n + 1)

/-- The order of code points: at the first difference the smaller code point is first, and a
text comes before its continuations. -/
def le : Text → Text → Bool
  | [], _ => true
  | _ :: _, [] => false
  | a :: s, b :: t => a.val < b.val || (a.val == b.val && le s t)

/-- ASCII capitals become small. -/
def lower (t : Text) : Text := t.map CodePoint.lower

/-- ASCII small letters become capitals. -/
def upper (t : Text) : Text := t.map CodePoint.upper

/-- The pieces joined with a separator between them. -/
def join (separator : Text) : List Text → Text
  | [] => []
  | [t] => t
  | t :: rest => t ++ separator ++ join separator rest

/-- The pieces between the occurrences of one code point; there is always one piece more than
there are occurrences. -/
def splitAt (separator : CodePoint) : Text → List Text
  | [] => [[]]
  | c :: rest =>
    match splitAt separator rest with
    | [] => [[c]]
    | piece :: pieces =>
      if c = separator then [] :: piece :: pieces else (c :: piece) :: pieces

end Text

end ScriptLint
