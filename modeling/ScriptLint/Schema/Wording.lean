import ScriptLint.Fault
import ScriptLint.Number.Numeral

/-!
# Numbers that are given as words

A field for a number takes a text too, if the text says which number is meant.  Blanks around the
number do not count.

* `Wording.integer`: a plus sign, zeros with underscores among them, and a fraction of zeros may be
  left out; an underscore may stand between the digits that remain.  What is left then is a decimal
  numeral.
* `Wording.float?`: a decimal fraction.  Underscores may stand inside it if no blanks surround it.
-/

namespace ScriptLint.Wording

/-- The blanks that may surround a number: white space, without the four separators. -/
def isMargin (c : CodePoint) : Bool := c.isBlank && !(0x1C ≤ c.val && c.val ≤ 0x1F)

/-- A text without the blanks at both ends. -/
def trimmed (t : Text) : Text :=
  ((t.dropWhile isMargin).reverse.dropWhile isMargin).reverse

/-- A text without underscores, each of which stands between two other code points. -/
def withoutUnderscores? (t : Text) : Option Text :=
  let groups := Text.splitAt '_' t
  if groups.all fun g => !g.isEmpty then some groups.flatten else none

/-! ### Integers -/

/-- Is this a digit other than zero? -/
def isCounting (c : CodePoint) : Bool := c.digit?.any fun d => d ≠ 0

/-- What follows leading zeros, the last of which, or the last underscore after them, is `last`: a
digit that is not zero, or a minus sign.  `last` stays if nothing follows, or a point. -/
def afterZeros? (last : CodePoint) : Text → Option Text
  | [] => some [last]
  | c :: rest =>
    if c = CodePoint.ofChar '0' ∨ c = CodePoint.ofChar '_' then afterZeros? c rest
    else if isCounting c ∨ c = CodePoint.ofChar '-' then some (c :: rest)
    else if c = CodePoint.ofChar '.' then some (last :: c :: rest)
    else none

/-- A numeral without leading zeros.  It begins with a digit. -/
def withoutZeros? : Text → Option Text
  | [] => none
  | c :: rest =>
    if c = CodePoint.ofChar '0' then afterZeros? c rest
    else if isCounting c then some (c :: rest)
    else none

/-- A numeral without a plus sign and without leading zeros.  A minus sign stays in front; there
is at most one sign. -/
def withoutLeadingZeros? : Text → Option Text
  | [] => none
  | c :: rest =>
    if c = CodePoint.ofChar '+' then withoutZeros? rest
    else if c = CodePoint.ofChar '-' then (withoutZeros? rest).map fun t => c :: t
    else withoutZeros? (c :: rest)

/-- A numeral without a fraction, which has to be made of zeros. -/
def withoutFraction? (t : Text) : Option Text :=
  match t.span fun c => c ≠ CodePoint.ofChar '.' with
  | (whole, []) => some whole
  | (whole, _ :: zeros) =>
    if !zeros.isEmpty && zeros.all fun c => c = CodePoint.ofChar '0' then some whole else none

/-- A numeral without all that may be left out. -/
def bare? (t : Text) : Option Text := do
  let t ← withoutLeadingZeros? (trimmed t)
  let t ← withoutFraction? t
  withoutUnderscores? t

/-- The integer of a bare numeral: perhaps a minus sign, then digits, of which the first is zero
only if there are no others.  The sign counts for the length. -/
def ofBare (t : Text) : Except Issue.Kind Int :=
  let (isNegative, body) := Numeral.sign t
  let (digits, rest) := Numeral.digits body
  if digits.head? = some (CodePoint.ofChar '0') ∧ 1 < digits.length then .error .intParsing
  else if Numeral.maxDigits + body.length < t.length + digits.length then .error .intParsingSize
  else
    match Numeral.natural? 10 digits with
    | some n =>
      if rest.isEmpty then .ok (if isNegative then -(n : Int) else n) else .error .intParsing
    | none => .error .intParsing

/-- The integer that a text says. -/
def integer (t : Text) : Except Issue.Kind Int :=
  match bare? t with
  | some t => ofBare t
  | none => .error .intParsing

/-! ### Binary numbers -/

/-- The binary number of a decimal numeral in ASCII digits, without blanks. -/
def floatNumeral? (t : Text) : Option Binary64 :=
  if t.all fun c => c.val < 0x80 && !c.isBlank then Numeral.float? t else none

/-- The binary number that a text says. -/
def float? (t : Text) : Option Binary64 :=
  match floatNumeral? (trimmed t) with
  | some x => some x
  | none => (withoutUnderscores? t).bind floatNumeral?

end ScriptLint.Wording
