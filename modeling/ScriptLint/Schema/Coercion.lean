import ScriptLint.Fault
import ScriptLint.Json.Basic
import ScriptLint.Schema.Wording

/-!
# Reading a value as something definite

A field of a record asks for a number, a truth value or a text.  A value that is not one may still
stand for one: `true` for the number one, the text `" 12 "` for the number twelve, the number zero
for `false`.  A value that stands for nothing is an issue.

* `integer`, `integerWithin`, `float`, `bool`: numbers and truth values.
* `text`, `nonemptyText`, `member`, `literal`: texts, and texts that name one of a few things.
-/

namespace ScriptLint.Coercion

/-- A text that is made of characters. -/
def characters (t : Text) : Except Issue.Kind Text :=
  if t.any CodePoint.isSurrogate then .error .stringUnicode else .ok t

/-- The integer that a text says. -/
def numeral (t : Text) : Except Issue.Kind Int := (characters t).bind Wording.integer

/-- The integer of a binary number without a fraction, if it fits into 64 bits. -/
def wholeNumber (x : Binary64) : Except Issue.Kind Int :=
  match x.floor? with
  | none => .error .finiteNumber
  | some n =>
    if !x.isWhole then .error .intFromFloat
    else if n.natAbs < twoTo 63 then .ok n
    else .error .intParsingSize

/-- An integer. -/
def integer : Json → Except Issue.Kind Int
  | .int n => .ok n
  | .bool b => .ok (if b then 1 else 0)
  | .float x => wholeNumber x
  | .str t => numeral t
  | _ => .error .intType

/-- An integer between two bounds. -/
def integerWithin (low high : Int) (j : Json) : Except Issue.Kind Int :=
  match integer j with
  | .error kind => .error kind
  | .ok n =>
    if n < low then .error .belowMinimum else if high < n then .error .aboveMaximum else .ok n

/-- The binary number that a text says. -/
def floatNumeral (t : Text) : Except Issue.Kind Binary64 := do
  match Wording.float? (← characters t) with
  | some x => return x
  | none => throw .floatParsing

/-- A binary number. -/
def float : Json → Except Issue.Kind Binary64
  | .float x => .ok x
  | .int n =>
    match (Number.int n).toFloat? with
    | some x => .ok x
    | none => .error .floatType
  | .bool b => .ok (.ofInt (if b then 1 else 0))
  | .str t => floatNumeral t
  | _ => .error .floatType

/-- Words for the two truth values, in small letters. -/
def truthWords : List (Text × Bool) :=
  [("0", false), ("off", false), ("f", false), ("false", false), ("n", false), ("no", false),
   ("1", true), ("on", true), ("t", true), ("true", true), ("y", true), ("yes", true)]

/-- The truth value of an integer that fits into 64 bits: only zero and one have one. -/
def truthOfInt (n : Int) : Except Issue.Kind Bool :=
  if n = 0 then .ok false else if n = 1 then .ok true else .error .boolParsing

/-- The truth value that a text says, in small letters or capitals. -/
def truthOfText (t : Text) : Except Issue.Kind Bool := do
  match truthWords.lookup (← characters t).lower with
  | some b => return b
  | none => throw .boolParsing

/-- A truth value.  Numbers that are not whole, or do not fit into 64 bits, cannot be meant as
one. -/
def bool : Json → Except Issue.Kind Bool
  | .bool b => .ok b
  | .int n =>
    if -(twoTo 63 : Int) ≤ n ∧ n < (twoTo 63 : Int) then truthOfInt n else .error .boolType
  | .float x =>
    match wholeNumber x with
    | .ok n => truthOfInt n
    | .error _ => .error .boolType
  | .str t => truthOfText t
  | _ => .error .boolType

/-- A text. -/
def text : Json → Except Issue.Kind Text
  | .str t => .ok t
  | _ => .error .stringType

/-- A text whose length counts: it has to be made of characters, and there has to be one. -/
def nonemptyText (j : Json) : Except Issue.Kind Text :=
  match (text j).bind characters with
  | .error kind => .error kind
  | .ok t => if t.isEmpty then .error .stringTooShort else .ok t

/-- One of the things that texts name. -/
def member {α : Type} (ofTag? : Text → Option α) (j : Json) : Except Issue.Kind α :=
  match j with
  | .str t =>
    match ofTag? t with
    | some a => .ok a
    | none => .error (if t.any CodePoint.isSurrogate then .stringUnicode else .notAMember)
  | _ => .error .notAMember

/-- One of a few texts. -/
def literal {α : Type} (ofTag? : Text → Option α) (j : Json) : Except Issue.Kind α :=
  match member ofTag? j with
  | .error .notAMember => .error .notALiteral
  | result => result

end ScriptLint.Coercion
