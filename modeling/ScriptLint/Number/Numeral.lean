import ScriptLint.Number.Basic
import ScriptLint.Number.Decimal
import ScriptLint.Text.Blank
import ScriptLint.Text.Digit

/-!
# Reading numerals

Numerals as they stand in programs and in settings: integers in four bases, decimal fractions,
and the names of the infinities.

* `Numeral.integer?`: an optional sign, then digits in base ten, or a base mark `0x`, `0o` or `0b`
  and digits in that base.  A numeral in base ten has no leading zeros unless it is zero, and at
  most `maxDigits` digits.
* `Numeral.float?`: an optional sign, then a decimal fraction with an optional exponent, or one of
  `inf`, `infinity` and `nan` in any case.
* `Numeral.number?`: the first of the two that applies.
* `Numeral.literal?`: the number of a literal of a program, where underscores may stand anywhere
  and a suffix `n` marks a big integer.

Digits may come from any script, and blanks may surround the numeral.
-/

namespace ScriptLint.Numeral

/-- The greatest number of decimal digits of an integer. -/
def maxDigits : Nat := 4300

/-- Digits of every script become ASCII digits, and blanks beyond ASCII become spaces. -/
def plain (c : CodePoint) : CodePoint :=
  if c.val < 0x80 then c
  else if c.isBlank then CodePoint.ofChar ' '
  else
    match c.decimal? with
    | some d => .ofNat (48 + d)
    | none => c

/-- The blanks that may surround a numeral: tab to carriage return, and the space. -/
def isMargin (c : CodePoint) : Bool := (9 ≤ c.val && c.val ≤ 13) || c.val == 32

/-- A numeral in plain digits, without the blanks around it. -/
def trimmed (t : Text) : Text :=
  (((t.map plain).dropWhile isMargin).reverse.dropWhile isMargin).reverse

/-- A sign and the rest; no sign means plus. -/
def sign : Text → Bool × Text
  | [] => (false, [])
  | c :: rest =>
    if c = CodePoint.ofChar '-' then (true, rest)
    else if c = CodePoint.ofChar '+' then (false, rest)
    else (false, c :: rest)

/-- The value of a nonempty sequence of digits. -/
def natural? (base : Nat) (t : Text) : Option Nat :=
  if t.isEmpty then none
  else t.foldl (fun acc c => acc.bind fun n => (c.digitIn? base).map (n * base + ·)) (some 0)

/-- The base that a base mark stands for. -/
def baseOfMark? (c : CodePoint) : Option Nat :=
  match c.lower.val with
  | 0x78 => some 16
  | 0x6F => some 8
  | 0x62 => some 2
  | _ => none

/-- A numeral in base ten, not longer than the limit and without useless leading zeros. -/
def decimalNatural? (t : Text) : Option Nat :=
  if maxDigits < t.length then none
  else
    match natural? 10 t with
    | some n => if t.head? = some (CodePoint.ofChar '0') ∧ n ≠ 0 then none else some n
    | none => none

/-- A numeral with or without a base mark. -/
def unsigned? : Text → Option Nat
  | a :: b :: rest =>
    match (if a = CodePoint.ofChar '0' then baseOfMark? b else none) with
    | some base => natural? base rest
    | none => decimalNatural? (a :: b :: rest)
  | t => decimalNatural? t

/-- The integer of a numeral. -/
def integer? (t : Text) : Option Int :=
  let (isNegative, body) := sign (trimmed t)
  (unsigned? body).map fun n => if isNegative then -(n : Int) else n

/-- The leading ASCII digits of a text, and the rest. -/
def digits (t : Text) : Text × Text := t.span fun c => c.digit?.isSome

/-- An exponent part, `e` and a signed integer; without one the exponent is zero. -/
def exponent? : Text → Option Int
  | [] => some 0
  | c :: rest =>
    if c.lower = CodePoint.ofChar 'e' then
      let (isNegative, body) := sign rest
      (natural? 10 body).map fun n => if isNegative then -(n : Int) else n
    else none

/-- The decimal number with the given digits before and after the point. -/
def decimal (whole fraction : Text) (exponent : Int) : Decimal :=
  ⟨(natural? 10 (whole ++ fraction)).getD 0, exponent - fraction.length⟩

/-- A decimal fraction with an optional exponent. -/
def fraction? (t : Text) : Option Decimal := do
  let (whole, rest) := digits t
  let (fraction, rest) :=
    match rest with
    | c :: tail => if c = CodePoint.ofChar '.' then digits tail else ([], rest)
    | [] => ([], [])
  if whole.isEmpty && fraction.isEmpty then none
  else
    let exponent ← exponent? rest
    return decimal whole fraction exponent

/-- The binary number of a numeral. -/
def float? (t : Text) : Option Binary64 :=
  let (isNegative, body) := sign (trimmed t)
  let name := Text.lower body
  if name = ("inf" : Text) ∨ name = ("infinity" : Text) then some (.infinity isNegative)
  else if name = ("nan" : Text) then some .nan
  else (fraction? body).map (Decimal.toBinary isNegative)

/-- The number of a numeral, an integer if possible. -/
def number? (t : Text) : Option Number :=
  match integer? t with
  | some n => some (.int n)
  | none => (float? t).map .float

/-- The number of a literal: underscores are dropped, then the suffix. -/
def literal? (t : Text) : Option Number :=
  let digits := t.filter (· ≠ CodePoint.ofChar '_')
  number? ((digits.reverse.dropWhile (· = CodePoint.ofChar 'n')).reverse)

end ScriptLint.Numeral
