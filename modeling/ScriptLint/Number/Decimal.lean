import ScriptLint.Number.Binary64
import ScriptLint.Text.Basic

/-!
# Decimal numerals of binary numbers

Reading and writing of binary numbers in decimal notation.

* `Decimal`: the number `digits · 10 ^ exponent`, and `Decimal.toBinary`, the binary number nearest
  to it.
* `Decimal.shortest`: the fewest digits that read back as a given binary number, and of those the
  nearest to its value.
* `Decimal.Layout` and `Binary64.toText`: where positional notation ends and how exponents look.
-/

namespace ScriptLint

/-- The decimal number `digits · 10 ^ exponent`. -/
structure Decimal where
  digits : Nat
  exponent : Int
deriving DecidableEq

namespace Decimal

/-- The number of decimal digits of a natural number. -/
def length (n : Nat) : Nat := (Nat.toDigits 10 n).length

/-- The binary number nearest to a decimal one.  A magnitude above `10 ^ 310` is infinite and one
below `10 ^ (-330)` is zero, so no power needs to be computed there. -/
def toBinary (isNegative : Bool) (d : Decimal) : Binary64 :=
  if d.digits = 0 then .ofMagnitude isNegative 0
  else
    let top := d.exponent + length d.digits
    if 310 < top then .infinity isNegative
    else if top < -330 then .ofMagnitude isNegative 0
    else
      match d.exponent with
      | .ofNat k => .ofFraction isNegative (d.digits * tenTo k) 1
      | .negSucc k => .ofFraction isNegative d.digits (tenTo (k + 1))

/-- The least number of places after the point at which a fraction below one shows a digit that
is not zero; the search stops after `fuel` places. -/
def leadingPlaces (num den : Nat) : Nat → Nat → Nat
  | 0, places => places
  | fuel + 1, places =>
    if den ≤ num * tenTo places then places else leadingPlaces num den fuel (places + 1)

/-- The power of ten just above a positive fraction: `10 ^ (k - 1) ≤ num / den < 10 ^ k`. -/
def scale (num den : Nat) : Int :=
  if den ≤ num then length (num / den)
  else 1 - (leadingPlaces num den 400 0 : Int)

/-- The fraction `num / den` in units of `10 ^ exponent`. -/
def inUnits (num den : Nat) : Int → Nat × Nat
  | .ofNat k => (num, den * tenTo k)
  | .negSucc k => (num * tenTo (k + 1), den)

/-- Of the two neighbours of a fraction on the grid of `count` decimal digits, the one that lies
between the bounds and is nearer, if there is one.  All fractions have denominator `den`; the
bounds themselves count if `closed`. -/
def onGrid (low num high den : Nat) (closed : Bool) (top : Int) (count : Nat) : Option Decimal :=
  let exponent := top - count
  let (n, d) := inUnits num den exponent
  let (a, _) := inUnits low den exponent
  let (b, _) := inUnits high den exponent
  let inside := fun k : Nat =>
    if closed then decide (a ≤ k * d ∧ k * d ≤ b) else decide (a < k * d ∧ k * d < b)
  let down := n / d
  let near := roundHalfEven n d
  let far := if near = down then down + 1 else down
  if inside near then some ⟨near, exponent⟩
  else if inside far then some ⟨far, exponent⟩
  else none

/-- Trailing zeros of the digits move into the exponent; `fuel` bounds their number. -/
def trimmed : Nat → Decimal → Decimal
  | 0, d => d
  | fuel + 1, d =>
    if d.digits % 10 = 0 ∧ d.digits ≠ 0 then trimmed fuel ⟨d.digits / 10, d.exponent + 1⟩ else d

/-- The **shortest** decimal number that reads back as `mantissa · 2 ^ exponent`.  The numbers
that do lie between the middles of the gaps on either side; below a power of two the lower gap
is half as wide. -/
def shortest (mantissa : Nat) (exponent : Int) : Decimal :=
  let lowerGap := if mantissa = twoTo 52 ∧ -1074 < exponent then 1 else 2
  let num := 4 * mantissa
  let (n, d) := Binary64.scaled num 4 (-exponent)
  let (a, _) := Binary64.scaled (num - lowerGap) 4 (-exponent)
  let (b, _) := Binary64.scaled (num + 2) 4 (-exponent)
  let top := scale n d
  let found := (List.range 17).findSome? fun i =>
    onGrid a n b d (mantissa % 2 = 0) top (i + 1)
  trimmed 20 (found.getD ⟨0, 0⟩)

/-- How numerals are laid out: which exponents are written positionally, and how many digits an
exponent has at least. -/
structure Layout where
  lowest : Int
  highest : Int
  exponentWidth : Nat

/-- Positional notation from `10 ^ (-4)` to below `10 ^ 16`, otherwise a signed exponent of at
least two digits. -/
def Layout.standard : Layout := ⟨-4, 15, 2⟩

/-- The digits of a number, padded with zeros on the left. -/
def padded (width n : Nat) : List Char :=
  let digits := Nat.toDigits 10 n
  List.replicate (width - digits.length) '0' ++ digits

/-- A positive decimal number as a numeral.  A positional numeral always shows a digit after the
point. -/
def render (layout : Layout) (d : Decimal) : List Char :=
  let digits := Nat.toDigits 10 d.digits
  let leading : Int := d.exponent + digits.length - 1
  if layout.lowest ≤ leading ∧ leading ≤ layout.highest then
    if 0 ≤ d.exponent then digits ++ List.replicate d.exponent.toNat '0' ++ ['.', '0']
    else if 0 ≤ leading then
      digits.take (leading.toNat + 1) ++ '.' :: digits.drop (leading.toNat + 1)
    else '0' :: '.' :: List.replicate (-leading - 1).toNat '0' ++ digits
  else
    let fraction := digits.drop 1
    let mark := if leading < 0 then '-' else '+'
    digits.take 1 ++ (if fraction.isEmpty then [] else '.' :: fraction)
      ++ 'e' :: mark :: padded layout.exponentWidth leading.natAbs

end Decimal

/-- The numeral of a binary number: the fewest digits that read back. -/
def Binary64.toText (x : Binary64) : Text :=
  let sign := if x.negative then ['-'] else []
  let body :=
    match x.value with
    | .nan => "nan".toList
    | .infinite _ => sign ++ "inf".toList
    | .finite _ 0 _ => sign ++ "0.0".toList
    | .finite _ m e => sign ++ Decimal.render .standard (Decimal.shortest m e)
  body.map CodePoint.ofChar

end ScriptLint
