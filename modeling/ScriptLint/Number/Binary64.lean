import ScriptLint.Number.Power

/-!
# Binary floating-point numbers

A `Binary64` is the sixty-four bits of a double-precision number.  All arithmetic goes through
exact fractions: a result is computed exactly and then **rounded once**, to the nearest number,
and to the even one of two that are equally near.

* `Binary64.value`: what the bits stand for, `± mantissa · 2 ^ exponent`, an infinity, or no
  number.
* `roundHalfEven`: the integer nearest to a fraction.
* `Binary64.ofFraction`: the number nearest to a fraction.
* `add`, `sub`, `mul`, `div`, `ofInt`: each the rounding of the exact result.
* `compare?`, `floor?`, `isWhole`: exact questions about the value.
-/

namespace ScriptLint

/-- The integer nearest to `num / den`; of two that are equally near, the even one. -/
def roundHalfEven (num den : Nat) : Nat :=
  let quotient := num / den
  let twice := 2 * (num % den)
  if twice < den then quotient
  else if den < twice then quotient + 1
  else if quotient % 2 = 0 then quotient else quotient + 1

/-- A double-precision number, by its bits. -/
structure Binary64 where
  bits : UInt64
deriving DecidableEq

namespace Binary64

instance : Hashable Binary64 := ⟨fun x => hash x.bits⟩

/-- What the bits of a number stand for. -/
inductive Value where
  /-- Not a number. -/
  | nan
  /-- An infinity. -/
  | infinite (negative : Bool)
  /-- The number `± mantissa · 2 ^ exponent`. -/
  | finite (negative : Bool) (mantissa : Nat) (exponent : Int)

/-- The sign bit. -/
def negative (x : Binary64) : Bool := twoTo 63 ≤ x.bits.toNat

/-- The bits without the sign. -/
def magnitude (x : Binary64) : Nat := x.bits.toNat % twoTo 63

/-- The magnitude of an infinity; larger magnitudes are no numbers. -/
def infiniteMagnitude : Nat := 0x7FF * twoTo 52

/-- The value of a number. -/
def value (x : Binary64) : Value :=
  let m := x.magnitude
  if infiniteMagnitude < m then .nan
  else if m = infiniteMagnitude then .infinite x.negative
  else if m < twoTo 52 then .finite x.negative m (-1074)
  else .finite x.negative (twoTo 52 + m % twoTo 52) ((m / twoTo 52 : Nat) - 1075)

/-- A number from its sign and its magnitude. -/
def ofMagnitude (isNegative : Bool) (magnitude : Nat) : Binary64 :=
  ⟨UInt64.ofNat ((if isNegative then twoTo 63 else 0) + magnitude)⟩

def zero : Binary64 := ⟨0⟩

def nan : Binary64 := ofMagnitude false (infiniteMagnitude + twoTo 51)

def infinity (isNegative : Bool) : Binary64 := ofMagnitude isNegative infiniteMagnitude

/-- The fraction `num / den` in units of `2 ^ exponent`, as a fraction again. -/
def scaled (num den : Nat) (exponent : Int) : Nat × Nat :=
  match exponent with
  | .ofNat k => (num, den * twoTo k)
  | .negSucc k => (num * twoTo (k + 1), den)

/-- The exponent of the last place of a positive fraction: in units of this power of two the
fraction has fifty-three binary digits, unless that would go below the smallest power. -/
def lastPlace (num den : Nat) : Int :=
  let guess : Int := (num.log2 : Int) - den.log2 - 52
  let (n, d) := scaled num den guess
  max (if n < d * twoTo 52 then guess - 1 else guess) (-1074)

/-- The magnitude of the number nearest to `num / den`. -/
def roundMagnitude (num den : Nat) : Nat :=
  if num = 0 then 0
  else
    let exponent := lastPlace num den
    let (n, d) := scaled num den exponent
    min ((exponent + 1074).toNat * twoTo 52 + roundHalfEven n d) infiniteMagnitude

/-- The number nearest to the fraction `± num / den`. -/
def ofFraction (isNegative : Bool) (num den : Nat) : Binary64 :=
  ofMagnitude isNegative (roundMagnitude num den)

/-- The number nearest to `± mantissa · 2 ^ exponent`. -/
def ofScaled (isNegative : Bool) (mantissa : Nat) : Int → Binary64
  | .ofNat k => ofFraction isNegative (mantissa * twoTo k) 1
  | .negSucc k => ofFraction isNegative mantissa (twoTo (k + 1))

/-- The number nearest to an integer. -/
def ofInt (n : Int) : Binary64 := ofFraction (n < 0) n.natAbs 1

def neg (x : Binary64) : Binary64 := ofMagnitude (!x.negative) x.magnitude

def isNaN (x : Binary64) : Bool := infiniteMagnitude < x.magnitude

def isInfinite (x : Binary64) : Bool := x.magnitude == infiniteMagnitude

def isFinite (x : Binary64) : Bool := x.magnitude < infiniteMagnitude

/-- Both zeros are zero. -/
def isZero (x : Binary64) : Bool := x.magnitude == 0

/-- The integer `± mantissa`. -/
def signed (isNegative : Bool) (mantissa : Nat) : Int :=
  if isNegative then -(mantissa : Int) else mantissa

/-- The sum, rounded once.  A sum of opposite numbers is the positive zero. -/
def add (x y : Binary64) : Binary64 :=
  match x.value, y.value with
  | .nan, _ | _, .nan => nan
  | .infinite a, .infinite b => if a = b then infinity a else nan
  | .infinite a, _ => infinity a
  | _, .infinite b => infinity b
  | .finite a m e, .finite b n f =>
    let exponent := min e f
    let sum := signed a (m * twoTo (e - exponent).toNat) + signed b (n * twoTo (f - exponent).toNat)
    if sum = 0 then ofMagnitude (a && b && m == 0 && n == 0) 0
    else ofScaled (sum < 0) sum.natAbs exponent

/-- The difference, rounded once. -/
def sub (x y : Binary64) : Binary64 := x.add y.neg

/-- The product, rounded once. -/
def mul (x y : Binary64) : Binary64 :=
  match x.value, y.value with
  | .nan, _ | _, .nan => nan
  | .infinite a, .infinite b => infinity (a != b)
  | .infinite a, .finite b n _ => if n = 0 then nan else infinity (a != b)
  | .finite a m _, .infinite b => if m = 0 then nan else infinity (a != b)
  | .finite a m e, .finite b n f => ofScaled (a != b) (m * n) (e + f)

/-- The quotient, rounded once. -/
def div (x y : Binary64) : Binary64 :=
  match x.value, y.value with
  | .nan, _ | _, .nan => nan
  | .infinite _, .infinite _ => nan
  | .infinite a, .finite b _ _ => infinity (a != b)
  | .finite a _ _, .infinite b => ofMagnitude (a != b) 0
  | .finite a m e, .finite b n f =>
    if n = 0 then (if m = 0 then nan else infinity (a != b))
    else
      match e - f with
      | .ofNat k => ofFraction (a != b) (m * twoTo k) n
      | .negSucc k => ofFraction (a != b) m (n * twoTo (k + 1))

/-- How the value of a number compares with an integer; `none` if it is no number. -/
def compareInt? (x : Binary64) (n : Int) : Option Ordering :=
  match x.value with
  | .nan => none
  | .infinite a => some (if a then .lt else .gt)
  | .finite a m (.ofNat k) => some (compare (signed a (m * twoTo k)) n)
  | .finite a m (.negSucc k) => some (compare (signed a m) (n * twoTo (k + 1)))

/-- How two numbers compare; `none` if one of them is no number. -/
def compare? (x y : Binary64) : Option Ordering :=
  match x.value, y.value with
  | .nan, _ | _, .nan => none
  | .infinite a, .infinite b => some (compare (signed a 1) (signed b 1))
  | .infinite a, _ => some (if a then .lt else .gt)
  | _, .infinite b => some (if b then .gt else .lt)
  | .finite a m e, .finite b n f =>
    let exponent := min e f
    some (compare (signed a (m * twoTo (e - exponent).toNat))
      (signed b (n * twoTo (f - exponent).toNat)))

/-- The greatest integer not above the number; `none` for infinities and no numbers. -/
def floor? (x : Binary64) : Option Int :=
  match x.value with
  | .finite a m (.ofNat k) => some (signed a (m * twoTo k))
  | .finite a m (.negSucc k) => some (signed a m / twoTo (k + 1))
  | _ => none

/-- Is the number an integer? -/
def isWhole (x : Binary64) : Bool :=
  match x.floor? with
  | some n => x.compareInt? n == some .eq
  | none => false

/-- The number nearest to `x` with a given number of decimal places, a half going to the even
neighbour, rounded to the nearest binary number again. -/
def roundToPlaces (places : Nat) (x : Binary64) : Binary64 :=
  match x.value with
  | .finite a m (.ofNat k) => ofFraction a (m * twoTo k) 1
  | .finite a m (.negSucc k) =>
    ofFraction a (roundHalfEven (m * tenTo places) (twoTo (k + 1))) (tenTo places)
  | _ => x

/-- The sixteen hexadecimal digits of the bits. -/
def hexDigits (x : Binary64) : List Char :=
  let digits := Nat.toDigits 16 x.bits.toNat
  List.replicate (16 - digits.length) '0' ++ digits

end Binary64

end ScriptLint
