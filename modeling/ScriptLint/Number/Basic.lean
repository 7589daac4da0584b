import ScriptLint.Number.Binary64

/-!
# Numbers: integers and binary numbers together

A number that comes from outside is an unbounded integer or a binary number.  Mixed operations
convert the integer first; an integer too large for that has no result.
-/

namespace ScriptLint

/-- An integer or a binary number. -/
inductive Number where
  | int (n : Int)
  | float (x : Binary64)
deriving DecidableEq

namespace Number

/-- The binary number nearest to a number; `none` if an integer is too large. -/
def toFloat? : Number → Option Binary64
  | .int n =>
    let x := Binary64.ofInt n
    if x.isFinite then some x else none
  | .float x => some x

/-- An operation on integers or, if one operand is a binary number, on binary numbers. -/
def combine? (onInts : Int → Int → Int) (onFloats : Binary64 → Binary64 → Binary64)
    (a b : Number) : Option Number :=
  match a, b with
  | .int m, .int n => some (.int (onInts m n))
  | _, _ => do
    let x ← a.toFloat?
    let y ← b.toFloat?
    return .float (onFloats x y)

def add? (a b : Number) : Option Number := combine? (· + ·) Binary64.add a b

def sub? (a b : Number) : Option Number := combine? (· - ·) Binary64.sub a b

/-- The quotient as a binary number; `none` if it is too large, or if the divisor is zero. -/
def div? (a b : Number) : Option Binary64 :=
  match a, b with
  | .int m, .int n =>
    if n = 0 then none
    else
      let x := Binary64.ofFraction (decide (m < 0) != decide (n < 0)) m.natAbs n.natAbs
      if x.isFinite then some x else none
  | _, _ => do
    let x ← a.toFloat?
    let y ← b.toFloat?
    if y.isZero then none else return x.div y

/-- How two numbers compare; `none` if one of them is no number. -/
def compare? : Number → Number → Option Ordering
  | .int m, .int n => some (compare m n)
  | .int m, .float y => (y.compareInt? m).map Ordering.swap
  | .float x, .int n => x.compareInt? n
  | .float x, .float y => x.compare? y

/-- Are two numbers the same number, whatever their form? -/
def equal (a b : Number) : Bool := a.compare? b == some .eq

/-- Is the first number greater? -/
def greater (a b : Number) : Bool := a.compare? b == some .gt

theorem greater_int (m n : Int) : (int m).greater (int n) = decide (n < m) := by
  have hCompare : (int m).compare? (int n) = some (compareOfLessAndEq m n) := rfl
  rw [greater, hCompare, compareOfLessAndEq]
  by_cases hLess : m < n
  · rw [if_pos hLess, decide_eq_false (by omega)]
    rfl
  · by_cases hEq : m = n
    · rw [if_neg hLess, if_pos hEq, decide_eq_false (by omega)]
      rfl
    · rw [if_neg hLess, if_neg hEq, decide_eq_true (by omega)]
      rfl

/-- Is the first number smaller? -/
def less (a b : Number) : Bool := a.compare? b == some .lt

/-- Is the first number at most the second? -/
def atMost (a b : Number) : Bool :=
  match a.compare? b with
  | some .lt | some .eq => true
  | _ => false

/-- The number without its sign. -/
def abs : Number → Number
  | .int n => .int n.natAbs
  | .float x => .float (if x.negative then x.neg else x)

def isZero : Number → Bool
  | .int n => n == 0
  | .float x => x.isZero

end Number

end ScriptLint
