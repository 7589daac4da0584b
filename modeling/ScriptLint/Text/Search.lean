import ScriptLint.Text.Basic

/-!
# Searching in text

Occurrences of one text inside another, and slices by signed bounds.

* `occursIn`: does the needle occur at all?
* `lastIndex?`: the greatest position at which it occurs.
* `count`: the number of disjoint occurrences found from left to right.
* `slice`: the part between two bounds; a negative bound counts from the end, and a bound outside
  the text is moved to its nearest edge.
-/

namespace ScriptLint.Text

/-- Does the text end with the given one? -/
def endsWith (t tail : Text) : Bool := tail.isSuffixOf t

/-- Does the needle occur in the text? -/
def occursIn (needle : Text) : Text → Bool
  | [] => needle.isEmpty
  | c :: rest => needle.isPrefixOf (c :: rest) || occursIn needle rest

/-- The greatest position at which the needle occurs. -/
def lastIndex? (needle : Text) : Text → Option Nat
  | [] => if needle.isEmpty then some 0 else none
  | c :: rest =>
    match lastIndex? needle rest with
    | some i => some (i + 1)
    | none => if needle.isPrefixOf (c :: rest) then some 0 else none

/-- The number of disjoint occurrences of the needle, taken greedily from the left.  The empty
needle occurs once before every code point and once at the end. -/
def count (needle : Text) : Text → Nat
  | [] => if needle.isEmpty then 1 else 0
  | c :: rest =>
    if needle.isPrefixOf (c :: rest) then 1 + count needle (rest.drop (needle.length - 1))
    else count needle rest
termination_by t => t.length
decreasing_by all_goals simp only [List.length_drop, List.length_cons] <;> omega

/-- A bound of a slice as a position: negative bounds count from the end, and all bounds are
moved into the text. -/
def bound (length : Nat) (i : Int) : Nat :=
  if i < 0 then (i + length).toNat else min i.toNat length

/-- The part of the text from one bound up to another. -/
def slice (t : Text) (start stop : Int) : Text :=
  let first := bound t.length start
  let last := bound t.length stop
  (t.take last).drop first

/-- The part of the text before a bound. -/
def before (t : Text) (stop : Int) : Text := t.take (bound t.length stop)

end ScriptLint.Text
