import ScriptLint.Text.Basic

/-!
# Lines and columns

Only the line feed ends a line.  Lines are counted from one and columns from zero; a position
outside the text lies on the first or the last line.

* `Text.lineStarts`: the offsets at which the lines begin.
* `lastLine`: binary search for the last line whose beginning has been reached.
* `Place.ofOffset`: line and column of an integer offset.
-/

namespace ScriptLint

/-- The offsets at which lines begin, for a text that stands at offset `start`, without the
beginning of its first line. -/
def Text.lineStartsFrom (start : Nat) : Text → List Nat
  | [] => []
  | c :: rest =>
    if c = CodePoint.ofChar '\n' then (start + 1) :: Text.lineStartsFrom (start + 1) rest
    else Text.lineStartsFrom (start + 1) rest

/-- The offsets at which the lines of a text begin. -/
def Text.lineStarts (t : Text) : Array Nat := (0 :: Text.lineStartsFrom 0 t).toArray

/-- **Binary search** between `low` and `high` for the last line that has been reached, when the
reached lines come before all others. -/
def lastLine (reached : Nat → Bool) (low high : Nat) : Nat :=
  if low < high then
    let middle := (low + high + 1) / 2
    if reached middle then lastLine reached middle high else lastLine reached low (middle - 1)
  else low
termination_by high - low
decreasing_by all_goals omega

/-- A line, counted from one, and a column, counted from zero. -/
structure Place where
  line : Int
  column : Int
deriving DecidableEq

/-- The place of an offset in a text with the given line beginnings. -/
def Place.ofOffset (starts : Array Nat) (offset : Int) : Place :=
  let line := lastLine (fun i => (starts.getD i 0 : Int) ≤ offset) 0 (starts.size - 1)
  ⟨line + 1, offset - starts.getD line 0⟩

end ScriptLint
