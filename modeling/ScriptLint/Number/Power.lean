/-!
# Powers

The powers of the two bases in which numbers are written.
-/

namespace ScriptLint

/-- Two to a power. -/
abbrev twoTo (k : Nat) : Nat := Nat.pow 2 k

/-- Ten to a power. -/
abbrev tenTo (k : Nat) : Nat := Nat.pow 10 k

end ScriptLint
