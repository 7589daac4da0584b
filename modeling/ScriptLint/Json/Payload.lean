import ScriptLint.Fault
import ScriptLint.Json.Basic

/-!
# Values on their way out

Some members of what is sent hold values of any sort.  Such a value may be nested only so far, and
a number that is not finite has no place in it and becomes `null`.

* `Json.levels`: how far a value is nested.
* `Json.finite`: the value with `null` for every number that is not finite.
* `Entries.payload`: members of any sort as they are sent.
-/

namespace ScriptLint

namespace Json

mutual

/-- How far a value is nested; a value without parts has one level. -/
def levels : Json → Nat
  | .arr items => itemLevels items + 1
  | .obj entries => memberLevels entries + 1
  | _ => 1

/-- How far the items of a list are nested. -/
def itemLevels : List Json → Nat
  | [] => 0
  | j :: rest => max (levels j) (itemLevels rest)

/-- How far the members of an object are nested. -/
def memberLevels : List (Text × Json) → Nat
  | [] => 0
  | e :: rest => max (levels e.2) (memberLevels rest)

end

mutual

/-- The value with `null` for every number that is not finite. -/
def finite : Json → Json
  | .float x => if x.isFinite then .float x else .null
  | .arr items => .arr (finiteItems items)
  | .obj entries => .obj (finiteMembers entries)
  | j => j

/-- The items of a list, all finite. -/
def finiteItems : List Json → List Json
  | [] => []
  | j :: rest => finite j :: finiteItems rest

/-- The members of an object, all finite. -/
def finiteMembers : List (Text × Json) → List (Text × Json)
  | [] => []
  | e :: rest => (e.1, finite e.2) :: finiteMembers rest

end

/-- The greatest number of levels of a value that is sent. -/
def maxLevels : Nat := 254

end Json

/-- The refusal of values that are nested too far. -/
def Entries.tooDeep : Fault := .refused "Maximum serialization depth exceeded"

/-- Members of any sort as they are sent. -/
def Entries.payload (entries : Entries) : Except Fault Json :=
  if Json.memberLevels entries ≤ Json.maxLevels then .ok (.obj (Json.finiteMembers entries))
  else .error Entries.tooDeep

end ScriptLint
