import ScriptLint.Number.Basic
import ScriptLint.Text.Basic

/-!
# JSON values

A JSON value keeps the order of the members of its objects and tells integers from binary
numbers.  A request may put any value into any place, so the questions that the analysis asks of
a value are total.

* `Json.get?`: a member of an object by its name.
* `Json.truthy`: does the value count as present?  Empty texts, lists and objects, zeros, `false`
  and `null` do not.
* `Json.number?`: the number of a value; the truth values count as one and zero.
* `Json.equal`: equality of values, where numbers are compared by value whatever their form.
-/

namespace ScriptLint

/-- A JSON value. -/
inductive Json where
  | null
  | bool (b : Bool)
  | int (n : Int)
  | float (x : Binary64)
  | str (t : Text)
  | arr (items : List Json)
  | obj (entries : List (Text × Json))

/-- The members of an object, in order. -/
abbrev Entries := List (Text × Json)

namespace Json

instance : Inhabited Json := ⟨.null⟩

instance : Coe String Json := ⟨fun s => .str s⟩

instance : Coe Text Json := ⟨.str⟩

instance : Coe Bool Json := ⟨.bool⟩

instance : Coe Int Json := ⟨.int⟩

instance : Coe Nat Json := ⟨fun n => .int n⟩

/-- An object with members given by name. -/
def object (entries : List (String × Json)) : Json :=
  .obj (entries.map fun e => ((e.1 : Text), e.2))

/-- The number of a numeral that has been read. -/
def ofNumber : Number → Json
  | .int n => .int n
  | .float x => .float x

/-- The number of a value; the truth values count as one and zero. -/
def number? : Json → Option Number
  | .bool b => some (.int (if b then 1 else 0))
  | .int n => some (.int n)
  | .float x => some (.float x)
  | _ => none

/-- Does the value count as present? -/
def truthy : Json → Bool
  | .null => false
  | .bool b => b
  | .int n => n != 0
  | .float x => !x.isZero
  | .str t => !t.isEmpty
  | .arr items => !items.isEmpty
  | .obj entries => !entries.isEmpty

def isNull : Json → Bool
  | .null => true
  | _ => false

/-- Lists and objects cannot be looked up in a table of names. -/
def isKey : Json → Bool
  | .arr _ | .obj _ => false
  | _ => true

end Json

/-- The member of a given name. -/
def Entries.get? (entries : Entries) (name : Text) : Option Json := entries.lookup name

/-- The member of a given name, or `null`. -/
def Entries.get (entries : Entries) (name : Text) : Json := (entries.get? name).getD .null

/-- Sets a member: a repeated name keeps its first place and takes the last value. -/
def Entries.put (entries : Entries) (name : Text) (value : Json) : Entries :=
  match entries with
  | [] => [(name, value)]
  | e :: rest => if e.1 = name then (name, value) :: rest else e :: Entries.put rest name value

namespace Json

/-- The member of an object. -/
def get? (j : Json) (name : Text) : Option Json :=
  match j with
  | .obj entries => Entries.get? entries name
  | _ => none

mutual

/-- Are two values equal?  Numbers are compared by value, objects without regard to order. -/
def equal : Json → Json → Bool
  | .null, .null => true
  | .str s, .str t => s == t
  | .arr xs, .arr ys => equalItems xs ys
  | .obj es, .obj fs => es.length == fs.length && equalEntries es fs
  | a, b =>
    match a.number?, b.number? with
    | some x, some y => x.equal y
    | _, _ => false

/-- Are two lists of values equal item by item? -/
def equalItems : List Json → List Json → Bool
  | [], [] => true
  | x :: xs, y :: ys => equal x y && equalItems xs ys
  | _, _ => false

/-- Has the second object an equal member for every member of the first? -/
def equalEntries : Entries → Entries → Bool
  | [], _ => true
  | e :: es, fs =>
    (match fs.lookup e.1 with
      | some v => equal e.2 v
      | none => false) && equalEntries es fs

end

/-- Is the value this text? -/
def isText (j : Json) (t : Text) : Bool :=
  match j with
  | .str s => s == t
  | _ => false

end Json

end ScriptLint
