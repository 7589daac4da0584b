import ScriptLint.Schema.Coercion

/-!
# Reading records

A record is read field by field, and **all** broken fields are reported, in the order in which the
fields are declared.  Members that no field asks for are ignored.

* `Checked`: a value, or the issues that stand in its way.  Reading two fields one after the other
  collects the issues of both.
* `required`, `optional`: a field that has to be there, and one with a value of its own.
* `listOf`, `nullable`: readers for lists, and for values that may be `null`.
-/

namespace ScriptLint

/-- A step as it is reported: a name, or a number. -/
def Issue.Step.toJson : Issue.Step → Json
  | member name => .str name
  | item i => .int i

/-- An issue as it is reported. -/
def Issue.toJson (i : Issue) : Json :=
  .object [("type", i.kind.code), ("loc", .arr (i.path.map Issue.Step.toJson))]

/-- A value, or the issues that stand in its way. -/
inductive Checked (α : Type) where
  | ok (value : α)
  | broken (issues : List Issue)

namespace Checked

def issues {α : Type} : Checked α → List Issue
  | ok _ => []
  | broken is => is

def map {α β : Type} (f : α → β) : Checked α → Checked β
  | ok a => ok (f a)
  | broken is => broken is

/-- Applies what has been read first to what is read next; issues of both sides are kept. -/
def apply {α β : Type} (f : Checked (α → β)) (a : Checked α) : Checked β :=
  match f, a with
  | ok g, ok b => ok (g b)
  | f, a => broken (f.issues ++ a.issues)

instance : Functor Checked := ⟨map, fun a => map (fun _ => a)⟩

instance : Pure Checked := ⟨ok⟩

instance : Seq Checked := ⟨fun f a => apply f (a ())⟩

/-- What has been read, or a fault with all issues. -/
def toExcept {α : Type} : Checked α → Except Fault α
  | ok a => .ok a
  | broken is => .error (.invalid is)

/-- Places what has been read at a step. -/
def below {α : Type} (step : Issue.Step) : Checked α → Checked α
  | ok a => ok a
  | broken is => broken (is.map fun i => { i with path := step :: i.path })

/-- A value that has been read by itself. -/
def ofCoercion {α : Type} : Except Issue.Kind α → Checked α
  | .ok a => ok a
  | .error kind => broken [⟨kind, []⟩]

end Checked

namespace Schema

/-- A reader of values. -/
abbrev Reader (α : Type) := Json → Checked α

/-- A reader of single values. -/
def plain {α : Type} (coerce : Json → Except Issue.Kind α) : Reader α := fun j =>
  .ofCoercion (coerce j)

/-- A field that has to be there. -/
def required {α : Type} (name : Text) (read : Reader α) (entries : Entries) : Checked α :=
  match entries.get? name with
  | none => .broken [⟨.missing, [.member name]⟩]
  | some j => (read j).below (.member name)

/-- A field with a value of its own for when it is not there. -/
def optional {α : Type} (name : Text) (usual : α) (read : Reader α) (entries : Entries) :
    Checked α :=
  match entries.get? name with
  | none => .ok usual
  | some j => (read j).below (.member name)

/-- A value that may be `null`. -/
def nullable {α : Type} (read : Reader α) : Reader (Option α) := fun j =>
  if j.isNull then .ok none else (read j).map some

/-- The items of a list from number `i` on. -/
def itemsFrom {α : Type} (read : Reader α) (i : Nat) : List Json → Checked (List α)
  | [] => .ok []
  | j :: rest =>
    .apply (((read j).below (.item i)).map fun a as => a :: as) (itemsFrom read (i + 1) rest)

/-- A list. -/
def listOf {α : Type} (read : Reader α) : Reader (List α) := fun j =>
  match j with
  | .arr items => itemsFrom read 0 items
  | _ => .broken [⟨.listType, []⟩]

/-- A list without order and repetition that is not empty. -/
def setOf {α : Type} [BEq α] (read : Reader α) : Reader (List α) := fun j =>
  match j with
  | .arr items =>
    match itemsFrom read 0 items with
    | .ok as => if as.isEmpty then .broken [⟨.tooShort, []⟩] else .ok as.eraseDups
    | broken => broken
  | _ => .broken [⟨.setType, []⟩]

/-- An object. -/
def anyObject : Reader Entries := fun j =>
  match j with
  | .obj entries => .ok entries
  | _ => .broken [⟨.objectType, []⟩]

/-- An integer. -/
def integer : Reader Int := plain Coercion.integer

/-- An integer between two bounds. -/
def integerWithin (low high : Int) : Reader Int := plain (Coercion.integerWithin low high)

/-- A binary number. -/
def float : Reader Binary64 := plain Coercion.float

/-- A truth value. -/
def bool : Reader Bool := plain Coercion.bool

/-- A text. -/
def text : Reader Text := plain Coercion.text

/-- A text that is not empty. -/
def nonemptyText : Reader Text := plain Coercion.nonemptyText

/-- One of the things that texts name. -/
def member {α : Type} (ofTag? : Text → Option α) : Reader α := plain (Coercion.member ofTag?)

end Schema

end ScriptLint
