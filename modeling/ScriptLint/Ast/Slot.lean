import ScriptLint.Ast.Node
import ScriptLint.Fault

/-!
# Questions about slots

The rules ask a slot for a name, for its items, or whether it is set at all.  In a well-formed tree
a name is a text and a list of parts is a list of nodes; in any other tree these questions may
have no answer, and then they end in a fault.

* `truthy`: is the slot set?
* `isOneOf`, `find?`: is the slot one of these names?  Lists and objects cannot be looked up.
* `equal`: nodes are equal only to themselves, values by value.
* `items`: the items of a list; a text counts as the list of its code points.
-/

namespace ScriptLint.Ast.Slot

/-- Is the slot set?  Nodes are; lists are unless they are empty. -/
def truthy : Slot → Bool
  | .node _ => true
  | .nodes ns => !ns.isEmpty
  | .value v => v.truthy

/-- The text in a slot. -/
def text? : Slot → Option Text
  | .value (.str t) => some t
  | _ => none

/-- Does the slot hold this text? -/
def isText (s : Slot) (t : Text) : Bool := s.text? == some t

/-- Can the slot be looked up in a table of names? -/
def isKey : Slot → Bool
  | .node _ => true
  | .nodes _ => false
  | .value v => v.isKey

/-- What a table has for the name in a slot. -/
def find? {α : Type} (s : Slot) (table : List (Text × α)) : Except Fault (Option α) :=
  if s.isKey then .ok (s.text?.bind fun t => table.lookup t) else .error .mismatch

/-- Is the slot one of these names? -/
def isOneOf (s : Slot) (names : List Text) : Except Fault Bool :=
  if s.isKey then .ok (s.text?.any fun t => names.contains t) else .error .mismatch

/-- Are two slots equal? -/
def equal : Slot → Slot → Bool
  | .node m, .node n => m.id == n.id
  | .nodes ms, .nodes ns => ms.map Node.id == ns.map Node.id
  | .value v, .value w => v.equal w
  | _, _ => false

/-- The items of a slot that can be walked through; `none` stands for an item that is no node. -/
def items : Slot → Except Fault (List (Option Node))
  | .nodes ns => .ok (ns.map some)
  | .value (.str t) => .ok (t.map fun _ => none)
  | .value (.arr vs) => .ok (vs.map fun _ => none)
  | .value (.obj es) => .ok (es.map fun _ => none)
  | _ => .error .mismatch

/-- Does the slot hold this very node? -/
def holds (s : Slot) (n : Node) : Bool :=
  match s with
  | .node m => m.id == n.id
  | _ => false

end ScriptLint.Ast.Slot
