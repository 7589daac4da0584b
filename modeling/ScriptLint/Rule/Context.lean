import ScriptLint.Containment.Structural
import ScriptLint.Containment.Textual
import ScriptLint.Language

/-!
# What a rule sees besides the node

A rule looks at one node at a time, in a **context**: the file, its language and its source, the
place of the node, and the index of the tree as far as it is known.

* `Context.insideLoop`: is the node inside a loop?  The tree answers if the index knows the node,
  and the text before the node answers otherwise.
* `Slot.anyNode`: does some node below a slot satisfy a condition?
-/

namespace ScriptLint

open Ast (Node Slot Index)

/-- What a rule sees besides the node. -/
structure Context where
  filePath : Text
  language : Language
  source : Text
  line : Json := .int 1
  column : Json := .int 0
  index : Option Index := none

namespace Context

/-- The index, if it knows the node. -/
def indexFor? (ctx : Context) (n : Node) : Option Index := ctx.index.filter fun ix => ix.knows n

/-- Is the node inside a loop? -/
def insideLoop (ctx : Context) (helpersAreBoundaries : Bool) (n : Node) : Except Fault Bool :=
  match ctx.indexFor? n with
  | some ix => Containment.structural ix helpersAreBoundaries n
  | none => Containment.textualAt ctx.source n.span.start helpersAreBoundaries

/-- The source before the node; only whole numbers are offsets. -/
def before (ctx : Context) (n : Node) : Except Fault Text :=
  match n.span.start.number? with
  | some (.int i) => .ok (Text.before ctx.source i)
  | _ => .error .mismatch

end Context

/-- Does some node below a slot satisfy a condition?  Nothing is below an empty slot; a slot with
anything but a node cannot be walked and ends in the given fault. -/
def Ast.Slot.anyNode (s : Slot) (unwalkable : Fault) (p : Node → Except Fault Bool) :
    Except Fault Bool :=
  match s with
  | .node n => Ast.anyNode p n.preorder
  | s => if s.isNull then .ok false else .error unwalkable

end ScriptLint
