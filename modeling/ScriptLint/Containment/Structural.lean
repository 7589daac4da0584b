import ScriptLint.Ast.Query

/-!
# Inside a loop, by the tree

A node is inside a loop if one of its ancestors is a loop and the way down to the node goes through
the **body** of that loop, or if one of its ancestors is a function that is handed to a method which
calls it once for every element.

With helpers as boundaries, a named function declaration ends the search: what is around the
helper does not count.
-/

namespace ScriptLint.Containment

open Ast (Node Index)

/-- The methods that call their argument once for every element. -/
def iterationMethods : List Text := ["forEach", "map", "filter", "reduce"]

/-- Is the function an argument of such a method? -/
def isIterationCallback (ix : Index) (function : Node) : Except Fault Bool :=
  match ix.parent? function with
  | none => .ok false
  | some parent =>
    if !parent.is .callExpression then .ok false
    else do
      let arguments ← (parent.slot .arguments).items
      if arguments.any fun a => a.any fun n => n.id == function.id then
        parent.methodName.isOneOf iterationMethods
      else return false

/-- Goes outward through the ancestors of a node; `child` is where the search has come from. -/
def climb (ix : Index) (helpersAreBoundaries : Bool) (child : Node) :
    List Node → Except Fault Bool
  | [] => .ok false
  | a :: rest =>
    if a.isLoop && (a.slot .body).holds child then .ok true
    else if a.isFunction then
      if helpersAreBoundaries && a.isNamedDeclaration then .ok false
      else
        match isIterationCallback ix a with
        | .error e => .error e
        | .ok true => .ok true
        | .ok false => climb ix helpersAreBoundaries a rest
    else climb ix helpersAreBoundaries a rest

/-- Is the node inside a loop, by the parents in an index? -/
def structural (ix : Index) (helpersAreBoundaries : Bool) (n : Node) : Except Fault Bool :=
  climb ix helpersAreBoundaries n (ix.ancestors n)

end ScriptLint.Containment
