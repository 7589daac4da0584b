import ScriptLint.Ast.Node

/-!
# Walking a tree

A walk visits a node before its children, and the children in the order of the fields.  It keeps
the nodes still to be visited on an explicit stack, so the depth of a tree does not matter.

* `Node.preorder`: all nodes of a tree.
* `Node.withParents`: all nodes, each with its parent.
* `Node.ownScope`: the nodes below a node that are not inside a nested function.
* `Node.contains?`: does some node satisfy a condition that may fail?  The walk stops at the first
  node that does, and at the first failure.
-/

namespace ScriptLint.Ast

/-- The nodes of a stack of trees, the top of the stack first. -/
def visit : List Node → List Node
  | [] => []
  | n :: stack => n :: visit (n.children ++ stack)
termination_by stack => total sizeOf stack
decreasing_by
  have h := n.total_children_lt
  simp only [total_append, total_cons]
  omega

/-- The nodes of a stack of trees, each with the parent that it has been pushed with. -/
def visitWithParents : List (Node × Option Node) → List (Node × Option Node)
  | [] => []
  | (n, parent) :: stack =>
    (n, parent) :: visitWithParents (n.children.map (fun c => (c, some n)) ++ stack)
termination_by stack => total (fun p => sizeOf p.1) stack
decreasing_by
  have h : total (fun c => sizeOf c) n.children < sizeOf n := n.total_children_lt
  simp only [total_append, total_map, total_cons]
  omega

/-- The nodes of a stack of trees, without those below a function. -/
def visitScope : List Node → List Node
  | [] => []
  | n :: stack =>
    if n.isFunction then n :: visitScope stack else n :: visitScope (n.children ++ stack)
termination_by stack => total sizeOf stack
decreasing_by
  · have h : 0 < sizeOf n := by cases n; simp only [Node.mk.sizeOf_spec]; omega
    simp only [total_cons]
    omega
  · have h := n.total_children_lt
    simp only [total_append, total_cons]
    omega

namespace Node

/-- All nodes of a tree, each before its children. -/
def preorder (root : Node) : List Node := visit [root]

/-- All nodes of a tree with their parents; the root has none. -/
def withParents (root : Node) : List (Node × Option Node) := visitWithParents [(root, none)]

/-- The nodes below a node that no nested function separates from it.  A nested function itself is
among them. -/
def ownScope (root : Node) : List Node := visitScope root.children

/-- The nodes of a tree that satisfy a condition. -/
def findAll (root : Node) (p : Node → Bool) : List Node := root.preorder.filter p

/-- Is there a node in the tree that satisfies a condition? -/
def containsNode (root : Node) (p : Node → Bool) : Bool := root.preorder.any p

end Node

/-- Does one of the nodes satisfy a condition that may fail?  Later nodes are not looked at. -/
def anyNode {ε : Type} (p : Node → Except ε Bool) : List Node → Except ε Bool
  | [] => .ok false
  | n :: rest =>
    match p n with
    | .error e => .error e
    | .ok true => .ok true
    | .ok false => anyNode p rest

end ScriptLint.Ast
