import ScriptLint.Ast.Walk
import Std.Data.HashMap

/-!
# Parent links

A node knows its children and not its parent.  An index maps the identity of every node that has
been added to it to the parent of that node.

* `Index.build`: the index of a whole tree.
* `Index.ancestors`: the parents of a node from the nearest outward.
-/

namespace ScriptLint.Ast

/-- The parents of nodes, by identity; the root is known and has no parent. -/
structure Index where
  links : Std.HashMap NodeId (Option Node)

namespace Index

/-- The index that knows no node. -/
def empty : Index := ⟨∅⟩

/-- Adds a node with its parent. -/
def add (ix : Index) (n : Node) (parent : Option Node) : Index :=
  ⟨ix.links.insert n.id parent⟩

/-- The index of a tree. -/
def build (root : Node) : Index :=
  root.withParents.foldl (fun ix p => ix.add p.1 p.2) empty

/-- Has the node been added? -/
def knows (ix : Index) (n : Node) : Bool := ix.links.contains n.id

/-- The parent of a node. -/
def parent? (ix : Index) (n : Node) : Option Node := (ix.links[n.id]?).join

/-- The parents from a node outward, at most `fuel` of them. -/
def ancestorsWithin (ix : Index) : Nat → Node → List Node
  | 0, _ => []
  | fuel + 1, n =>
    match ix.parent? n with
    | none => []
    | some p => p :: ancestorsWithin ix fuel p

/-- The **ancestors** of a node, the nearest first.  A chain of parents never visits a node twice,
so it is not longer than the index. -/
def ancestors (ix : Index) (n : Node) : List Node := ix.ancestorsWithin ix.links.size n

/-- The nearest function around a node. -/
def nearestFunction? (ix : Index) (n : Node) : Option Node :=
  (ix.ancestors n).find? Node.isFunction

end Index

end ScriptLint.Ast
