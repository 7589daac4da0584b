import ScriptLint.Text.Basic
import ScriptLint.Total
import Std.Data.HashMap

/-!
# Concrete syntax trees

A parser hands over a **concrete** tree: every token is a node, kinds and field names are those of
the grammar, and positions are octets.  Error nodes mark the parts that could not be parsed.

* `Tree.ofRows?`: a tree from its rows in pre-order, each with the number of its parent.
* `Tree.hasError`: is there something wrong at or below a node?
* `Tree.firstError?`: the first error node or missing token of the document.  Subtrees without
  errors are skipped.
-/

namespace ScriptLint.Concrete

/-- What is known of one node of a concrete tree. -/
structure Label where
  /-- The number of the node in its tree. -/
  row : Nat
  /-- The kind of the node in the grammar. -/
  kind : Text
  /-- The field of the parent that the node fills, or nothing. -/
  field : Text
  /-- The octet at which the node begins. -/
  start : Nat
  /-- The octet after its end. -/
  stop : Nat
  /-- Is the node more than a token? -/
  isNamed : Bool
  /-- Has the node been put in by the parser for something that is missing? -/
  isMissing : Bool
  /-- Has the parser marked the node as faulty? -/
  isMarked : Bool

/-- A concrete syntax tree. -/
inductive Tree where
  | mk (label : Label) (children : List Tree)

namespace Tree

def label : Tree → Label
  | mk l _ => l

def children : Tree → List Tree
  | mk _ ts => ts

def row (t : Tree) : Nat := t.label.row

def kind (t : Tree) : Text := t.label.kind

def start (t : Tree) : Nat := t.label.start

def stop (t : Tree) : Nat := t.label.stop

/-- The children that are more than tokens. -/
def namedChildren (t : Tree) : List Tree := t.children.filter fun c => c.label.isNamed

/-- The first child that fills a field. -/
def childByField? (t : Tree) (name : Text) : Option Tree :=
  t.children.find? fun c => c.label.field == name

/-- Is there a token of this kind among the children? -/
def hasToken (t : Tree) (token : Text) : Bool :=
  t.children.any fun c => !c.label.isNamed && c.kind == token

/-- Does the node itself stand for an error? -/
def isError (t : Tree) : Bool := t.kind == ("ERROR" : Text) || t.label.isMissing

mutual

/-- Is there something wrong at or below the node? -/
def hasError : Tree → Bool
  | mk l ts =>
    l.isMarked || l.kind == ("ERROR" : Text) || l.isMissing || anyHasError ts

/-- Is there something wrong in one of the trees? -/
def anyHasError : List Tree → Bool
  | [] => false
  | t :: ts => hasError t || anyHasError ts

end

/-- The children of a node are together smaller than the node. -/
theorem total_children_lt (t : Tree) : total sizeOf t.children < sizeOf t := by
  cases t with
  | mk l ts =>
    have h := total_sizeOf_le ts
    simp only [children, mk.sizeOf_spec]
    omega

/-- The first error in a stack of trees, the top of the stack first. -/
def firstErrorIn : List Tree → Option Tree
  | [] => none
  | t :: stack =>
    if t.isError then some t
    else if t.hasError then firstErrorIn (t.children ++ stack)
    else firstErrorIn stack
termination_by stack => total sizeOf stack
decreasing_by
  · have h := t.total_children_lt
    simp only [total_append, total_cons]
    omega
  · have h : 0 < sizeOf t := by cases t; simp only [mk.sizeOf_spec]; omega
    simp only [total_cons]
    omega

/-- The first error of a document. -/
def firstError? (root : Tree) : Option Tree := firstErrorIn [root]

end Tree

/-- One row of a tree in pre-order: the number of the parent, and the node. -/
structure Row where
  parent : Option Nat
  label : Label

/-- The tree of a list of rows.  Rows are taken from the last to the first, so the children of a
node are complete when its own row comes. -/
def Tree.ofRows? (rows : List Row) : Option Tree :=
  let collected := rows.foldr
    (fun row (done : Std.HashMap (Option Nat) (List Tree)) =>
      let t := Tree.mk row.label (done.getD (some row.label.row) [])
      done.insert row.parent (t :: done.getD row.parent []))
    ∅
  (collected.getD none []).head?

end ScriptLint.Concrete
