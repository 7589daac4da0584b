import ScriptLint.Match
import ScriptLint.Registry.Basic

/-!
# Detection

A tree is walked once.  At every node the node is added to the index, so that a rule sees the
parents of everything visited so far, and then all rules are tried in their order.

A rule whose test fails on a node has not found anything there, and a rule that fails to describe
what it has found gives no detail.  Only the place of a match has to be sound.

* `detect`: the matches of some rules in a tree, in the order of the nodes and then of the rules.
-/

namespace ScriptLint

open Ast (Node Index)

namespace Detection

/-- The context of a node. -/
def contextAt (ctx : Context) (ix : Index) (n : Node) : Context :=
  { ctx with index := some ix, line := n.span.first.line, column := n.span.first.column }

/-- Has the rule found something at the node?  A failing test has not. -/
def finds (r : Rule) (n : Node) (ctx : Context) : Bool :=
  match r.matcher.test n ctx with
  | .ok found => found
  | .error _ => false

/-- What the rule says about the node, if it can. -/
def detailOf (r : Rule) (n : Node) (ctx : Context) : Option Detail :=
  match r.matcher.describe n ctx with
  | .ok detail => detail
  | .error _ => none

/-- The match of a rule at a node. -/
def matchOf (r : Rule) (n : Node) (ctx : Context) : Except Fault Match := do
  let range ← (Range.ofSpan n.span).toExcept
  return {
    ruleId := r.id
    severity := r.severity
    category := r.category
    range
    filePath := ctx.filePath
    line := range.startLine
    column := range.startColumn
    detail := detailOf r n ctx }

/-- The matches of the rules at one node. -/
def matchesAt (n : Node) (ctx : Context) : List Rule → Except Fault (List Match)
  | [] => .ok []
  | r :: rest =>
    if finds r n ctx then do
      let m ← matchOf r n ctx
      let ms ← matchesAt n ctx rest
      return m :: ms
    else matchesAt n ctx rest

/-- Goes through nodes with their parents and adds each to the index before trying the rules. -/
def scan (rules : List Rule) (ctx : Context) :
    Index → List (Node × Option Node) → Except Fault (List Match)
  | _, [] => .ok []
  | ix, (n, parent) :: rest => do
    let ix := ix.add n parent
    let here ← matchesAt n (contextAt ctx ix n) rules
    let later ← scan rules ctx ix rest
    return here ++ later

end Detection

/-- The matches of some rules in a tree.  Without rules the tree is not looked at; with rules there
has to be one. -/
def detect (rules : List Rule) (tree : Option Node) (ctx : Context) :
    Except Fault (List Match) :=
  if rules.isEmpty then .ok []
  else
    match tree with
    | none => .error .noPart
    | some root => Detection.scan rules ctx .empty root.withParents

/-- The matches of the rules of a registry that apply to the language of the file. -/
def Registry.detect (g : Registry) (tree : Option Node) (ctx : Context)
    (categories : List Category) : Except Fault (List Match) :=
  ScriptLint.detect (g.rulesFor ctx.language categories) tree ctx

end ScriptLint
