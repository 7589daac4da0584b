import ScriptLint.Rule.Basic

/-!
# What loops repeat

Two rules look at the body of a loop: one for loops in it, and one for regular expressions that
are built in it.

* `maxLoopDepth`: how many loops are nested below a loop, itself included.
-/

namespace ScriptLint.LoopBody

open Ast (Node Slot)

/-! ### Nested loops -/

/-- The greatest number of loops on a way down from one of the nodes of a stack; every node comes
with the number of loops above it. -/
def deepest : List (Node × Nat) → Nat → Nat
  | [], best => best
  | (n, depth) :: stack, best =>
    if n.isLoop then
      deepest (n.children.map (fun c => (c, depth + 1)) ++ stack) (max best (depth + 1))
    else deepest (n.children.map (fun c => (c, depth)) ++ stack) best
termination_by stack => total (fun p => sizeOf p.1) stack
decreasing_by
  all_goals
    have h : total (fun c => sizeOf c) n.children < sizeOf n := n.total_children_lt
    simp only [total_append, total_map, total_cons]
    omega

/-- The deepest nesting of loops below a loop, which counts as one. -/
def maxLoopDepth (loop : Node) : Nat := deepest [(loop, 0)] 0

/-- Is the node a loop with another loop in its body? -/
def isNested (n : Node) : Except Fault Bool :=
  if n.isLoop then (n.slot .body).anyNode .noPart fun m => .ok m.isLoop else .ok false

def nestedDetail (n : Node) : Detail :=
  let depth := maxLoopDepth n
  { complexity := depth
    impact := ("Estimated O(n^" : Text) ++ Text.ofNat depth ++ (") time as the inputs grow" : Text)
    suggestion :=
      if 3 ≤ depth then
        "Flatten the iteration with a Map/Set index or split the work into separate passes"
      else "Index the inner collection in a Map or Set before the outer loop"
    metadata := [("depth", depth)] }

/-- Loops inside loops. -/
def nestedLoops : Rule :=
  .standard "nested-loops" "Nested Loops"
    "Detects loops nested inside other loops that multiply iteration cost"
    .performance .critical
    { test := fun n _ => isNested n
      describe := fun n _ => .ok (nestedDetail n) }

/-! ### Regular expressions -/

/-- Does the node build a regular expression? -/
def buildsRegex (n : Node) : Bool :=
  if n.is .newExpression then
    match (n.slot .callee).as? .identifier with
    | some callee => (callee.slot .name).isText "RegExp"
    | none => false
  else n.is .literal && !(n.slot .regex).isNull

/-- Is the node a loop that builds a regular expression in its body? -/
def repeatsRegex (n : Node) : Except Fault Bool :=
  if n.isLoop then (n.slot .body).anyNode .mismatch fun m => .ok (buildsRegex m) else .ok false

def regexDetail : Detail :=
  { complexity := 3
    impact := "The regular expression is recompiled on every iteration"
    suggestion := "Hoist the RegExp out of the loop and reuse it" }

/-- Regular expressions built in loops. -/
def repeatedRegex : Rule :=
  .standard "repeated-regex-compilation" "Repeated RegExp Compilation"
    "Detects repeated RegExp compilation in loops"
    .performance .warning
    { test := fun n _ => repeatsRegex n
      describe := fun _ _ => .ok regexDetail }

end ScriptLint.LoopBody
