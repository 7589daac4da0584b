import ScriptLint.Ast.Display
import ScriptLint.Rule.Basic

/-!
# Texts that grow in loops

A text that grows by concatenation in a loop is copied in every round.  Whether an operand is a
text at all is guessed from the literals, names and method calls in the expression.

* `isStringish`: does an expression look like one about texts?
-/

namespace ScriptLint.StringBuilding

open Ast (Node Slot)

/-- Parts of names that hint at a text. -/
def nameHints : List Text :=
  ["html", "text", "content", "message", "output", "result", "buffer", "str", "string", "markup",
   "code", "sql"]

/-- Methods of texts. -/
def methods : List Text :=
  ["toString", "valueOf", "charAt", "charCodeAt", "concat", "indexOf", "lastIndexOf", "slice",
   "substring", "substr", "toLowerCase", "toUpperCase", "trim", "replace", "split"]

/-- Is this the literal of a text? -/
def isStringLiteral (n : Node) : Bool :=
  n.is .literal && (n.slot .value).text?.isSome && (n.slot .regex).isNull

/-- The small form of a letter as far as the hints can tell: the Kelvin sign is a capital `k`. -/
def folded (c : CodePoint) : CodePoint :=
  if c.val = 0x212A then CodePoint.ofChar 'k' else c.lower

/-- Is this an identifier whose name hints at a text? -/
def hasStringName (n : Node) : Except Fault Bool :=
  if !n.is .identifier then .ok false
  else
    match (n.slot .name).text? with
    | none => .error .noPart
    | some name => .ok (nameHints.any fun hint => Text.occursIn hint (name.map folded))

/-- Is this the call of a method of texts? -/
def callsStringMethod (n : Node) : Except Fault Bool :=
  if n.is .callExpression then n.methodName.isOneOf methods else .ok false

/-- Does some node of the tree satisfy the first condition, or else one of the others in turn? -/
def anyOf (root : Node) : List (Node → Except Fault Bool) → Except Fault Bool
  | [] => .ok false
  | p :: rest =>
    match Ast.anyNode p root.preorder with
    | .ok false => anyOf root rest
    | verdict => verdict

/-- Does the expression look like one about texts? -/
def isStringish (n : Node) : Except Fault Bool :=
  anyOf n
    [fun m => .ok (isStringLiteral m), fun m => .ok (m.is .templateLiteral), hasStringName,
     callsStringMethod]

/-- Is this a sum, or an assignment that adds? -/
def isConcatenation (n : Node) : Bool :=
  if n.is .assignmentExpression then (n.slot .operator).isText "+="
  else n.is .binaryExpression && (n.slot .operator).isText "+"

def test (n : Node) (ctx : Context) : Except Fault Bool :=
  if !isConcatenation n then .ok false
  else
    match ctx.insideLoop false n with
    | .ok true => isStringish n
    | verdict => verdict

/-- The name of what grows. -/
def target (n : Node) : Text :=
  match (n.slot .left).as? .identifier with
  | some left => (left.slot .name).displayed
  | none => "the string"

def detail (n : Node) : Detail :=
  { complexity := 2
    impact := "Each concatenation copies the accumulated string: O(n^2) for n iterations"
    suggestion :=
      if n.is .assignmentExpression then
        ("Collect parts in an array and call join('') once instead of growing '" : Text)
          ++ target n ++ ("'" : Text)
      else "Build the pieces with a template literal or push them to an array and join once" }

/-- Concatenation in loops. -/
def rule : Rule :=
  .standard "string-concatenation-in-loops" "String Concatenation in Loops"
    "Detects string building with + or += inside loops"
    .performance .critical
    { test := test
      describe := fun n _ => .ok (detail n) }

end ScriptLint.StringBuilding
