import ScriptLint.Ast.Display
import ScriptLint.Rule.Basic

/-!
# Properties that loops look up again and again

A chain of member accesses in a loop is resolved in every round.  Whether it is worth a remark is
judged by its depth and by how often its path occurs in the source.

* `isRepeatedPath`: does the path of a chain, or the path of what it is read from, occur twice?
* `callCount`: how often a path is called in the source.
-/

namespace ScriptLint.Access

open Ast (Node Slot)

/-- The number of member accesses that makes a chain deep. -/
def deep : Nat := 3

/-- Does the path, or the part of it before its last dot, occur more than once in the source? -/
def isRepeatedPath (path source : Text) : Bool :=
  let parts := if path.isEmpty then [] else Text.splitAt '.' path
  if parts.length < 2 then false
  else if 1 < Text.count path source then true
  else
    let base := Text.join "." parts.dropLast
    !base.isEmpty && 1 < Text.count (base ++ ("." : Text)) source

/-- The length of a call of the path at the beginning of a text: the path, blanks and a
parenthesis. -/
def callLength? (path t : Text) : Option Nat :=
  if !path.isPrefixOf t then none
  else
    let (gap, rest) := (t.drop path.length).span CodePoint.isBlank
    if rest.head? = some (CodePoint.ofChar '(') then some (path.length + gap.length + 1) else none

/-- The number of disjoint calls of the path in a text, found from left to right. -/
def callCount (path : Text) : Text → Nat
  | [] => 0
  | c :: rest =>
    match callLength? path (c :: rest) with
    | some length => 1 + callCount path (rest.drop (length - 1))
    | none => callCount path rest
termination_by t => t.length
decreasing_by all_goals simp only [List.length_drop, List.length_cons] <;> omega

/-- Is the path called more than once?  A call without a path is not. -/
def isRepeatedCall (path source : Text) : Bool := !path.isEmpty && 1 < callCount path source

def test (n : Node) (ctx : Context) : Except Fault Bool := do
  if !(n.is .memberExpression || n.is .callExpression) then return false
  if !(← ctx.insideLoop false n) then return false
  if n.is .memberExpression then
    let path ← Ast.propertyPath (.node n)
    return isRepeatedPath path ctx.source || deep ≤ Ast.memberDepth n
  else
    match (n.slot .callee).as? .memberExpression with
    | none => return false
    | some callee =>
      let path ← Ast.propertyPath (.node callee)
      return isRepeatedCall path ctx.source

/-- How a property is looked up. -/
inductive Manner where
  | call
  | deep
  | shallow
deriving DecidableEq

def Manner.label : Manner → Text
  | call => "Method call"
  | deep => "Deep property access"
  | shallow => "Property access"

/-- How a node looks up a property. -/
def manner (n : Node) : Manner :=
  if n.is .callExpression then .call
  else if deep ≤ Ast.memberDepth n then .deep
  else .shallow

def suggestion (path : Text) : Manner → Text
  | .call =>
    ("Cache the result of '" : Text) ++ path
      ++ ("()' outside the loop if it doesn't change" : Text)
  | .deep => ("Cache '" : Text) ++ path ++ ("' in a variable before the loop" : Text)
  | .shallow => ("Store '" : Text) ++ path ++ ("' in a local variable before the loop" : Text)

def detail (n : Node) : Except Fault Detail := do
  let manner := manner n
  let path ← Ast.propertyPath (if n.is .callExpression then n.slot .callee else .node n)
  return {
    complexity := if n.is .callExpression then 6 else max 5 (min (Ast.memberDepth n * 2) 8)
    impact := manner.label ++ (" '" : Text) ++ path
      ++ ("' resolved on every loop iteration" : Text)
    suggestion := suggestion path manner
    metadata := [("path", path)] }

/-- Properties looked up in loops. -/
def rule : Rule :=
  .standard "inefficient-object-access" "Inefficient Object Access"
    "Detects repeated property access or method calls within loops that should be cached"
    .performance .critical
    { test := test
      describe := fun n _ => (detail n).map some }

end ScriptLint.Access
