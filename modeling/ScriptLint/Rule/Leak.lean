import ScriptLint.Rule.Basic

/-!
# Things that are never released

A subscription, a timer or a reference to a part of the document outlives its use unless something
releases it.  Whether a release exists is judged by the whole source: the name of the releasing
function occurs in it or does not.

* `leak?`: what a node may leave behind.
-/

namespace ScriptLint

open Ast (Node Slot)

/-- What is left behind. -/
inductive Leak where
  | listener
  | timer
  | domReference
deriving DecidableEq

namespace Leak

def label : Leak → Text
  | listener => "Event Listener"
  | timer => "Timer"
  | domReference => "DOM Reference"

def suggestion : Leak → Text
  | listener => "Remove event listeners in cleanup functions or component unmount"
  | timer => "Keep the timer handle and clear it when the component or task is torn down"
  | domReference =>
    "Avoid holding DOM references in closures; query them when needed or null them out"

/-- Subscriptions, and what ends them. -/
def subscriptions : List (Text × Text) :=
  [("addEventListener", "removeEventListener"), ("on", "off"), ("bind", "unbind"),
   ("subscribe", "unsubscribe"), ("watch", "unwatch")]

/-- Timers, and what stops them. -/
def timers : List (Text × Text) :=
  [("setTimeout", "clearTimeout"), ("setInterval", "clearInterval"),
   ("requestAnimationFrame", "cancelAnimationFrame"),
   ("requestIdleCallback", "cancelIdleCallback")]

/-- Words before a subscription that hint at a function or a component around it. -/
def componentHints : List Text :=
  ["function", "const ", "let ", "var ", "useEffect", "componentDidMount",
   "componentWillUnmount"]

/-- Words before a query that hint at a closure around it. -/
def closureHints : List Text := ["function(", "() =>", "function "]

/-- Queries whose result is a part of the document. -/
def retainedQueries : List Text :=
  ["querySelector", "querySelectorAll", "getElementById", "getElementsByClassName",
   "getElementsByTagName"]

/-- Endings that look like an assignment and are comparisons. -/
def comparisons : List Text := ["==", "!=", "<=", ">="]

/-- Is the node inside a function?  Without the tree, one of the hints before the node tells. -/
def insideFunction (ctx : Context) (hints : List Text) (n : Node) : Except Fault Bool :=
  match ctx.indexFor? n with
  | some ix => .ok (ix.nearestFunction? n).isSome
  | none => (ctx.before n).map fun before => hints.any fun hint => Text.occursIn hint before

/-- Is the value of the node assigned to something?  Without the tree, an equals sign before the
node tells. -/
def isStored (ctx : Context) (n : Node) : Except Fault Bool :=
  match ctx.indexFor? n with
  | some ix =>
    match ix.parent? n with
    | none => .ok false
    | some parent =>
      .ok ((parent.is .variableDeclarator && (parent.slot .init).holds n)
        || (parent.is .assignmentExpression && (parent.slot .right).holds n))
  | none => do
    let before := (← ctx.before n).stripEnd
    return before.endsWith "=" && !(comparisons.any fun c => before.endsWith c)

/-- Is the call a subscription that nothing ends? -/
def isListener (ctx : Context) (n : Node) : Except Fault Bool := do
  match ← n.methodName.find? subscriptions with
  | none => return false
  | some release =>
    if ← insideFunction ctx componentHints n then return !Text.occursIn release ctx.source
    else return false

/-- Is the call a timer whose handle is lost, or that nothing stops? -/
def isTimer (ctx : Context) (n : Node) : Except Fault Bool := do
  match ← n.methodName.find? timers with
  | none => return false
  | some release =>
    if ← isStored ctx n then return !Text.occursIn release ctx.source
    else return true

/-- Is this a variable in a closure that holds a part of the document? -/
def isDomReference (ctx : Context) (n : Node) : Except Fault Bool := do
  if !n.is .variableDeclarator then return false
  match (n.slot .init).node? with
  | none => return false
  | some init =>
    if ← init.methodName.isOneOf retainedQueries then insideFunction ctx closureHints n
    else return false

/-- What a node may leave behind. -/
def leak? (n : Node) (ctx : Context) : Except Fault (Option Leak) := do
  if n.is .callExpression then
    if ← isListener ctx n then return some .listener
    else if ← isTimer ctx n then return some .timer
    else return none
  else if ← isDomReference ctx n then return some .domReference
  else return none

def detail (n : Node) (ctx : Context) : Except Fault Detail := do
  let leak := (← leak? n ctx).getD .listener
  return {
    complexity := 1
    impact := leak.label ++ (" can cause memory leaks if not properly cleaned up" : Text)
    suggestion := leak.suggestion
    metadata := [("leak_type", leak.label)] }

/-- Things that are never released. -/
def rule : Rule :=
  .standard "memory-leaks" "Memory Leaks"
    "Detects event listeners, timers and DOM references that are never released"
    .performance .critical
    { test := fun n ctx => (leak? n ctx).map Option.isSome
      describe := fun n ctx => (detail n ctx).map some }

end Leak

end ScriptLint
