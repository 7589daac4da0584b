import ScriptLint.Ast.Display
import ScriptLint.Rule.Basic

/-!
# Work that loops repeat

Two rules look for work that a loop need not repeat: operations on the document of a page, and
calls that are costly or whose result rarely changes.

* `domWork?`: what an operation does to the document.
* `costlyCall?`: what makes a call costly.
-/

namespace ScriptLint.LoopWork

open Ast (Node Slot)

/-! ### The document -/

/-- What an operation does to the document of a page. -/
inductive DomWork where
  | query
  | manipulation
  | layout
deriving DecidableEq

namespace DomWork

def label : DomWork → Text
  | query => "DOM Query"
  | manipulation => "DOM Manipulation"
  | layout => "Style/Layout"

def complexity : DomWork → Int
  | query => 3
  | manipulation => 2
  | layout => 4

def suggestion : DomWork → Text
  | query => "Cache DOM elements outside the loop"
  | manipulation => "Use a DocumentFragment and attach it once after the loop"
  | layout => "Read layout values once before the loop and batch the writes"

end DomWork

def queryMethods : List Text :=
  ["querySelector", "querySelectorAll", "getElementById", "getElementsByClassName",
   "getElementsByTagName", "getElementsByName", "closest", "matches"]

def mutationMethods : List Text :=
  ["appendChild", "removeChild", "insertBefore", "replaceChild", "createElement",
   "createTextNode", "createDocumentFragment", "insertAdjacentHTML", "insertAdjacentElement",
   "insertAdjacentText"]

/-- Methods that create parts of the document even when they are called without a receiver. -/
def globalMethods : List Text := ["createElement", "createTextNode", "createDocumentFragment"]

def layoutMethods : List Text := ["getComputedStyle", "getBoundingClientRect", "getClientRects"]

def layoutProperties : List Text :=
  ["offsetWidth", "offsetHeight", "offsetTop", "offsetLeft", "clientWidth", "clientHeight",
   "scrollWidth", "scrollHeight"]

/-- What a call or a member access does to the document, if anything. -/
def domWork? (n : Node) : Except Fault (Option DomWork) := do
  if n.is .memberExpression then
    return if ← n.memberName.isOneOf layoutProperties then some .layout else none
  else if n.is .callExpression then
    let name := n.methodName
    if ← name.isOneOf queryMethods then return some .query
    else if ← name.isOneOf mutationMethods then
      let isMember := ((n.slot .callee).as? .memberExpression).isSome
      return if isMember || (← name.isOneOf globalMethods) then some .manipulation else none
    else return if ← name.isOneOf layoutMethods then some .layout else none
  else return none

def domTest (n : Node) (ctx : Context) : Except Fault Bool := do
  match ← domWork? n with
  | none => return false
  | some _ => ctx.insideLoop true n

def domDetail (n : Node) : Except Fault Detail := do
  let work := (← domWork? n).getD .query
  return {
    complexity := work.complexity
    impact := work.label
      ++ (" operation in loop forces browser reflow/repaint on each iteration" : Text)
    suggestion := work.suggestion
    metadata := [("operation", work.label)] }

/-- Operations on the document in loops. -/
def domOperations : Rule :=
  .standard "dom-queries-in-loops" "DOM Operations in Loops"
    "Detects DOM queries, manipulation and layout reads inside loops"
    .performance .critical
    { test := domTest
      describe := fun n _ => (domDetail n).map some }

/-! ### Costly calls -/

/-- What makes a call costly. -/
inductive Cost where
  | array
  | object
  | function
deriving DecidableEq

namespace Cost

def label : Cost → Text
  | array => "Array"
  | object => "Object"
  | function => "Function"

def suggestion : Cost → Text
  | array => "Build a Map or Set once before the loop instead of searching the array each time"
  | object => "Compute the object operation once outside the loop"
  | function => "Call it once before the loop and reuse the result"

end Cost

/-- Methods that go through, copy or reorder a whole array. -/
def arrayMethods : List Text :=
  ["find", "findIndex", "indexOf", "includes", "filter", "map", "reduce", "some", "every", "sort",
   "reverse", "join", "slice", "splice"]

/-- Receivers whose functions go through a whole value. -/
def staticCalls : List (Text × List Text) :=
  [("Object", ["keys", "values", "entries", "assign"]), ("JSON", ["stringify", "parse"])]

/-- Calls whose result rarely changes from one round to the next. -/
def cacheableCalls : List Text := ["length", "size", "count", "width", "height", "getAttribute"]

/-- Operations that cost something else than two. -/
def complexities : List (Text × Int) :=
  [("find", 2), ("indexOf", 2), ("includes", 2), ("filter", 2), ("sort", 3), ("Object.keys", 2),
   ("JSON.stringify", 2)]

/-- The dotted name of a call of one of the known functions of a known receiver. -/
def staticCall? (n : Node) : Except Fault (Option Text) := do
  let receiver := ((n.slot .callee).as? .memberExpression).bind fun callee =>
    (callee.slot .object).as? .identifier
  match receiver with
  | none => return none
  | some receiver =>
    match ← (receiver.slot .name).find? staticCalls with
    | none => return none
    | some members =>
      if ← n.methodName.isOneOf members then
        return some ((receiver.slot .name).displayed ++ ("." : Text) ++ n.methodName.displayed)
      else return none

/-- What makes a method call costly, and the name of the operation. -/
def costlyCall? (n : Node) : Except Fault (Option (Cost × Text)) := do
  if !n.is .callExpression || ((n.slot .callee).as? .memberExpression).isNone then return none
  match ← staticCall? n with
  | some name => return some (.object, name)
  | none =>
    let name := n.methodName
    if ← name.isOneOf arrayMethods then return some (.array, name.displayed)
    else if ← name.isOneOf cacheableCalls then return some (.function, name.displayed)
    else return none

def costTest (n : Node) (ctx : Context) : Except Fault Bool := do
  match ← costlyCall? n with
  | none => return false
  | some _ => ctx.insideLoop false n

def costDetail (n : Node) : Except Fault Detail := do
  let (cost, name) := (← costlyCall? n).getD (.function, "unknown")
  return {
    complexity := (complexities.lookup name).getD 2
    impact := cost.label ++ (" operation '" : Text) ++ name
      ++ ("' in loop creates O(n^2) or worse complexity" : Text)
    suggestion := cost.suggestion
    metadata := [("operation", cost.label), ("method", name)] }

/-- Costly calls in loops. -/
def costlyCalls : Rule :=
  .standard "expensive-operations-in-loops" "Expensive Operations in Loops"
    "Detects expensive operations that should be moved outside loops"
    .performance .critical
    { test := costTest
      describe := fun n _ => (costDetail n).map some }

end ScriptLint.LoopWork
