import ScriptLint.Ast.Display
import ScriptLint.Rule.Basic

/-!
# Functions that may never stop

A recursive function is at risk if it passes its own parameters back unchanged, or if it has
neither a **base case** nor a **depth guard**.  A base case is an exit that does not recurse; a
depth guard is a reference to a variable with a telling name.

* `exitValues`, `exitLeaves`: the values that a function can return, conditionals split into their
  branches.
* `Recursion.ofFunction`: what is known about the recursion of a function.
-/

namespace ScriptLint

open Ast (Node Slot Index)

/-- Why a function may never stop. -/
inductive Risk where
  | sameParameters
  | noBaseCase
  | noDepthGuard
  | general
deriving DecidableEq

namespace Risk

def label : Risk → Text
  | sameParameters => "may not modify parameters"
  | noBaseCase => "lacks clear base case"
  | noDepthGuard => "lacks depth limiting"
  | general => "has recursion risks"

def complexity : Risk → Int
  | sameParameters => 6
  | noBaseCase => 10
  | noDepthGuard => 8
  | general => 7

def suggestion : Risk → Text
  | sameParameters => "Ensure parameters are modified to progress toward the base case"
  | noBaseCase => "Add clear base case conditions that return without recursion"
  | noDepthGuard => "Add a depth/counter parameter to limit recursion depth"
  | general => "Review recursion logic to prevent infinite loops"

end Risk

/-- What is known about the recursion of a function. -/
structure Recursion where
  /-- The name of the function; an empty slot if it has none. -/
  name : Slot
  isRecursive : Bool
  keepsParameters : Bool := false
  lacksBaseCase : Bool := false
  lacksDepthGuard : Bool := false
  returnsCall : Bool := false

namespace Recursion

/-- Is the function worth a warning?  One safeguard is enough. -/
def isAtRisk (r : Recursion) : Bool :=
  r.isRecursive && (r.keepsParameters || (r.lacksBaseCase && r.lacksDepthGuard))

/-- The risk to report. -/
def risk (r : Recursion) : Risk :=
  if r.keepsParameters then .sameParameters
  else if r.lacksBaseCase && r.returnsCall then .noBaseCase
  else if r.lacksDepthGuard then .noDepthGuard
  else if r.lacksBaseCase then .noBaseCase
  else .general

/-- Names that hint at a limit of the depth. -/
def guardNames : List Text :=
  ["depth", "level", "counter", "count", "limit", "maxDepth", "maxLevel", "max"]

/-- Is this a call of the name?  Without a name every call of an identifier is one. -/
def isSelfCall (name : Slot) (n : Node) : Bool :=
  n.is .callExpression &&
    match (n.slot .callee).as? .identifier with
    | some callee => name.isNull || (callee.slot .name).equal name
    | none => false

/-! ### Exits -/

/-- The values that a function returns: the body of an arrow function that is an expression, and
otherwise the arguments of its own return statements. -/
def exitValues (function : Node) (body : Slot) : Except Fault (List Slot) :=
  if function.is .arrowFunctionExpression && (function.slot .expression).truthy then .ok [body]
  else
    match body with
    | .node b =>
      .ok ((b.ownScope.filter fun n => n.is .returnStatement).map fun n => n.slot .argument)
    | s => if s.isNull then .ok [] else .error .mismatch

/-- The size of a conditional in a slot. -/
noncomputable def conditionalSize (s : Slot) : Nat :=
  match s.as? .conditionalExpression with
  | some c => sizeOf c
  | none => 0

theorem conditionalSize_le (s : Slot) : conditionalSize s ≤ total sizeOf s.children := by
  cases s with
  | node n =>
    simp only [conditionalSize, Slot.as?, Slot.node?, Slot.children, total_cons, total_nil,
      Option.filter]
    by_cases h : n.is .conditionalExpression <;> simp [h]
  | nodes ns => simp [conditionalSize, Slot.as?, Slot.node?]
  | value v => simp [conditionalSize, Slot.as?, Slot.node?]

theorem conditionalSize_lookup_le (f : Ast.Field) (ss : List (Ast.Field × Slot)) :
    conditionalSize ((ss.lookup f).getD .absent)
      ≤ total sizeOf (ss.flatMap fun s => s.2.children) := by
  induction ss with
  | nil => simp [conditionalSize, Slot.absent, Slot.as?, Slot.node?]
  | cons s ss ih =>
    obtain ⟨g, t⟩ := s
    have ht := conditionalSize_le t
    simp only [List.lookup_cons, List.flatMap_cons, total_append]
    cases f == g <;> simp only [Option.getD_some] <;> omega

theorem conditionalSize_branches_le {f g : Ast.Field} (hfg : f ≠ g)
    (ss : List (Ast.Field × Slot)) :
    conditionalSize ((ss.lookup f).getD .absent) + conditionalSize ((ss.lookup g).getD .absent)
      ≤ total sizeOf (ss.flatMap fun s => s.2.children) := by
  induction ss with
  | nil => simp [conditionalSize, Slot.absent, Slot.as?, Slot.node?]
  | cons s ss ih =>
    obtain ⟨k, t⟩ := s
    have ht := conditionalSize_le t
    have hf := conditionalSize_lookup_le f ss
    have hg := conditionalSize_lookup_le g ss
    simp only [List.lookup_cons, List.flatMap_cons, total_append]
    by_cases h : f = k
    · have h' : (g == k) = false := by simp [← h, Ne.symm hfg]
      simp only [h, h', beq_self_eq_true, Option.getD_some]
      omega
    · have h' : (f == k) = false := by simp [h]
      simp only [h']
      cases g == k <;> simp only [Option.getD_some] <;> omega

theorem conditionalSize_split_lt {s : Slot} {c : Node}
    (h : s.as? .conditionalExpression = some c) :
    conditionalSize (c.slot .alternate) + conditionalSize (c.slot .consequent)
      < conditionalSize s := by
  have hs : conditionalSize s = sizeOf c := by simp only [conditionalSize, h]
  have hb := conditionalSize_branches_le (f := .alternate) (g := .consequent) (by decide) c.slots
  have hc := c.total_children_lt
  rw [hs]
  simp only [Node.slot, Node.slot?]
  simp only [Node.children] at hc
  omega

/-- The **leaves** of a stack of exit values: a conditional gives way to its two branches. -/
def exitLeaves : List Slot → List Slot
  | [] => []
  | s :: stack =>
    match _h : s.as? .conditionalExpression with
    | some c => exitLeaves (c.slot .alternate :: c.slot .consequent :: stack)
    | none => s :: exitLeaves stack
termination_by stack => (total conditionalSize stack, stack.length)
decreasing_by
  · have := conditionalSize_split_lt _h
    apply Prod.Lex.left
    simp only [total_cons]
    omega
  · by_cases hz : conditionalSize s = 0
    · simp only [total_cons, hz, Nat.zero_add, List.length_cons]
      exact Prod.Lex.right _ (Nat.lt_succ_self _)
    · apply Prod.Lex.left
      simp only [total_cons]
      omega

/-- Is there an exit that is empty or does not recurse?  Later exits are not looked at. -/
def anyStops (name : Slot) : List Slot → Except Fault Bool
  | [] => .ok false
  | s :: rest =>
    if s.isNull then .ok true
    else
      match s.anyNode .mismatch fun n => .ok (isSelfCall name n) with
      | .error e => .error e
      | .ok false => .ok true
      | .ok true => anyStops name rest

/-- Has the function an exit that does not recurse? -/
def hasBaseCase (name : Slot) (function : Node) (body : Slot) : Except Fault Bool := do
  let exits ← exitValues function body
  anyStops name (exitLeaves exits.reverse)

/-! ### Guards, parameters and direct returns -/

/-- Is the node a reference to a guard?  The name of a property is none. -/
def isGuard (n : Node) (parent : Option Node) : Except Fault Bool :=
  if !n.is .identifier then .ok false
  else
    match (n.slot .name).isOneOf guardNames with
    | .ok true =>
      .ok !(parent.any fun p =>
        p.is .memberExpression && (p.slot .property).holds n && !(p.slot .computed).truthy)
    | verdict => verdict

/-- Is one of the nodes a reference to a guard? -/
def anyGuard : List (Node × Option Node) → Except Fault Bool
  | [] => .ok false
  | (n, parent) :: rest =>
    match isGuard n parent with
    | .ok false => anyGuard rest
    | verdict => verdict

/-- Does the body refer to a guard? -/
def hasDepthGuard : Slot → Except Fault Bool
  | .node b => anyGuard b.withParents
  | s => if s.isNull then .ok false else .error .mismatch

/-- Are the arguments of a call the parameters, one by one? -/
def passesOn (params : List Slot) (call : Node) : Except Fault Bool := do
  let arguments ← (call.slot .arguments).items
  return arguments.length == params.length &&
    (arguments.zip params).all fun p =>
      p.1.any fun a => a.is .identifier && (a.slot .name).equal p.2

/-- Does the body call the function with its own parameters? -/
def passesOwnParameters (name : Slot) (params : List Slot) (body : Slot) : Except Fault Bool :=
  if params.isEmpty then .ok false
  else
    body.anyNode .mismatch fun n => if isSelfCall name n then passesOn params n else .ok false

/-- Does the body return a call of the function as it is? -/
def returnsSelfCall (name body : Slot) : Except Fault Bool :=
  body.anyNode .mismatch fun n =>
    .ok (n.is .returnStatement && (n.slot .argument).node?.any (isSelfCall name))

/-! ### The whole -/

/-- What is known about the recursion of a function. -/
def ofFunction (function : Node) (ix : Option Index) : Except Fault Recursion := do
  let name := function.functionName ix
  let body ←
    match function.slot? .body with
    | some body => pure body
    | none => throw .noPart
  if !(← body.anyNode .mismatch fun n => .ok (isSelfCall name n)) then
    return { name, isRecursive := false }
  let named := !name.isNull
  let keepsParameters ←
    if named then do
      let params ← function.functionParams
      passesOwnParameters name params body
    else pure false
  let returnsCall ← if named then returnsSelfCall name body else pure false
  let baseCase ← hasBaseCase name function body
  let depthGuard ← hasDepthGuard body
  return { name, isRecursive := true, keepsParameters, returnsCall
           lacksBaseCase := !baseCase, lacksDepthGuard := !depthGuard }

def test (n : Node) (ctx : Context) : Except Fault Bool :=
  if n.isFunction then (ofFunction n ctx.index).map isAtRisk else .ok false

/-- The name of a function in a message. -/
def shownName (name : Slot) : Text := if name.truthy then name.displayed else "anonymous"

def detail (n : Node) (ctx : Context) : Except Fault Detail := do
  let r ← ofFunction n ctx.index
  return {
    complexity := r.risk.complexity
    impact := ("Function '" : Text) ++ shownName r.name ++ ("' " : Text) ++ r.risk.label
      ++ (" - risk of stack overflow" : Text)
    suggestion := r.risk.suggestion
    metadata := [("risk", r.risk.label)] }

/-- Functions that may never stop. -/
def rule : Rule :=
  .standard "infinite-recursion-risks" "Infinite Recursion Risks"
    "Detects recursive functions without a base case, depth guard or progressing arguments"
    .performance .critical
    { test := test
      describe := fun n ctx => (detail n ctx).map some }

end Recursion

end ScriptLint
