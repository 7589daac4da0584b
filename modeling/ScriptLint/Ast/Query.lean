import ScriptLint.Ast.Index
import ScriptLint.Ast.Slot

/-!
# Names, chains and functions

What the rules read off a tree: the name that a call calls, the dotted path of a chain of member
accesses, the name and the parameters of a function.  A name is a slot, and it is the empty slot if
there is none.

* `methodName`: `f()` and `a.b.f()` both call `f`.
* `memberChain`: the member accesses of `a.b.c`, from the outside in, and the base `a`.
* `propertyPath`: the path `a.b.c`, without the computed parts.
* `Node.functionName`: the name that a function has by itself or by what it is bound to.
-/

namespace ScriptLint.Ast

/-- The name that a key stands for: that of an identifier, or the text of a literal. -/
def keyName (key : Slot) : Slot :=
  match key.node? with
  | none => .absent
  | some n =>
    if n.is .identifier then n.slot .name
    else if n.is .literal && (n.slot .value).text?.isSome then n.slot .value
    else .absent

namespace Node

/-- The name of the member that a member access reads; a computed key must be a text. -/
def memberName (n : Node) : Slot :=
  if !(n.slot .computed).truthy then keyName (n.slot .property)
  else
    match (n.slot .property).as? .literal with
    | some key => if (key.slot .value).text?.isSome then key.slot .value else .absent
    | none => .absent

/-- The name that a call calls. -/
def methodName (n : Node) : Slot :=
  if !n.is .callExpression then .absent
  else
    match (n.slot .callee).node? with
    | none => .absent
    | some callee =>
      if callee.is .identifier then callee.slot .name
      else if callee.is .memberExpression then callee.memberName
      else .absent

end Node

/-! ### Chains of member accesses -/

/-- The member accesses of a chain, from the outside in, and what the innermost one is applied
to. -/
def memberChain (s : Slot) : List Node × Slot :=
  match s with
  | .node n =>
    if n.is .memberExpression then
      let (inner, base) := memberChain (n.slot .object)
      (n :: inner, base)
    else ([], .node n)
  | s => ([], s)
termination_by sizeOf s
decreasing_by
  have h := n.sizeOf_slot_lt .object
  simp only [Slot.node.sizeOf_spec]
  omega

/-- The number of member accesses in a chain: three for `a.b.c.d`. -/
def memberDepth (n : Node) : Nat := (memberChain (.node n)).1.length

/-- The name that one member access adds to a path; a computed one adds none. -/
def pathPart? (n : Node) : Option Slot :=
  if (n.slot .computed).truthy then none
  else ((n.slot .property).as? .identifier).map fun p => p.slot .name

/-- The name that the base of a chain adds to a path. -/
def basePart? (base : Slot) : Option Slot :=
  match base.node? with
  | none => none
  | some n =>
    if n.is .identifier then some (n.slot .name)
    else if n.is .thisExpression then some (.value "this")
    else none

/-- The texts of a list of names; a name that is no text cannot be joined. -/
def textsOf : List Slot → Except Fault (List Text)
  | [] => .ok []
  | s :: rest =>
    match s.text?, textsOf rest with
    | some t, .ok ts => .ok (t :: ts)
    | _, _ => .error .mismatch

/-- The dotted **path** of a chain, such as `this.user.name`.  A base that is neither a name nor
`this` adds nothing. -/
def propertyPath (s : Slot) : Except Fault Text := do
  let (members, base) := memberChain s
  let parts ← textsOf ((members.filterMap pathPart? ++ (basePart? base).toList).reverse)
  return Text.join "." parts

/-! ### Functions -/

namespace Node

/-- The name of an identifier in a slot; nothing for anything else. -/
def identifierName (s : Slot) : Slot :=
  match s.as? .identifier with
  | some n => n.slot .name
  | none => .absent

/-- The name that the place of a function gives it. -/
def boundName (n parent : Node) : Slot :=
  if parent.is .variableDeclarator && (parent.slot .init).holds n then
    identifierName (parent.slot .id)
  else if parent.is .assignmentExpression && (parent.slot .right).holds n then
    match (parent.slot .left).node? with
    | none => .absent
    | some left =>
      if left.is .identifier then left.slot .name
      else if left.is .memberExpression then left.memberName
      else .absent
  else if (parent.is .property || parent.is .methodDefinition) && (parent.slot .value).holds n then
    keyName (parent.slot .key)
  else if parent.is .assignmentPattern && (parent.slot .right).holds n then
    identifierName (parent.slot .left)
  else .absent

/-- The name that a function is declared or bound under.  What it is bound to is known only with
an index. -/
def functionName (n : Node) (ix : Option Index) : Slot :=
  match (n.slot .id).as? .identifier with
  | some own => own.slot .name
  | none =>
    match ix with
    | none => .absent
    | some ix =>
      match ix.parent? n with
      | none => .absent
      | some parent => n.boundName parent

/-- The name of one parameter, with or without a default value. -/
def paramName? (param : Node) : Option Slot :=
  if param.is .identifier then some (param.slot .name)
  else if param.is .assignmentPattern then
    ((param.slot .left).as? .identifier).map fun left => left.slot .name
  else none

/-- The names of the parameters that are plain names. -/
def functionParams (n : Node) : Except Fault (List Slot) :=
  match n.slot? .params with
  | none => .ok []
  | some params => do
    let items ← params.items
    return items.filterMap fun item => item.bind paramName?

/-- Is this the declaration of a function with a name? -/
def isNamedDeclaration (n : Node) : Bool :=
  n.is .functionDeclaration && ((n.slot .id).as? .identifier).isSome

end Node

end ScriptLint.Ast
