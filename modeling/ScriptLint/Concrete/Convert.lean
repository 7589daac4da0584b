import ScriptLint.Concrete.Form
import ScriptLint.Concrete.Source
import ScriptLint.Number.Numeral
import ScriptLint.Text.Search

/-!
# From concrete trees to syntax trees

A concrete tree becomes a syntax tree **children first**: when a node is built, the results of the
nodes that it reads are already in a table under their row numbers.  A node that is not in the
table counts as nothing: that holds for tokens, and for all that is below a skipped node.  How a
node is built does not depend on where the results of the other nodes are kept.

* `Builder.given`: kind and fields of the node that a concrete node becomes.
* `Builder.build`: the node itself, or nothing for skipped nodes and empty wrappers.
* `convert`: the tree of a whole document, by an explicit stack of tasks.
-/

namespace ScriptLint.Concrete

open Ast (Node NodeId Slot Span Field Construct Kind)

/-- What is at hand when a node is built. -/
structure Builder where
  source : Source
  /-- What a concrete node has become. -/
  node? : Tree → Option Node

namespace Builder

/-- What the child in a field has become. -/
def field? (b : Builder) (t : Tree) (name : Text) : Option Node :=
  (t.childByField? name).bind b.node?

/-- The slot of the child in a field. -/
def fieldSlot (b : Builder) (t : Tree) (name : Text) : Slot := .ofOption (b.field? t name)

/-- What the named children have become. -/
def named (b : Builder) (t : Tree) : List Node := t.namedChildren.filterMap b.node?

/-- What the named children of a node that may be missing have become. -/
def named? (b : Builder) : Option Tree → List Node
  | some t => b.named t
  | none => []

/-- The first named child that has become something. -/
def firstNamed? (b : Builder) (t : Tree) : Option Node := t.namedChildren.findSome? b.node?

/-- The text of the child in a field. -/
def fieldText (b : Builder) (t : Tree) (name : Text) : Text :=
  b.source.textOf? (t.childByField? name)

/-- A node made at a concrete node besides its main one. -/
def extra (b : Builder) (t : Tree) (part : Nat) (construct : Construct) (position : Tree)
    (given : List (Field × Slot)) : Except Fault Node := do
  let span ← b.source.spanOf position
  return .build ⟨[t.row], part⟩ construct span given

/-! ### Clauses and parameters -/

/-- A clause in the head of a loop; a clause that is written as a statement stands for the
expression in it. -/
def clause (b : Builder) (t : Tree) (name : Text) : Slot :=
  match t.childByField? name with
  | none => .absent
  | some c =>
    if !c.label.isNamed || c.kind == ("empty_statement" : Text) then .absent
    else if c.kind == ("expression_statement" : Text) then .ofOption (b.firstNamed? c)
    else .ofOption (b.node? c)

/-- One parameter.  A typed parameter stands for its pattern, with its default value if it has
one. -/
def param (b : Builder) (t : Tree) : Except Fault (Option Node) :=
  if t.kind == ("required_parameter" : Text) || t.kind == ("optional_parameter" : Text) then
    match b.field? t "pattern", b.field? t "value" with
    | some pattern, some value => do
      let n ← b.extra t 1 .assignmentPattern t [(.left, .node pattern), (.right, .node value)]
      return some n
    | pattern, _ => .ok pattern
  else .ok (b.node? t)

/-- The parameters of a function. -/
def params (b : Builder) : Option Tree → Except Fault (List Node)
  | none => .ok []
  | some t => do
    let found ← t.namedChildren.mapM b.param
    return found.filterMap fun n => n

/-- Parameters, body and marks of a function. -/
def functionParts (b : Builder) (t : Tree) : Except Fault (List (Field × Slot)) := do
  let params ← b.params (t.childByField? "parameters")
  return [(.params, .nodes params), (.body, b.fieldSlot t "body"),
    (.isAsync, .value (t.hasToken "async")), (.generator, .value (t.hasToken "*"))]

/-! ### Kinds and fields -/

/-- A slot with a text. -/
def textSlot (t : Text) : Slot := .value (.str t)

/-- The left side of a loop over a collection; with a declaration word it declares its
variable. -/
def loopVariable (b : Builder) (t : Tree) : Except Fault Slot :=
  match t.childByField? "left" with
  | none => .ok .absent
  | some leftTree =>
    match b.node? leftTree, t.childByField? "kind" with
    | some left, some word => do
      let declarator ← b.extra t 2 .variableDeclarator leftTree [(.id, .node left)]
      let declaration ← b.extra t 1 .variableDeclaration leftTree
        [(.kind, textSlot (b.source.textOf word)), (.declarations, .nodes [declarator])]
      return .node declaration
    | left, _ => .ok (.ofOption left)

/-- The word for the role of a method. -/
def methodRole (b : Builder) (t : Tree) : Text :=
  if b.fieldText t "name" == ("constructor" : Text) then "constructor"
  else if t.hasToken "set" then "set"
  else if t.hasToken "get" then "get"
  else "method"

/-- Is the key of a member computed? -/
def hasComputedKey (key : Option Tree) : Bool :=
  key.any fun k => k.kind == ("computed_property_name" : Text)

/-- What a class extends: what its last heritage clause names. -/
def superclass (b : Builder) (t : Tree) : Slot :=
  t.namedChildren.foldl
    (fun found c =>
      if c.kind == ("class_heritage" : Text) then .ofOption (b.firstNamed? c) else found)
    .absent

/-- The arguments of a call; a template after a function is its only argument. -/
def callArguments (b : Builder) (t : Tree) : List Node :=
  match t.childByField? "arguments" with
  | none => []
  | some a => if a.kind == ("arguments" : Text) then b.named a else (b.node? a).toList

/-- The pieces of a template and the expressions between them: every substitution ends a piece,
and the end of the template ends the last one. -/
def templateParts (b : Builder) : Text → List Tree → List Text × List Node
  | current, [] => ([current], [])
  | current, c :: rest =>
    if c.kind == ("template_substitution" : Text) then
      let (quasis, expressions) := templateParts b [] rest
      (current :: quasis, (b.firstNamed? c).toList ++ expressions)
    else templateParts b (current ++ b.source.textOf c) rest

/-- The expressions of a sequence; a sequence among them gives its own expressions. -/
def sequenceParts (b : Builder) (t : Tree) : List Node :=
  (b.named t).flatMap fun n =>
    if n.is .sequenceExpression then (n.slot .expressions).children else [n]

/-- The attributes in a tag. -/
def attributes (b : Builder) : Option Tree → List Node
  | none => []
  | some tag =>
    (tag.namedChildren.filter fun c =>
      c.kind == ("jsx_attribute" : Text) || c.kind == ("jsx_expression" : Text)).filterMap b.node?

/-- What stands between the tags of an element. -/
def elementChildren (b : Builder) (t : Tree) : List Node :=
  (t.namedChildren.filter fun c =>
    !(c.kind == ("jsx_opening_element" : Text)
      || c.kind == ("jsx_closing_element" : Text))).filterMap b.node?

/-- The operators that decide before they look at their right side. -/
def logicalOperators : List Text := ["&&", "||", "??"]

/-- Both sides of a node. -/
def sides (b : Builder) (t : Tree) : List (Field × Slot) :=
  [(.left, b.fieldSlot t "left"), (.right, b.fieldSlot t "right")]

/-- Condition and branches of a node. -/
def branches (b : Builder) (t : Tree) : List (Field × Slot) :=
  [(.test, b.fieldSlot t "condition"), (.consequent, b.fieldSlot t "consequence"),
   (.alternate, b.fieldSlot t "alternative")]

/-- Value and text of a literal. -/
def literalParts (value : Json) (raw : Text) : Kind × List (Field × Slot) :=
  (.known .literal, [(.value, .value value), (.raw, textSlot raw)])

/-- A member access. -/
def member (b : Builder) (t : Tree) (name : Text) (computed : Bool) :
    Kind × List (Field × Slot) :=
  (.known .memberExpression,
    [(.object, b.fieldSlot t "object"), (.property, b.fieldSlot t name),
     (.computed, .value computed),
     (.optional, .value (t.childByField? "optional_chain").isSome)])

/-- The value of a number: its text if it is no numeral. -/
def numberValue (raw : Text) : Json :=
  match Numeral.literal? raw with
  | some n => .ofNumber n
  | none => .str raw

/-- Kind and fields of the node that a concrete node becomes. -/
def given (b : Builder) (t : Tree) : Except Fault (Kind × List (Field × Slot)) :=
  let src := b.source
  let slot := b.fieldSlot t
  match Form.ofKind t.kind with
  | .skipped | .wrapper | .other => .ok (.other (.str t.kind), [(.children, .nodes (b.named t))])
  | .identifier => .ok (.known .identifier, [(.name, textSlot (src.textOf t))])
  | .program => .ok (.known .program, [(.body, .nodes (b.named t))])
  | .expressionStatement =>
    .ok (.known .expressionStatement, [(.expression, .ofOption (b.firstNamed? t))])
  | .statementBlock => .ok (.known .blockStatement, [(.body, .nodes (b.named t))])
  | .lexicalDeclaration =>
    let word := b.fieldText t "kind"
    .ok (.known .variableDeclaration,
      [(.kind, textSlot (if word.isEmpty then "let" else word)),
       (.declarations, .nodes (b.named t))])
  | .variableDeclaration =>
    .ok (.known .variableDeclaration,
      [(.kind, textSlot "var"), (.declarations, .nodes (b.named t))])
  | .variableDeclarator =>
    .ok (.known .variableDeclarator, [(.id, slot "name"), (.init, slot "value")])
  | .forStatement =>
    .ok (.known .forStatement,
      [(.init, b.clause t "initializer"), (.test, b.clause t "condition"),
       (.update, slot "increment"), (.body, slot "body")])
  | .forInStatement => do
    let left ← b.loopVariable t
    let construct :=
      if b.fieldText t "operator" == ("of" : Text) then Construct.forOfStatement
      else Construct.forInStatement
    return (.known construct, [(.left, left), (.right, slot "right"), (.body, slot "body")])
  | .whileStatement =>
    .ok (.known .whileStatement, [(.test, slot "condition"), (.body, slot "body")])
  | .doStatement =>
    .ok (.known .doWhileStatement, [(.body, slot "body"), (.test, slot "condition")])
  | .ifStatement => .ok (.known .ifStatement, b.branches t)
  | .returnStatement =>
    .ok (.known .returnStatement, [(.argument, .ofOption (b.firstNamed? t))])
  | .functionDeclaration => do
    let parts ← b.functionParts t
    return (.known .functionDeclaration, (.id, slot "name") :: parts)
  | .functionExpression => do
    let parts ← b.functionParts t
    return (.known .functionExpression, (.id, slot "name") :: parts)
  | .arrowFunction => do
    let params ←
      match t.childByField? "parameter" with
      | some single => .ok (b.node? single).toList
      | none => b.params (t.childByField? "parameters")
    let body := t.childByField? "body"
    return (.known .arrowFunctionExpression,
      [(.params, .nodes params), (.body, slot "body"), (.isAsync, .value (t.hasToken "async")),
       (.expression, .value (body.any fun c => !(c.kind == ("statement_block" : Text))))])
  | .methodDefinition => do
    let parts ← b.functionParts t
    let function ← b.extra t 1 .functionExpression t parts
    return (.known .methodDefinition,
      [(.key, slot "name"), (.value, .node function), (.kind, textSlot (b.methodRole t)),
       (.computed, .value (hasComputedKey (t.childByField? "name"))),
       (.static, .value (t.hasToken "static"))])
  | .classDeclaration =>
    .ok (.known .classDeclaration,
      [(.id, slot "name"), (.superclass, b.superclass t),
       (.body, .nodes (b.named? (t.childByField? "body")))])
  | .callExpression =>
    .ok (.known .callExpression,
      [(.callee, slot "function"), (.arguments, .nodes (b.callArguments t)),
       (.optional, .value (t.childByField? "optional_chain").isSome)])
  | .newExpression =>
    .ok (.known .newExpression,
      [(.callee, slot "constructor"),
       (.arguments, .nodes (b.named? (t.childByField? "arguments")))])
  | .memberExpression => .ok (b.member t "property" false)
  | .subscriptExpression => .ok (b.member t "index" true)
  | .this => .ok (.known .thisExpression, [])
  | .super => .ok (.other (.str "Super"), [])
  | .undefined => .ok (.known .identifier, [(.name, textSlot "undefined")])
  | .string =>
    let raw := src.textOf t
    .ok (literalParts (.str (Text.slice raw 1 (-1))) raw)
  | .number =>
    let raw := src.textOf t
    .ok (literalParts (numberValue raw) raw)
  | .trueWord => .ok (literalParts (.bool true) "true")
  | .falseWord => .ok (literalParts (.bool false) "false")
  | .nullWord => .ok (literalParts .null "null")
  | .regex =>
    .ok (.known .literal,
      [(.raw, textSlot (src.textOf t)), (.regex, textSlot (b.fieldText t "pattern"))])
  | .templateString =>
    let (quasis, expressions) := b.templateParts [] t.namedChildren
    .ok (.known .templateLiteral,
      [(.quasis, .value (.arr (quasis.map .str))), (.expressions, .nodes expressions)])
  | .assignmentExpression =>
    .ok (.known .assignmentExpression, (.operator, textSlot "=") :: b.sides t)
  | .augmentedAssignment =>
    .ok (.known .assignmentExpression,
      (.operator, textSlot (b.fieldText t "operator")) :: b.sides t)
  | .binaryExpression =>
    let operator := b.fieldText t "operator"
    let construct :=
      if logicalOperators.contains operator then Construct.logicalExpression
      else Construct.binaryExpression
    .ok (.known construct, (.operator, textSlot operator) :: b.sides t)
  | .unaryExpression =>
    .ok (.known .unaryExpression,
      [(.operator, textSlot (b.fieldText t "operator")), (.argument, slot "argument")])
  | .updateExpression =>
    let operator := t.childByField? "operator"
    .ok (.known .updateExpression,
      [(.operator, textSlot (src.textOf? operator)), (.argument, slot "argument"),
       (.leading, .value (operator.any fun o => o.start == t.start))])
  | .ternaryExpression => .ok (.known .conditionalExpression, b.branches t)
  | .object => .ok (.known .objectExpression, [(.properties, .nodes (b.named t))])
  | .pair =>
    .ok (.known .property,
      [(.key, slot "key"), (.value, slot "value"),
       (.computed, .value (hasComputedKey (t.childByField? "key")))])
  | .shorthandProperty => do
    let name := textSlot (src.textOf t)
    let key ← b.extra t 1 .identifier t [(.name, name)]
    let value ← b.extra t 2 .identifier t [(.name, name)]
    return (.known .property,
      [(.key, .node key), (.value, .node value), (.shorthand, .value true)])
  | .array => .ok (.known .arrayExpression, [(.elements, .nodes (b.named t))])
  | .spreadElement => .ok (.known .spreadElement, [(.argument, .ofOption (b.firstNamed? t))])
  | .awaitExpression =>
    .ok (.known .awaitExpression, [(.argument, .ofOption (b.firstNamed? t))])
  | .sequenceExpression =>
    .ok (.known .sequenceExpression, [(.expressions, .nodes (b.sequenceParts t))])
  | .assignmentPattern => .ok (.known .assignmentPattern, b.sides t)
  | .jsxElement =>
    let tag := t.childByField? "open_tag"
    .ok (.known .jsxElement,
      [(.name, textSlot (src.textOf? (tag.bind fun o => o.childByField? "name"))),
       (.attributes, .nodes (b.attributes tag)), (.children, .nodes (b.elementChildren t))])
  | .jsxSelfClosingElement =>
    .ok (.known .jsxElement,
      [(.name, textSlot (b.fieldText t "name")), (.attributes, .nodes (b.attributes (some t)))])
  | .jsxAttribute =>
    let parts := t.namedChildren
    .ok (.known .jsxAttribute,
      [(.name, textSlot (src.textOf? parts.head?)),
       (.value, .ofOption (parts[1]?.bind b.node?))])
  | .jsxExpression =>
    .ok (.known .jsxExpressionContainer, [(.expression, .ofOption (b.firstNamed? t))])

/-- What a concrete node becomes. -/
def build (b : Builder) (t : Tree) : Except Fault (Option Node) :=
  match Form.ofKind t.kind with
  | .skipped => .ok none
  | .wrapper => .ok (b.firstNamed? t)
  | _ => do
    let (kind, fields) ← b.given t
    let span ← b.source.spanOf t
    return some (.build ⟨[t.row], 0⟩ kind span fields)

end Builder

/-! ### The stack of tasks -/

/-- The nodes built so far, by row number. -/
abbrev Table := Std.HashMap Nat (Option Node)

/-- What a concrete node has become, by a table. -/
def Table.node? (table : Table) (t : Tree) : Option Node := (table[t.row]?).join

/-- A step of the conversion: to go into a node, or to build it after its children. -/
inductive Task where
  | enter (t : Tree)
  | leave (t : Tree)

/-- A bound on the number of steps that a task leads to. -/
noncomputable def Task.weight : Task → Nat
  | enter t => 2 * sizeOf t
  | leave _ => 1

/-- The children that have to be built before a node. -/
def Tree.content (t : Tree) : List Tree :=
  match Form.ofKind t.kind with
  | .skipped => []
  | _ => t.namedChildren

theorem Tree.total_content_lt (t : Tree) : total sizeOf t.content < sizeOf t := by
  have hc := t.total_children_lt
  have hf := total_filter_le sizeOf (fun c : Tree => c.label.isNamed) t.children
  unfold Tree.content Tree.namedChildren
  split
  · simp only [total_nil]
    omega
  · omega

theorem total_weight_enter (ts : List Tree) :
    total Task.weight (ts.map Task.enter) = 2 * total sizeOf ts := by
  induction ts with
  | nil => rfl
  | cons t ts ih =>
    simp only [List.map_cons, total_cons, Task.weight, ih]
    omega

/-- Works off a stack of tasks.  Entering a node leaves it for later and enters its children
first, the last one on top. -/
def work (source : Source) : List Task → Table → Except Fault Table
  | [], table => .ok table
  | .leave t :: rest, table =>
    match Builder.build ⟨source, table.node?⟩ t with
    | .error e => .error e
    | .ok n => work source rest (table.insert t.row n)
  | .enter t :: rest, table =>
    work source (t.content.reverse.map Task.enter ++ .leave t :: rest) table
termination_by tasks => total Task.weight tasks
decreasing_by
  · simp only [total_cons, Task.weight]
    omega
  · have h := t.total_content_lt
    simp only [total_append, total_cons, total_weight_enter, total_reverse, Task.weight]
    omega

/-- The syntax tree of a concrete tree; nothing if its root has no content. -/
def convert (source : Source) (root : Tree) : Except Fault (Option Node) := do
  let table ← work source [.enter root] ∅
  return table.node? root

end ScriptLint.Concrete
