import ScriptLint.Json.Basic

/-!
# Constructs and their fields

The constructs of the analysed languages that the rules know are the values of `Construct`.  A
node is of a known construct or of any **other** one, which carries the name of the construct as
its tag.  A construct has named **fields** in a fixed order, each with a value that it takes when
nothing is given for it.
-/

namespace ScriptLint.Ast

/-- The fields of constructs. -/
inductive Field where
  | alternate
  | argument
  | arguments
  | attributes
  | body
  | callee
  | children
  | computed
  | consequent
  | declarations
  | elements
  | expression
  | expressions
  | generator
  | id
  | init
  | isAsync
  | key
  | kind
  | leading
  | left
  | name
  | object
  | operator
  | optional
  | params
  | properties
  | property
  | quasis
  | raw
  | regex
  | right
  | shorthand
  | static
  | superclass
  | test
  | update
  | value
deriving DecidableEq

/-- The name of a field in reports. -/
def Field.label : Field → Text
  | .alternate => "alternate"
  | .argument => "argument"
  | .arguments => "arguments"
  | .attributes => "attributes"
  | .body => "body"
  | .callee => "callee"
  | .children => "children"
  | .computed => "computed"
  | .consequent => "consequent"
  | .declarations => "declarations"
  | .elements => "elements"
  | .expression => "expression"
  | .expressions => "expressions"
  | .generator => "generator"
  | .id => "id"
  | .init => "init"
  | .isAsync => "is_async"
  | .key => "key"
  | .kind => "kind"
  | .leading => "prefix"
  | .left => "left"
  | .name => "name"
  | .object => "object"
  | .operator => "operator"
  | .optional => "optional"
  | .params => "params"
  | .properties => "properties"
  | .property => "property"
  | .quasis => "quasis"
  | .raw => "raw"
  | .regex => "regex"
  | .right => "right"
  | .shorthand => "shorthand"
  | .static => "static"
  | .superclass => "superclass"
  | .test => "test"
  | .update => "update"
  | .value => "value"

/-- What a field holds when nothing is given for it. -/
inductive Blank where
  /-- An empty list of nodes. -/
  | noNodes
  /-- A plain value. -/
  | plain (value : Json)

/-- The constructs that the rules know. -/
inductive Construct where
  | program
  | expressionStatement
  | blockStatement
  | variableDeclaration
  | variableDeclarator
  | forStatement
  | forInStatement
  | forOfStatement
  | whileStatement
  | doWhileStatement
  | ifStatement
  | returnStatement
  | functionDeclaration
  | functionExpression
  | arrowFunctionExpression
  | methodDefinition
  | classDeclaration
  | callExpression
  | newExpression
  | memberExpression
  | identifier
  | literal
  | templateLiteral
  | assignmentExpression
  | binaryExpression
  | logicalExpression
  | unaryExpression
  | updateExpression
  | conditionalExpression
  | objectExpression
  | property
  | arrayExpression
  | spreadElement
  | awaitExpression
  | sequenceExpression
  | thisExpression
  | assignmentPattern
  | jsxElement
  | jsxAttribute
  | jsxExpressionContainer
deriving DecidableEq

namespace Construct

/-- All constructs. -/
def all : List Construct :=
  [.program, .expressionStatement, .blockStatement, .variableDeclaration, .variableDeclarator,
   .forStatement, .forInStatement, .forOfStatement, .whileStatement, .doWhileStatement,
   .ifStatement, .returnStatement, .functionDeclaration, .functionExpression,
   .arrowFunctionExpression, .methodDefinition, .classDeclaration, .callExpression,
   .newExpression, .memberExpression, .identifier, .literal, .templateLiteral,
   .assignmentExpression, .binaryExpression, .logicalExpression, .unaryExpression,
   .updateExpression, .conditionalExpression, .objectExpression, .property, .arrayExpression,
   .spreadElement, .awaitExpression, .sequenceExpression, .thisExpression, .assignmentPattern,
   .jsxElement, .jsxAttribute, .jsxExpressionContainer]

/-- The name of a construct. -/
def name : Construct → Text
  | program => "Program"
  | expressionStatement => "ExpressionStatement"
  | blockStatement => "BlockStatement"
  | variableDeclaration => "VariableDeclaration"
  | variableDeclarator => "VariableDeclarator"
  | forStatement => "ForStatement"
  | forInStatement => "ForInStatement"
  | forOfStatement => "ForOfStatement"
  | whileStatement => "WhileStatement"
  | doWhileStatement => "DoWhileStatement"
  | ifStatement => "IfStatement"
  | returnStatement => "ReturnStatement"
  | functionDeclaration => "FunctionDeclaration"
  | functionExpression => "FunctionExpression"
  | arrowFunctionExpression => "ArrowFunctionExpression"
  | methodDefinition => "MethodDefinition"
  | classDeclaration => "ClassDeclaration"
  | callExpression => "CallExpression"
  | newExpression => "NewExpression"
  | memberExpression => "MemberExpression"
  | identifier => "Identifier"
  | literal => "Literal"
  | templateLiteral => "TemplateLiteral"
  | assignmentExpression => "AssignmentExpression"
  | binaryExpression => "BinaryExpression"
  | logicalExpression => "LogicalExpression"
  | unaryExpression => "UnaryExpression"
  | updateExpression => "UpdateExpression"
  | conditionalExpression => "ConditionalExpression"
  | objectExpression => "ObjectExpression"
  | property => "Property"
  | arrayExpression => "ArrayExpression"
  | spreadElement => "SpreadElement"
  | awaitExpression => "AwaitExpression"
  | sequenceExpression => "SequenceExpression"
  | thisExpression => "ThisExpression"
  | assignmentPattern => "AssignmentPattern"
  | jsxElement => "JSXElement"
  | jsxAttribute => "JSXAttribute"
  | jsxExpressionContainer => "JSXExpressionContainer"

/-- The construct with a given name. -/
def ofName? (t : Text) : Option Construct := all.find? fun c => c.name == t

/-- Nothing. -/
private def absent : Blank := .plain .null

/-- The empty text. -/
private def emptyText : Blank := .plain (.str [])

/-- A truth value. -/
private def truth (b : Bool) : Blank := .plain (.bool b)

/-- The fields of a function with a name of its own. -/
private def functionFields : List (Field × Blank) :=
  [(.id, absent), (.params, .noNodes), (.body, absent), (.isAsync, truth false),
   (.generator, truth false)]

/-- The fields of a construct in their order, with what they hold when nothing is given. -/
def fields : Construct → List (Field × Blank)
  | program | blockStatement => [(.body, .noNodes)]
  | expressionStatement => [(.expression, absent)]
  | variableDeclaration => [(.declarations, .noNodes), (.kind, .plain "var")]
  | variableDeclarator => [(.id, absent), (.init, absent)]
  | forStatement => [(.init, absent), (.test, absent), (.update, absent), (.body, absent)]
  | forInStatement | forOfStatement => [(.left, absent), (.right, absent), (.body, absent)]
  | whileStatement => [(.test, absent), (.body, absent)]
  | doWhileStatement => [(.body, absent), (.test, absent)]
  | ifStatement | conditionalExpression =>
    [(.test, absent), (.consequent, absent), (.alternate, absent)]
  | returnStatement | spreadElement | awaitExpression => [(.argument, absent)]
  | functionDeclaration | functionExpression => functionFields
  | arrowFunctionExpression =>
    [(.params, .noNodes), (.body, absent), (.isAsync, truth false), (.expression, truth false)]
  | methodDefinition =>
    [(.key, absent), (.value, absent), (.kind, .plain "method"), (.computed, truth false),
     (.static, truth false)]
  | classDeclaration => [(.id, absent), (.superclass, absent), (.body, .noNodes)]
  | callExpression => [(.callee, absent), (.arguments, .noNodes), (.optional, truth false)]
  | newExpression => [(.callee, absent), (.arguments, .noNodes)]
  | memberExpression =>
    [(.object, absent), (.property, absent), (.computed, truth false), (.optional, truth false)]
  | identifier => [(.name, emptyText)]
  | literal => [(.value, absent), (.raw, emptyText), (.regex, absent)]
  | templateLiteral => [(.quasis, .plain (.arr [])), (.expressions, .noNodes)]
  | assignmentExpression => [(.operator, .plain "="), (.left, absent), (.right, absent)]
  | binaryExpression | logicalExpression =>
    [(.operator, emptyText), (.left, absent), (.right, absent)]
  | unaryExpression => [(.operator, emptyText), (.argument, absent), (.leading, truth true)]
  | updateExpression => [(.operator, emptyText), (.argument, absent), (.leading, truth false)]
  | objectExpression => [(.properties, .noNodes)]
  | property =>
    [(.key, absent), (.value, absent), (.computed, truth false), (.shorthand, truth false),
     (.kind, .plain "init")]
  | arrayExpression => [(.elements, .noNodes)]
  | sequenceExpression => [(.expressions, .noNodes)]
  | thisExpression => []
  | assignmentPattern => [(.left, absent), (.right, absent)]
  | jsxElement => [(.name, emptyText), (.attributes, .noNodes), (.children, .noNodes)]
  | jsxAttribute => [(.name, emptyText), (.value, absent)]
  | jsxExpressionContainer => [(.expression, absent)]

/-- The loops: the constructs that repeat their body. -/
def loops : List Construct :=
  [.forStatement, .forInStatement, .forOfStatement, .whileStatement, .doWhileStatement]

/-- The functions. -/
def functions : List Construct :=
  [.functionDeclaration, .functionExpression, .arrowFunctionExpression]

end Construct

/-- The kind of a node: a known construct, or any other under its own name. -/
inductive Kind where
  | known (construct : Construct)
  | other (tag : Json)

namespace Kind

instance : Coe Construct Kind := ⟨known⟩

/-- The name under which a construct is reported. -/
def tag : Kind → Json
  | known c => .str c.name
  | other t => t

/-- The fields of a kind; the parts of an unknown construct are its children. -/
def fields : Kind → List (Field × Blank)
  | known c => c.fields
  | other _ => [(.children, .noNodes)]

/-- Is the construct reported under the name of one of these? -/
def isOneOf (k : Kind) (constructs : List Construct) : Bool :=
  match k with
  | known c => constructs.contains c
  | other (.str name) => constructs.any fun c => c.name == name
  | other _ => false

def isLoop (k : Kind) : Bool := k.isOneOf Construct.loops

def isFunction (k : Kind) : Bool := k.isOneOf Construct.functions

end Kind

end ScriptLint.Ast
