import ScriptLint.Text.Basic

/-!
# Grammar kinds

The kinds of the grammar, sorted by what becomes of them: some have nothing to say, some only wrap
another node, many have a counterpart of their own, and the rest are kept under their own name.
-/

namespace ScriptLint.Concrete

/-- What becomes of a concrete node. -/
inductive Form where
  /-- The node has no content. -/
  | skipped
  /-- The node stands for the first node inside it. -/
  | wrapper
  | identifier
  | program
  | expressionStatement
  | statementBlock
  | lexicalDeclaration
  | variableDeclaration
  | variableDeclarator
  | forStatement
  | forInStatement
  | whileStatement
  | doStatement
  | ifStatement
  | returnStatement
  | functionDeclaration
  | functionExpression
  | arrowFunction
  | methodDefinition
  | classDeclaration
  | callExpression
  | newExpression
  | memberExpression
  | subscriptExpression
  | this
  | super
  | undefined
  | string
  | number
  | trueWord
  | falseWord
  | nullWord
  | regex
  | templateString
  | assignmentExpression
  | augmentedAssignment
  | binaryExpression
  | unaryExpression
  | updateExpression
  | ternaryExpression
  | object
  | pair
  | shorthandProperty
  | array
  | spreadElement
  | awaitExpression
  | sequenceExpression
  | assignmentPattern
  | jsxElement
  | jsxSelfClosingElement
  | jsxAttribute
  | jsxExpression
  /-- The node is kept under its own name. -/
  | other
deriving DecidableEq

namespace Form

/-- The kinds of each form. -/
def kinds : List (Form × List String) :=
  [(skipped,
      ["comment", "html_comment", "hash_bang_line", "jsx_text", "empty_statement",
       "type_annotation", "type_arguments", "type_parameters", "asserts_annotation"]),
   (wrapper,
      ["parenthesized_expression", "else_clause", "computed_property_name", "non_null_expression",
       "as_expression", "satisfies_expression"]),
   (identifier,
      ["identifier", "property_identifier", "shorthand_property_identifier_pattern",
       "private_property_identifier", "statement_identifier", "type_identifier"]),
   (program, ["program"]),
   (expressionStatement, ["expression_statement"]),
   (statementBlock, ["statement_block"]),
   (lexicalDeclaration, ["lexical_declaration"]),
   (variableDeclaration, ["variable_declaration"]),
   (variableDeclarator, ["variable_declarator"]),
   (forStatement, ["for_statement"]),
   (forInStatement, ["for_in_statement"]),
   (whileStatement, ["while_statement"]),
   (doStatement, ["do_statement"]),
   (ifStatement, ["if_statement"]),
   (returnStatement, ["return_statement"]),
   (functionDeclaration, ["function_declaration", "generator_function_declaration"]),
   (functionExpression, ["function_expression", "function", "generator_function"]),
   (arrowFunction, ["arrow_function"]),
   (methodDefinition, ["method_definition"]),
   (classDeclaration, ["class_declaration", "class", "abstract_class_declaration"]),
   (callExpression, ["call_expression"]),
   (newExpression, ["new_expression"]),
   (memberExpression, ["member_expression"]),
   (subscriptExpression, ["subscript_expression"]),
   (this, ["this"]),
   (super, ["super"]),
   (undefined, ["undefined"]),
   (string, ["string"]),
   (number, ["number"]),
   (trueWord, ["true"]),
   (falseWord, ["false"]),
   (nullWord, ["null"]),
   (regex, ["regex"]),
   (templateString, ["template_string"]),
   (assignmentExpression, ["assignment_expression"]),
   (augmentedAssignment, ["augmented_assignment_expression"]),
   (binaryExpression, ["binary_expression"]),
   (unaryExpression, ["unary_expression"]),
   (updateExpression, ["update_expression"]),
   (ternaryExpression, ["ternary_expression"]),
   (object, ["object"]),
   (pair, ["pair"]),
   (shorthandProperty, ["shorthand_property_identifier"]),
   (array, ["array"]),
   (spreadElement, ["spread_element"]),
   (awaitExpression, ["await_expression"]),
   (sequenceExpression, ["sequence_expression"]),
   (assignmentPattern, ["assignment_pattern"]),
   (jsxElement, ["jsx_element"]),
   (jsxSelfClosingElement, ["jsx_self_closing_element"]),
   (jsxAttribute, ["jsx_attribute"]),
   (jsxExpression, ["jsx_expression"])]

/-- The form of each kind that has one of its own. -/
def table : List (Text × Form) :=
  kinds.flatMap fun entry => entry.2.map fun kind => (Text.ofString kind, entry.1)

/-- What becomes of a node of the given kind. -/
def ofKind (kind : Text) : Form := (table.lookup kind).getD .other

end Form

end ScriptLint.Concrete
