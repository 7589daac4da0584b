import ScriptLint.Rule.Basic
import ScriptLint.Schema.Coercion

/-!
# Hygiene

Three rules about code that works and is still better written in another way: functions that are
too long, list items whose key is their position, and texts that are run as programs.

* `lineCount`: the number of lines that a node covers.
-/

namespace ScriptLint.Hygiene

open Ast (Node Slot)

/-! ### Long functions -/

/-- The greatest number of lines of a function that needs no remark. -/
def maxLines : Json := .int 30

/-- The number of lines that a node covers, by the marks of its two ends. -/
def lineCount (n : Node) : Except Fault Number :=
  match n.span.last.line.number?, n.span.first.line.number? with
  | some last, some first =>
    match (last.sub? first).bind fun d => d.add? (.int 1) with
    | some lines => .ok lines
    | none => .error .overflow
  | _, _ => .error .mismatch

/-- Has a function more lines than the limit?  What is no number is no limit either. -/
def lengthTest (limit : Json) (n : Node) : Except Fault Bool :=
  if n.isFunction then do
    let lines ← lineCount n
    match limit.number? with
    | some limit => return lines.greater limit
    | none => throw .mismatch
  else .ok false

/-- A number of lines as an estimate of cost, which has to be whole. -/
def wholeLines : Number → Except Fault Int
  | .int n => .ok n
  | .float x =>
    match Coercion.integer (.float x) with
    | .ok n => .ok n
    | .error kind => .error (.invalid [⟨kind, [.member "complexity"]⟩])

def lengthDetail (limit : Json) (n : Node) : Except Fault Detail := do
  let lines ← lineCount n
  let count ← (Json.ofNumber lines).inMessage
  let bound ← limit.inMessage
  let complexity ← wholeLines lines
  return {
    complexity
    impact := ("Function has " : Text) ++ count ++ (" lines (recommended: <" : Text) ++ bound
      ++ (")" : Text)
    suggestion := "Break it down into smaller, focused functions"
    metadata := [("lines", Json.ofNumber lines)] }

/-- Finds functions with more lines than the limit. -/
def longFunctionMatcher (limit : Json) : Matcher :=
  { test := fun n _ => lengthTest limit n
    describe := fun n _ => (lengthDetail limit n).map some }

/-- Functions that are too long. -/
def longFunctions : Rule :=
  .standard "function-too-long" "Function Too Long"
    "Detects functions that are too long to read and test comfortably"
    .maintainability .warning (longFunctionMatcher maxLines)

/-! ### Keys of list items -/

/-- Names of variables that hold a position. -/
def indexNames : List Text := ["index", "i", "idx"]

/-- Is the file one with markup, by its language or by its name? -/
def hasMarkup (ctx : Context) : Bool :=
  Language.react.contains ctx.language || ctx.filePath.endsWith ".jsx"
    || ctx.filePath.endsWith ".tsx"

/-- Is this a key that is a position? -/
def isIndexKey (n : Node) (ctx : Context) : Except Fault Bool :=
  if !hasMarkup ctx || !n.is .jsxAttribute || !(n.slot .name).isText "key" then .ok false
  else
    let name := ((n.slot .value).as? .jsxExpressionContainer).bind fun container =>
      (container.slot .expression).as? .identifier
    match name with
    | none => .ok false
    | some name => (name.slot .name).isOneOf indexNames

def keyDetail : Detail :=
  { complexity := 2
    impact := "State can stick to the wrong item when the list is reordered or filtered"
    suggestion := "Use a stable unique identifier such as item.id as the key" }

/-- List items whose key is their position. -/
def indexKeys : Rule :=
  { id := "index-as-key"
    name := "Index as Key"
    description := "Detects React list rendering using array index as key"
    category := .maintainability
    severity := .warning
    languages := Language.react
    scoreImpact := Severity.warning.delta
    matcher :=
      { test := isIndexKey
        describe := fun _ _ => .ok keyDetail } }

/-! ### Texts that are run -/

/-- Is this a call of `eval`? -/
def isEval (n : Node) : Bool :=
  n.is .callExpression &&
    ((n.slot .callee).as? .identifier).any fun callee => (callee.slot .name).isText "eval"

def evalDetail : Detail :=
  { complexity := 10
    impact := "eval() executes arbitrary code and disables engine optimizations"
    suggestion := "Parse data with JSON.parse() or dispatch through an explicit lookup table" }

/-- Texts that are run as programs. -/
def evals : Rule :=
  .standard "eval-usage" "Eval Usage" "Detects use of eval() which can execute arbitrary code"
    .security .critical
    { test := fun n _ => .ok (isEval n)
      describe := fun _ _ => .ok evalDetail }

end ScriptLint.Hygiene
