import ScriptLint.Json.Payload
import ScriptLint.Rule.Basic
import ScriptLint.Schema.Record

/-!
# Matches

A match says which rule has found something, where, and what it has to say about it.

* `Range.ofSpan`: the place of a node.  The span of a node may hold any values; those that do not
  stand for integers are issues.
-/

namespace ScriptLint

/-- A part of the source: lines and columns of its ends, and their offsets. -/
structure Range where
  startLine : Int
  startColumn : Int
  endLine : Int
  endColumn : Int
  startOffset : Int
  endOffset : Int
deriving DecidableEq

namespace Range

/-- An integer at a field of a range. -/
def position (name : Text) (j : Json) : Checked Int := (Schema.integer j).below (.member name)

/-- The place of a span. -/
def ofSpan (s : Ast.Span) : Checked Range :=
  Range.mk <$> position "start_line" s.first.line <*> position "start_column" s.first.column
    <*> position "end_line" s.last.line <*> position "end_column" s.last.column
    <*> position "start_offset" s.start <*> position "end_offset" s.stop

def toJson (r : Range) : Json :=
  .object [("start_line", r.startLine), ("start_column", r.startColumn), ("end_line", r.endLine),
    ("end_column", r.endColumn), ("start_offset", r.startOffset), ("end_offset", r.endOffset)]

end Range

/-- A detail as it is sent; its metadata may hold anything, and may be nested too far. -/
def Detail.toJson (d : Detail) : Except Fault Json := do
  let metadata ← Entries.payload d.metadata
  return .object [("complexity", d.complexity), ("impact", d.impact),
    ("suggestion", d.suggestion), ("metadata", metadata)]

/-- A rule that has found something at a node. -/
structure Match where
  ruleId : Text
  severity : Severity
  category : Category
  range : Range
  filePath : Text
  line : Int
  column : Int
  detail : Option Detail

/-- A match as it is sent. -/
def Match.toJson (m : Match) : Except Fault Json := do
  let detail ←
    match m.detail with
    | some d => d.toJson
    | none => pure .null
  return .object [("rule_id", m.ruleId), ("severity", m.severity.tag),
    ("category", m.category.tag), ("range", m.range.toJson), ("file_path", m.filePath),
    ("line", m.line), ("column", m.column), ("detail", detail)]

end ScriptLint
