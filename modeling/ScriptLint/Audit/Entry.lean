import ScriptLint.Analysis

/-!
# Entries of the audit trail

Every analysis leaves one entry in the audit trail.

* `Entry.ofReport`: the entry of an analysis.
* `Entry.read`: an entry that is given as a record.
-/

namespace ScriptLint.Audit

/-- What the audit trail keeps of one analysis. -/
structure Entry where
  analysisId : Text
  filePath : Text
  language : Option Text := none
  totalIssues : Int := 0
  criticalIssues : Int := 0
  score : Int
  label : Text
  /-- The rules that have found something. -/
  ruleIds : List Text := []
  errors : List Text := []
  durationMs : Binary64 := .zero
deriving DecidableEq

namespace Entry

/-- A problem as it is kept. -/
def errorOf (p : Problem) : Text := p.kind.tag ++ (": " : Text) ++ p.message

/-- The entry of an analysis.  The rules are listed once each, in the order of their
identifiers. -/
def ofReport (analysisId : Text) (durationMs : Binary64) (r : Report) : Entry :=
  { analysisId, durationMs
    filePath := r.filePath
    language := r.language.map Language.tag
    totalIssues := r.found.length
    criticalIssues := r.found.countP fun m => m.severity == .critical
    score := r.score.value
    label := r.score.label.tag
    ruleIds := ((r.found.map Match.ruleId).eraseDups).mergeSort Text.le
    errors := r.problems.map errorOf }

/-- An entry that is given as a record. -/
def read (entries : Entries) : Checked Entry :=
  Entry.mk
    <$> Schema.required "analysis_id" Schema.text entries
    <*> Schema.required "file_path" Schema.text entries
    <*> Schema.optional "language" none (Schema.nullable Schema.text) entries
    <*> Schema.optional "total_issues" 0 Schema.integer entries
    <*> Schema.optional "critical_issues" 0 Schema.integer entries
    <*> Schema.required "score" (Schema.integerWithin 0 Score.base) entries
    <*> Schema.required "label" Schema.text entries
    <*> Schema.optional "rule_ids" [] (Schema.listOf Schema.text) entries
    <*> Schema.optional "errors" [] (Schema.listOf Schema.text) entries
    <*> Schema.optional "duration_ms" .zero Schema.float entries

/-- The members of the object that an entry is written as. -/
def members (e : Entry) : List (String × Json) :=
  [("analysis_id", e.analysisId), ("file_path", e.filePath),
   ("language", Json.ofOption .str e.language), ("total_issues", e.totalIssues),
   ("critical_issues", e.criticalIssues), ("score", e.score), ("label", e.label),
   ("rule_ids", .arr (e.ruleIds.map .str)), ("errors", .arr (e.errors.map .str)),
   ("duration_ms", .float e.durationMs)]

def toJson (e : Entry) : Json := .object e.members

/-- Can the entry be written?  An integer may have at most `Numeral.maxDigits` digits. -/
def isWritable (e : Entry) : Bool :=
  [e.totalIssues, e.criticalIssues, e.score].all fun n => n.natAbs < tenTo Numeral.maxDigits

/-- An entry with the time at which it was written. -/
def stamped (e : Entry) (timestamp : Text) : Json :=
  .object (("timestamp", .str timestamp) :: e.members)

end Entry

end ScriptLint.Audit
