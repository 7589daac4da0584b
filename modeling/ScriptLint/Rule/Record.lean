import ScriptLint.Rule.Basic
import ScriptLint.Schema.Record

/-!
# Rules as records

A rule can be given as a record.  If it has no score impact of its own, the delta of its severity
takes the place, and then a severity that is none makes the whole record invalid.  Once a rule is
built, only its switch can be changed.

* `Rule.read`: the rule of a record.
* `Rule.assign`: sets a field of a rule.
* `Rule.toJson`: the record of a rule; its matcher is left out.
-/

namespace ScriptLint.Rule

/-- The record with a score impact, as far as its severity gives one. -/
def withImpact (entries : Entries) : Except Issue Entries :=
  match entries.get "score_impact", entries.get? "severity" with
  | .null, some severity =>
    match Coercion.member Severity.ofTag? severity with
    | .ok s => .ok (entries.put "score_impact" (.int s.delta))
    | .error _ => .error ⟨.refusedValue, []⟩
  | _, _ => .ok entries

/-- The matcher of a rule, which has to be there. -/
def givenMatcher : Option Matcher → Checked Matcher
  | some m => .ok m
  | none => .broken [⟨.missing, [.member "matcher"]⟩]

/-- The rule of a record whose score impact has been settled. -/
def readFields (entries : Entries) (matcher : Option Matcher) : Checked Rule :=
  (fun id name description category severity languages enabled matcher scoreImpact =>
    { id, name, description, category, severity, languages, enabled, scoreImpact, matcher })
    <$> Schema.required "id" Schema.nonemptyText entries
    <*> Schema.required "name" Schema.text entries
    <*> Schema.optional "description" [] Schema.text entries
    <*> Schema.required "category" (Schema.member Category.ofTag?) entries
    <*> Schema.required "severity" (Schema.member Severity.ofTag?) entries
    <*> Schema.required "languages" (Schema.setOf (Schema.member Language.ofTag?)) entries
    <*> Schema.optional "enabled" true Schema.bool entries
    <*> givenMatcher matcher
    <*> Schema.required "score_impact" Schema.integer entries

/-- The rule of a record. -/
def read (entries : Entries) (matcher : Option Matcher) : Checked Rule :=
  match withImpact entries with
  | .ok entries => readFields entries matcher
  | .error issue => .broken [issue]

/-- The fields that cannot be changed. -/
def frozenFields : List Text :=
  ["id", "name", "description", "category", "severity", "languages", "matcher", "score_impact"]

/-- Sets a field of a rule; only its switch can be changed. -/
def assign (r : Rule) (field : Text) (value : Json) : Except Fault Rule :=
  if field = ("enabled" : Text) then .ok { r with enabled := value.truthy }
  else if frozenFields.contains field then .error (.invalid [⟨.frozenField, [.member field]⟩])
  else
    .error (.refused (("\"Rule\" object has no field \"" : Text) ++ field ++ ("\"" : Text)))

def toJson (r : Rule) : Json :=
  .object [("id", r.id), ("name", r.name), ("description", r.description),
    ("category", r.category.tag), ("severity", r.severity.tag),
    ("languages", .arr (((r.languages.map Language.tag).mergeSort Text.le).map .str)),
    ("enabled", r.enabled), ("score_impact", r.scoreImpact)]

end ScriptLint.Rule
