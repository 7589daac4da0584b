import ScriptLint.Rule.Context
import ScriptLint.Severity

/-!
# Rules

A **rule** names something worth a remark and says how to find it.  Its matcher tests one node and
describes a node that has passed the test; both may fail on a tree with odd values in it.

* `Detail`: what a rule says about a match.
* `Matcher`, `Rule`: the two parts of a rule that decide, and the whole of it.
* `Rule.standard`: a rule whose score impact is the delta of its severity.
-/

namespace ScriptLint

open Ast (Node)

/-- What a rule says about a match. -/
structure Detail where
  /-- A relative estimate of the cost. -/
  complexity : Int
  impact : Text
  suggestion : Text
  metadata : Entries := []

/-- The test of a rule, and the description of what has passed it. -/
structure Matcher where
  test : Node → Context → Except Fault Bool
  describe : Node → Context → Except Fault (Option Detail)

/-- A rule. -/
structure Rule where
  id : Text
  name : Text
  description : Text
  category : Category
  severity : Severity
  languages : List Language
  enabled : Bool := true
  scoreImpact : Int
  matcher : Matcher

namespace Rule

/-- A rule for all scripts whose score impact is the delta of its severity. -/
def standard (id name description : Text) (category : Category) (severity : Severity)
    (matcher : Matcher) : Rule :=
  { id, name, description, category, severity, matcher
    languages := Language.scripts
    scoreImpact := severity.delta }

/-- Does the rule apply to files in a language? -/
def appliesTo (r : Rule) (l : Language) : Bool := r.languages.contains l

end Rule

end ScriptLint
