import ScriptLint.Rule.Access
import ScriptLint.Rule.ArrayChain
import ScriptLint.Rule.Blocking
import ScriptLint.Rule.Hygiene
import ScriptLint.Rule.Leak
import ScriptLint.Rule.Loop
import ScriptLint.Rule.LoopWork
import ScriptLint.Rule.Recursion
import ScriptLint.Rule.StringBuilding

/-!
# The catalog

The rules that every analysis begins with, in the order in which they are registered.
-/

namespace ScriptLint.Rule

/-- The **catalog** of rules. -/
def catalog : List Rule :=
  [LoopBody.nestedLoops, StringBuilding.rule, LoopWork.domOperations, Access.rule,
   ArrayChain.rule, Recursion.rule, Leak.rule, LoopWork.costlyCalls, Blocking.syncOperations,
   Blocking.synchronousRequests, LoopBody.repeatedRegex, Hygiene.longFunctions,
   Hygiene.indexKeys, Hygiene.evals]

/-- The rule of the catalog with a given identifier. -/
def inCatalog? (id : Text) : Option Rule := catalog.find? fun r => r.id == id

end ScriptLint.Rule
