import ScriptLint.Ast.Display
import ScriptLint.Rule.Basic

/-!
# Chains of array methods

In `a.map(f).filter(g).sort()` every call goes through the whole array once more.

* `chainLength`: the number of such calls at the end of a chain.
* `chainRoot`: the name that the chain begins with.
-/

namespace ScriptLint.ArrayChain

open Ast (Node Slot)

/-- The methods that go through an array and give another one. -/
def methods : List Text := ["map", "filter", "reduce", "sort", "reverse", "slice", "concat"]

/-- The callee of a call of a method. -/
def methodCallee? (s : Slot) : Option Node :=
  match s with
  | .node n => if n.is .callExpression then (n.slot .callee).as? .memberExpression else none
  | _ => none

/-- The receiver of a method call is smaller than the call. -/
theorem sizeOf_receiver_lt {s : Slot} {callee : Node} (h : methodCallee? s = some callee) :
    sizeOf (callee.slot .object) < sizeOf s := by
  cases s with
  | node n =>
    simp only [methodCallee?] at h
    split at h
    · have hc := n.sizeOf_slot_lt .callee
      have ho := callee.sizeOf_slot_lt .object
      have hn : n.slot .callee = .node callee := by
        simp only [Slot.as?, Slot.node?] at h
        split at h
        · rename_i m hm
          simp only [Option.filter] at h
          split at h
          · simp only [Option.some.injEq] at h
            rw [hm, h]
          · simp at h
        · simp at h
      rw [hn] at hc
      simp only [Slot.node.sizeOf_spec] at hc ⊢
      omega
    · simp at h
  | nodes ns => simp [methodCallee?] at h
  | value v => simp [methodCallee?] at h

/-- The number of calls of array methods, one on the result of the other, that end with this
one. -/
def chainLength (s : Slot) : Except Fault Nat :=
  match _hs : methodCallee? s with
  | none => .ok 0
  | some callee =>
    match callee.memberName.isOneOf methods with
    | .error e => .error e
    | .ok false => .ok 0
    | .ok true => (chainLength (callee.slot .object)).map (· + 1)
termination_by sizeOf s
decreasing_by exact sizeOf_receiver_lt _hs

/-- The name that a chain of method calls begins with; `array` if it does not begin with a
name. -/
def chainRoot (s : Slot) : Slot :=
  match _hs : methodCallee? s with
  | none => .value "array"
  | some callee =>
    match (callee.slot .object).node? with
    | none => .value "array"
    | some receiver =>
      if receiver.is .identifier then receiver.slot .name
      else chainRoot (callee.slot .object)
termination_by sizeOf s
decreasing_by exact sizeOf_receiver_lt _hs

def test (n : Node) : Except Fault Bool :=
  if n.is .callExpression then (chainLength (.node n)).map (2 ≤ ·) else .ok false

def suggestion (length : Nat) : Text :=
  if length ≤ 2 then "Consider combining operations into a single reduce() call"
  else if length ≤ 3 then "Use a single reduce() or for-loop to avoid multiple iterations"
  else "Refactor into a single-pass algorithm using reduce() or a plain loop"

def detail (n : Node) : Except Fault Detail := do
  let length ← chainLength (.node n)
  let root := chainRoot (.node n)
  return {
    complexity := min (length * 2) 10
    impact := Text.ofNat length ++ (" separate iterations over array '" : Text) ++ root.displayed
      ++ ("' - O(" : Text) ++ Text.ofNat length ++ ("n) complexity" : Text)
    suggestion := suggestion length
    metadata := [("chain_length", length), ("array", root.toJson)] }

/-- Chains of array methods. -/
def rule : Rule :=
  .standard "multiple-array-iterations" "Multiple Array Iterations"
    "Detects chained array methods that iterate the same data several times"
    .performance .critical
    { test := fun n _ => test n
      describe := fun n _ => (detail n).map some }

end ScriptLint.ArrayChain
