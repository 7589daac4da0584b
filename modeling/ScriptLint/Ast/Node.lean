import ScriptLint.Ast.Kind
import ScriptLint.Total

/-!
# Nodes

A syntax tree is made of nodes.  A node has an identity, a kind, a span of the source and one
**slot** for each field of its kind.  A slot holds a node, a list of nodes, or a plain value; trees
that come from outside may put any of the three into any field, and any value into a span.

* `NodeId`: the identity of a node, which no other node of a tree shares.
* `Node.slot?`, `Node.is`, `Node.children`: the parts of a node.
* `Node.total_children_lt`: the children of a node are together smaller than the node, so every
  walk over a stack of nodes ends.
-/

namespace ScriptLint.Ast

/-- The identity of a node: where it comes from, and which of the nodes made there it is. -/
structure NodeId where
  path : List Nat
  part : Nat
deriving DecidableEq, Hashable

/-- A line and a column as they were given. -/
structure Mark where
  line : Json
  column : Json

/-- The part of the source that a node covers: offsets, and the marks of its two ends. -/
structure Span where
  start : Json
  stop : Json
  first : Mark
  last : Mark

mutual

/-- A node of a syntax tree. -/
inductive Node where
  | mk (id : NodeId) (kind : Kind) (span : Span) (slots : List (Field × Slot))

/-- What a field of a node holds. -/
inductive Slot where
  | node (n : Node)
  | nodes (ns : List Node)
  | value (v : Json)

end

instance : Inhabited Slot := ⟨.value .null⟩

namespace Slot

/-- The empty slot. -/
def absent : Slot := .value .null

/-- The slot of a field for which nothing is given. -/
def ofBlank : Blank → Slot
  | .noNodes => .nodes []
  | .plain v => .value v

/-- The slot of a node that may be missing. -/
def ofOption : Option Node → Slot
  | some n => .node n
  | none => absent

/-- The nodes that a slot holds. -/
def children : Slot → List Node
  | .node n => [n]
  | .nodes ns => ns
  | .value _ => []

/-- The node that a slot holds. -/
def node? : Slot → Option Node
  | .node n => some n
  | _ => none

def isNull : Slot → Bool
  | .value .null => true
  | _ => false

end Slot

namespace Node

def id : Node → NodeId
  | mk i _ _ _ => i

def kind : Node → Kind
  | mk _ k _ _ => k

def span : Node → Span
  | mk _ _ s _ => s

def slots : Node → List (Field × Slot)
  | mk _ _ _ ss => ss

/-- A node of a given kind.  Fields for which nothing is given take their usual value. -/
def build (id : NodeId) (kind : Kind) (span : Span) (given : List (Field × Slot)) : Node :=
  mk id kind span (kind.fields.map fun f => (f.1, (given.lookup f.1).getD (.ofBlank f.2)))

/-- The slot of a field, if the kind of the node has that field. -/
def slot? (n : Node) (f : Field) : Option Slot := n.slots.lookup f

/-- The slot of a field; a field that the node does not have is empty. -/
def slot (n : Node) (f : Field) : Slot := (n.slot? f).getD .absent

/-- Is the node of this construct? -/
def is (n : Node) (c : Construct) : Bool :=
  match n.kind with
  | .known d => d == c
  | .other _ => false

def isLoop (n : Node) : Bool := n.kind.isLoop

def isFunction (n : Node) : Bool := n.kind.isFunction

/-- The **children** of a node, in the order of its fields. -/
def children (n : Node) : List Node := n.slots.flatMap fun s => s.2.children

end Node

/-- The node in a slot, if it is of the given construct. -/
def Slot.as? (s : Slot) (c : Construct) : Option Node := s.node?.filter fun n => n.is c

/-! ### Sizes -/

theorem Slot.total_children_lt (s : Slot) : total sizeOf s.children < sizeOf s := by
  cases s with
  | node n => simp [Slot.children]
  | nodes ns =>
    have h := total_sizeOf_le ns
    simp only [Slot.children, Slot.nodes.sizeOf_spec]
    omega
  | value v =>
    simp only [Slot.children, total_nil, Slot.value.sizeOf_spec]
    omega

theorem total_slots_le (ss : List (Field × Slot)) :
    total sizeOf (ss.flatMap fun s => s.2.children) ≤ sizeOf ss := by
  induction ss with
  | nil => simp
  | cons s ss ih =>
    have h := s.2.total_children_lt
    have hs : sizeOf s.2 < sizeOf s := by
      cases s
      simp only [Prod.mk.sizeOf_spec]
      omega
    simp only [List.flatMap_cons, total_append, List.cons.sizeOf_spec]
    omega

/-- The children of a node are **together smaller** than the node. -/
theorem Node.total_children_lt (n : Node) : total sizeOf n.children < sizeOf n := by
  cases n with
  | mk i k s ss =>
    have h := total_slots_le ss
    simp only [Node.children, Node.slots, Node.mk.sizeOf_spec]
    omega

theorem sizeOf_snd_lt_of_lookup {f : Field} {s : Slot} :
    ∀ {ss : List (Field × Slot)}, ss.lookup f = some s → sizeOf s < sizeOf ss := by
  intro ss
  induction ss with
  | nil => intro h; simp at h
  | cons p ss ih =>
    obtain ⟨g, t⟩ := p
    intro h
    simp only [List.cons.sizeOf_spec, Prod.mk.sizeOf_spec]
    rw [List.lookup_cons] at h
    split at h
    · simp only [Option.some.injEq] at h
      subst h
      omega
    · have := ih h
      omega

/-- What a field holds is smaller than the node. -/
theorem Node.sizeOf_slot_lt (n : Node) (f : Field) : sizeOf (n.slot f) < sizeOf n := by
  cases n with
  | mk i k s ss =>
    simp only [Node.slot, Node.slot?, Node.slots, Node.mk.sizeOf_spec]
    cases h : ss.lookup f with
    | none =>
      have hi : 0 < sizeOf i := by cases i; simp only [NodeId.mk.sizeOf_spec]; omega
      have hk : 0 < sizeOf k := by
        cases k with
        | known c => simp only [Kind.known.sizeOf_spec]; omega
        | other t => simp only [Kind.other.sizeOf_spec]; omega
      simp only [Option.getD_none, Slot.absent, Slot.value.sizeOf_spec, Json.null.sizeOf_spec]
      omega
    | some t =>
      have := sizeOf_snd_lt_of_lookup h
      simp only [Option.getD_some]
      omega

end ScriptLint.Ast
