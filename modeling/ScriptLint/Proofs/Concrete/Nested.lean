import ScriptLint.Proofs.Concrete.Parts
import ScriptLint.Proofs.Concrete.Source
import ScriptLint.Proofs.Concrete.Worklist

/-!
# Converted trees are nested

If every concrete node lies within its parent, then so does every node of the converted tree, also
where a node is taken from further down or made up.

* `Tree.WellRanged`: the concrete nodes are within their parents and within the source.
* `Nested`: a node has the span of some offsets between two bounds, and its children are nested
  between these offsets.
* `Inside`: a node is nested between the ends of a concrete node.
* `sustains_inside`: if what a builder has for the nodes below a concrete node is inside them, then
  what it builds is inside the concrete node.
* `recursion_inside`: what a well-ranged tree becomes is inside it.
* `convert_nested`: spans of converted trees are nested and agree with the lines of the source.
-/

namespace ScriptLint

namespace Concrete

open Ast (Node Slot Field Kind Construct)
open Outcome (Yields)
open Source (position spanBetween)

/-! ### Ranges of concrete trees -/

/-- Every node of the tree lies in a source of the given number of octets, and its children lie
within it. -/
def Tree.WellRanged (root : Tree) (octets : Nat) : Prop :=
  ∀ t ∈ root.preorder, t.start ≤ t.stop ∧ t.stop ≤ octets ∧
    ∀ c ∈ t.children, t.start ≤ c.start ∧ c.stop ≤ t.stop

instance (root : Tree) (octets : Nat) : Decidable (root.WellRanged octets) :=
  inferInstanceAs (Decidable (∀ t ∈ root.preorder, _))

namespace Tree.WellRanged

variable {t u : Tree} {octets : Nat}

theorem descendant (h : t.WellRanged octets) (hu : u ∈ t.descendants) : u.WellRanged octets :=
  fun v hv => h v (mem_preorder_of_mem_descendants (preorder_subset hu hv))

theorem of_mem_preorder (h : t.WellRanged octets) (hu : u ∈ t.preorder) : u.WellRanged octets := by
  rcases mem_preorder.mp hu with rfl | hu
  · exact h
  · exact h.descendant hu

theorem start_le_stop (h : t.WellRanged octets) : t.start ≤ t.stop :=
  (h t t.mem_preorder_self).1

theorem stop_le (h : t.WellRanged octets) : t.stop ≤ octets :=
  (h t t.mem_preorder_self).2.1

theorem start_le (h : t.WellRanged octets) : t.start ≤ octets :=
  Nat.le_trans h.start_le_stop h.stop_le

/-- Whatever is below a node lies within it. -/
theorem within (h : t.WellRanged octets) (hu : u ∈ t.descendants) :
    t.start ≤ u.start ∧ u.stop ≤ t.stop := by
  induction t using ind with
  | h t ih =>
    obtain ⟨c, hc, hu⟩ := mem_descendants.mp hu
    have hChild := (h t t.mem_preorder_self).2.2 c hc
    rcases mem_preorder.mp hu with rfl | hu
    · exact hChild
    · have hBelow := ih c hc (h.descendant (mem_descendants_of_mem_children hc)) hu
      omega

end Tree.WellRanged

/-! ### Nested nodes -/

/-- The node has the span of some offsets **between** `i` and `j`, and its children are nested
between these offsets. -/
inductive Nested (text : Text) : Nat → Nat → Node → Prop
  | mk {i j a b : Nat} {n : Node} (hSpan : n.span = spanBetween text a b) (hFirst : i ≤ a)
      (hOrder : a ≤ b) (hLast : b ≤ j) (hChildren : ∀ c ∈ n.children, Nested text a b c) :
      Nested text i j n

namespace Nested

variable {text : Text} {i j k l : Nat} {n : Node}

theorem mono (h : Nested text i j n) (hi : k ≤ i) (hj : j ≤ l) : Nested text k l n := by
  cases h with
  | mk hSpan hFirst hOrder hLast hChildren =>
    exact .mk hSpan (Nat.le_trans hi hFirst) hOrder (Nat.le_trans hLast hj) hChildren

theorem child (h : Nested text i j n) {c : Node} (hc : c ∈ n.children) : Nested text i j c := by
  cases h with
  | mk hSpan hFirst hOrder hLast hChildren => exact (hChildren c hc).mono hFirst hLast

theorem of_mem_preorder (h : Nested text i j n) : ∀ m ∈ n.preorder, Nested text i j m := by
  induction h with
  | @mk i j a b n hSpan hFirst hOrder hLast hChildren ih =>
    intro m hm
    rw [n.preorder_eq, List.mem_cons, List.mem_flatMap] at hm
    rcases hm with rfl | ⟨c, hc, hm⟩
    · exact .mk hSpan hFirst hOrder hLast hChildren
    · exact (ih c hc m hm).mono hFirst hLast

end Nested

/-- The node is nested between the ends of a concrete node. -/
def Inside (text : Text) (t : Tree) (n : Node) : Prop :=
  Nested text (position text t.start) (position text t.stop) n

theorem Inside.up {text : Text} {t u : Tree} {n : Node} (h : Inside text u n)
    (ht : t.WellRanged (Text.encode text).length) (hu : u ∈ t.descendants) : Inside text t n := by
  obtain ⟨hStart, hStop⟩ := ht.within hu
  have huRange := ht.descendant hu
  exact h.mono (Source.position_mono hStart huRange.start_le)
    (Source.position_mono hStop ht.stop_le)

/-- A node made at a concrete node is **inside** it if its fields are. -/
theorem inside_build {text : Text} {t : Tree} {id : Ast.NodeId} {kind : Kind}
    {fields : List (Field × Slot)} (ht : t.WellRanged (Text.encode text).length)
    (h : FillAll (Inside text) t fields) :
    Inside text t (.build id kind
      (spanBetween text (position text t.start) (position text t.stop)) fields) := by
  refine .mk rfl (Nat.le_refl _) (Source.position_mono ht.start_le_stop ht.stop_le)
    (Nat.le_refl _) fun c hc => ?_
  exact h c (Node.mem_givenNodes_of_mem_children hc)

/-- If what the builder has for the nodes below `t` is inside them, then all that it builds is inside
`t`. -/
theorem sustains_inside {text : Text} {b : Builder} {t : Tree} (hSource : b.source = .ofText text)
    (ht : t.WellRanged (Text.encode text).length)
    (hKnown : ∀ u ∈ t.descendants, ∀ n ∈ b.node? u, Inside text u n) :
    Sustains (Inside text) b t where
  known := hKnown
  up := fun u hu v hv n hn => hn.up (ht.of_mem_preorder hu) hv
  child := fun u _ n hn c hc => hn.child hc
  make := by
    intro u hu id kind fields _ hFields
    have hRange := ht.of_mem_preorder hu
    rw [hSource, Source.spanOf_ofText hRange.start_le hRange.stop_le]
    exact .ok (inside_build hRange hFields)

/-! ### Whole trees -/

/-- What a well-ranged tree becomes is **inside** it. -/
theorem recursion_inside {text : Text} {t : Tree} (hRows : t.DistinctRows)
    (hRanges : t.WellRanged (Text.encode text).length) :
    Yields (fun o => ∀ n ∈ o, Inside text t n) (recursion (.ofText text) t) := by
  induction t using Tree.ind_descendants with
  | h t ih =>
    have hBelow : ∀ u ∈ t.descendants,
        Yields (fun o => ∀ n ∈ o, Inside text u n) (recursion (.ofText text) u) := by
      intro u hu
      exact ih u hu (hRows.of_mem_preorder (Tree.mem_preorder_of_mem_descendants hu))
        (hRanges.descendant hu)
    have hContent : ∀ c ∈ t.content, ∃ n, recursion (.ofText text) c = .ok n := by
      intro c hc
      obtain ⟨n, hn, _⟩ := hBelow c (Tree.mem_descendants_of_mem_content hc)
      exact ⟨n, hn⟩
    rw [recursion_eq_build hRows hContent]
    refine (sustains_inside rfl hRanges fun u hu n hn => ?_).build
    -- what is found for `u` is the result of the recursion for `u`
    obtain ⟨o, ho, hIn⟩ := hBelow u hu
    have hFound := found_eq_some hRows hu hn
    rw [ho] at hFound
    cases hFound
    exact hIn n rfl

/-- The span goes from the code point `i` to the code point `j` of the text.  Its marks are the
lines and columns of these, and come in order. -/
structure Spans (text : Text) (s : Ast.Span) (i j : Nat) : Prop where
  start : s.start = .int i
  stop : s.stop = .int j
  first : s.first = Source.markOf (Text.lineStarts text) i
  last : s.last = Source.markOf (Text.lineStarts text) j
  ordered : i ≤ j
  bounded : j ≤ text.length
  places : Place.ofOffset (Text.lineStarts text) i ≤ Place.ofOffset (Text.lineStarts text) j

theorem spans_spanBetween {text : Text} {i j : Nat} (hOrder : i ≤ j) (hj : j ≤ text.length) :
    Spans text (spanBetween text i j) i j where
  start := rfl
  stop := rfl
  first := rfl
  last := rfl
  ordered := hOrder
  bounded := hj
  places := Place.ofOffset_mono text (by omega)

/-- A span has only one beginning and one end. -/
theorem Spans.unique {text : Text} {s : Ast.Span} {i j k l : Nat} (h : Spans text s i j)
    (h' : Spans text s k l) : i = k ∧ j = l := by
  have hStart := h.start.symm.trans h'.start
  have hStop := h.stop.symm.trans h'.stop
  rw [Json.int.injEq] at hStart hStop
  omega

theorem Nested.spans {text : Text} {i j : Nat} {n : Node} (h : Nested text i j n)
    (hj : j ≤ text.length) :
    ∃ a b, i ≤ a ∧ b ≤ j ∧ Spans text n.span a b ∧ ∀ c ∈ n.children, Nested text a b c := by
  cases h with
  | mk hSpan hFirst hOrder hLast hChildren =>
    refine ⟨_, _, hFirst, hLast, ?_, hChildren⟩
    rw [hSpan]
    exact spans_spanBetween hOrder (Nat.le_trans hLast hj)

/-- **Converted trees are nested.**  For every text and every concrete tree of it whose nodes lie
within the text and within their parents, the conversion succeeds.  Every node of the result goes
from one code point of the text to a later one, with the lines and columns of these, and lies within
its parent. -/
theorem convert_nested (text : Text) (root : Tree) (hRows : root.DistinctRows)
    (hRanges : root.WellRanged (Text.encode text).length) :
    ∃ result, convert (.ofText text) root = .ok result ∧ ∀ n ∈ result,
      (∀ m ∈ n.preorder, ∃ i j, Spans text m.span i j) ∧
        ∀ p ∈ n.preorder, ∀ c ∈ p.children, ∀ i j k l,
          Spans text p.span i j → Spans text c.span k l → i ≤ k ∧ l ≤ j := by
  obtain ⟨result, hResult, hInside⟩ := recursion_inside hRows hRanges
  refine ⟨result, (convert_eq_recursion _ hRows).trans hResult, fun n hn => ?_⟩
  have hAll := (hInside n hn).of_mem_preorder
  have hEnd := Source.position_le_length hRanges.stop_le
  constructor
  · intro m hm
    obtain ⟨i, j, _, _, hSpans, _⟩ := (hAll m hm).spans hEnd
    exact ⟨i, j, hSpans⟩
  · intro p hp c hc i j k l hParent hChild
    obtain ⟨a, b, _, _, hSpans, hChildren⟩ := (hAll p hp).spans hEnd
    obtain ⟨a', b', hFirst, hLast, hSpans', _⟩ := (hChildren c hc).spans hSpans.bounded
    obtain ⟨rfl, rfl⟩ := hParent.unique hSpans
    obtain ⟨rfl, rfl⟩ := hChild.unique hSpans'
    exact ⟨hFirst, hLast⟩

/-- The tree of the loop `for(let é of é);`, in which the variable takes two octets. -/
def accentedLoop : Tree :=
  let node (row : Nat) (kind field : Text) (start stop : Nat) (isNamed : Bool)
      (ts : List Tree) : Tree :=
    .mk ⟨row, kind, field, start, stop, isNamed, false, false⟩ ts
  node 0 "program" "" 0 18 true
    [node 1 "for_in_statement" "" 0 18 true
      [node 2 "for" "" 0 3 false [], node 3 "(" "" 3 4 false [],
       node 4 "let" "kind" 4 7 false [], node 5 "identifier" "left" 8 10 true [],
       node 6 "of" "operator" 11 13 false [], node 7 "identifier" "right" 14 16 true [],
       node 8 ")" "" 16 17 false [], node 9 "empty_statement" "body" 17 18 true []]]

theorem convert_nested_accentedLoop :
    accentedLoop.DistinctRows ∧ accentedLoop.WellRanged (Text.encode "for(let é of é);").length ∧
      ∃ result, convert (.ofText "for(let é of é);") accentedLoop = .ok result := by
  have hRows : accentedLoop.DistinctRows := by decide
  have hRanges : accentedLoop.WellRanged (Text.encode "for(let é of é);").length := by
    decide +kernel
  obtain ⟨result, hResult, _⟩ := convert_nested "for(let é of é);" accentedLoop hRows hRanges
  exact ⟨hRows, hRanges, result, hResult⟩

end Concrete

end ScriptLint
