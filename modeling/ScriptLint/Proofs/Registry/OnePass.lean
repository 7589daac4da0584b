import ScriptLint.Proofs.Registry.Roster
import ScriptLint.Proofs.Rule.View

/-!
# One walk is enough

Detection fills the index while it walks, so a rule that is tried at a node sees only the nodes
visited so far.  This file shows that nothing is lost: the result is the one of a detection in
**two passes**, where the index of the whole tree is built first and every rule is then tried at
every node with that index.

* `Detection.trials`: the nodes with the contexts in which the rules are tried.  `scan_eq_trials`
  says that a scan over nodes with integers in their spans reports what is found in these trials.
* `trials_sameView`: at every trial the index knows the node, and tells the same about it as the
  index of the whole tree.
* `Detection.twoPass`: the findings of two passes, as pairs of a node and a rule.
* `pairwise_candidates`: pairs of nodes and rules are listed by node and then by rule.
* `detect_eq_twoPass`: detection in one pass is detection in two passes.
-/

namespace ScriptLint

open Ast (Node Index)

/-! ### Spans with integers -/

/-- Is the value an integer? -/
def Json.isInt : Json → Bool
  | .int _ => true
  | _ => false

/-- The integer of a value; other values count as zero. -/
def Json.toInt : Json → Int
  | .int n => n
  | _ => 0

theorem Json.eq_int_of_isInt {j : Json} (h : j.isInt = true) : j = .int j.toInt := by
  cases j with
  | int n => rfl
  | _ => simp [isInt] at h

/-- Are all positions of the span integers? -/
def Ast.Span.isIntegral (s : Ast.Span) : Bool :=
  s.start.isInt && s.stop.isInt && s.first.line.isInt && s.first.column.isInt
    && s.last.line.isInt && s.last.column.isInt

/-- The place of a span with integers. -/
def Range.ofIntegers (s : Ast.Span) : Range :=
  { startLine := s.first.line.toInt
    startColumn := s.first.column.toInt
    endLine := s.last.line.toInt
    endColumn := s.last.column.toInt
    startOffset := s.start.toInt
    endOffset := s.stop.toInt }

theorem Range.ofSpan_of_isIntegral {s : Ast.Span} (h : s.isIntegral = true) :
    ofSpan s = .ok (ofIntegers s) := by
  obtain ⟨start, stop, ⟨line, column⟩, ⟨endLine, endColumn⟩⟩ := s
  simp only [Ast.Span.isIntegral, Bool.and_eq_true] at h
  obtain ⟨⟨⟨⟨⟨hStart, hStop⟩, hLine⟩, hColumn⟩, hEndLine⟩, hEndColumn⟩ := h
  rw [Json.eq_int_of_isInt hStart, Json.eq_int_of_isInt hStop, Json.eq_int_of_isInt hLine,
    Json.eq_int_of_isInt hColumn, Json.eq_int_of_isInt hEndLine, Json.eq_int_of_isInt hEndColumn]
  rfl

namespace Detection

/-! ### Trials -/

/-- The match of a rule at a node with integers in its span. -/
def report (r : Rule) (n : Node) (ctx : Context) : Match :=
  { ruleId := r.id
    severity := r.severity
    category := r.category
    range := .ofIntegers n.span
    filePath := ctx.filePath
    line := n.span.first.line.toInt
    column := n.span.first.column.toInt
    detail := detailOf r n ctx }

/-- The nodes of a walk, each with the **context** in which the rules are tried there. -/
def trials (ctx : Context) : Index → List (Node × Option Node) → List (Node × Context)
  | _, [] => []
  | ix, (n, parent) :: rest =>
    (n, contextAt ctx (ix.add n parent) n) :: trials ctx (ix.add n parent) rest

theorem map_fst_trials (ctx : Context) : ∀ (ix : Index) (links : List (Node × Option Node)),
    (trials ctx ix links).map (·.1) = links.map (·.1) := by
  intro ix links
  induction links generalizing ix with
  | nil => rfl
  | cons e links ih => rw [trials, List.map_cons, List.map_cons, ih]

/-- What is found and reported at one trial. -/
def reports (rules : List Rule) (n : Node) (ctx : Context) : List Match :=
  (rules.filter fun r => finds r n ctx).map fun r => report r n ctx

theorem matchesAt_eq_reports {n : Node} (h : n.span.isIntegral = true) (ctx : Context)
    (rules : List Rule) : matchesAt n ctx rules = .ok (reports rules n ctx) := by
  have hMatch : ∀ r : Rule, matchOf r n ctx = .ok (report r n ctx) := by
    intro r
    rw [matchOf, Range.ofSpan_of_isIntegral h]
    rfl
  induction rules with
  | nil => rfl
  | cons r rules ih =>
    rw [matchesAt, reports, List.filter_cons]
    by_cases hf : finds r n ctx = true
    · rw [if_pos hf, if_pos hf, hMatch, ih]
      rfl
    · rw [if_neg hf, if_neg hf, ih]
      rfl

/-- A scan reports what is found in its trials, one after the other. -/
theorem scan_eq_trials (rules : List Rule) (ctx : Context) :
    ∀ (ix : Index) (links : List (Node × Option Node)),
      (∀ e ∈ links, e.1.span.isIntegral = true) →
      scan rules ctx ix links
        = .ok ((trials ctx ix links).flatMap fun t => reports rules t.1 t.2) := by
  intro ix links
  induction links generalizing ix with
  | nil => intro _; rfl
  | cons e links ih =>
    intro h
    rw [scan, matchesAt_eq_reports (h e List.mem_cons_self),
      ih _ (fun l hl => h l (List.mem_cons_of_mem _ hl))]
    rfl

/-- At every trial the index **tells the same** about the node as the index of the whole walk. -/
theorem trials_sameView (ctx : Context) : ∀ (after done : List (Node × Option Node)),
    Ast.ParentsFirst (done ++ after) → ((done ++ after).map fun e => e.1.id).Nodup →
    ∀ t ∈ trials ctx (.ofLinks done) after,
      ∃ ix, t.2 = contextAt ctx ix t.1 ∧ Index.SameView ix (.ofLinks (done ++ after)) t.1 := by
  intro after
  induction after with
  | nil => intro done _ _ t ht; simp [trials] at ht
  | cons e after ih =>
    intro done hFirst hIds t ht
    rw [List.append_cons] at hFirst hIds ⊢
    rw [trials, ← Index.ofLinks_snoc] at ht
    rcases List.mem_cons.mp ht with rfl | ht
    · exact ⟨_, rfl, Index.sameView_ofLinks (e := e) hFirst hIds (by simp)⟩
    · exact ih _ hFirst hIds t ht

/-! ### Two passes -/

/-- All pairs of a node and a rule, by node and then by rule. -/
def candidates (nodes : List Node) (rules : List Rule) : List (Node × Rule) :=
  nodes.flatMap fun n => rules.map fun r => (n, r)

/-- The pairs of a node and a rule that finds something there, with the index of the **whole**
tree. -/
def twoPass (rules : List Rule) (root : Node) (ctx : Context) : List (Node × Rule) :=
  (candidates root.preorder rules).filter fun p =>
    finds p.2 p.1 (contextAt ctx (.build root) p.1)

theorem flatMap_reports (rules : List Rule) (context : Node → Context) (nodes : List Node) :
    (nodes.flatMap fun n => reports rules n (context n))
      = ((candidates nodes rules).filter fun p => finds p.2 p.1 (context p.1)).map
          fun p => report p.2 p.1 (context p.1) := by
  rw [candidates, List.filter_flatMap, List.map_flatMap]
  refine List.flatMap_congr (fun n _ => ?_)
  rw [reports, List.filter_map, List.map_map]
  rfl

/-- A matcher that sees only the surroundings of a node finds and says the same with two indexes
that tell the same about it. -/
theorem reports_congr {ix iy : Index} {n : Node} {rules : List Rule} (ctx : Context)
    (hRules : ∀ r ∈ rules, r.matcher.SeesOnlyAround) (h : Index.SameView ix iy n) :
    reports rules n (contextAt ctx ix n) = reports rules n (contextAt ctx iy n) := by
  have hFinds : ∀ r ∈ rules, finds r n (contextAt ctx ix n) = finds r n (contextAt ctx iy n) := by
    intro r hr
    rw [finds, finds, (hRules r hr ctx ix iy n h).1]
  rw [reports, reports, List.filter_congr hFinds]
  refine List.map_congr_left (fun r hr => ?_)
  have hDetail : detailOf r n (contextAt ctx ix n) = detailOf r n (contextAt ctx iy n) := by
    rw [detailOf, detailOf, (hRules r (List.mem_of_mem_filter hr) ctx ix iy n h).2]
  rw [report, report, hDetail]
  rfl

/-- **One pass is two passes**, for rules that see only the surroundings of a node. -/
theorem scan_eq_twoPass {rules : List Rule} {root : Node} (ctx : Context)
    (hRules : ∀ r ∈ rules, r.matcher.SeesOnlyAround) (hIds : root.DistinctIds)
    (hSpans : ∀ n ∈ root.preorder, n.span.isIntegral = true) :
    scan rules ctx .empty root.withParents
      = .ok ((twoPass rules root ctx).map fun p =>
          report p.2 p.1 (contextAt ctx (.build root) p.1)) := by
  have hViews := trials_sameView ctx root.withParents [] root.parentsFirst_withParents
    hIds.nodup_links
  have hSame : ∀ t ∈ trials ctx .empty root.withParents,
      reports rules t.1 t.2 = reports rules t.1 (contextAt ctx (.build root) t.1) := by
    intro t ht
    obtain ⟨ix, hContext, hView⟩ := hViews t ht
    rw [hContext, Index.build_eq_ofLinks]
    exact reports_congr ctx hRules hView
  rw [scan_eq_trials rules ctx .empty root.withParents, List.flatMap_congr hSame, twoPass,
    ← flatMap_reports rules fun n => contextAt ctx (.build root) n, ← root.map_fst_withParents,
    ← map_fst_trials ctx .empty, List.flatMap_map]
  intro e he
  refine hSpans e.1 ?_
  rw [← root.map_fst_withParents]
  exact List.mem_map.mpr ⟨e, he, rfl⟩

/-! ### Order -/

/-- The place of a node in the walk over a tree. -/
def number (root n : Node) : Nat := (root.preorder.map Node.id).idxOf n.id

theorem pairwise_number {root : Node} (h : root.DistinctIds) :
    root.preorder.Pairwise fun m n => number root m < number root n := by
  rw [List.pairwise_iff_getElem]
  intro i j hi hj hij
  have hNumber : ∀ (k : Nat) (hk : k < root.preorder.length), number root root.preorder[k] = k := by
    intro k hk
    have hk' : k < (root.preorder.map Node.id).length := by rwa [List.length_map]
    rw [number, ← List.getElem_map Node.id (h := hk')]
    exact List.Nodup.idxOf_getElem h k hk'
  rw [hNumber i hi, hNumber j hj]
  exact hij

/-- Pairs are listed by the first number, and by the second where the first is the same. -/
theorem pairwise_candidates {nodes : List Node} {rules : List Rule} {f : Node → Nat}
    {g : Rule → Nat} (hNodes : nodes.Pairwise fun m n => f m < f n)
    (hRules : rules.Pairwise fun r s => g r < g s) :
    (candidates nodes rules).Pairwise fun p q =>
      Prod.Lex (· < ·) (· < ·) (f p.1, g p.2) (f q.1, g q.2) := by
  rw [candidates, List.pairwise_flatMap]
  constructor
  · intro n _
    rw [List.pairwise_map]
    exact hRules.imp fun h => .right _ h
  · refine hNodes.imp (fun {m n} hmn p hp q hq => ?_)
    obtain ⟨r, _, rfl⟩ := List.mem_map.mp hp
    obtain ⟨s, _, rfl⟩ := List.mem_map.mp hq
    exact .left _ _ hmn

end Detection

/-! ### Registries -/

/-- The rule tests and describes as some rule of the catalog does. -/
def Rule.FromCatalog (r : Rule) : Prop := ∃ s ∈ Rule.catalog, r.matcher = s.matcher

theorem Rule.FromCatalog.seesOnlyAround {r : Rule} (h : r.FromCatalog) :
    r.matcher.SeesOnlyAround := by
  obtain ⟨s, hs, hm⟩ := h
  rw [hm]
  exact Rule.catalog_seesOnlyAround s hs

namespace Registry

open Detection

theorem scan_nil (ctx : Context) : ∀ (ix : Index) (links : List (Node × Option Node)),
    scan [] ctx ix links = .ok [] := by
  intro ix links
  induction links generalizing ix with
  | nil => rfl
  | cons e links ih =>
    rw [scan, ih]
    rfl

theorem detect_eq_scan (g : Registry) (root : Node) (ctx : Context) (categories : List Category) :
    g.detect (some root) ctx categories
      = scan (g.rulesFor ctx.language categories) ctx .empty root.withParents := by
  rw [Registry.detect, ScriptLint.detect]
  split
  · rename_i hEmpty
    rw [List.isEmpty_iff.mp hEmpty, scan_nil]
  · rfl

theorem Sound.mem_roster_of_mem_rulesFor {g : Registry} (h : g.Sound) {l : Language}
    {categories : List Category} {r : Rule} (hr : r ∈ g.rulesFor l categories) : r ∈ g.roster := by
  rw [h.rulesFor_eq] at hr
  exact List.mem_of_mem_filter hr

/-- The findings of two passes come by the number of the node and then by the rank of the rule. -/
theorem Sound.pairwise_twoPass {g : Registry} (h : g.Sound) {root : Node} (hIds : root.DistinctIds)
    (ctx : Context) (categories : List Category) :
    (twoPass (g.rulesFor ctx.language categories) root ctx).Pairwise fun p q =>
      Prod.Lex (· < ·) (· < ·) (number root p.1, g.rank p.2.id)
        (number root q.1, g.rank q.2.id) := by
  have hRules : (g.rulesFor ctx.language categories).Pairwise
      fun r s => g.rank r.id < g.rank s.id := by
    rw [h.rulesFor_eq]
    exact h.pairwise_rank_roster.filter _
  exact (pairwise_candidates (g := fun r => g.rank r.id) (pairwise_number hIds) hRules).filter _

/-- **Detection in one pass is detection in two passes.**  For a registry with rules of the catalog
and a tree whose nodes are told apart by their identities and have integers in their spans, the
matches are those that the rules find with the index of the whole tree, node by node and then rule
by rule in the order of their registration.  No node is reported twice by one rule, and at no node
does the text before it have to tell whether it is inside a loop. -/
theorem detect_eq_twoPass (calls : List Call) (root : Node) (ctx : Context)
    (categories : List Category)
    (hRules : ∀ r ∈ (Registry.empty.run calls).1.all, r.FromCatalog)
    (hIds : root.DistinctIds) (hSpans : ∀ n ∈ root.preorder, n.span.isIntegral = true) :
    let g := (Registry.empty.run calls).1
    let found := twoPass (g.rulesFor ctx.language categories) root ctx
    g.detect (some root) ctx categories
        = .ok (found.map fun p => report p.2 p.1 (contextAt ctx (.build root) p.1)) ∧
      (found.Pairwise fun p q =>
        Prod.Lex (· < ·) (· < ·) (number root p.1, g.rank p.2.id)
          (number root q.1, g.rank q.2.id)) ∧
      (found.map fun p => (p.1.id, p.2.id)).Nodup ∧
      ∀ t ∈ trials ctx .empty root.withParents, ∀ helpers,
        (t.2.indexFor? t.1).isSome ∧
          t.2.insideLoop helpers t.1 = Containment.structural (.build root) helpers t.1 := by
  intro g found
  have hSound : g.Sound := (Sound.run calls Sound.empty).1
  have hOrder := hSound.pairwise_twoPass hIds ctx categories
  refine ⟨?_, hOrder, ?_, ?_⟩
  · rw [detect_eq_scan]
    refine scan_eq_twoPass ctx (fun r hr => ?_) hIds hSpans
    have hAll : r ∈ g.all := by
      rw [hSound.all_eq]
      exact hSound.mem_roster_of_mem_rulesFor hr
    exact (hRules r hAll).seesOnlyAround
  · -- pairs that are alike would stand at the same place of the order
    rw [List.Nodup, List.pairwise_map]
    refine hOrder.imp (fun {p q} hpq heq => ?_)
    rw [Prod.mk.injEq] at heq
    rw [number, number, heq.1, heq.2] at hpq
    rcases Prod.lex_def.mp hpq with hlt | hlt
    · exact Nat.lt_irrefl _ hlt
    · exact Nat.lt_irrefl _ hlt.2
  · intro t ht helpers
    obtain ⟨ix, hContext, hView⟩ := trials_sameView ctx root.withParents []
      root.parentsFirst_withParents hIds.nodup_links t ht
    rw [hContext, Context.indexFor?_contextAt ctx hView.left,
      Context.insideLoop_contextAt ctx hView.left]
    exact ⟨rfl, Containment.structural_congr hView helpers⟩

/-- The loop `for (;;) eval()`, whose body is a call. -/
def evalLoop : Node :=
  let span : Ast.Span := ⟨.int 0, .int 15, ⟨.int 1, .int 0⟩, ⟨.int 1, .int 15⟩⟩
  let callee := Node.build ⟨[3], 0⟩ (.known .identifier) span [(.name, .value "eval")]
  let call := Node.build ⟨[2], 0⟩ (.known .callExpression) span [(.callee, .node callee)]
  Node.build ⟨[1], 0⟩ (.known .forStatement) span [(.body, .node call)]

/-- The context of `evalLoop`. -/
def evalContext : Context := ⟨"a.js", .javascript, "for (;;) eval()", .int 1, .int 0, none⟩

theorem mem_of_mem_all_registerAll {rs : List Rule} {r : Rule}
    (hr : r ∈ (Registry.empty.run [.registerAll rs]).1.all) : r ∈ rs := by
  obtain ⟨hSound, hRoster, -⟩ := Sound.run [.registerAll rs] Sound.empty
  rw [hSound.all_eq, hRoster] at hr
  rcases Roster.mem_foldl_register rs hr with hr | hr
  · cases hr
  · exact hr

theorem detect_eq_twoPass_evalLoop :
    evalLoop.DistinctIds ∧
      (Registry.empty.run [.registerAll Rule.catalog]).1.detect (some evalLoop) evalContext []
        = .ok ((twoPass ((Registry.empty.run [.registerAll Rule.catalog]).1.rulesFor
            evalContext.language []) evalLoop evalContext).map
            fun p => report p.2 p.1 (contextAt evalContext (.build evalLoop) p.1)) := by
  have hIds : evalLoop.DistinctIds := by decide +kernel
  have hSpans : (evalLoop.preorder.all fun n => n.span.isIntegral) = true := by decide +kernel
  obtain ⟨hDetect, -⟩ := detect_eq_twoPass [.registerAll Rule.catalog] evalLoop evalContext []
    (fun r hr => ⟨r, mem_of_mem_all_registerAll hr, rfl⟩) hIds (List.all_eq_true.mp hSpans)
  exact ⟨hIds, hDetect⟩

end Registry

end ScriptLint
