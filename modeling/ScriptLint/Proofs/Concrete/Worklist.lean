import Mathlib.Logic.Relation
import ScriptLint.Proofs.Concrete.Recursion

/-!
# The stack of tasks does what the recursion does

A conversion works off a stack of tasks and keeps its results in a table.  This file follows it
**step by step** and shows that it ends with the result of the recursion.

* `State`, `Step`, `Steps`: a stack with a table, one task, and any number of tasks.
* `work_eq_of_steps`, `work_cases`: working off a stack is doing steps until the stack is empty or a
  node cannot be built.
* `Covers`: a stack **covers** a node if the node is in the table or some task will put it there.
  When a task to build a node comes to the top, all that is reached from the node must be in the
  table.
* `Progress`: the invariant.  The table has only results of the recursion, and the stack covers the
  root.
* `Progress.step`, `Progress.steps`: one step keeps it, and so do many.
* `convert_eq_recursion`: the conversion is the recursion.
-/

namespace ScriptLint.Concrete

open Ast (Node)
open Outcome (FailsOnlyWith)

/-! ### Steps -/

/-- A stack of tasks and the table filled so far. -/
structure State where
  tasks : List Task
  table : Table

/-- One task. -/
inductive Step (source : Source) : State → State → Prop
  | enter (t : Tree) (rest : List Task) (table : Table) :
      Step source ⟨.enter t :: rest, table⟩
        ⟨t.content.reverse.map .enter ++ .leave t :: rest, table⟩
  | leave {t : Tree} {rest : List Task} {table : Table} {n : Option Node} :
      Builder.build ⟨source, table.node?⟩ t = .ok n →
      Step source ⟨.leave t :: rest, table⟩ ⟨rest, table.insert t.row n⟩

/-- Any number of tasks. -/
def Steps (source : Source) : State → State → Prop := Relation.ReflTransGen (Step source)

theorem work_eq_of_step {source : Source} {s s' : State} (h : Step source s s') :
    work source s.tasks s.table = work source s'.tasks s'.table := by
  cases h with
  | enter t rest table => rw [work]
  | leave hn => rw [work, hn]

theorem work_eq_of_steps {source : Source} {s s' : State} (h : Steps source s s') :
    work source s.tasks s.table = work source s'.tasks s'.table := by
  induction h with
  | refl => rfl
  | tail _ hStep ih => rw [ih, work_eq_of_step hStep]

/-- A stack is worked off **to its end**, or up to a node that cannot be built. -/
theorem work_cases (source : Source) (tasks : List Task) (table : Table) :
    (∃ final, Steps source ⟨tasks, table⟩ ⟨[], final⟩) ∨
      ∃ t rest table' e, Steps source ⟨tasks, table⟩ ⟨.leave t :: rest, table'⟩ ∧
        Builder.build ⟨source, table'.node?⟩ t = .error e := by
  fun_induction work source tasks table with
  | case1 table => exact .inl ⟨table, .refl⟩
  | case2 t rest table e he => exact .inr ⟨t, rest, table, e, .refl, he⟩
  | case3 t rest table n hn ih =>
    rcases ih with ⟨final, h⟩ | ⟨u, rest', table', e, h, he⟩
    · exact .inl ⟨final, .head (.leave hn) h⟩
    · exact .inr ⟨u, rest', table', e, .head (.leave hn) h, he⟩
  | case4 t rest table ih =>
    rcases ih with ⟨final, h⟩ | ⟨u, rest', table', e, h, he⟩
    · exact .inl ⟨final, .head (.enter t rest table) h⟩
    · exact .inr ⟨u, rest', table', e, .head (.enter t rest table) h, he⟩

/-- There is **no endless** sequence of steps. -/
theorem wellFounded_step (source : Source) : WellFounded fun s' s => Step source s s' := by
  refine Subrelation.wf ?_ (measure fun s : State => total Task.weight s.tasks).wf
  intro s' s h
  show total Task.weight s'.tasks < total Task.weight s.tasks
  cases h with
  | enter t rest table =>
    have h := t.total_content_lt
    simp only [total_append, total_cons, total_weight_enter, total_reverse, Task.weight]
    omega
  | leave _ =>
    simp only [total_cons, Task.weight]
    omega

/-! ### Covered nodes -/

/-- The stack **covers** the root, if the nodes with the property `C` are in the table already: a
node that is to be built finds all that is reached from it among those in the table and those that
the tasks above it put there. -/
def Covers (root : Tree) : (Tree → Prop) → List Task → Prop
  | C, [] => C root
  | C, .enter t :: rest => Covers root (fun d => C d ∨ t.Reaches d) rest
  | C, .leave t :: rest => (∀ d ∈ t.within, C d) ∧ Covers root (fun d => C d ∨ d = t) rest

theorem Covers.mono {root : Tree} {tasks : List Task} : ∀ {C D : Tree → Prop},
    (∀ d, C d → D d) → Covers root C tasks → Covers root D tasks := by
  induction tasks with
  | nil => exact fun h hC => h _ hC
  | cons task rest ih =>
    intro C D h hC
    cases task with
    | enter t => exact ih (fun d hd => hd.imp_left (h d)) hC
    | leave t => exact ⟨fun d hd => h d (hC.1 d hd), ih (fun d hd => hd.imp_left (h d)) hC.2⟩

/-- Tasks to enter some nodes cover these nodes and all that is reached from them. -/
theorem covers_map_enter {root : Tree} {rest : List Task} (ts : List Tree) :
    ∀ {C : Tree → Prop}, Covers root (fun d => C d ∨ ∃ t ∈ ts, t.Reaches d) rest →
      Covers root C (ts.map .enter ++ rest) := by
  induction ts with
  | nil =>
    intro C h
    refine h.mono fun d hd => ?_
    simpa using hd
  | cons t ts ih =>
    intro C h
    refine ih (h.mono fun d hd => ?_)
    simpa [or_assoc] using hd

/-! ### The invariant -/

/-- The invariant of a conversion. -/
structure Progress (source : Source) (root : Tree) (s : State) : Prop where
  /-- Every task is about a node that is reached from the root. -/
  reached : ∀ t, .enter t ∈ s.tasks ∨ .leave t ∈ s.tasks → root.Reaches t
  /-- The table has **results of the recursion** only. -/
  results : ∀ (row : Nat) (n : Option Node), s.table[row]? = some n →
    ∃ d, root.Reaches d ∧ d.row = row ∧ recursion source d = .ok n
  covers : Covers root (fun d => d.row ∈ s.table) s.tasks

namespace Progress

variable {source : Source} {root : Tree}

theorem start (source : Source) (root : Tree) : Progress source root ⟨[.enter root], ∅⟩ where
  reached := by
    intro t ht
    simp only [List.mem_singleton, Task.enter.injEq, reduceCtorEq, or_false] at ht
    exact .inl ht
  results := by simp
  covers := .inr (.refl root)

/-- What the table has for a node is the result of the recursion for this very node. -/
theorem recursion_eq {s : State} (h : Progress source root s) (hRows : root.DistinctRows)
    {u : Tree} (hu : u ∈ root.preorder) {n : Option Node} (hn : s.table[u.row]? = some n) :
    root.Reaches u ∧ recursion source u = .ok n := by
  obtain ⟨d, hd, hRow, hResult⟩ := h.results u.row n hn
  obtain rfl := hRows.eq_of_row_eq hd.mem_preorder hu hRow
  exact ⟨hd, hResult⟩

/-- When a node is to be built, **all that is reached** from it is in the table. -/
theorem ready {t : Tree} {rest : List Task} {table : Table}
    (h : Progress source root ⟨.leave t :: rest, table⟩) (hRows : root.DistinctRows) :
    ∀ d ∈ t.within, ∃ n, recursion source d = .ok n ∧ table[d.row]? = some n := by
  intro d hd
  have hMem : d.row ∈ table := h.covers.1 d hd
  have hReached := h.reached t (.inr List.mem_cons_self)
  have hPre : d ∈ root.preorder := Tree.Reaches.mem_preorder (.inr (hReached.within hd))
  have hGet := Std.HashMap.getElem?_eq_some_getElem hMem
  exact ⟨_, (h.recursion_eq hRows hPre hGet).2, hGet⟩

/-- If the table has what is reached from a node, the table and the recursion **find the same**
below it. -/
theorem build_eq_of_within {s : State} (h : Progress source root s) (hRows : root.DistinctRows)
    {t : Tree} (ht : root.Reaches t)
    (hWithin : ∀ d ∈ t.within, recursion source d = .ok (s.table.node? d)) :
    Builder.build ⟨source, s.table.node?⟩ t = recursion source t := by
  have hDistinct := hRows.of_mem_preorder ht.mem_preorder
  rw [recursion_eq_build hDistinct fun c hc => ⟨_, hWithin c (Tree.mem_within_of_mem_content hc)⟩]
  refine Builder.Agree.build ⟨rfl, fun u hu => ?_⟩
  show (s.table[u.row]?).join = found source t u
  have huPre := Tree.mem_preorder_of_mem_descendants (Tree.descendants_subset t ht.mem_preorder hu)
  by_cases huIn : u ∈ t.within
  · rw [found_of_mem hDistinct huIn, hWithin u huIn]
    rfl
  · rw [found_of_not_mem]
    · cases hn : s.table[u.row]? with
      | none => rfl
      | some n =>
        exact absurd (hRows.mem_within ht (h.recursion_eq hRows huPre hn).1 hu) huIn
    · intro d hd hRow
      have hdPre := Tree.Reaches.mem_preorder (.inr (ht.within hd))
      exact huIn (hRows.eq_of_row_eq hdPre huPre hRow ▸ hd)

/-- When a node is to be built, it is built as the recursion does. -/
theorem build_eq {t : Tree} {rest : List Task} {table : Table}
    (h : Progress source root ⟨.leave t :: rest, table⟩) (hRows : root.DistinctRows) :
    Builder.build ⟨source, table.node?⟩ t = recursion source t := by
  refine h.build_eq_of_within hRows (h.reached t (.inr List.mem_cons_self)) fun d hd => ?_
  obtain ⟨n, hn, hGet⟩ := h.ready hRows d hd
  rw [hn, Table.node?, hGet]
  rfl

/-- **One step** keeps the invariant. -/
theorem step {s s' : State} (h : Progress source root s) (hRows : root.DistinctRows)
    (hStep : Step source s s') : Progress source root s' := by
  cases hStep with
  | enter t rest table =>
    have ht := h.reached t (.inl List.mem_cons_self)
    have hWithin : ∀ d, d ∈ t.within → ∃ c ∈ t.content.reverse, c.Reaches d := by
      intro d hd
      simpa using Tree.mem_within.mp hd
    refine ⟨fun u hu => ?_, h.results, covers_map_enter _ ⟨fun d hd => .inr (hWithin d hd), ?_⟩⟩
    · simp only [List.mem_append, List.mem_map, List.mem_reverse, List.mem_cons,
        Task.enter.injEq, Task.leave.injEq, exists_eq_right, reduceCtorEq, and_false,
        exists_false, false_or] at hu
      rcases hu with (hu | hu) | rfl | hu
      · exact .inr (ht.within (Tree.mem_within_of_mem_content hu))
      · exact h.reached u (.inl (List.mem_cons_of_mem _ hu))
      · exact ht
      · exact h.reached u (.inr (List.mem_cons_of_mem _ hu))
    · refine Covers.mono (fun d hd => ?_) h.covers
      rcases hd with hd | rfl | hd
      · exact .inl (.inl hd)
      · exact .inr rfl
      · exact .inl (.inr (hWithin d hd))
  | @leave t rest table n hn =>
    rw [h.build_eq hRows] at hn
    refine ⟨fun u hu => ?_, fun row m hm => ?_, ?_⟩
    · exact h.reached u (hu.imp (List.mem_cons_of_mem _) (List.mem_cons_of_mem _))
    · rw [Std.HashMap.getElem?_insert] at hm
      split at hm
      · rename_i hRow
        cases hm
        exact ⟨t, h.reached t (.inr List.mem_cons_self), by simpa using hRow, hn⟩
      · exact h.results row m hm
    · refine h.covers.2.mono fun d hd => ?_
      rcases hd with hd | rfl
      · exact Std.HashMap.mem_insert.mpr (.inr hd)
      · exact Std.HashMap.mem_insert_self

/-- **Many steps** keep the invariant. -/
theorem steps {s s' : State} (h : Progress source root s) (hRows : root.DistinctRows)
    (hSteps : Steps source s s') : Progress source root s' := by
  induction hSteps with
  | refl => exact h
  | tail _ hStep ih => exact ih.step hRows hStep

end Progress

/-! ### The whole conversion -/

/-- The result of a node **stays** in the table. -/
theorem getElem?_of_steps {source : Source} {root : Tree} {s s' : State}
    (h : Progress source root s) (hRows : root.DistinctRows) (hSteps : Steps source s s')
    {d : Tree} (hd : d ∈ root.preorder) {n : Option Node} (hn : s.table[d.row]? = some n) :
    s'.table[d.row]? = some n := by
  induction hSteps with
  | refl => exact hn
  | @tail s₁ s₂ hSteps hStep ih =>
    have hs₁ := h.steps hRows hSteps
    cases hStep with
    | enter t rest table => exact ih
    | @leave t rest table m hm =>
      show (table.insert t.row m)[d.row]? = some n
      rw [Std.HashMap.getElem?_insert]
      split
      · rename_i hRow
        -- the node is built a second time, with the same result
        have ht := hs₁.reached t (.inr List.mem_cons_self)
        obtain rfl := hRows.eq_of_row_eq ht.mem_preorder hd (by simpa using hRow)
        rw [hs₁.build_eq hRows, (hs₁.recursion_eq hRows hd ih).2] at hm
        cases hm
        rfl
      · exact ih

/-- The stack of tasks ends with the result of the **recursion**. -/
theorem convert_eq_recursion (source : Source) {root : Tree} (hRows : root.DistinctRows) :
    convert source root = recursion source root := by
  have hStart := Progress.start source root
  rcases work_cases source [.enter root] ∅ with ⟨final, hSteps⟩ | ⟨t, rest, table, e, hSteps, he⟩
  · have hEnd := hStart.steps hRows hSteps
    have hWork : work source [.enter root] ∅ = .ok final := by
      rw [work_eq_of_steps hSteps, work]
    have hGet := Std.HashMap.getElem?_eq_some_getElem (show root.row ∈ final from hEnd.covers)
    rw [convert, hWork, (hEnd.recursion_eq hRows root.mem_preorder_self hGet).2]
    show Except.ok ((final[root.row]?).join) = _
    rw [hGet]
    rfl
  · have hLast := hStart.steps hRows hSteps
    have hWork : work source [.enter root] ∅ = .error e := by
      rw [work_eq_of_steps hSteps, work, he]
    rw [hLast.build_eq hRows] at he
    obtain rfl := recursion_fault source t e he
    rw [convert, hWork]
    rcases hLast.reached t (.inr List.mem_cons_self) with rfl | ht
    · exact he.symm
    · exact (recursion_error_of_within ht he).symm

/-- **The conversion is a recursion.**  For every tree whose nodes are told apart by their row
numbers, working off the stack ends, and its result is the one of the recursion.  Whenever a node is
built on the way, all that is reached from it through named nodes that are not skipped has its
result in the table, and keeps it to the end. -/
theorem convert_is_recursion (source : Source) (root : Tree) (hRows : root.DistinctRows) :
    Acc (fun s' s => Step source s s') ⟨[.enter root], ∅⟩ ∧
      convert source root = recursion source root ∧
      ∀ t rest table, Steps source ⟨[.enter root], ∅⟩ ⟨.leave t :: rest, table⟩ →
        work source [.enter root] ∅ = work source (.leave t :: rest) table ∧
          ∀ d ∈ t.within, ∃ n, recursion source d = .ok n ∧ table[d.row]? = some n ∧
            ∀ s, Steps source ⟨.leave t :: rest, table⟩ s → s.table[d.row]? = some n := by
  refine ⟨(wellFounded_step source).apply _, convert_eq_recursion source hRows, ?_⟩
  intro t rest table hSteps
  have hProgress := (Progress.start source root).steps hRows hSteps
  refine ⟨work_eq_of_steps hSteps, fun d hd => ?_⟩
  obtain ⟨n, hResult, hGet⟩ := hProgress.ready hRows d hd
  have hReached := (hProgress.reached t (.inr List.mem_cons_self)).within hd
  have hPre : d ∈ root.preorder := Tree.Reaches.mem_preorder (.inr hReached)
  exact ⟨n, hResult, hGet, fun s hs => getElem?_of_steps hProgress hRows hs hPre hGet⟩

/-- The tree of the program `(a);`. -/
def bracketed : Tree :=
  let node (row : Nat) (kind : Text) (start stop : Nat) (isNamed : Bool) (ts : List Tree) : Tree :=
    .mk ⟨row, kind, [], start, stop, isNamed, false, false⟩ ts
  node 0 "program" 0 4 true
    [node 1 "expression_statement" 0 4 true
      [node 2 "parenthesized_expression" 0 3 true
        [node 3 "(" 0 1 false [], node 4 "identifier" 1 2 true [], node 5 ")" 2 3 false []],
       node 6 ";" 3 4 false []]]

theorem convert_is_recursion_bracketed :
    bracketed.DistinctRows ∧
      convert (.ofText "(a);") bracketed = recursion (.ofText "(a);") bracketed := by
  have hRows : bracketed.DistinctRows := by decide
  exact ⟨hRows, (convert_is_recursion (.ofText "(a);") bracketed hRows).2.1⟩

end ScriptLint.Concrete
