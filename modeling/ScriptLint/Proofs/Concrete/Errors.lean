import ScriptLint.Concrete.Parse
import ScriptLint.Proofs.Concrete.Build

/-!
# The first error of a document

The search for the first error passes by every subtree whose root is not said to have an error.  A
node has one if it stands for an error itself or if one of its children has one; besides, a parser
may mark any node.  So a mark may lead the search into a subtree without errors, but no error is
ever passed by.

* `Tree.hasError_iff`: what it means for a node to have an error.
* `Tree.firstErrorIn_eq_find?`: the search finds the first error of all nodes on its stack and below
  them, in the order of the document.
* `convert_fault`: a conversion fails only where an octet is out of range.
* `parse_eq_unparsed_iff`: which documents are refused, and with which line.
* `firstError?_is_first`: the first error, and what becomes of the document.
-/

namespace ScriptLint.Concrete

open Outcome (FailsOnlyWith)

namespace Tree

/-! ### Faulty nodes -/

theorem anyHasError_iff (ts : List Tree) :
    anyHasError ts = true ↔ ∃ t ∈ ts, t.hasError = true := by
  induction ts with
  | nil => simp [anyHasError]
  | cons t ts ih => rw [anyHasError, Bool.or_eq_true, ih, List.exists_mem_cons_iff]

/-- A node has an error if it is **marked**, if it stands for an error, or if a child has one. -/
theorem hasError_iff (t : Tree) :
    t.hasError = true ↔
      t.label.isMarked = true ∨ t.isError = true ∨ ∃ c ∈ t.children, c.hasError = true := by
  cases t with
  | mk l ts =>
    simp only [hasError, isError, kind, label, children, Bool.or_eq_true, anyHasError_iff, or_assoc]

theorem hasError_of_mem_preorder {t u : Tree} (hu : u ∈ t.preorder) (h : u.isError = true) :
    t.hasError = true := by
  induction t using ind with
  | h t ih =>
    rw [hasError_iff]
    rcases mem_preorder.mp hu with rfl | hu
    · exact .inr (.inl h)
    · obtain ⟨c, hc, hu⟩ := mem_descendants.mp hu
      exact .inr (.inr ⟨c, hc, ih c hc hu⟩)

/-! ### The search -/

/-- The search finds the **first error** of all nodes on the stack and below them. -/
theorem firstErrorIn_eq_find? (stack : List Tree) :
    firstErrorIn stack = (stack.flatMap preorder).find? isError := by
  fun_induction firstErrorIn stack with
  | case1 => rfl
  | case2 t stack hError =>
    rw [List.flatMap_cons, preorder_eq, List.cons_append, List.find?_cons_of_pos hError]
  | case3 t stack hError hBelow ih =>
    rw [ih, List.flatMap_append, List.flatMap_cons, preorder_eq, List.cons_append,
      List.find?_cons_of_neg hError, descendants]
  | case4 t stack hError hBelow ih =>
    -- what is passed by has no error
    have hNone : t.preorder.find? isError = none := by
      rw [List.find?_eq_none]
      exact fun u hu h => hBelow (hasError_of_mem_preorder hu h)
    rw [ih, List.flatMap_cons, List.find?_append, hNone, Option.none_or]

theorem firstError?_eq_find? (root : Tree) :
    root.firstError? = root.preorder.find? isError := by
  rw [firstError?, firstErrorIn_eq_find?, List.flatMap_singleton]

theorem firstError?_eq_none_iff (root : Tree) :
    root.firstError? = none ↔ ∀ u ∈ root.preorder, u.isError = false := by
  rw [firstError?_eq_find?, List.find?_eq_none]
  simp only [Bool.not_eq_true]

end Tree

/-! ### Documents -/

/-- Working off a stack of tasks fails only where an octet is out of range. -/
theorem work_fault (source : Source) (tasks : List Task) (table : Table) :
    FailsOnlyWith .outOfRange (work source tasks table) := by
  fun_induction work source tasks table with
  | case1 table => exact .ok table
  | case2 t rest table e he =>
    intro e' h
    cases h
    exact Builder.build_fault _ t e he
  | case3 t rest table n hn ih => exact ih
  | case4 t rest table ih => exact ih

/-- A conversion fails only where an octet is **out of range**. -/
theorem convert_fault (source : Source) (root : Tree) :
    FailsOnlyWith .outOfRange (convert source root) :=
  (work_fault source _ _).bind fun _ => .ok _

theorem parse_of_hasError (text : Text) {language : Language} {root : Tree}
    (hParser : language.hasParser = true) (hError : root.hasError = true) :
    parse text language root
      = .error (parseFault language (errorLine? (.ofText text) root)) := by
  rw [parse, checkLanguage, if_pos hParser, hError]
  rfl

theorem parse_of_not_hasError (text : Text) {language : Language} {root : Tree}
    (hParser : language.hasParser = true) (hError : ¬ root.hasError = true) :
    parse text language root = convert (.ofText text) root := by
  rw [parse, checkLanguage, if_pos hParser, Bool.eq_false_iff.mpr hError]
  rfl

/-- A document is refused **if and only if** it has an error, and the fault has the line of the
first one. -/
theorem parse_eq_unparsed_iff {text : Text} {language : Language} {root : Tree} {message : Text}
    {line : Option Nat} :
    parse text language root = .error (.unparsed message line) ↔
      language.hasParser = true ∧ root.hasError = true ∧
        parseFault language (errorLine? (.ofText text) root) = .unparsed message line := by
  by_cases hParser : language.hasParser = true
  · by_cases hError : root.hasError = true
    · rw [parse_of_hasError text hParser hError, Except.error.injEq]
      exact ⟨fun h => ⟨hParser, hError, h⟩, fun h => h.2.2⟩
    · rw [parse_of_not_hasError text hParser hError]
      refine iff_of_false (fun h => ?_) fun h => hError h.2.1
      cases convert_fault (.ofText text) root _ h
  · rw [parse, checkLanguage, if_neg hParser]
    refine iff_of_false (fun h => ?_) fun h => hParser h.1
    cases h

theorem line_of_parseFault {language : Language} {message : Text} {line line' : Option Nat}
    (h : parseFault language line = .unparsed message line') : line' = line := by
  cases h
  rfl

/-- **The first error is found.**  Whatever is marked in a document, the search ends with the first
node in the order of the document that is an error or is missing, and with nothing if and only if
there is no such node.  So a document in a language with a parser is refused if and only if its root
has an error, and the fault has no line if and only if no node is an error or is missing. -/
theorem firstError?_is_first (text : Text) (language : Language) (root : Tree) :
    root.firstError? = root.preorder.find? Tree.isError ∧
      (root.firstError? = none ↔ ∀ u ∈ root.preorder, u.isError = false) ∧
      (language.hasParser = true →
        ((∃ message line, parse text language root = .error (.unparsed message line)) ↔
          root.hasError = true) ∧
        ∀ message line, parse text language root = .error (.unparsed message line) →
          (line = none ↔ ∀ u ∈ root.preorder, u.isError = false)) := by
  refine ⟨root.firstError?_eq_find?, root.firstError?_eq_none_iff, fun hParser => ⟨?_, ?_⟩⟩
  · constructor
    · rintro ⟨message, line, h⟩
      exact (parse_eq_unparsed_iff.mp h).2.1
    · intro hError
      exact ⟨_, _, parse_eq_unparsed_iff.mpr ⟨hParser, hError, rfl⟩⟩
  · intro message line h
    obtain ⟨-, -, hFault⟩ := parse_eq_unparsed_iff.mp h
    rw [line_of_parseFault hFault, errorLine?, Option.map_eq_none_iff,
      root.firstError?_eq_none_iff]

/-- The parenthesis that is missing at the end of `é⏎(b`. -/
def missingParenthesis : Tree := .mk ⟨6, ")", "", 5, 5, false, true, false⟩ []

/-- The tree of `é⏎(b`.  Its first statement is marked and has no error. -/
def unclosed : Tree :=
  .mk ⟨0, "program", "", 0, 5, true, false, false⟩
    [.mk ⟨1, "expression_statement", "", 0, 2, true, false, true⟩
      [.mk ⟨2, "identifier", "", 0, 2, true, false, false⟩ []],
     .mk ⟨3, "parenthesized_expression", "", 3, 5, true, false, false⟩
      [.mk ⟨4, "(", "", 3, 4, false, false, false⟩ [],
       .mk ⟨5, "identifier", "", 4, 5, true, false, false⟩ [], missingParenthesis]]

theorem firstError?_is_first_unclosed :
    unclosed.firstError? = some missingParenthesis ∧
      ∃ message line, parse "é\n(b" .javascript unclosed = .error (.unparsed message line) := by
  obtain ⟨hFirst, -, hParse⟩ := firstError?_is_first "é\n(b" .javascript unclosed
  exact ⟨hFirst.trans rfl, (hParse (by decide)).1.mpr (by decide +kernel)⟩

end ScriptLint.Concrete
