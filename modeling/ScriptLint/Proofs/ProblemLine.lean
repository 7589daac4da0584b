import ScriptLint.Proofs.Concrete.Errors
import ScriptLint.Proofs.Concrete.Source
import ScriptLint.Proofs.Registry.Places
import ScriptLint.Proofs.Text.Octets
import ScriptLint.Proofs.Text.Places

/-!
# The line of a problem

A parser counts octets, and so the line of an error is found by counting line feeds among the octets
before it.  The lines of nodes are found in another way: an octet is taken to its code point, and
the beginning of the line is searched for.  Both ways lead to **the same line**, also for an octet
inside a code point.

* `Source.line_position`: the line of an octet is the line of its code point.
* `Source.BeginsOn`: all nodes that begin at an octet begin on a line.
* `Registry.parse_of_problem`: a parse problem in a report comes from the parser.
* `Registry.analyze_of_hasError`: a document with an error is reported with the line of the first.
* `lines_agree`: lines of octets, of faults and of reports are lines of nodes.
-/

namespace ScriptLint

open Outcome (FailsWith)

namespace Concrete

namespace Source

variable {t : Text}

/-- With or without a table, an octet is taken to the code point that it **belongs to**. -/
theorem belongs_position {octet : Nat} (h : octet ≤ (Text.encode t).length) :
    Text.Belongs t octet (position t octet) := by
  rcases offset_cases h with ⟨hFast, hOk⟩ | ⟨hlt, -, hOk⟩
  · rw [position_eq hOk]
    exact Text.belongs_self hFast (by omega)
  · rw [position_eq hOk]
    exact Text.belongs_of_charOffsets (List.getElem?_eq_getElem hlt)

theorem lineOf_ofText (t : Text) (octet : Nat) :
    (ofText t).lineOf octet = ((Text.encode t).take octet).count 10 + 1 := by
  simp [lineOf, ofText]

/-- The line of an octet is **the line of its code point**. -/
theorem line_position {octet : Nat} (h : octet ≤ (Text.encode t).length) :
    (Place.ofOffset (Text.lineStarts t) (position t octet)).line = (ofText t).lineOf octet := by
  rw [Place.ofOffset_eq, lineOf_ofText, (belongs_position h).count_take, ← Text.length_feedsBefore,
    ← Place.lineAt_eq_length]
  rfl

/-- Every concrete node in the text that begins at the octet has a span that begins on the
**line**. -/
def BeginsOn (t : Text) (octet : Nat) (line : Int) : Prop :=
  ∀ u : Tree, u.start = octet → u.start ≤ (Text.encode t).length →
    u.stop ≤ (Text.encode t).length →
      ∃ span, (ofText t).spanOf u = .ok span ∧ span.first.line = .int line

theorem beginsOn_lineOf (t : Text) (octet : Nat) :
    BeginsOn t octet ((ofText t).lineOf octet) := by
  rintro u rfl hStart hStop
  refine ⟨_, spanOf_ofText hStart hStop, ?_⟩
  exact congrArg Json.int (line_position hStart)

end Source

/-- The line of a fault is the one on which nodes begin that begin **where the first error
does**. -/
theorem beginsOn_of_parse {text : Text} {language : Language} {root : Tree} {message : Text}
    {line : Nat} (h : parse text language root = .error (.unparsed message (some line))) :
    ∃ e, root.firstError? = some e ∧ Source.BeginsOn text e.start line := by
  obtain ⟨-, -, hFault⟩ := parse_eq_unparsed_iff.mp h
  obtain ⟨e, he, rfl⟩ := Option.map_eq_some_iff.mp (line_of_parseFault hFault).symm
  exact ⟨e, he, Source.beginsOn_lineOf text e.start⟩

end Concrete

namespace Registry

/-! ### Problems in reports -/

variable {g : Registry} {parser : Parser} {request : Request} {language : Language}

/-- The fault of a detection is never one that is reported as a problem of the file. -/
theorem detect_fault (g : Registry) (tree : Option Ast.Node) (ctx : Context)
    (categories : List Category) :
    FailsWith (fun fault => Problem.ofFault? fault = none) (g.detect tree ctx categories) := by
  refine FailsWith.ite (.ok _) ?_
  cases tree with
  | none => exact .error rfl
  | some root => exact Detection.scan_fault _ _ _ _

/-- A problem of a file that is not blank is a **fault of the parser**. -/
theorem parser_fault_of_inspect
    (hCategories : ∀ fault, request.categories = .error fault → Problem.ofFault? fault = none)
    {fault : Fault} (h : g.inspect parser request language none = .error fault)
    {problem : Problem} (hProblem : Problem.ofFault? fault = some problem) :
    parser request.source language = .error fault := by
  rw [inspect] at h
  cases hTree : parser request.source language with
  | error fault' =>
    rw [hTree] at h
    cases h
    rfl
  | ok tree =>
    have hLater : FailsWith (fun fault => Problem.ofFault? fault = none)
        (request.categories >>= fun categories =>
          g.detect tree { filePath := request.filePath, language, source := request.source }
            categories) :=
      FailsWith.bind hCategories fun categories => g.detect_fault _ _ _
    rw [hTree] at h
    rw [hLater fault h] at hProblem
    cases hProblem

/-- A parse problem in a report comes from **the parser**. -/
theorem parse_of_problem
    (hCategories : ∀ fault, request.categories = .error fault → Problem.ofFault? fault = none)
    {report : Report} (h : g.analyze parser request none = .ok report) {problem : Problem}
    (hProblem : problem ∈ report.problems) (hKind : problem.kind = .parse) :
    ∃ language message line, parser request.source language = .error (.unparsed message line) ∧
      problem.line = line.map Int.ofNat := by
  rw [analyze] at h
  split at h
  · cases h
    rw [List.mem_singleton.mp hProblem] at hKind
    cases hKind
  · rename_i language _
    split at h
    · cases h
      cases hProblem
    · split at h
      · cases h
        cases hProblem
      · rename_i fault hFault
        split at h
        · rename_i problem' hOf
          cases h
          obtain rfl := List.mem_singleton.mp hProblem
          have hParser := parser_fault_of_inspect hCategories hFault hOf
          unfold Problem.ofFault? at hOf
          split at hOf
          · rename_i message line
            cases hOf
            exact ⟨language, message, line, hParser, rfl⟩
          · cases hOf
            cases hKind
          · cases hOf
        · cases h

/-- A document with an error is **reported** with the line of the first one. -/
theorem analyze_of_hasError (g : Registry) (request : Request) (root : Concrete.Tree)
    (hLanguage : (request.language <|> Language.ofPath? request.filePath) = some language)
    (hParser : language.hasParser = true) (hBlank : request.source.isBlank = false)
    (hError : root.hasError = true) :
    ∃ message, g.analyze (.ofTree (some root)) request none
      = .ok (.of request.filePath (some language) [] [⟨.parse, message,
          (Concrete.errorLine? (.ofText request.source) root).map Int.ofNat⟩]) := by
  have hFault := Concrete.parse_of_hasError request.source hParser hError
  have hInspect : g.inspect (.ofTree (some root)) request language none
      = .error (Concrete.parseFault language
          (Concrete.errorLine? (.ofText request.source) root)) := by
    rw [inspect, Parser.ofTree, hFault]
    rfl
  rw [analyze]
  simp only [hLanguage, hBlank, hInspect]
  exact ⟨_, rfl⟩

end Registry

open Concrete (parse Tree Source)

/-- **Lines of octets are lines of code points.**

* Every octet of a text, also one inside a code point, and the end of the text have a code point.
  Its line is one more than the number of line feeds among the octets before.
* If the fault of a document has a line, then the document has a first error, and every node in the
  text that begins at the same octet begins on this line.
* So does every node if a report has a parse problem with a line, whatever rules there are; only
  names that are no categories must not be reported as a parse problem themselves. -/
theorem lines_agree (text : Text) :
    (∀ octet ≤ (Text.encode text).length, ∃ i, (Source.ofText text).offset octet = .ok i ∧
      1 + (((Text.encode text).take octet).count 10 : Int)
        = (Place.ofOffset (Text.lineStarts text) i).line) ∧
    (∀ language root message line,
      parse text language root = .error (.unparsed message (some line)) →
        ∃ e, root.firstError? = some e ∧ Source.BeginsOn text e.start line) ∧
    ∀ (g : Registry) (request : Request) (root : Tree) (report : Report), request.source = text →
      (∀ fault, request.categories = .error fault → Problem.ofFault? fault = none) →
      g.analyze (.ofTree (some root)) request none = .ok report →
      ∀ problem ∈ report.problems, problem.kind = .parse → ∀ line ∈ problem.line,
        ∃ e, root.firstError? = some e ∧ Source.BeginsOn text e.start line := by
  refine ⟨fun octet h => ?_, fun language root message line => Concrete.beginsOn_of_parse, ?_⟩
  · refine ⟨Source.position text octet, Source.offset_ofText h, ?_⟩
    rw [Source.line_position h, Source.lineOf_ofText]
    omega
  · rintro g request root report rfl hCategories hReport problem hProblem hKind line hLine
    obtain ⟨language, message, line', hFault, hEq⟩ :=
      Registry.parse_of_problem hCategories hReport hProblem hKind
    rw [hEq] at hLine
    obtain ⟨line', rfl, rfl⟩ := Option.map_eq_some_iff.mp hLine
    exact Concrete.beginsOn_of_parse hFault

open Concrete (unclosed) in
/-- The first octet is inside `é`, and the second line has the error. -/
theorem lines_agree_unclosed :
    (∃ i, (Source.ofText "é\n(b").offset 1 = .ok i ∧
      1 + (((Text.encode "é\n(b").take 1).count 10 : Int)
        = (Place.ofOffset (Text.lineStarts "é\n(b") i).line) ∧
    ∃ report, Registry.empty.analyze (.ofTree (some unclosed))
        ⟨"é\n(b", "a.js", none, .ok []⟩ none = .ok report ∧
      ∃ problem ∈ report.problems, problem.kind = .parse ∧ problem.line = some 2 ∧
        ∃ e, unclosed.firstError? = some e ∧ Source.BeginsOn "é\n(b" e.start 2 := by
  obtain ⟨hOctets, -, hReports⟩ := lines_agree "é\n(b"
  have hLine : Concrete.errorLine? (.ofText "é\n(b") unclosed = some 2 := by
    rw [Concrete.errorLine?, Tree.firstError?_eq_find?]
    decide +kernel
  have hLanguage : ((none : Option Language) <|> Language.ofPath? "a.js") = some .javascript := by
    decide +kernel
  obtain ⟨message, hReport⟩ := Registry.analyze_of_hasError .empty
    ⟨"é\n(b", "a.js", none, .ok []⟩ unclosed hLanguage (by decide) (by decide +kernel)
    (by decide +kernel)
  rw [hLine] at hReport
  have hBegins := hReports .empty _ unclosed _ rfl (fun fault h => by cases h) hReport _
    List.mem_cons_self rfl 2 rfl
  exact ⟨hOctets 1 (by decide +kernel), _, hReport, _, List.mem_cons_self, rfl, rfl, hBegins⟩

end ScriptLint
