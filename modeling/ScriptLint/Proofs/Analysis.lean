import ScriptLint.Analysis
import ScriptLint.Proofs.Concrete.Integral
import ScriptLint.Proofs.Registry.Isolation

/-!
# Every file gets a score

A file that cannot be parsed is reported with a problem, and any other file with its matches.

* `Report.Consistent`: the score of a report is the one of its matches, and a report with a problem
  has no matches and the highest score.  `analyze_consistent` says that all reports are like this.
* `parse_cases`: a document becomes an integral tree, or the fault is one that is reported.
* `analyze_has_report`: the analysis of a document has a report.
-/

namespace ScriptLint

open Ast (Node)

/-- The score is the one of the matches, and a problem stands alone with the highest score. -/
structure Report.Consistent (r : Report) : Prop where
  atMostOne : r.problems.length ≤ 1
  noMatches : r.problems ≠ [] → r.found = [] ∧ r.score.value = 100 ∧ r.score.label = .excellent
  score : r.score = (Assessment.ofMatches r.found).score
  assessment : r.assessment = some (Assessment.ofMatches r.found)

theorem Score.ofMatches_nil :
    (Score.ofMatches []).value = 100 ∧ (Score.ofMatches []).label = .excellent := by
  decide +kernel

theorem Report.consistent_matches (path : Text) (language : Option Language) (ms : List Match) :
    (Report.of path language ms []).Consistent where
  atMostOne := Nat.zero_le 1
  noMatches := fun h => absurd rfl h
  score := rfl
  assessment := rfl

theorem Report.consistent_problem (path : Text) (language : Option Language) (problem : Problem) :
    (Report.of path language [] [problem]).Consistent where
  atMostOne := Nat.le_refl 1
  noMatches := fun _ => ⟨rfl, Score.ofMatches_nil⟩
  score := rfl
  assessment := rfl

namespace Registry

/-- Whatever is analysed, a report is consistent. -/
theorem analyze_consistent {g : Registry} {parser : Parser} {request : Request}
    {tree : Option Node} {report : Report} (h : g.analyze parser request tree = .ok report) :
    report.Consistent := by
  rw [analyze] at h
  split at h
  · cases h
    exact Report.consistent_problem _ _ _
  · split at h
    · cases h
      exact Report.consistent_matches _ _ _
    · split at h
      · cases h
        exact Report.consistent_matches _ _ _
      · split at h
        · cases h
          exact Report.consistent_problem _ _ _
        · cases h

/-- A document becomes an integral tree, or its fault **is reported**. -/
theorem parse_cases (text : Text) (language : Language) {root : Concrete.Tree}
    (hKind : root.kind = "program") (hRange : root.InRange (Text.encode text).length) :
    (∃ n, Concrete.parse text language root = .ok (some n) ∧ n.Integral) ∨
      ∃ fault problem, Concrete.parse text language root = .error fault ∧
        Problem.ofFault? fault = some problem := by
  rw [Concrete.parse, Concrete.checkLanguage]
  by_cases hParser : language.hasParser = true
  · rw [if_pos hParser]
    by_cases hError : root.hasError = true
    · refine .inr ⟨Concrete.parseFault language (Concrete.errorLine? (.ofText text) root), _, ?_, rfl⟩
      simp only [if_pos hError]
      rfl
    · obtain ⟨o, ho, n, rfl, hIntegral⟩ := Concrete.convert_program hKind hRange
      refine .inl ⟨n, ?_, hIntegral⟩
      simp only [if_neg hError, ho]
      rfl
  · rw [if_neg hParser]
    exact .inr ⟨_, _, rfl, rfl⟩

/-- A document that is not blank gets its matches, or its fault is reported. -/
theorem inspect_cases (g : Registry) {request : Request} (language : Language)
    {root : Concrete.Tree} {categories : List Category} (hKind : root.kind = "program")
    (hRange : root.InRange (Text.encode request.source).length)
    (hCategories : request.categories = .ok categories) :
    (∃ ms, g.inspect (.ofTree (some root)) request language none = .ok ms) ∨
      ∃ fault problem, g.inspect (.ofTree (some root)) request language none = .error fault ∧
        Problem.ofFault? fault = some problem := by
  rcases parse_cases request.source language hKind hRange with
    ⟨n, hn, hIntegral⟩ | ⟨fault, problem, hFault, hProblem⟩
  · let ctx : Context := { filePath := request.filePath, language, source := request.source }
    have hDetect := g.detect_eq_findings ctx categories hIntegral
    refine .inl ⟨_, Eq.trans ?_ hDetect⟩
    rw [inspect, Parser.ofTree, hn, hCategories]
    rfl
  · refine .inr ⟨fault, problem, ?_, hProblem⟩
    rw [inspect, Parser.ofTree, hFault]
    rfl

/-- **Every file gets a score.**  Whatever the rules of the registry are, whatever text is analysed
under whatever path, language and categories, and whatever document the parser finds, if only its
octets are in the text: the analysis has a report, and the report is consistent. -/
theorem analyze_has_report (g : Registry) (request : Request) (root : Concrete.Tree)
    (categories : List Category) (hKind : root.kind = "program")
    (hRange : root.InRange (Text.encode request.source).length)
    (hCategories : request.categories = .ok categories) :
    ∃ report, g.analyze (.ofTree (some root)) request none = .ok report ∧ report.Consistent := by
  have hReport : ∃ report, g.analyze (.ofTree (some root)) request none = .ok report := by
    rw [analyze]
    split
    · exact ⟨_, rfl⟩
    · rename_i language _
      split
      · exact ⟨_, rfl⟩
      · rcases g.inspect_cases language hKind hRange hCategories with
          ⟨ms, hms⟩ | ⟨fault, problem, hFault, hProblem⟩
        · rw [hms]
          exact ⟨_, rfl⟩
        · rw [hFault]
          simp only [hProblem]
          exact ⟨_, rfl⟩
  obtain ⟨report, hReport⟩ := hReport
  exact ⟨report, hReport, analyze_consistent hReport⟩

theorem analyze_has_report_bracketed :
    Concrete.bracketed.kind = "program" ∧
      Concrete.bracketed.InRange (Text.encode "(a);").length ∧
      ∃ report, (Registry.empty.run [.registerAll Rule.catalog]).1.analyze
          (.ofTree (some Concrete.bracketed)) ⟨"(a);", "a.js", none, .ok []⟩ none = .ok report ∧
        report.Consistent := by
  have hRange : Concrete.bracketed.InRange (Text.encode "(a);").length := by decide +kernel
  refine ⟨rfl, hRange, ?_⟩
  exact analyze_has_report _ ⟨"(a);", "a.js", none, .ok []⟩ Concrete.bracketed [] rfl hRange rfl

end Registry

end ScriptLint
