import ScriptLint.Proofs.Text.Count
import ScriptLint.Rule.Access

/-!
# Repeated paths

A member access is looked up again if its path occurs twice in the source, or if the path of what it
is read from occurs twice in front of a dot.  The first question is **not needed**: the second text
is a beginning of the path, so it occurs at least as often.

* `Text.join_splitAt`: the pieces between separators, joined again, are the text.
* `parentPath`: the path of what a member access is read from.
* `parentPath_begins`: in front of a dot it is a beginning of the path.
* `isRepeatedPath_iff_parent`: whether a path is repeated is decided by the path of the parent.
-/

namespace ScriptLint

namespace Text

theorem splitAt_ne_nil (separator : CodePoint) (t : Text) : splitAt separator t ≠ [] := by
  cases t with
  | nil => exact List.cons_ne_nil _ _
  | cons c t =>
    rw [splitAt]
    split
    · exact List.cons_ne_nil _ _
    · split <;> exact List.cons_ne_nil _ _

/-- The pieces between separators, joined again, are **the text**. -/
theorem join_splitAt (separator : CodePoint) (t : Text) :
    join [separator] (splitAt separator t) = t := by
  induction t with
  | nil => rfl
  | cons c t ih =>
    rw [splitAt]
    split
    · rename_i hNil
      exact absurd hNil (splitAt_ne_nil separator t)
    · rename_i piece pieces hPieces
      rw [hPieces] at ih
      split
      · rename_i hSeparator
        rw [join, ih, hSeparator]
        · rfl
        · exact List.cons_ne_nil _ _
      · cases pieces with
        | nil =>
          rw [join] at ih ⊢
          rw [ih]
        | cons next pieces =>
          rw [← ih]
          rfl

theorem join_concat (separator last : Text) : ∀ {pieces : List Text}, pieces ≠ [] →
    join separator (pieces ++ [last]) = join separator pieces ++ separator ++ last
  | [], h => absurd rfl h
  | [piece], _ => rfl
  | piece :: next :: pieces, _ => by
    have ih := join_concat separator last (List.cons_ne_nil next pieces)
    rw [List.cons_append] at ih
    show piece ++ separator ++ join separator (next :: (pieces ++ [last])) = _
    rw [ih]
    simp only [join, List.append_assoc]

end Text

namespace Access

open Ast (Node)

/-- The path of what a member access is read from: all parts of its path but the last. -/
def parentPath (path : Text) : Text := Text.join "." (Text.splitAt '.' path).dropLast

/-- In front of a dot the path of the parent is a **beginning of the path**. -/
theorem parentPath_begins {path : Text} (hParts : 2 ≤ (Text.splitAt '.' path).length) :
    parentPath path ++ ("." : Text) <+: path := by
  have hNonempty := Text.splitAt_ne_nil '.' path
  have hInit : (Text.splitAt '.' path).dropLast ≠ [] := by
    rw [← List.length_pos_iff, List.length_dropLast]
    omega
  refine ⟨(Text.splitAt '.' path).getLast hNonempty, ?_⟩
  rw [parentPath, ← Text.join_concat _ _ hInit, List.dropLast_append_getLast]
  exact Text.join_splitAt '.' path

/-- A path with a parent is repeated if it occurs twice, or if its parent does. -/
theorem isRepeatedPath_iff_or {path : Text} (hParts : 2 ≤ (Text.splitAt '.' path).length)
    (hParent : parentPath path ≠ []) (source : Text) :
    isRepeatedPath path source = true ↔
      1 < Text.count path source ∨ 1 < Text.count (parentPath path ++ ("." : Text)) source := by
  have hPath : path.isEmpty = false := by
    cases path with
    | nil => exact absurd hParts (by decide)
    | cons c path => rfl
  have hSome : (parentPath path).isEmpty = false := by
    rw [List.isEmpty_eq_false_iff]
    exact hParent
  simp only [isRepeatedPath, hPath, Bool.false_eq_true, if_false, if_neg (Nat.not_lt.mpr hParts)]
  rw [← parentPath, hSome]
  simp

theorem test_of_member {n : Node} {ctx : Context} (hMember : n.is .memberExpression = true)
    (hLoop : ctx.insideLoop false n = .ok true) {path : Text}
    (hPath : Ast.propertyPath (.node n) = .ok path) :
    test n ctx = .ok (isRepeatedPath path ctx.source || decide (deep ≤ Ast.memberDepth n)) := by
  rw [test, hMember, hLoop, hPath]
  rfl

/-- **Repeated paths are decided by the parent.**  For a member access whose path has a parent, the
path occurs at most as often as the path of the parent in front of a dot.  So the path is repeated
if and only if the second text occurs twice, and that means once and then again behind the end of
this occurrence.  Inside a loop the rule has no other reason for a remark than this and the depth of
the access. -/
theorem isRepeatedPath_iff_parent (n : Node) (path : Text)
    (hMember : n.is .memberExpression = true) (hPath : Ast.propertyPath (.node n) = .ok path)
    (hParts : 2 ≤ (Text.splitAt '.' path).length) (hParent : parentPath path ≠ [])
    (source : Text) :
    let base := parentPath path ++ ("." : Text)
    Text.count path source ≤ Text.count base source ∧
      (isRepeatedPath path source = true ↔ 2 ≤ Text.count base source) ∧
      (isRepeatedPath path source = true ↔
        ∃ i j, i + base.length ≤ j ∧ base <+: source.drop i ∧ base <+: source.drop j) ∧
      ∀ ctx : Context, ctx.source = source → ctx.insideLoop false n = .ok true →
        test n ctx = .ok (decide (2 ≤ Text.count base source) || deep ≤ Ast.memberDepth n) := by
  intro base
  have hBase : base ≠ [] := List.append_ne_nil_of_left_ne_nil hParent _
  have hCount := Text.count_le_of_prefix hBase (parentPath_begins hParts) source
  have hRepeated : isRepeatedPath path source = true ↔ 2 ≤ Text.count base source := by
    rw [isRepeatedPath_iff_or hParts hParent]
    exact ⟨fun h => h.elim (fun h => Nat.le_trans h hCount) id, .inr⟩
  refine ⟨hCount, hRepeated, hRepeated.trans (Text.two_le_count_iff hBase source), ?_⟩
  rintro ctx rfl hLoop
  have hVerdict : isRepeatedPath path ctx.source = decide (2 ≤ Text.count base ctx.source) := by
    rw [Bool.eq_iff_iff, hRepeated, decide_eq_true_iff]
  rw [test_of_member hMember hLoop hPath, hVerdict]

/-- The member access `a.a.b`. -/
def selfNamed : Node :=
  let span : Ast.Span := ⟨.int 0, .int 5, ⟨.int 1, .int 0⟩, ⟨.int 1, .int 5⟩⟩
  let name (row : Nat) (t : Text) := Node.build ⟨[row], 0⟩ (.known .identifier) span
    [(.name, .value (.str t))]
  let access (row : Nat) (object property : Node) := Node.build ⟨[row], 0⟩
    (.known .memberExpression) span [(.object, .node object), (.property, .node property)]
  access 1 (access 2 (name 3 "a") (name 4 "a")) (name 5 "b")

/-- In `a.a.a.b` the text `a.a.` stands at two places, but the second is inside the first
occurrence. -/
theorem isRepeatedPath_iff_parent_selfNamed :
    selfNamed.is .memberExpression = true ∧ Ast.propertyPath (.node selfNamed) = .ok "a.a.b" ∧
      isRepeatedPath "a.a.b" "a.a.a.b" = false := by
  have hPath : Ast.propertyPath (.node selfNamed) = .ok "a.a.b" := by
    decide +kernel
  obtain ⟨-, hRepeated, -⟩ := isRepeatedPath_iff_parent selfNamed "a.a.b" rfl hPath (by decide)
    (by decide) "a.a.a.b"
  refine ⟨rfl, hPath, ?_⟩
  rw [Bool.eq_false_iff, Ne, hRepeated]
  decide +kernel

end Access

end ScriptLint
