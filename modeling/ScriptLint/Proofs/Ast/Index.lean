import ScriptLint.Ast.Index
import ScriptLint.Proofs.Ast.Walk

/-!
# An index that is still growing

An index that has been filled with the first nodes of a walk answers for each of them as the index
of the whole tree does.  Parents come first, so the parents of a visited node have been visited,
and with them the whole way to the root.

* `Index.ofLinks`: the index of a list of nodes with their parents.
* `ofLinks_get?`: it has for every listed node the parent that it is listed with.
* `Lineage`: the parents of a node up to the root, without a bound on their number.
  `exists_lineage` finds them among the nodes listed so far.
* `SameView`: two indexes tell the same about a node and all around it.
* `sameView_ofLinks`: an index filled with the beginning of a walk and the index of the whole walk
  tell the same about every node that has been visited.
-/

namespace ScriptLint.Ast

namespace Index

/-- The index of a list of nodes with their parents. -/
def ofLinks (links : List (Node × Option Node)) : Index :=
  links.foldl (fun ix e => ix.add e.1 e.2) empty

theorem build_eq_ofLinks (root : Node) : build root = ofLinks root.withParents := rfl

theorem ofLinks_snoc (links : List (Node × Option Node)) (n : Node) (parent : Option Node) :
    ofLinks (links ++ [(n, parent)]) = (ofLinks links).add n parent := by
  rw [ofLinks, List.foldl_append]
  rfl

/-! ### What an index knows -/

/-- Every listed node is found with the parent that it is listed with. -/
theorem ofLinks_get? : ∀ {links : List (Node × Option Node)},
    (links.map fun e => e.1.id).Nodup → ∀ e ∈ links, (ofLinks links).links[e.1.id]? = some e.2 := by
  intro links
  induction links using List.reverseRecOn with
  | nil => intro _ e he; simp at he
  | append_singleton links l ih =>
    intro hIds e he
    rw [List.map_append, List.nodup_append] at hIds
    rw [ofLinks_snoc, add, Std.HashMap.getElem?_insert]
    rcases List.mem_append.mp he with he | he
    · -- an earlier node has another identity than the last one
      have hne : l.1.id ≠ e.1.id :=
        (hIds.2.2 _ (List.mem_map.mpr ⟨e, he, rfl⟩) _ (List.mem_singleton_self _)).symm
      rw [if_neg (by simpa using hne)]
      exact ih hIds.1 e he
    · rw [List.mem_singleton.mp he, if_pos (beq_self_eq_true _)]

theorem ofLinks_parent? {links : List (Node × Option Node)}
    (hIds : (links.map fun e => e.1.id).Nodup) {e : Node × Option Node} (he : e ∈ links) :
    (ofLinks links).parent? e.1 = e.2 := by
  rw [parent?, ofLinks_get? hIds e he, Option.join_some]

theorem ofLinks_knows {links : List (Node × Option Node)}
    (hIds : (links.map fun e => e.1.id).Nodup) {e : Node × Option Node} (he : e ∈ links) :
    (ofLinks links).knows e.1 = true := by
  rw [knows, Std.HashMap.contains_eq_isSome_getElem?, ofLinks_get? hIds e he, Option.isSome_some]

theorem build_knows {root n : Node} (h : root.DistinctIds) (hn : n ∈ root.preorder) :
    (build root).knows n = true := by
  rw [← root.map_fst_withParents] at hn
  obtain ⟨e, he, rfl⟩ := List.mem_map.mp hn
  rw [build_eq_ofLinks]
  exact ofLinks_knows h.nodup_links he

/-- An index knows only what has been listed. -/
theorem exists_of_ofLinks_get? {i : NodeId} {parent : Option Node} :
    ∀ {links : List (Node × Option Node)}, (ofLinks links).links[i]? = some parent →
      ∃ n, (n, parent) ∈ links ∧ n.id = i := by
  intro links
  induction links using List.reverseRecOn with
  | nil => intro h; simp [ofLinks, empty] at h
  | append_singleton links l ih =>
    intro h
    rw [ofLinks_snoc, add, Std.HashMap.getElem?_insert] at h
    by_cases hi : l.1.id = i
    · rw [if_pos (beq_iff_eq.mpr hi), Option.some.injEq] at h
      exact ⟨l.1, by rw [← h]; simp, hi⟩
    · rw [if_neg (by simpa using hi)] at h
      obtain ⟨n, hn, hid⟩ := ih h
      exact ⟨n, List.mem_append_left _ hn, hid⟩

theorem size_ofLinks : ∀ {links : List (Node × Option Node)},
    (links.map fun e => e.1.id).Nodup → (ofLinks links).links.size = links.length := by
  intro links
  induction links using List.reverseRecOn with
  | nil => intro _; rfl
  | append_singleton links l ih =>
    intro hIds
    rw [List.map_append, List.nodup_append] at hIds
    have hNew : ¬ l.1.id ∈ (ofLinks links).links := by
      intro hm
      obtain ⟨q, hq⟩ := Option.isSome_iff_exists.mp (Std.HashMap.mem_iff_isSome_getElem?.mp hm)
      obtain ⟨n, hn, hid⟩ := exists_of_ofLinks_get? hq
      exact hIds.2.2 _ (List.mem_map.mpr ⟨(n, q), hn, rfl⟩) _ (List.mem_singleton_self _) hid
    rw [ofLinks_snoc, add, Std.HashMap.size_insert, if_neg hNew, ih hIds.1, List.length_append]
    rfl

/-! ### The way to the root -/

/-- The parents of a node in an index, up to one that has no parent. -/
inductive Lineage (ix : Index) : Node → List Node → Prop
  | root {n : Node} : ix.parent? n = none → Lineage ix n []
  | child {n p : Node} {above : List Node} :
      ix.parent? n = some p → Lineage ix p above → Lineage ix n (p :: above)

/-- With enough room the ancestors are the whole lineage. -/
theorem Lineage.ancestorsWithin_eq {ix : Index} {n : Node} {above : List Node}
    (h : Lineage ix n above) : ∀ {fuel : Nat}, above.length ≤ fuel →
      ix.ancestorsWithin fuel n = above := by
  induction h with
  | root hp =>
    intro fuel _
    cases fuel with
    | zero => rfl
    | succ fuel => rw [ancestorsWithin, hp]
  | child hp _ ih =>
    intro fuel hf
    cases fuel with
    | zero => simp at hf
    | succ fuel =>
      rw [ancestorsWithin, hp]
      exact congrArg _ (ih (Nat.le_of_succ_le_succ hf))

/-- A listed node has a **lineage** among the listed nodes, and every index with the listed parents
has it. -/
theorem exists_lineage {links : List (Node × Option Node)} (h : ParentsFirst links) :
    ∀ e ∈ links, ∃ above : List Node, above.length < links.length ∧
      (∀ a ∈ above, a ∈ links.map (·.1)) ∧
      ∀ ix : Index, (∀ l ∈ links, ix.parent? l.1 = l.2) → Lineage ix e.1 above := by
  induction h with
  | nil => intro e he; simp at he
  | @snoc links n parent _ hParent ih =>
    intro e he
    have hLength : (links ++ [(n, parent)]).length = links.length + 1 := by simp
    have hOld : ∀ a ∈ links.map (·.1), a ∈ (links ++ [(n, parent)]).map (·.1) := by
      intro a ha
      rw [List.map_append]
      exact List.mem_append_left _ ha
    rcases List.mem_append.mp he with he | he
    · obtain ⟨above, hLt, hMem, hLineage⟩ := ih e he
      refine ⟨above, by omega, fun a ha => hOld a (hMem a ha), fun ix hix => ?_⟩
      exact hLineage ix (fun l hl => hix l (List.mem_append_left _ hl))
    · rw [List.mem_singleton.mp he]
      cases parent with
      | none =>
        refine ⟨[], by simp, by simp, fun ix hix => .root ?_⟩
        exact hix (n, none) (by simp)
      | some p =>
        -- the parent has been listed, and its lineage is at hand
        obtain ⟨⟨p', q⟩, hl, rfl⟩ := List.mem_map.mp (hParent p rfl)
        obtain ⟨above, hLt, hMem, hLineage⟩ := ih (p', q) hl
        refine ⟨p' :: above, by rw [hLength, List.length_cons]; omega, ?_, fun ix hix => ?_⟩
        · intro a ha
          rcases List.mem_cons.mp ha with rfl | ha
          · exact hOld a (hParent a rfl)
          · exact hOld a (hMem a ha)
        · refine .child (hix (n, some p') (by simp)) ?_
          exact hLineage ix (fun l hl => hix l (List.mem_append_left _ hl))

/-! ### Two indexes -/

/-- Two indexes **tell the same** about a node, its ancestors, and the parents of these. -/
structure SameView (ix iy : Index) (n : Node) : Prop where
  left : ix.knows n = true
  right : iy.knows n = true
  parent : ix.parent? n = iy.parent? n
  ancestors : ix.ancestors n = iy.ancestors n
  around : ∀ a ∈ iy.ancestors n, ix.parent? a = iy.parent? a

/-- An index filled with the beginning of a walk tells the same about the visited nodes as the
index of the whole walk. -/
theorem sameView_ofLinks {done after : List (Node × Option Node)}
    (hFirst : ParentsFirst (done ++ after))
    (hIds : ((done ++ after).map fun e => e.1.id).Nodup) {e : Node × Option Node} (he : e ∈ done) :
    SameView (ofLinks done) (ofLinks (done ++ after)) e.1 := by
  have hDone : (done.map fun e => e.1.id).Nodup := by
    rw [List.map_append, List.nodup_append] at hIds
    exact hIds.1
  have hPart : ∀ l ∈ done, (ofLinks done).parent? l.1 = l.2 := fun l hl => ofLinks_parent? hDone hl
  have hFull : ∀ l ∈ done, (ofLinks (done ++ after)).parent? l.1 = l.2 :=
    fun l hl => ofLinks_parent? hIds (List.mem_append_left _ hl)
  obtain ⟨above, hLt, hMem, hLineage⟩ := exists_lineage hFirst.left e he
  have hSmall : (ofLinks done).ancestors e.1 = above := by
    refine (hLineage _ hPart).ancestorsWithin_eq ?_
    rw [size_ofLinks hDone]
    omega
  have hLarge : (ofLinks (done ++ after)).ancestors e.1 = above := by
    refine (hLineage _ hFull).ancestorsWithin_eq ?_
    rw [size_ofLinks hIds, List.length_append]
    omega
  refine ⟨ofLinks_knows hDone he, ofLinks_knows hIds (List.mem_append_left _ he), ?_, ?_, ?_⟩
  · rw [hPart e he, hFull e he]
  · rw [hSmall, hLarge]
  · intro a ha
    rw [hLarge] at ha
    obtain ⟨l, hl, rfl⟩ := List.mem_map.mp (hMem a ha)
    rw [hPart l hl, hFull l hl]

end Index

end ScriptLint.Ast
