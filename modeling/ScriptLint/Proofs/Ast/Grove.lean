import Mathlib.Data.List.Flatten
import Mathlib.Data.List.Perm.Subperm
import Mathlib.Logic.Relation
import ScriptLint.Proofs.Ast.Index

/-!
# Trees without shared nodes

A list of trees is a **grove** if no two nodes of the trees share an identity.  A node built from
the trees of a grove is the root of a tree without shared nodes.

* `Grove`: the trees share no identity, and all identities have a property.  Groves with properties
  that exclude each other are put together by `Grove.append`.
* `children_build_subperm`: a node that is built takes each of the given nodes at most once.
  `Grove.build` follows.
* `mem_preorder_iff`: the walk visits what can be reached from child to child.
* `Index.build_parent?`: in a tree without shared nodes every child has its parent in the index.
-/

namespace ScriptLint.Ast

/-! ### Groves -/

/-- No two nodes of the trees share an identity, and all identities have the property `T`. -/
structure Grove (T : NodeId → Prop) (ns : List Node) : Prop where
  distinct : ((ns.flatMap Node.preorder).map Node.id).Nodup
  all : ∀ m ∈ ns.flatMap Node.preorder, T m.id

namespace Grove

variable {T U : NodeId → Prop} {ns ms : List Node}

theorem nil (T : NodeId → Prop) : Grove T [] where
  distinct := List.nodup_nil
  all := fun m hm => by cases hm

theorem mono (h : Grove T ns) (hTU : ∀ i, T i → U i) : Grove U ns where
  distinct := h.distinct
  all := fun m hm => hTU m.id (h.all m hm)

theorem append (h : Grove T ns) (h' : Grove U ms) (hApart : ∀ i, T i → ¬ U i) :
    Grove (fun i => T i ∨ U i) (ns ++ ms) where
  distinct := by
    rw [List.flatMap_append, List.map_append, List.nodup_append]
    refine ⟨h.distinct, h'.distinct, fun i hi j hj hij => ?_⟩
    obtain ⟨n, hn, rfl⟩ := List.mem_map.mp hi
    obtain ⟨m, hm, rfl⟩ := List.mem_map.mp hj
    refine hApart n.id (h.all n hn) ?_
    rw [hij]
    exact h'.all m hm
  all := by
    intro m hm
    rw [List.flatMap_append, List.mem_append] at hm
    exact hm.imp (h.all m) (h'.all m)

theorem subperm (h : Grove T ms) (hSub : ns.Subperm ms) : Grove T ns := by
  obtain ⟨ls, hPerm, hls⟩ := hSub
  have hNodes := (hPerm.flatMap_right Node.preorder).map Node.id
  have hIds := (hls.flatMap Node.preorder).map Node.id
  refine ⟨hNodes.nodup_iff.mp (h.distinct.sublist hIds), fun m hm => h.all m ?_⟩
  exact (hls.flatMap Node.preorder).subset ((hPerm.flatMap_right Node.preorder).mem_iff.mpr hm)

/-- A node on top of a grove. -/
theorem root {n : Node} (h : Grove T n.children) (hId : ¬ T n.id) :
    Grove (fun i => i = n.id ∨ T i) [n] where
  distinct := by
    rw [List.flatMap_singleton, n.preorder_eq, List.map_cons, List.nodup_cons]
    refine ⟨fun hMem => ?_, h.distinct⟩
    obtain ⟨m, hm, hEq⟩ := List.mem_map.mp hMem
    rw [← hEq] at hId
    exact hId (h.all m hm)
  all := by
    intro m hm
    rw [List.flatMap_singleton, n.preorder_eq, List.mem_cons] at hm
    rcases hm with rfl | hm
    · exact .inl rfl
    · exact .inr (h.all m hm)

theorem distinctIds {n : Node} (h : Grove T [n]) : n.DistinctIds := by
  have hIds := h.distinct
  rwa [List.flatMap_singleton] at hIds

end Grove

/-! ### Built nodes -/

/-- No construct has a field twice. -/
theorem Kind.nodup_fields (k : Kind) : (k.fields.map (·.1)).Nodup := by
  cases k with
  | known c => cases c <;> decide
  | other t => exact List.nodup_singleton _

/-- The nodes that the given fields hold. -/
def givenNodes (given : List (Field × Slot)) : List Node := given.flatMap fun s => s.2.children

@[simp]
theorem givenNodes_nil : givenNodes [] = [] := rfl

@[simp]
theorem givenNodes_cons (f : Field) (s : Slot) (given : List (Field × Slot)) :
    givenNodes ((f, s) :: given) = s.children ++ givenNodes given :=
  List.flatMap_cons

@[simp]
theorem givenNodes_append (given more : List (Field × Slot)) :
    givenNodes (given ++ more) = givenNodes given ++ givenNodes more :=
  List.flatMap_append

namespace Slot

@[simp]
theorem children_node (n : Node) : (node n).children = [n] := rfl

@[simp]
theorem children_nodes (ns : List Node) : (nodes ns).children = ns := rfl

@[simp]
theorem children_value (v : Json) : (value v).children = [] := rfl

theorem children_ofOption (o : Option Node) : (ofOption o).children = o.toList := by
  cases o <;> rfl

end Slot

/-- What a field holds is among the children. -/
theorem Node.mem_children_of_mem_slot {n c : Node} {f : Field}
    (h : c ∈ (n.slot f).children) : c ∈ n.children := by
  rw [slot, slot?] at h
  cases hl : n.slots.lookup f with
  | none =>
    rw [hl] at h
    cases h
  | some s =>
    rw [hl, Option.getD_some] at h
    obtain ⟨before, after, hEq, _⟩ := List.lookup_eq_some_iff.mp hl
    exact List.mem_flatMap.mpr ⟨(f, s), by simp [hEq], h⟩

theorem lookup_middle_of_ne {before after : List (Field × Slot)} {f g : Field} {s : Slot}
    (h : g ≠ f) : (before ++ (f, s) :: after).lookup g = (before ++ after).lookup g := by
  rw [List.lookup_append, List.lookup_append, List.lookup_cons, beq_eq_false_iff_ne.mpr h]

/-- Looking up different fields takes each of the given nodes at most once. -/
theorem lookup_children_subperm (fs : List (Field × Blank)) :
    ∀ given : List (Field × Slot), (fs.map (·.1)).Nodup →
      (fs.flatMap fun f => ((given.lookup f.1).getD (.ofBlank f.2)).children).Subperm
        (givenNodes given) := by
  induction fs with
  | nil => intro given _; exact List.nil_subperm
  | cons f fs ih =>
    intro given hNodup
    rw [List.map_cons, List.nodup_cons] at hNodup
    rw [List.flatMap_cons]
    cases hl : given.lookup f.1 with
    | none =>
      have hBlank : (Slot.ofBlank f.2).children = [] := by cases f.2 <;> rfl
      rw [Option.getD_none, hBlank, List.nil_append]
      exact ih given hNodup.2
    | some s =>
      -- the slot is taken out, and the other fields are looked up among the rest
      obtain ⟨before, after, rfl, _⟩ := List.lookup_eq_some_iff.mp hl
      have hRest : (fs.flatMap fun g =>
            (((before ++ (f.1, s) :: after).lookup g.1).getD (.ofBlank g.2)).children)
          = fs.flatMap fun g => (((before ++ after).lookup g.1).getD (.ofBlank g.2)).children := by
        refine List.flatMap_congr fun g hg => ?_
        have hNe : g.1 ≠ f.1 := fun hEq => hNodup.1 (hEq ▸ List.mem_map_of_mem hg)
        rw [lookup_middle_of_ne hNe]
      have hMove : (before ++ (f.1, s) :: after).Perm ((f.1, s) :: (before ++ after)) :=
        List.perm_middle
      have hNodes : (givenNodes (before ++ (f.1, s) :: after)).Perm
          (s.children ++ givenNodes (before ++ after)) :=
        hMove.flatMap_right _
      rw [hRest, Option.getD_some]
      exact ((List.subperm_append_left _).mpr (ih _ hNodup.2)).trans hNodes.symm.subperm

/-- A node that is built takes each of the given nodes **at most once**. -/
theorem Node.children_build_subperm (id : NodeId) (kind : Kind) (span : Span)
    (given : List (Field × Slot)) :
    (build id kind span given).children.Subperm (givenNodes given) := by
  rw [children, build, slots, List.flatMap_map]
  exact lookup_children_subperm kind.fields given kind.nodup_fields

theorem Node.mem_givenNodes_of_mem_children {id : NodeId} {kind : Kind} {span : Span}
    {given : List (Field × Slot)} {c : Node} (h : c ∈ (build id kind span given).children) :
    c ∈ givenNodes given :=
  (children_build_subperm id kind span given).subset h

/-- A node that is built from the nodes of a grove shares no identity with them or among them. -/
theorem Grove.build {T : NodeId → Prop} {id : NodeId} {given : List (Field × Slot)}
    (h : Grove T (givenNodes given)) (hId : ¬ T id) (kind : Kind) (span : Span) :
    Grove (fun i => i = id ∨ T i) [.build id kind span given] :=
  (h.subperm (Node.children_build_subperm id kind span given)).root hId

/-! ### Walks and parents -/

/-- A walk visits what can be reached **from child to child**. -/
theorem Node.mem_preorder_iff {n m : Node} :
    m ∈ n.preorder ↔ Relation.ReflTransGen (fun p c => c ∈ p.children) n m := by
  constructor
  · intro hm
    have hVisit : ∀ s : List Node, ∀ m ∈ visit s,
        ∃ n ∈ s, Relation.ReflTransGen (fun p c => c ∈ p.children) n m := by
      intro s
      induction s using visit.induct with
      | case1 => intro m hm; rw [visit] at hm; cases hm
      | case2 n s ih =>
        intro m hm
        rw [visit, List.mem_cons] at hm
        rcases hm with rfl | hm
        · exact ⟨m, List.mem_cons_self, .refl⟩
        · obtain ⟨c, hc, hReach⟩ := ih m hm
          rcases List.mem_append.mp hc with hc | hc
          · exact ⟨n, List.mem_cons_self, .head hc hReach⟩
          · exact ⟨c, List.mem_cons_of_mem _ hc, hReach⟩
    obtain ⟨n', hn', hReach⟩ := hVisit [n] m hm
    rwa [List.mem_singleton.mp hn'] at hReach
  · intro hReach
    induction hReach using Relation.ReflTransGen.head_induction_on with
    | refl => exact m.mem_preorder_self
    | head hc _ ih =>
      rw [preorder_eq]
      exact List.mem_cons_of_mem _ (List.mem_flatMap.mpr ⟨_, hc, ih⟩)

theorem subset_visitWithParents (s : List (Node × Option Node)) : s ⊆ visitWithParents s := by
  induction s using visitWithParents.induct with
  | case1 => exact List.nil_subset _
  | case2 n parent s ih =>
    rw [visitWithParents]
    refine List.cons_subset_cons _ fun e he => ih (List.mem_append_right _ he)

/-- What is visited has its children visited after it, with itself as the parent. -/
theorem mem_visitWithParents_of_child (s : List (Node × Option Node)) :
    ∀ e ∈ visitWithParents s, ∀ c ∈ e.1.children, (c, some e.1) ∈ visitWithParents s := by
  induction s using visitWithParents.induct with
  | case1 => intro e he; rw [visitWithParents] at he; cases he
  | case2 n parent s ih =>
    intro e he c hc
    rw [visitWithParents] at he ⊢
    refine List.mem_cons_of_mem _ ?_
    rcases List.mem_cons.mp he with rfl | he
    · refine subset_visitWithParents _ (List.mem_append_left _ ?_)
      exact List.mem_map.mpr ⟨c, hc, rfl⟩
    · exact ih e he c hc

namespace Index

/-- In a tree without shared nodes **every child has its parent** in the index. -/
theorem build_parent? {root p c : Node} (h : root.DistinctIds) (hp : p ∈ root.preorder)
    (hc : c ∈ p.children) : (build root).parent? c = some p := by
  rw [← root.map_fst_withParents] at hp
  obtain ⟨e, he, rfl⟩ := List.mem_map.mp hp
  rw [build_eq_ofLinks]
  exact ofLinks_parent? h.nodup_links (mem_visitWithParents_of_child _ e he c hc)

theorem build_parent?_root {root : Node} (h : root.DistinctIds) :
    (build root).parent? root = none := by
  rw [build_eq_ofLinks]
  exact ofLinks_parent? h.nodup_links (subset_visitWithParents _ List.mem_cons_self)

end Index

end ScriptLint.Ast
