import ScriptLint.Proofs.Ast.Grove
import ScriptLint.Proofs.Estree.Recursion

/-!
# No node is used twice

The nodes that an object becomes have identities at the path of the object or below it.  An object
is built from the nodes of its members, and different members are at different paths, so all nodes
of the result are different.

* `Under`, `Spread`, `Among`: where an identity is.
* `Reader.Orderly`: what a reader knows of the objects within an object is under their paths.
* `Orderly.build`: then what it builds is under the path of the object.
* `convert_yields_tree`: conversion is recursion, and its result is a tree.
-/

namespace ScriptLint.Estree

open Ast (Node NodeId Slot Field Kind Construct Span Grove givenNodes)
open Outcome (Ensures)

/-! ### Where identities are -/

/-- The identity is at the path or below it. -/
def Under (path : Path) (i : NodeId) : Prop := path <:+ i.path

/-- The identity is under a step from the path with number `k` or later. -/
def Spread (path : Path) (k : Nat) (i : NodeId) : Prop := ∃ j, k ≤ j ∧ Under (j :: path) i

/-- The identity is under a member with one of the names. -/
def Among (path : Path) (entries : Entries) (names : List Text) (i : NodeId) : Prop :=
  ∃ k name value, entries[k]? = some (name, value) ∧ name ∈ names ∧ Under (k :: path) i

section Places

variable {path : Path} {entries : Entries} {names : List Text} {i : NodeId}

theorem Under.up {k : Nat} (h : Under (k :: path) i) : Under path i :=
  (List.suffix_cons k path).trans h

theorem Under.step_eq {j k : Nat} (h : Under (j :: path) i) (h' : Under (k :: path) i) :
    j = k := by
  have hSuffix := List.suffix_of_suffix_length_le h h' (by simp)
  have hEq := hSuffix.eq_of_length (by simp)
  exact (List.cons.inj hEq).1

theorem Spread.under {k : Nat} (h : Spread path k i) : Under path i := by
  obtain ⟨j, _, hj⟩ := h
  exact hj.up

theorem not_spread_self (path : Path) (k part : Nat) : ¬ Spread path k ⟨path, part⟩ := by
  rintro ⟨j, _, hj⟩
  have hLength : path.length + 1 ≤ path.length := hj.length_le
  omega

theorem Among.spread (h : Among path entries names i) : Spread path 0 i := by
  obtain ⟨k, name, value, _, _, hk⟩ := h
  exact ⟨k, Nat.zero_le k, hk⟩

/-- A place is under the member of **one name** only. -/
theorem Among.exists_common {others : List Text} (h : Among path entries names i)
    (h' : Among path entries others i) : ∃ name ∈ names, name ∈ others := by
  obtain ⟨j, name, value, hj, hName, hUnder⟩ := h
  obtain ⟨k, name', value', hk, hName', hUnder'⟩ := h'
  obtain rfl := hUnder.step_eq hUnder'
  rw [hj, Option.some.injEq, Prod.mk.injEq] at hk
  rw [← hk.1] at hName'
  exact ⟨name, hName, hName'⟩

end Places

/-! ### Groves at places -/

section Groves

variable {path : Path} {entries : Entries} {ns ms : List Node}

theorem grove_spread_cons {k : Nat} (h : Grove (Under (k :: path)) ns)
    (h' : Grove (Spread path (k + 1)) ms) : Grove (Spread path k) (ns ++ ms) := by
  refine (h.append h' ?_).mono ?_
  · rintro i hi ⟨j, hj, hi'⟩
    have := hi.step_eq hi'
    omega
  · rintro i (hi | ⟨j, hj, hi⟩)
    · exact ⟨k, Nat.le_refl k, hi⟩
    · exact ⟨j, by omega, hi⟩

theorem grove_among_cons {name : Text} {names : List Text}
    (h : Grove (Among path entries [name]) ns) (h' : Grove (Among path entries names) ms)
    (hName : name ∉ names) : Grove (Among path entries (name :: names)) (ns ++ ms) := by
  refine (h.append h' ?_).mono ?_
  · intro i hi hi'
    obtain ⟨name', hMem, hMem'⟩ := hi.exists_common hi'
    rw [List.mem_singleton.mp hMem] at hMem'
    exact hName hMem'
  · rintro i (⟨k, n, v, hk, hn, hi⟩ | ⟨k, n, v, hk, hn, hi⟩)
    · exact ⟨k, n, v, hk, by simp [List.mem_singleton.mp hn], hi⟩
    · exact ⟨k, n, v, hk, List.mem_cons_of_mem _ hn, hi⟩

/-- The node of an object, made from what is elsewhere under its path. -/
theorem grove_made {T : NodeId → Prop} {given : List (Field × Slot)}
    (h : Grove T (givenNodes given)) (hUnder : ∀ i, T i → Under path i) (hSelf : ¬ T ⟨path, 0⟩)
    (kind : Kind) (span : Span) : Grove (Under path) [.build ⟨path, 0⟩ kind span given] := by
  refine (h.build hSelf kind span).mono ?_
  rintro i (rfl | hi)
  · exact List.suffix_refl path
  · exact hUnder i hi

theorem grove_made_spread {given : List (Field × Slot)}
    (h : Grove (Spread path 0) (givenNodes given)) (kind : Kind) (span : Span) :
    Grove (Under path) [.build ⟨path, 0⟩ kind span given] :=
  grove_made h (fun _ hi => hi.under) (not_spread_self path 0 0) kind span

theorem grove_made_among {names : List Text} {given : List (Field × Slot)}
    (h : Grove (Among path entries names) (givenNodes given)) (kind : Kind) (span : Span) :
    Grove (Under path) [.build ⟨path, 0⟩ kind span given] :=
  grove_made_spread (h.mono fun _ hi => hi.spread) kind span

end Groves

namespace Reader

/-- What the reader knows of the objects within the object at `path` is **under their paths**. -/
def Orderly (r : Reader) (path : Path) (entries : Entries) : Prop :=
  ∀ p e, (p, e) ∈ within path entries → ∀ n ∈ r.find? p, Grove (Under p) [n]

namespace Orderly

variable {r : Reader} {path : Path} {entries : Entries}

theorem inner (h : Orderly r path entries) {p : Path} {e : Entries}
    (hi : Inner path entries p e) : Orderly r p e :=
  fun q f hq => h q f (within_subset_of_inner hi hq)

theorem find? (h : Orderly r path entries) {p : Path} {e : Entries}
    (hi : Inner path entries p e) : Grove (Under p) (r.find? p).toList := by
  cases hn : r.find? p with
  | none => exact .nil _
  | some n => exact h p e (mem_within_of_inner hi) n hn

/-! ### Parts of an object -/

theorem itemObjects (items : List Json) : ∀ i : Nat,
    (∀ j e, items[j]? = some (.obj e) →
      Grove (Under ((i + j) :: path)) (r.find? ((i + j) :: path)).toList) →
    Grove (Spread path i) (r.known (Estree.itemObjects path i items)) := by
  induction items with
  | nil => intro i _; exact .nil _
  | cons item rest ih =>
    intro i hItems
    have hRest := ih (i + 1) fun j e hj => by
      have hNext := hItems (j + 1) e (by rwa [List.getElem?_cons_succ])
      rwa [Nat.add_right_comm i 1 j]
    cases item with
    | obj e =>
      have hFirst : Grove (Under (i :: path)) (r.known [(i :: path, e)]) := by
        rw [known_singleton]
        exact hItems 0 e rfl
      have hAll := grove_spread_cons hFirst hRest
      rwa [← known_append] at hAll
    | _ => exact grove_spread_cons (.nil _) hRest

/-- What a member has become is under the member. -/
theorem member (h : Orderly r path entries) {k : Nat} {name : Text} {value : Json}
    (hk : entries[k]? = some (name, value)) (hName : name ∉ detachedMembers) :
    Grove (Under (k :: path)) (r.known (memberObjects (k :: path) value)) := by
  cases value with
  | obj e =>
    rw [memberObjects, known_singleton]
    exact h.find? (.member hk hName)
  | arr items =>
    have hItems : ∀ j e, items[j]? = some (.obj e) →
        Grove (Under ((0 + j) :: k :: path)) (r.find? ((0 + j) :: k :: path)).toList := by
      intro j e hj
      rw [Nat.zero_add]
      exact h.find? (.item hk hName hj)
    exact (itemObjects items 0 hItems).mono fun i hi => hi.under
  | _ => exact .nil _

/-- What is read from the member of a name is among the members of that name. -/
theorem among (h : Orderly r path entries) {name : Text} (hName : name ∉ detachedMembers)
    {ns : List Node} (hns : ns = [] ∨ ∃ k value, entries[k]? = some (name, value) ∧
      ns = r.known (memberObjects (k :: path) value)) :
    Grove (Among path entries [name]) ns := by
  rcases hns with rfl | ⟨k, value, hk, rfl⟩
  · exact .nil _
  · exact (h.member hk hName).mono fun i hi => ⟨k, name, value, hk, List.mem_singleton_self _, hi⟩

theorem memberSlot (h : Orderly r path entries) (name : Text) (hName : name ∉ detachedMembers) :
    Grove (Among path entries [name]) (r.memberSlot path entries name).children := by
  refine h.among hName ?_
  rw [Reader.memberSlot, Reader.memberNode?]
  rcases member_cases entries name with hm | ⟨k, value, hm, hk⟩
  · rw [hm]
    exact .inl rfl
  · rw [hm]
    cases value with
    | obj e =>
      refine .inr ⟨k, _, hk, ?_⟩
      rw [Slot.children_ofOption, memberObjects, known_singleton]
      rfl
    | _ => exact .inl rfl

theorem memberNodes (h : Orderly r path entries) (name : Text) (hName : name ∉ detachedMembers) :
    Ensures (Grove (Among path entries [name])) (r.memberNodes path entries name) := by
  intro ns hns
  refine h.among hName ?_
  rw [Reader.memberNodes] at hns
  rcases member_cases entries name with hm | ⟨k, value, hm, hk⟩
  · rw [hm] at hns
    cases hns
    exact .inl rfl
  · rw [hm] at hns
    rcases nodes_cases r _ value hns with rfl | ⟨items, rfl, rfl⟩
    · exact .inl rfl
    · exact .inr ⟨k, _, hk, rfl⟩

theorem allNodes (h : Orderly r path entries) :
    Grove (Spread path 0) (r.allNodes path 0 entries) := by
  have hFrom : ∀ (rest : Entries) (k : Nat), (∀ j name value, rest[j]? = some (name, value) →
      name ∉ detachedMembers →
        Grove (Under ((k + j) :: path)) (r.known (memberObjects ((k + j) :: path) value))) →
      Grove (Spread path k) (r.known (innerObjects path k rest)) := by
    intro rest
    induction rest with
    | nil => intro k _; exact .nil _
    | cons entry rest ih =>
      obtain ⟨name, value⟩ := entry
      intro k hMembers
      rw [innerObjects, known_append]
      refine grove_spread_cons ?_ (ih (k + 1) fun j n v hj hn => ?_)
      · split
        · exact .nil _
        · rename_i hName
          exact hMembers 0 name value rfl fun hMem => hName (List.contains_iff_mem.mpr hMem)
      · have hNext := hMembers (j + 1) n v (by rwa [List.getElem?_cons_succ]) hn
        rwa [Nat.add_right_comm k 1 j]
  rw [allNodes_eq]
  refine hFrom entries 0 fun j name value hj hName => ?_
  rw [Nat.zero_add]
  exact h.member hj hName

theorem fieldSlot? (h : Orderly r path entries) (f : Field) :
    ∀ s ∈ r.fieldSlot? path entries f,
      Grove (Among path entries [memberName f]) s.children := by
  intro s hs
  refine h.among (memberName_attached f) ?_
  rw [Reader.fieldSlot?] at hs
  rcases member_cases entries (memberName f) with hm | ⟨k, value, hm, hk⟩
  · rw [hm] at hs
    cases hs
  · rw [hm] at hs
    cases value with
    | obj e =>
      cases hs
      refine .inr ⟨k, _, hk, ?_⟩
      rw [Slot.children_ofOption, memberObjects, known_singleton]
      rfl
    | arr items =>
      cases hs
      refine .inr ⟨k, _, hk, ?_⟩
      rw [Slot.children_nodes, itemNodes_eq]
      rfl
    | null => cases hs
    | _ => cases hs; exact .inl rfl

theorem given (h : Orderly r path entries) (c : Construct) :
    Grove (Among path entries (c.fields.map fun f => memberName f.1))
      (givenNodes (r.given path entries c)) := by
  have hNodup : (c.fields.map fun f => memberName f.1).Nodup := by cases c <;> decide +kernel
  rw [Reader.given]
  generalize c.fields = fs at hNodup
  induction fs with
  | nil => exact .nil _
  | cons f fs ih =>
    rw [List.map_cons, List.nodup_cons] at hNodup
    have hRest := ih hNodup.2
    rw [List.filterMap_cons]
    cases hs : r.fieldSlot? path entries f.1 with
    | none => exact grove_among_cons (.nil _) hRest hNodup.1
    | some s => exact grove_among_cons (h.fieldSlot? f.1 s hs) hRest hNodup.1

/-! ### Objects of single names -/

/-- Where the function of a method is: in the same place under an identity of its own, and what it
is made from. -/
def InFunction (path : Path) (entries : Entries) (i : NodeId) : Prop :=
  i = ⟨path, 1⟩ ∨ Among path entries ["params", "body"] i

theorem function (h : Orderly r path entries) {params : List Node}
    (hParams : Grove (Among path entries ["params"]) params) (span : Span)
    (isAsync generator : Json) :
    Grove (InFunction path entries) [.build ⟨path, 1⟩ (.known .functionExpression) span
      [(.params, .nodes params), (.body, r.memberSlot path entries "body"),
       (.isAsync, .value isAsync), (.generator, .value generator)]] := by
  have hBody := h.memberSlot "body" (by simp [detachedMembers])
  have hParts := grove_among_cons hParams hBody (by simp)
  have hSelf : ¬ Among path entries ["params", "body"] ⟨path, 1⟩ :=
    fun hi => not_spread_self path 0 1 hi.spread
  exact Grove.build (by simpa using hParts) hSelf _ span

/-- A method has a key and a function. -/
theorem methodNode (h : Orderly r path entries) {f : Node}
    (hf : Grove (InFunction path entries) [f]) {given : List (Field × Slot)}
    (hGiven : givenNodes given = (r.memberSlot path entries "key").children ++ [f])
    (kind : Kind) (span : Span) : Grove (Under path) [.build ⟨path, 0⟩ kind span given] := by
  have hKey := h.memberSlot "key" (by simp [detachedMembers])
  have hApart : ∀ i, Among path entries ["key"] i → ¬ InFunction path entries i := by
    rintro i hi (rfl | hi')
    · exact not_spread_self path 0 1 hi.spread
    · obtain ⟨name, hName, hName'⟩ := hi.exists_common hi'
      rw [List.mem_singleton.mp hName] at hName'
      exact absurd hName' (by simp)
  have hParts := hKey.append hf hApart
  rw [← hGiven] at hParts
  refine grove_made hParts ?_ ?_ kind span
  · rintro i (hi | rfl | hi)
    · exact hi.spread.under
    · exact List.suffix_refl path
    · exact hi.spread.under
  · rintro (hi | hi | hi)
    · exact not_spread_self path 0 0 hi.spread
    · cases hi
    · exact not_spread_self path 0 0 hi.spread

theorem method (h : Orderly r path entries) (span : Span) (inClass : Bool) :
    Ensures (fun n => Grove (Under path) [n]) (r.method path entries span inClass) := by
  refine (h.memberNodes "params" (by simp [detachedMembers])).bind fun params hParams => ?_
  have hFunction := h.function hParams span (.bool (Entries.get entries "async").truthy)
    (.bool (Entries.get entries "generator").truthy)
  refine .ite (.ok ?_) (.ok ?_)
  · exact h.methodNode hFunction (by simp) _ span
  · exact h.methodNode hFunction (by simp) _ span

/-- The members of a class are under its body. -/
theorem classMembers (h : Orderly r path entries) :
    Ensures (Grove (Among path entries ["body"])) (r.classMembers path entries) := by
  rw [Reader.classMembers]
  rcases member_cases entries "body" with hm | ⟨k, value, hm, hk⟩
  · rw [hm]
    exact .ok (.nil _)
  · rw [hm]
    cases value with
    | obj e =>
      have hBody := h.inner (.member hk (by simp [detachedMembers]))
      intro ns hns
      refine (hBody.memberNodes "body" (by simp [detachedMembers]) ns hns).mono fun i hi => ?_
      exact ⟨k, _, _, hk, List.mem_singleton_self _, hi.spread.under⟩
    | _ => exact .ok (.nil _)

/-- The attributes of an element are under its opening tag. -/
theorem elementParts (h : Orderly r path entries) :
    Ensures (fun parts => Grove (Among path entries ["openingElement"]) parts.2)
      (r.elementParts path entries) := by
  rw [Reader.elementParts]
  rcases member_cases entries "openingElement" with hm | ⟨k, value, hm, hk⟩
  · rw [hm]
    exact .ok (.nil _)
  · rw [hm]
    cases value with
    | obj e =>
      have hTag := h.inner (.member hk (by simp [detachedMembers]))
      refine (hTag.memberNodes "attributes" (by simp [detachedMembers])).bind fun ns hns => .ok ?_
      refine hns.mono fun i hi => ?_
      exact ⟨k, _, _, hk, List.mem_singleton_self _, hi.spread.under⟩
    | _ => exact .ite (.error _) (.ok (.nil _))

theorem buildNamed (h : Orderly r path entries) (span : Span) (name : Text) :
    Ensures (fun o => ∀ n ∈ o, Grove (Under path) [n]) (r.buildNamed path entries span name) := by
  have hSome {n : Node} (hn : Grove (Under path) [n]) :
      ∀ m ∈ some n, Grove (Under path) [m] := by
    intro m hm
    cases hm
    exact hn
  refine .ite ?literal (.ite ?template (.ite ?inClass (.ite ?inObject (.ite ?members
    (.ite ?chain (.ite ?element (.ite ?property ?rest)))))))
  case literal =>
    exact .bind_right fun raw => .ok (hSome (grove_made_spread (by simp [Grove.nil]) _ span))
  case template =>
    refine .bind_right fun pieces => ?_
    refine (h.memberNodes "expressions" (by simp [detachedMembers])).bind fun ns hns => .ok (hSome ?_)
    exact grove_made_among (by simpa using hns) _ span
  case inClass => exact (h.method span true).bind fun n hn => .ok (hSome hn)
  case inObject => exact (h.method span false).bind fun n hn => .ok (hSome hn)
  case members =>
    refine h.classMembers.bind fun ns hns => .ok (hSome ?_)
    have hId := h.memberSlot "id" (by simp [detachedMembers])
    have hSuper := h.memberSlot "superClass" (by simp [detachedMembers])
    have hParts := grove_among_cons hId (grove_among_cons hSuper hns (by simp))
      (by simp)
    exact grove_made_among (by simpa using hParts) _ span
  case chain =>
    have hNode := h.memberSlot "expression" (by simp [detachedMembers])
    refine .ok fun n hn => ?_
    rw [Reader.memberSlot, Slot.children_ofOption, Option.mem_def.mp hn] at hNode
    exact hNode.mono fun i hi => hi.spread.under
  case element =>
    refine h.elementParts.bind fun parts hAttributes => ?_
    refine (h.memberNodes "children" (by simp [detachedMembers])).bind fun ns hns => .ok (hSome ?_)
    have hParts := grove_among_cons hAttributes hns (by simp)
    exact grove_made_among (by simpa using hParts) _ span
  case property =>
    have hValue := h.memberSlot "value" (by simp [detachedMembers])
    exact .ok (hSome (grove_made_among (by simpa using hValue) _ span))
  case rest =>
    split
    · exact .ok (hSome (grove_made_spread (by simpa using h.allNodes) _ span))
    · exact .ok (hSome (grove_made_among (by simpa using h.given .arrowFunctionExpression) _ span))
    · exact .ok (hSome (grove_made_among (h.given _) _ span))

/-- What is built from nodes under their paths is **under the path** of the object. -/
theorem build (h : Orderly r path entries) :
    Ensures (fun o => ∀ n ∈ o, Grove (Under path) [n]) (r.build path entries) := by
  rw [Reader.build]
  split
  · exact .ok fun n hn => by cases hn
  · exact .error _
  · exact .error _
  · exact .ite (.ok fun n hn => by cases hn) (.bind_right fun span => h.buildNamed span _)
  · refine .bind_right fun span => .ok fun n hn => ?_
    cases hn
    exact grove_made_spread (by simpa using h.allNodes) _ span

end Orderly

end Reader

/-! ### Whole trees -/

/-- What an object becomes is **under its path**, and no node is used twice. -/
theorem recursion_grove (starts : Option (Array Nat)) (path : Path) (entries : Entries) :
    ∀ n, recursion starts path entries = .ok (some n) → Grove (Under path) [n] := by
  induction path, entries using withinInd with
  | h path entries ih =>
    intro n hn
    rw [recursion_eq] at hn
    obtain ⟨_, _, hBuild⟩ := Outcome.bind_eq_ok.mp hn
    have hOrderly : Reader.Orderly ⟨starts, found starts path entries⟩ path entries := by
      intro p e hp m hm
      refine ih p e hp m ?_
      have hm : found starts path entries p = some m := hm
      rw [found_of_mem_within hp] at hm
      cases hr : recursion starts p e with
      | error d => rw [hr] at hm; cases hm
      | ok o => rw [hr] at hm; exact congrArg Except.ok hm
    exact hOrderly.build _ hBuild n rfl

/-- **Conversion is recursion and yields a tree.**  Building all objects one after another has a
result if and only if every object that is reached can be built, and then the result is the one of
the recursion.  No two of its nodes share an identity, a walk visits exactly the nodes that can be
reached from child to child, and the index has for every node the one parent whose child it is. -/
theorem convert_yields_tree (starts : Option (Array Nat)) (root : Entries) :
    (∀ find?, (∃ result, convert starts root = .ok result) ↔
      ∀ path entries, Reached [] root path entries →
        ∃ result, Reader.build ⟨starts, find?⟩ path entries = .ok result) ∧
    convert starts root = recursion starts [] root ∧
    ∀ n, convert starts root = .ok (some n) →
      n.DistinctIds ∧
      (∀ m, m ∈ n.preorder ↔ Relation.ReflTransGen (fun p c => c ∈ p.children) n m) ∧
      (Ast.Index.build n).parent? n = none ∧
      ∀ p ∈ n.preorder, ∀ c ∈ p.children, (Ast.Index.build n).parent? c = some p := by
  refine ⟨convert_ok_iff starts root, convert_eq_recursion starts root, fun n hn => ?_⟩
  rw [convert_eq_recursion] at hn
  have hIds := (recursion_grove starts [] root n hn).distinctIds
  refine ⟨hIds, fun m => Node.mem_preorder_iff, Ast.Index.build_parent?_root hIds, ?_⟩
  exact fun p hp c hc => Ast.Index.build_parent? hIds hp hc

end ScriptLint.Estree
