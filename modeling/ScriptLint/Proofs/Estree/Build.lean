import ScriptLint.Proofs.Estree.Objects
import ScriptLint.Proofs.Outcome

/-!
# What building an object depends on

An object is built from its own members and from what the objects inside it have become.  Some
objects are read from two levels down: the members of a class stand in the body of its body, and
the attributes of an element in its opening tag.

* `Reader.known`: what some objects have become.  All reading is looking up objects right inside
  (`itemNodes_eq`, `allNodes_eq`, `nodes_cases`, ...).
* `Reader.Agree`: two readers know the same of the objects within an object.  `Agree.build` says
  that they build the same.
* `Reader.build_sameFault`: whether an object can be built does not depend on the other objects.
-/

namespace ScriptLint.Estree

open Ast (Node Slot Field Kind Construct Span)
open Outcome (SameFault)

namespace Reader

/-! ### Looking up objects -/

/-- What some objects have become. -/
def known (r : Reader) (os : List (Path × Entries)) : List Node :=
  os.filterMap fun o => r.find? o.1

theorem known_append (r : Reader) (os os' : List (Path × Entries)) :
    r.known (os ++ os') = r.known os ++ r.known os' :=
  List.filterMap_append

theorem known_singleton (r : Reader) (path : Path) (entries : Entries) :
    r.known [(path, entries)] = (r.find? path).toList := by
  cases h : r.find? path <;> simp [known, h]

theorem node?_toList (r : Reader) (path : Path) (value : Json) :
    (r.node? path value).toList
      = r.known (match value with | .obj e => [(path, e)] | _ => []) := by
  cases value with
  | obj e => exact (known_singleton r path e).symm
  | _ => rfl

theorem itemNodes_eq (r : Reader) (path : Path) (items : List Json) : ∀ i,
    r.itemNodes path i items = r.known (itemObjects path i items) := by
  induction items with
  | nil => intro i; rfl
  | cons item rest ih =>
    intro i
    rw [itemNodes, ih, node?_toList, ← known_append]
    cases item <;> rfl

/-- What the objects of a member have become. -/
theorem known_memberObjects (r : Reader) (path : Path) (value : Json) :
    r.known (memberObjects path value)
      = match value with
        | .obj _ => (r.node? path value).toList
        | .arr items => r.itemNodes path 0 items
        | _ => [] := by
  cases value with
  | obj e => rw [node?_toList]; rfl
  | arr items => simp only [itemNodes_eq]; rfl
  | _ => rfl

theorem allNodes_eq (r : Reader) (path : Path) (entries : Entries) : ∀ k,
    r.allNodes path k entries = r.known (innerObjects path k entries) := by
  induction entries with
  | nil => intro k; rfl
  | cons entry rest ih =>
    obtain ⟨name, value⟩ := entry
    intro k
    rw [innerObjects, known_append, ← ih]
    by_cases hName : detachedMembers.contains name = true
    · rw [if_pos hName]
      simp only [allNodes, if_pos hName]
      rfl
    · cases value <;> simp only [if_neg hName, known_memberObjects, allNodes]

/-- A list of nodes is read from a list, and from no other value. -/
theorem nodes_cases (r : Reader) (path : Path) (value : Json) {ns : List Node}
    (h : r.nodes path value = .ok ns) :
    ns = [] ∨ ∃ items, value = .arr items ∧ ns = r.known (itemObjects path 0 items) := by
  cases value with
  | arr items =>
    rw [nodes, itemNodes_eq] at h
    cases h
    exact .inr ⟨items, rfl, rfl⟩
  | str t => cases h; exact .inl rfl
  | obj e => cases h; exact .inl rfl
  | _ =>
    simp only [nodes] at h
    split at h
    · cases h
    · cases h
      exact .inl rfl

theorem getElem?_of_findIdx? {entries : Entries} {name : Text} : ∀ {k : Nat},
    (entries.findIdx? fun e => e.1 == name) = some k →
      entries[k]? = some (name, Entries.get entries name) := by
  induction entries with
  | nil => intro k h; simp at h
  | cons entry rest ih =>
    obtain ⟨key, value⟩ := entry
    intro k h
    rw [List.findIdx?_cons] at h
    by_cases hKey : key = name
    · rw [if_pos (beq_iff_eq.mpr hKey), Option.some.injEq] at h
      subst h hKey
      simp [Entries.get, Entries.get?]
    · rw [if_neg (by simpa using hKey), Option.map_eq_some_iff] at h
      obtain ⟨j, hj, rfl⟩ := h
      have hNe : (name == key) = false := by simpa using fun h => hKey h.symm
      rw [List.getElem?_cons_succ, ih hj]
      simp [Entries.get, Entries.get?, List.lookup_cons, hNe]

/-- A member is where it is said to be, or there is none. -/
theorem member_cases (entries : Entries) (name : Text) :
    member entries name = (entries.length, .null) ∨
      ∃ k value, member entries name = (k, value) ∧ entries[k]? = some (name, value) := by
  rw [member]
  split
  · rename_i k hk
    exact .inr ⟨k, _, rfl, getElem?_of_findIdx? hk⟩
  · exact .inl rfl

/-- No field is read from a detached member. -/
theorem memberName_attached (f : Field) : memberName f ∉ detachedMembers := by
  cases f <;> simp [memberName, Field.label, detachedMembers]

/-! ### Readers that agree -/

/-- The readers know the same of the objects within the object at `path`. -/
structure Agree (r s : Reader) (path : Path) (entries : Entries) : Prop where
  starts : r.starts = s.starts
  find? : ∀ p e, (p, e) ∈ within path entries → r.find? p = s.find? p

namespace Agree

variable {r s : Reader} {path : Path} {entries : Entries} {name : Text}

theorem inner (h : Agree r s path entries) {p : Path} {e : Entries}
    (hi : Inner path entries p e) : Agree r s p e where
  starts := h.starts
  find? := fun q f hq => h.find? q f (within_subset_of_inner hi hq)

theorem known (h : Agree r s path entries) {os : List (Path × Entries)}
    (hos : ∀ o ∈ os, Inner path entries o.1 o.2) : r.known os = s.known os :=
  List.filterMap_congr fun o ho => h.find? o.1 o.2 (mem_within_of_inner (hos o ho))

theorem node? (h : Agree r s path entries) {k : Nat} {value : Json}
    (hk : entries[k]? = some (name, value)) (hName : name ∉ detachedMembers) :
    r.node? (k :: path) value = s.node? (k :: path) value := by
  cases value with
  | obj e => exact h.find? _ e (mem_within_of_inner (.member hk hName))
  | _ => rfl

theorem itemNodes (h : Agree r s path entries) {k : Nat} {items : List Json}
    (hk : entries[k]? = some (name, .arr items)) (hName : name ∉ detachedMembers) :
    r.itemNodes (k :: path) 0 items = s.itemNodes (k :: path) 0 items := by
  rw [itemNodes_eq, itemNodes_eq]
  refine h.known fun o ho => ?_
  obtain ⟨i, hi, hp⟩ := (mem_itemObjects items).mp ho
  rw [hp, Nat.zero_add]
  exact .item hk hName hi

theorem nodes (h : Agree r s path entries) {k : Nat} {value : Json}
    (hk : entries[k]? = some (name, value)) (hName : name ∉ detachedMembers) :
    r.nodes (k :: path) value = s.nodes (k :: path) value := by
  cases value with
  | arr items => exact congrArg _ (h.itemNodes hk hName)
  | _ => rfl

theorem memberNode? (h : Agree r s path entries) (name : Text) (hName : name ∉ detachedMembers) :
    r.memberNode? path entries name = s.memberNode? path entries name := by
  rw [Reader.memberNode?, Reader.memberNode?]
  rcases member_cases entries name with hm | ⟨k, value, hm, hk⟩
  · rw [hm]
    rfl
  · rw [hm]
    exact h.node? hk hName

theorem memberSlot (h : Agree r s path entries) (name : Text) (hName : name ∉ detachedMembers) :
    r.memberSlot path entries name = s.memberSlot path entries name := by
  rw [Reader.memberSlot, Reader.memberSlot, h.memberNode? name hName]

theorem memberNodes (h : Agree r s path entries) (name : Text) (hName : name ∉ detachedMembers) :
    r.memberNodes path entries name = s.memberNodes path entries name := by
  rw [Reader.memberNodes, Reader.memberNodes]
  rcases member_cases entries name with hm | ⟨k, value, hm, hk⟩
  · rw [hm]
    rfl
  · rw [hm]
    exact h.nodes hk hName

theorem allNodes (h : Agree r s path entries) :
    r.allNodes path 0 entries = s.allNodes path 0 entries := by
  rw [allNodes_eq, allNodes_eq]
  exact h.known fun o ho => mem_innerObjects.mp ho

theorem fieldSlot? (h : Agree r s path entries) (f : Field) :
    r.fieldSlot? path entries f = s.fieldSlot? path entries f := by
  rw [Reader.fieldSlot?, Reader.fieldSlot?]
  rcases member_cases entries (memberName f) with hm | ⟨k, value, hm, hk⟩
  · rw [hm]
  · rw [hm]
    cases value with
    | obj e => simp only [h.node? hk (memberName_attached f)]
    | arr items => simp only [h.itemNodes hk (memberName_attached f)]
    | _ => rfl

theorem given (h : Agree r s path entries) (c : Construct) :
    r.given path entries c = s.given path entries c := by
  simp only [Reader.given, h.fieldSlot?]

theorem method (h : Agree r s path entries) (span : Span) (inClass : Bool) :
    r.method path entries span inClass = s.method path entries span inClass := by
  simp only [Reader.method, h.memberNodes "params" (by simp [detachedMembers]),
    h.memberSlot "body" (by simp [detachedMembers]),
    h.memberSlot "key" (by simp [detachedMembers])]

theorem classMembers (h : Agree r s path entries) :
    r.classMembers path entries = s.classMembers path entries := by
  rw [Reader.classMembers, Reader.classMembers]
  rcases member_cases entries "body" with hm | ⟨k, value, hm, hk⟩
  · rw [hm]
  · rw [hm]
    cases value with
    | obj e => exact (h.inner (.member hk (by simp [detachedMembers]))).memberNodes _ (by simp [detachedMembers])
    | _ => rfl

theorem elementParts (h : Agree r s path entries) :
    r.elementParts path entries = s.elementParts path entries := by
  rw [Reader.elementParts, Reader.elementParts]
  rcases member_cases entries "openingElement" with hm | ⟨k, value, hm, hk⟩
  · rw [hm]
  · rw [hm]
    cases value with
    | obj e =>
      have hTag := h.inner (.member hk (by simp [detachedMembers]))
      simp only [hTag.memberNodes "attributes" (by simp [detachedMembers])]
    | _ => rfl

theorem buildNamed (h : Agree r s path entries) (span : Span) (name : Text) :
    r.buildNamed path entries span name = s.buildNamed path entries span name := by
  simp only [Reader.buildNamed, h.given, h.allNodes, h.method, h.classMembers, h.elementParts,
    h.memberNodes "expressions" (by simp [detachedMembers]),
    h.memberNodes "children" (by simp [detachedMembers]),
    h.memberSlot "id" (by simp [detachedMembers]),
    h.memberSlot "superClass" (by simp [detachedMembers]),
    h.memberSlot "value" (by simp [detachedMembers]),
    h.memberNode? "expression" (by simp [detachedMembers])]

/-- **Readers that agree within an object build the same.** -/
theorem build (h : Agree r s path entries) : r.build path entries = s.build path entries := by
  simp only [Reader.build, h.starts, h.buildNamed, h.allNodes]

end Agree

/-! ### Faults -/

section Faults

variable {r s : Reader} {path : Path} {entries : Entries}

theorem nodes_sameFault (value : Json) : SameFault (r.nodes path value) (s.nodes path value) := by
  cases value with
  | arr items => exact .ok _ _
  | _ => exact .refl _

theorem memberNodes_sameFault (name : Text) :
    SameFault (r.memberNodes path entries name) (s.memberNodes path entries name) :=
  nodes_sameFault _

theorem method_sameFault (span : Span) (inClass : Bool) :
    SameFault (r.method path entries span inClass) (s.method path entries span inClass) := by
  refine (memberNodes_sameFault _).bind fun _ _ => ?_
  exact .ite (.ok _ _) (.ok _ _)

theorem classMembers_sameFault :
    SameFault (r.classMembers path entries) (s.classMembers path entries) := by
  rw [classMembers, classMembers]
  obtain ⟨k, body⟩ := member entries "body"
  cases body with
  | obj inner => exact memberNodes_sameFault _
  | _ => exact .refl _

theorem elementParts_sameFault :
    SameFault (r.elementParts path entries) (s.elementParts path entries) := by
  rw [elementParts, elementParts]
  obtain ⟨k, tag⟩ := member entries "openingElement"
  cases tag with
  | obj inner => exact (memberNodes_sameFault _).bind fun _ _ => .ok _ _
  | _ => exact .refl _

theorem buildNamed_sameFault (span : Span) (name : Text) :
    SameFault (r.buildNamed path entries span name) (s.buildNamed path entries span name) := by
  refine .ite (.refl _) (.ite ?template (.ite ?inClass (.ite ?inObject (.ite ?members
    (.ite ?chain (.ite ?element (.ite ?property ?rest)))))))
  case template => exact .bind_left fun _ => (memberNodes_sameFault _).bind fun _ _ => .ok _ _
  case inClass => exact (method_sameFault span _).bind fun _ _ => .ok _ _
  case inObject => exact (method_sameFault span _).bind fun _ _ => .ok _ _
  case members => exact classMembers_sameFault.bind fun _ _ => .ok _ _
  case chain => exact .ok _ _
  case element =>
    exact elementParts_sameFault.bind fun _ _ => (memberNodes_sameFault _).bind fun _ _ => .ok _ _
  case property => exact .ok _ _
  case rest => cases Construct.ofName? name with
    | none => exact .ok _ _
    | some c => cases c <;> exact .ok _ _

/-- **Whether an object can be built does not depend on the other objects.** -/
theorem build_sameFault (h : r.starts = s.starts) :
    SameFault (r.build path entries) (s.build path entries) := by
  rw [build, build, h]
  split
  · exact .refl _
  · exact .refl _
  · exact .refl _
  · exact .ite (.refl _) (.bind_left fun span => buildNamed_sameFault span _)
  · exact .bind_left fun _ => .ok _ _

end Faults

end Reader

end ScriptLint.Estree
