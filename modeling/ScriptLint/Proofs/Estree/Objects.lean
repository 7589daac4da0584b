import Mathlib.Data.List.Basic
import ScriptLint.Estree.Convert

/-!
# The objects of a tree

The tree of an editor is a JSON object with objects inside it.  This file says which objects a
conversion comes to, and in which order.

* `Inner`: an object is **right inside** another one.
* `Reached`: an object is reached from another one through members that are not detached.
* `objects`, `within`: all objects of a tree, and all but the root.  `mem_objects` says that these
  are the reached ones.
* `Reached.unique`: the path of an object tells which object it is.
* `objects_eq`: the objects are gathered in post-order.  `innerFirst_objects` says what this is good
  for: every object comes after all objects inside it.
-/

namespace ScriptLint

/-- The value that is found by going through numbers of members and items. -/
def Json.at? : Json → List Nat → Option Json
  | j, [] => some j
  | .obj entries, k :: steps => entries[k]?.bind fun e => e.2.at? steps
  | .arr items, i :: steps => items[i]?.bind fun j => j.at? steps
  | _, _ :: _ => none

theorem Json.at?_append (steps more : List Nat) : ∀ j : Json,
    j.at? (steps ++ more) = (j.at? steps).bind fun v => v.at? more := by
  induction steps with
  | nil => intro j; simp [Json.at?]
  | cons k steps ih =>
    intro j
    cases j with
    | obj entries => simp only [List.cons_append, Json.at?, ih, Option.bind_assoc]
    | arr items => simp only [List.cons_append, Json.at?, ih, Option.bind_assoc]
    | _ => rfl

namespace Estree

/-! ### Objects right inside -/

/-- The object with the members `e` is **right inside** the object at `path`: it is a member that is
not detached, or an item of such a member. -/
inductive Inner (path : Path) (entries : Entries) : Path → Entries → Prop
  | member {k : Nat} {name : Text} {e : Entries} :
      entries[k]? = some (name, .obj e) → name ∉ detachedMembers → Inner path entries (k :: path) e
  | item {k i : Nat} {name : Text} {items : List Json} {e : Entries} :
      entries[k]? = some (name, .arr items) → name ∉ detachedMembers →
      items[i]? = some (.obj e) → Inner path entries (i :: k :: path) e

theorem mem_itemObjects {path p : Path} {e : Entries} (items : List Json) : ∀ {i : Nat},
    (p, e) ∈ itemObjects path i items ↔ ∃ j, items[j]? = some (.obj e) ∧ p = (i + j) :: path := by
  induction items with
  | nil => intro i; simp [itemObjects]
  | cons item rest ih =>
    intro i
    have hRest : (p, e) ∈ itemObjects path (i + 1) rest ↔
        ∃ j, (item :: rest)[j + 1]? = some (.obj e) ∧ p = (i + (j + 1)) :: path := by
      rw [ih]
      simp only [List.getElem?_cons_succ, Nat.add_assoc, Nat.add_comm 1]
    rw [← Nat.or_exists_add_one, ← hRest, List.getElem?_cons_zero, Nat.add_zero]
    cases item with
    | obj entries =>
      rw [itemObjects, List.mem_cons, Prod.mk.injEq, Option.some.injEq, Json.obj.injEq,
        and_comm, eq_comm (a := e)]
    | _ => simp [itemObjects]

theorem mem_innerObjects_from {path p : Path} {e : Entries} (entries : Entries) : ∀ {k : Nat},
    (p, e) ∈ innerObjects path k entries ↔ ∃ j name value, entries[j]? = some (name, value) ∧
      name ∉ detachedMembers ∧ (p, e) ∈ memberObjects ((k + j) :: path) value := by
  induction entries with
  | nil => intro k; simp [innerObjects]
  | cons entry rest ih =>
    obtain ⟨name, value⟩ := entry
    intro k
    have hRest : (p, e) ∈ innerObjects path (k + 1) rest ↔
        ∃ j n v, ((name, value) :: rest)[j + 1]? = some (n, v) ∧ n ∉ detachedMembers ∧
          (p, e) ∈ memberObjects ((k + (j + 1)) :: path) v := by
      rw [ih]
      simp only [List.getElem?_cons_succ, Nat.add_assoc, Nat.add_comm 1]
    rw [← Nat.or_exists_add_one, ← hRest, innerObjects, List.mem_append, List.getElem?_cons_zero,
      Nat.add_zero]
    refine or_congr_left ?_
    by_cases hName : name ∈ detachedMembers
    · rw [if_pos (List.contains_iff_mem.mpr hName)]
      simp [hName]
    · rw [if_neg (fun h => hName (List.contains_iff_mem.mp h))]
      simp [hName]

/-- The objects right inside an object are the inner ones. -/
theorem mem_innerObjects {path p : Path} {entries e : Entries} :
    (p, e) ∈ innerObjects path 0 entries ↔ Inner path entries p e := by
  rw [mem_innerObjects_from]
  simp only [Nat.zero_add]
  constructor
  · rintro ⟨k, name, value, hk, hName, hMem⟩
    cases value with
    | obj inner =>
      rw [memberObjects, List.mem_singleton, Prod.mk.injEq] at hMem
      obtain ⟨rfl, rfl⟩ := hMem
      exact .member hk hName
    | arr items =>
      obtain ⟨i, hi, rfl⟩ := (mem_itemObjects items).mp hMem
      rw [Nat.zero_add]
      exact .item hk hName hi
    | _ => cases hMem
  · intro h
    cases h with
    | member hk hName => exact ⟨_, _, _, hk, hName, List.mem_singleton_self _⟩
    | @item k i name items _ hk hName hi =>
      refine ⟨k, name, .arr items, hk, hName, (mem_itemObjects items).mpr ⟨i, hi, ?_⟩⟩
      rw [Nat.zero_add]

theorem sizeOf_lt_of_inner {path p : Path} {entries e : Entries} (h : Inner path entries p e) :
    sizeOf e < sizeOf entries := by
  have hTotal := total_innerObjects_lt path entries 0
  have hMem := le_total_of_mem (fun o : Path × Entries => sizeOf o.2) (mem_innerObjects.mpr h)
  simp only at hMem
  omega

/-- What holds of an object if it holds of the objects right inside it holds of all objects. -/
theorem objectInd {P : Path → Entries → Prop}
    (h : ∀ path entries, (∀ p e, Inner path entries p e → P p e) → P path entries)
    (path : Path) (entries : Entries) : P path entries :=
  h path entries fun p e _ => objectInd h p e
termination_by sizeOf entries
decreasing_by exact sizeOf_lt_of_inner ‹_›

/-! ### Reached objects -/

/-- The object is **reached** from the object at `path`: it is this object itself, or right inside
one that is reached. -/
inductive Reached (path : Path) (entries : Entries) : Path → Entries → Prop
  | self : Reached path entries path entries
  | inner {p q : Path} {e f : Entries} :
      Reached path entries p e → Inner p e q f → Reached path entries q f

namespace Reached

variable {path p q : Path} {entries e f : Entries}

theorem head (h : Inner path entries p e) (hr : Reached p e q f) : Reached path entries q f := by
  induction hr with
  | self => exact .inner .self h
  | inner _ hi ih => exact .inner ih hi

theorem trans (h : Reached path entries p e) (hr : Reached p e q f) :
    Reached path entries q f := by
  induction hr with
  | self => exact h
  | inner _ hi ih => exact .inner ih hi

theorem cases_head (h : Reached path entries q f) :
    (q = path ∧ f = entries) ∨ ∃ p e, Inner path entries p e ∧ Reached p e q f := by
  induction h with
  | self => exact .inl ⟨rfl, rfl⟩
  | @inner p q e f _ hi ih =>
    rcases ih with ⟨rfl, rfl⟩ | ⟨p', e', hi', hr⟩
    · exact .inr ⟨q, f, hi, .self⟩
    · exact .inr ⟨p', e', hi', .inner hr hi⟩

/-- A reached object is found by the steps of its path. -/
theorem exists_at? (h : Reached path entries q f) :
    ∃ steps : List Nat, q = steps.reverse ++ path ∧
      (Json.obj entries).at? steps = some (.obj f) := by
  induction h with
  | self => exact ⟨[], rfl, rfl⟩
  | inner _ hi ih =>
    obtain ⟨steps, rfl, hAt⟩ := ih
    cases hi with
    | @member k name g hk _ =>
      refine ⟨steps ++ [k], by simp, ?_⟩
      simp [Json.at?_append, hAt, Json.at?, hk]
    | @item k i name items g hk _ hi =>
      refine ⟨steps ++ [k, i], by simp, ?_⟩
      simp [Json.at?_append, hAt, Json.at?, hk, hi]

theorem suffix (h : Reached path entries q f) : path <:+ q := by
  obtain ⟨steps, rfl, _⟩ := h.exists_at?
  exact List.suffix_append _ _

/-- **The path of an object tells which object it is.** -/
theorem unique {f' : Entries} (h : Reached path entries q f) (h' : Reached path entries q f') :
    f = f' := by
  obtain ⟨steps, hq, hAt⟩ := h.exists_at?
  obtain ⟨steps', hq', hAt'⟩ := h'.exists_at?
  have hSteps : steps = steps' := by
    rw [hq, List.append_cancel_right_eq, List.reverse_inj] at hq'
    exact hq'
  rw [hSteps, hAt', Option.some.injEq, Json.obj.injEq] at hAt
  exact hAt.symm

end Reached

/-! ### Gathering -/

theorem gather_append (s t gathered : List (Path × Entries)) :
    gather (s ++ t) gathered = gather t (gather s gathered) := by
  fun_induction gather s gathered with
  | case1 gathered => rw [List.nil_append]
  | case2 path entries stack gathered ih =>
    rw [List.cons_append, gather, ← ih, List.append_assoc]

theorem gather_append_right (s gathered before : List (Path × Entries)) :
    gather s (gathered ++ before) = gather s gathered ++ before := by
  fun_induction gather s gathered with
  | case1 gathered => rw [gather]
  | case2 path entries stack gathered ih => rw [gather, ← List.cons_append, ih]

theorem gather_eq_append (s gathered : List (Path × Entries)) :
    gather s gathered = gather s [] ++ gathered :=
  gather_append_right s [] gathered

/-- All objects of the object at `path`, every object after all objects inside it. -/
def objects (path : Path) (entries : Entries) : List (Path × Entries) :=
  gather [(path, entries)] []

/-- The objects **within** the object at `path`. -/
def within (path : Path) (entries : Entries) : List (Path × Entries) :=
  (innerObjects path 0 entries).flatMap fun o => objects o.1 o.2

theorem gather_reverse (os : List (Path × Entries)) :
    gather os.reverse [] = os.flatMap fun o => objects o.1 o.2 := by
  induction os with
  | nil => rw [List.reverse_nil, gather, List.flatMap_nil]
  | cons o os ih =>
    rw [List.reverse_cons, gather_append, gather_eq_append, ih, List.flatMap_cons]
    rfl

/-- The objects are gathered in **post-order**. -/
theorem objects_eq (path : Path) (entries : Entries) :
    objects path entries = within path entries ++ [(path, entries)] := by
  rw [objects, gather, List.append_nil, gather_eq_append, gather_reverse]
  rfl

theorem mem_within_iff {path q : Path} {entries f : Entries} :
    (q, f) ∈ within path entries ↔ ∃ p e, Inner path entries p e ∧ (q, f) ∈ objects p e := by
  rw [within, List.mem_flatMap]
  constructor
  · rintro ⟨⟨p, e⟩, ho, hMem⟩
    exact ⟨p, e, mem_innerObjects.mp ho, hMem⟩
  · rintro ⟨p, e, hi, hMem⟩
    exact ⟨(p, e), mem_innerObjects.mpr hi, hMem⟩

/-- The gathered objects are the **reached** ones. -/
theorem mem_objects {path : Path} {entries : Entries} : ∀ {q : Path} {f : Entries},
    (q, f) ∈ objects path entries ↔ Reached path entries q f := by
  induction path, entries using objectInd with
  | h path entries ih =>
    intro q f
    rw [objects_eq, List.mem_append, mem_within_iff, List.mem_singleton, Prod.mk.injEq]
    constructor
    · rintro (⟨p, e, hi, hMem⟩ | ⟨rfl, rfl⟩)
      · exact .head hi ((ih p e hi).mp hMem)
      · exact .self
    · intro h
      rcases h.cases_head with hSelf | ⟨p, e, hi, hr⟩
      · exact .inr hSelf
      · exact .inl ⟨p, e, hi, (ih p e hi).mpr hr⟩

theorem mem_within {path q : Path} {entries f : Entries} :
    (q, f) ∈ within path entries ↔ ∃ p e, Inner path entries p e ∧ Reached p e q f := by
  simp only [mem_within_iff, mem_objects]

theorem mem_within_of_inner {path p : Path} {entries e : Entries} (h : Inner path entries p e) :
    (p, e) ∈ within path entries :=
  mem_within.mpr ⟨p, e, h, .self⟩

theorem Reached.of_mem_within {path q : Path} {entries f : Entries}
    (h : (q, f) ∈ within path entries) : Reached path entries q f := by
  obtain ⟨p, e, hi, hr⟩ := mem_within.mp h
  exact .head hi hr

theorem within_subset_of_inner {path p : Path} {entries e : Entries}
    (h : Inner path entries p e) : within p e ⊆ within path entries := by
  rintro ⟨q, f⟩ hq
  exact mem_within.mpr ⟨p, e, h, .of_mem_within hq⟩

theorem sizeOf_lt_of_mem_within {path q : Path} {entries f : Entries}
    (h : (q, f) ∈ within path entries) : sizeOf f < sizeOf entries := by
  obtain ⟨p, e, hi, hr⟩ := mem_within.mp h
  have hLt := sizeOf_lt_of_inner hi
  induction hr with
  | self => exact hLt
  | inner hr hi' ih => exact Nat.lt_trans (sizeOf_lt_of_inner hi') (ih (mem_within.mpr ⟨p, e, hi, hr⟩))

/-- What holds of an object if it holds of the objects within it holds of all objects. -/
theorem withinInd {P : Path → Entries → Prop}
    (h : ∀ path entries, (∀ p e, (p, e) ∈ within path entries → P p e) → P path entries)
    (path : Path) (entries : Entries) : P path entries :=
  h path entries fun p e _ => withinInd h p e
termination_by sizeOf entries
decreasing_by exact sizeOf_lt_of_mem_within ‹_›

/-! ### The order of the objects -/

/-- In the list every object comes **after the objects inside it**, if those of `done` have come
before. -/
def InnerFirst : List (Path × Entries) → List (Path × Entries) → Prop
  | _, [] => True
  | done, o :: rest => within o.1 o.2 ⊆ done ∧ InnerFirst (done ++ [o]) rest

theorem InnerFirst.append {s t : List (Path × Entries)} : ∀ {done : List (Path × Entries)},
    InnerFirst done s → InnerFirst (done ++ s) t → InnerFirst done (s ++ t) := by
  induction s with
  | nil => intro done _ ht; simpa using ht
  | cons o s ih =>
    intro done hs ht
    refine ⟨hs.1, ih hs.2 ?_⟩
    rwa [List.append_assoc]

theorem innerFirst_flatMap {os : List (Path × Entries)}
    (h : ∀ o ∈ os, ∀ done, InnerFirst done (objects o.1 o.2)) :
    ∀ done, InnerFirst done (os.flatMap fun o => objects o.1 o.2) := by
  induction os with
  | nil => intro done; exact trivial
  | cons o os ih =>
    intro done
    rw [List.flatMap_cons]
    refine (h o List.mem_cons_self done).append ?_
    exact ih (fun o' ho' => h o' (List.mem_cons_of_mem _ ho')) _

/-- Every object is gathered **after the objects inside it**. -/
theorem innerFirst_objects (path : Path) (entries : Entries) :
    ∀ done, InnerFirst done (objects path entries) := by
  induction path, entries using objectInd with
  | h path entries ih =>
    intro done
    rw [objects_eq]
    refine (innerFirst_flatMap (fun o ho => ?_) done).append ⟨?_, trivial⟩
    · exact ih o.1 o.2 (mem_innerObjects.mp ho)
    · exact List.subset_append_right _ _

end Estree

end ScriptLint
