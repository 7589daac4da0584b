import ScriptLint.Proofs.Estree.Build

/-!
# Reading by recursion

What an object becomes can be said by **recursion** over the tree, without a list of all objects
and without a table.

* `recursion`: the node of an object, from the results of the recursion for the objects within.
* `found`: what is looked up while an object is built.
* `recursion_sameFault`: the recursion fails at the first object that cannot be built.
* `Progress`: the invariant of building objects one after another: the table has the results of the
  recursion for all objects built so far.
* `buildAll_progress`: building keeps it, and fails only where the recursion does.
* `convert_eq_recursion`: the conversion is the recursion.
-/

namespace ScriptLint.Estree

open Ast (Node)
open Outcome (SameFault)

/-- What an object becomes, by **recursion** over the tree.  The objects right inside come first,
and the object is built with what the objects within it have become. -/
def recursion (starts : Option (Array Nat)) (path : Path) (entries : Entries) :
    Except Fault (Option Node) := do
  let _ ← (innerObjects path 0 entries).attach.mapM fun o => recursion starts o.1.1 o.1.2
  Reader.build ⟨starts, fun p =>
    ((within path entries).attach.find? fun o => o.1.1 == p).bind fun o =>
      (recursion starts o.1.1 o.1.2).toOption.join⟩ path entries
termination_by sizeOf entries
decreasing_by
  · exact sizeOf_lt_of_inner (mem_innerObjects.mp o.2)
  · exact sizeOf_lt_of_mem_within o.2

/-- What is **found** at a path while an object is built. -/
def found (starts : Option (Array Nat)) (path : Path) (entries : Entries) (p : Path) :
    Option Node :=
  ((within path entries).find? fun o => o.1 == p).bind fun o =>
    (recursion starts o.1 o.2).toOption.join

/-- An object is built with what is found within it. -/
def buildFound (starts : Option (Array Nat)) (o : Path × Entries) : Except Fault (Option Node) :=
  Reader.build ⟨starts, found starts o.1 o.2⟩ o.1 o.2

section Recursion

variable {starts : Option (Array Nat)} {path : Path} {entries : Entries}

theorem recursion_eq (starts : Option (Array Nat)) (path : Path) (entries : Entries) :
    recursion starts path entries
      = (innerObjects path 0 entries).mapM (fun o => recursion starts o.1 o.2) >>= fun _ =>
          buildFound starts (path, entries) := by
  have hInner := Outcome.mapM_attach (fun o => recursion starts o.1 o.2) (innerObjects path 0 entries)
  have hFound : (fun p => ((within path entries).attach.find? fun o => o.1.1 == p).bind fun o =>
      (recursion starts o.1.1 o.1.2).toOption.join) = found starts path entries := by
    funext p
    rw [found]
    conv_rhs => rw [← List.attach_map_subtype_val (within path entries), List.find?_map]
    rw [Option.bind_map]
    rfl
  rw [recursion, hInner, hFound]
  rfl

/-- The recursion fails at the **first object** that cannot be built. -/
theorem recursion_sameFault (starts : Option (Array Nat)) (path : Path) (entries : Entries) :
    SameFault (recursion starts path entries) ((objects path entries).mapM (buildFound starts)) := by
  induction path, entries using objectInd with
  | h path entries ih =>
    rw [recursion_eq, objects_eq, List.mapM_append]
    have hWithin : SameFault ((innerObjects path 0 entries).mapM fun o => recursion starts o.1 o.2)
        ((within path entries).mapM (buildFound starts)) :=
      .mapM_flatMap fun o ho => ih o.1 o.2 (mem_innerObjects.mp ho)
    refine hWithin.bind fun _ _ => ?_
    rw [List.mapM_cons]
    cases buildFound starts (path, entries) with
    | error e => exact .error e
    | ok n => exact .ok _ _

/-- With results for the objects within, the recursion **builds** the object. -/
theorem recursion_eq_buildFound
    (h : ∀ o ∈ within path entries, ∃ n, recursion starts o.1 o.2 = .ok n) :
    recursion starts path entries = buildFound starts (path, entries) := by
  have hInner : ∀ o ∈ innerObjects path 0 entries, ∃ n, recursion starts o.1 o.2 = .ok n :=
    fun o ho => h o (mem_within_of_inner (mem_innerObjects.mp ho))
  obtain ⟨ns, hns⟩ := Outcome.exists_mapM_eq_ok.mpr hInner
  rw [recursion_eq, hns]
  rfl

/-- What is found at the path of an object is the result of the recursion for **this** object. -/
theorem found_of_mem_within {p : Path} {e : Entries} (h : (p, e) ∈ within path entries) :
    found starts path entries p = (recursion starts p e).toOption.join := by
  rw [found]
  cases hf : (within path entries).find? fun o => o.1 == p with
  | none =>
    have hNone := List.find?_eq_none.mp hf (p, e) h
    simp at hNone
  | some o =>
    obtain ⟨q, f⟩ := o
    have hPath : q = p := by simpa using List.find?_some hf
    subst hPath
    have hEntries := Reached.unique (.of_mem_within (List.mem_of_find?_eq_some hf))
      (.of_mem_within h)
    rw [Option.bind_some, hEntries]

end Recursion

/-! ### One object after another -/

/-- The table has **the results of the recursion** for the objects of `done`. -/
def Progress (starts : Option (Array Nat)) (done : List (Path × Entries)) (table : Table) : Prop :=
  ∀ o ∈ done, ∃ n, recursion starts o.1 o.2 = .ok n ∧ table[o.1]? = some n

namespace Progress

variable {starts : Option (Array Nat)} {done : List (Path × Entries)} {table : Table}
  {path : Path} {entries : Entries}

theorem buildFound_eq (h : Progress starts done table) (hInner : within path entries ⊆ done) :
    recursion starts path entries = buildFound starts (path, entries) := by
  refine recursion_eq_buildFound fun o ho => ?_
  obtain ⟨n, hn, _⟩ := h o (hInner ho)
  exact ⟨n, hn⟩

/-- When an object is to be built, the table and the recursion **find the same** within it. -/
theorem build_eq (h : Progress starts done table) (hInner : within path entries ⊆ done) :
    Reader.build ⟨starts, table.find?⟩ path entries = buildFound starts (path, entries) := by
  refine Reader.Agree.build ⟨rfl, fun p e hp => ?_⟩
  obtain ⟨n, hn, hGet⟩ := h (p, e) (hInner hp)
  show (table[p]?).join = found starts path entries p
  rw [found_of_mem_within hp, hn, hGet]
  rfl

/-- **One step** keeps the invariant. -/
theorem step (h : Progress starts done table) (hInner : within path entries ⊆ done)
    (hUnique : ∀ e, (path, e) ∈ done → e = entries) {n : Option Node}
    (hn : buildFound starts (path, entries) = .ok n) :
    Progress starts (done ++ [(path, entries)]) (table.insert path n) := by
  have hSelf : recursion starts path entries = .ok n := (h.buildFound_eq hInner).trans hn
  rintro ⟨p, e⟩ ho
  show ∃ m, recursion starts p e = .ok m ∧ (table.insert path n)[p]? = some m
  rw [Std.HashMap.getElem?_insert]
  by_cases hp : path = p
  · -- the object itself, or the same object built before
    subst hp
    have he : e = entries := by
      rcases List.mem_append.mp ho with ho | ho
      · exact hUnique e ho
      · exact (Prod.mk.inj (List.mem_singleton.mp ho)).2
    rw [if_pos (beq_self_eq_true _), he]
    exact ⟨n, hSelf, rfl⟩
  · rw [if_neg (by simpa using hp)]
    rcases List.mem_append.mp ho with ho | ho
    · exact h (p, e) ho
    · exact absurd (Prod.mk.inj (List.mem_singleton.mp ho)).1.symm hp

end Progress

/-- **Building one object after another** keeps the invariant, and fails at the first object that
cannot be built. -/
theorem buildAll_progress {starts : Option (Array Nat)} {root : Entries}
    {rest : List (Path × Entries)} : ∀ {done : List (Path × Entries)} {table : Table},
    InnerFirst done rest → (∀ o ∈ done ++ rest, Reached [] root o.1 o.2) →
      Progress starts done table →
      SameFault (buildAll starts rest table) (rest.mapM (buildFound starts)) ∧
        ∀ table', buildAll starts rest table = .ok table' → Progress starts (done ++ rest) table' := by
  induction rest with
  | nil =>
    intro done table _ _ hDone
    rw [List.append_nil]
    refine ⟨.ok _ _, fun table' h => ?_⟩
    cases h
    exact hDone
  | cons o rest ih =>
    obtain ⟨path, entries⟩ := o
    intro done table hFirst hReached hDone
    rw [buildAll, List.mapM_cons, hDone.build_eq hFirst.1]
    cases hn : buildFound starts (path, entries) with
    | error e => exact ⟨.error e, fun table' h => by cases h⟩
    | ok n =>
      have hUnique : ∀ e, (path, e) ∈ done → e = entries := fun e he =>
        (hReached (path, e) (List.mem_append_left _ he)).unique
          (hReached (path, entries) (List.mem_append_right _ List.mem_cons_self))
      have hStep := hDone.step hFirst.1 hUnique hn
      rw [← List.singleton_append, ← List.append_assoc] at hReached ⊢
      obtain ⟨hFault, hRest⟩ := ih hFirst.2 hReached hStep
      refine ⟨hFault.trans ?_, hRest⟩
      show SameFault _ (rest.mapM (buildFound starts) >>= fun ns => .ok (n :: ns))
      cases rest.mapM (buildFound starts) with
      | error e => exact .error e
      | ok ns => exact .ok _ _

/-- Building all objects of a tree **is the recursion**. -/
theorem convert_eq_recursion (starts : Option (Array Nat)) (root : Entries) :
    convert starts root = recursion starts [] root := by
  have hReached : ∀ o ∈ [] ++ objects [] root, Reached [] root o.1 o.2 := fun o ho =>
    mem_objects.mp ho
  obtain ⟨hFault, hDone⟩ := buildAll_progress (innerFirst_objects [] root []) hReached
    (show Progress starts [] ∅ from fun o ho => by cases ho)
  have hSame : SameFault (convert starts root) (recursion starts [] root) := by
    refine SameFault.trans ?_ (hFault.trans (recursion_sameFault starts [] root).symm)
    rw [convert]
    show SameFault (buildAll starts (objects [] root) ∅ >>= _) _
    cases buildAll starts (objects [] root) ∅ with
    | error e => exact .error e
    | ok table => exact .ok _ _
  refine hSame.eq_of_ok fun n m hn hm => ?_
  obtain ⟨table, hTable, hn⟩ := Outcome.bind_eq_ok.mp hn
  obtain ⟨m', hm', hGet⟩ := hDone table hTable ([], root) (mem_objects.mpr .self)
  rw [hm] at hm'
  cases hm'
  cases hn
  show (table[([] : Path)]?).join = m
  rw [hGet]
  rfl

/-- The conversion has a result if and only if **every object that is reached can be built**,
whatever the other objects have become. -/
theorem convert_ok_iff (starts : Option (Array Nat)) (root : Entries)
    (find? : Path → Option Node) :
    (∃ n, convert starts root = .ok n) ↔
      ∀ path entries, Reached [] root path entries →
        ∃ n, Reader.build ⟨starts, find?⟩ path entries = .ok n := by
  rw [convert_eq_recursion, (recursion_sameFault starts [] root).exists_ok_iff,
    Outcome.exists_mapM_eq_ok]
  have hSame : ∀ path entries, SameFault (buildFound starts (path, entries))
      (Reader.build ⟨starts, find?⟩ path entries) :=
    fun path entries => Reader.build_sameFault rfl
  constructor
  · intro h path entries hr
    exact (hSame path entries).exists_ok_iff.mp (h (path, entries) (mem_objects.mpr hr))
  · rintro h ⟨path, entries⟩ ho
    exact (hSame path entries).exists_ok_iff.mpr (h path entries (mem_objects.mp ho))

end ScriptLint.Estree
