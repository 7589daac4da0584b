import ScriptLint.Registry.Table
import Mathlib.Data.List.Nodup

/-!
# What the operations on tables do

A table is seen through two views: what it has for a key (`List.lookup`), and its keys in their
order.  For a table of sets the first view is `setOf`.

* `lookup_put`, `lookup_modify`: one key changes and all others stay.
* `put_of_mem`, `put_of_not_mem`: a known key keeps its place, and a new one comes last.
* `mem_setOf_file`, `mem_setOf_unfile`: what is in a set after an item has been filed under
  several keys, or taken out from under them.
-/

namespace ScriptLint.Table

variable {κ α : Type}

/-! ### Keys and values -/

section Lookup

variable [BEq κ] [LawfulBEq κ]

theorem lookup_eq_none_iff_not_mem {t : List (κ × α)} {k : κ} :
    t.lookup k = none ↔ k ∉ t.map (·.1) := by
  rw [List.lookup_eq_none_iff]
  constructor
  · intro h hk
    obtain ⟨e, he, rfl⟩ := List.mem_map.mp hk
    simpa using h e he
  · intro h e he
    have hne : k ≠ e.1 := fun hk => h (List.mem_map.mpr ⟨e, he, hk.symm⟩)
    simpa using hne

theorem mem_of_lookup {t : List (κ × α)} {k : κ} {a : α} (h : t.lookup k = some a) :
    (k, a) ∈ t := by
  obtain ⟨before, after, rfl, _⟩ := List.lookup_eq_some_iff.mp h
  simp

/-- In a table without repeated keys every entry is found under its key. -/
theorem lookup_of_mem {k : κ} {a : α} : ∀ {t : List (κ × α)}, (t.map (·.1)).Nodup →
    (k, a) ∈ t → t.lookup k = some a := by
  intro t
  induction t with
  | nil => intro _ h; simp at h
  | cons e t ih =>
    obtain ⟨j, b⟩ := e
    intro hKeys h
    rw [List.map_cons, List.nodup_cons] at hKeys
    rw [List.lookup_cons]
    rcases List.mem_cons.mp h with he | ht
    · rw [Prod.mk.injEq] at he
      rw [beq_iff_eq.mpr he.1, he.2]
    · have hne : k ≠ j := by
        intro hk
        exact hKeys.1 (hk ▸ List.mem_map.mpr ⟨(k, a), ht, rfl⟩)
      rw [beq_eq_false_iff_ne.mpr hne]
      exact ih hKeys.2 ht

end Lookup

variable [DecidableEq κ]

/-! ### The order of the keys -/

theorem put_of_not_mem {t : List (κ × α)} {k : κ} (a : α) (h : k ∉ t.map (·.1)) :
    put t k a = t ++ [(k, a)] := by
  induction t with
  | nil => rfl
  | cons e t ih =>
    rw [List.map_cons, List.mem_cons, not_or] at h
    rw [put, if_neg (fun he => h.1 he.symm), ih h.2, List.cons_append]

theorem put_of_mem {t : List (κ × α)} {k : κ} (a : α) (hKeys : (t.map (·.1)).Nodup)
    (h : k ∈ t.map (·.1)) : put t k a = t.map fun e => if e.1 = k then (k, a) else e := by
  induction t with
  | nil => simp at h
  | cons e t ih =>
    rw [List.map_cons, List.nodup_cons] at hKeys
    rw [put, List.map_cons]
    by_cases he : e.1 = k
    · -- the key does not occur again, so the rest stays as it is
      have hRest : ∀ f ∈ t, (if f.1 = k then (k, a) else f) = f := by
        intro f hf
        refine if_neg (fun hfk => hKeys.1 ?_)
        exact List.mem_map.mpr ⟨f, hf, hfk.trans he.symm⟩
      rw [if_pos he, if_pos he, List.map_congr_left hRest, List.map_id']
    · rw [List.map_cons, List.mem_cons] at h
      rw [if_neg he, if_neg he, ih hKeys.2 (h.resolve_left (fun hk => he hk.symm))]

theorem keys_put_of_mem {t : List (κ × α)} {k : κ} (a : α) (h : k ∈ t.map (·.1)) :
    (put t k a).map (·.1) = t.map (·.1) := by
  induction t with
  | nil => simp at h
  | cons e t ih =>
    rw [put]
    by_cases he : e.1 = k
    · rw [if_pos he, List.map_cons, List.map_cons, he]
    · rw [List.map_cons, List.mem_cons] at h
      rw [if_neg he, List.map_cons, List.map_cons,
        ih (h.resolve_left (fun hk => he hk.symm))]

theorem nodup_keys_put {t : List (κ × α)} (k : κ) (a : α) (hKeys : (t.map (·.1)).Nodup) :
    ((put t k a).map (·.1)).Nodup := by
  by_cases h : k ∈ t.map (·.1)
  · rw [keys_put_of_mem a h]
    exact hKeys
  · rw [put_of_not_mem a h, List.map_append]
    exact hKeys.append (List.nodup_singleton k) (by simpa using h)

theorem keys_modify (t : List (κ × α)) (k : κ) (f : α → α) :
    (modify t k f).map (·.1) = t.map (·.1) := by
  rw [modify, List.map_map]
  refine List.map_congr_left (fun e _ => ?_)
  by_cases h : e.1 = k <;> simp [h]

/-! ### What a key stands for after a change -/

section Change

variable [BEq κ] [LawfulBEq κ]

theorem lookup_cons_eq_ite (t : List (κ × α)) (i j : κ) (b : α) :
    ((i, b) :: t).lookup j = if j = i then some b else t.lookup j := by
  rw [List.lookup_cons]
  by_cases h : j = i
  · rw [if_pos h, beq_iff_eq.mpr h]
  · rw [if_neg h, beq_eq_false_iff_ne.mpr h]

theorem lookup_put (t : List (κ × α)) (k j : κ) (a : α) :
    (put t k a).lookup j = if j = k then some a else t.lookup j := by
  induction t with
  | nil => by_cases h : j = k <;> simp [put, h]
  | cons e t ih =>
    obtain ⟨i, b⟩ := e
    rw [put]
    by_cases hik : i = k
    · subst hik
      rw [if_pos rfl, lookup_cons_eq_ite, lookup_cons_eq_ite]
      by_cases hj : j = i <;> simp [hj]
    · rw [if_neg hik, lookup_cons_eq_ite, ih, lookup_cons_eq_ite]
      by_cases hji : j = i <;> simp [hji, hik]

theorem lookup_modify (t : List (κ × α)) (k j : κ) (f : α → α) :
    (modify t k f).lookup j = if j = k then (t.lookup j).map f else t.lookup j := by
  induction t with
  | nil => by_cases h : j = k <;> simp [modify]
  | cons e t ih =>
    obtain ⟨i, b⟩ := e
    rw [modify, List.map_cons, ← modify]
    by_cases hik : i = k
    · rw [if_pos hik, lookup_cons_eq_ite, ih, lookup_cons_eq_ite, ← hik]
      by_cases hji : j = i <;> simp [hji]
    · rw [if_neg hik, lookup_cons_eq_ite, ih, lookup_cons_eq_ite]
      by_cases hji : j = i <;> simp [hji, hik]

end Change

/-! ### Tables of sets -/

section Sets

variable [DecidableEq α]

theorem mem_merge {as bs : List α} {x : α} : x ∈ merge as bs ↔ x ∈ as ∨ x ∈ bs := by
  unfold merge
  induction bs generalizing as with
  | nil => simp
  | cons b bs ih =>
    rw [List.foldl_cons, ih, List.mem_insert_iff, List.mem_cons]
    tauto

theorem nodup_merge {as : List α} (bs : List α) (h : as.Nodup) : (merge as bs).Nodup := by
  unfold merge
  induction bs generalizing as with
  | nil => exact h
  | cons b bs ih => exact ih h.insert

theorem setOf_addTo (t : List (κ × List α)) (k j : κ) (a : α) :
    setOf (addTo t k a) j = if j = k then (setOf t k).insert a else setOf t j := by
  rw [setOf, addTo, lookup_put]
  by_cases h : j = k <;> simp [h, setOf]

theorem setOf_removeFrom (t : List (κ × List α)) (k j : κ) (a : α) :
    setOf (removeFrom t k a) j = if j = k then (setOf t k).filter (· ≠ a) else setOf t j := by
  rw [setOf, removeFrom, lookup_modify]
  by_cases h : j = k
  · subst h
    cases hl : t.lookup j <;> simp [hl, setOf]
  · simp [h, setOf]

/-- Files an item under several keys. -/
def file (t : List (κ × List α)) (ks : List κ) (a : α) : List (κ × List α) :=
  ks.foldl (fun t k => addTo t k a) t

/-- Takes an item out from under several keys. -/
def unfile (t : List (κ × List α)) (ks : List κ) (a : α) : List (κ × List α) :=
  ks.foldl (fun t k => removeFrom t k a) t

theorem mem_setOf_file {ks : List κ} {a x : α} {j : κ} :
    ∀ {t : List (κ × List α)}, x ∈ setOf (file t ks a) j ↔ x ∈ setOf t j ∨ (x = a ∧ j ∈ ks) := by
  induction ks with
  | nil => intro t; simp [file]
  | cons k ks ih =>
    intro t
    rw [file, List.foldl_cons, ← file, ih, setOf_addTo, List.mem_cons]
    by_cases h : j = k
    · subst h
      rw [if_pos rfl, List.mem_insert_iff]
      tauto
    · rw [if_neg h]
      tauto

theorem mem_setOf_unfile {ks : List κ} {a x : α} {j : κ} :
    ∀ {t : List (κ × List α)},
      x ∈ setOf (unfile t ks a) j ↔ x ∈ setOf t j ∧ ¬ (x = a ∧ j ∈ ks) := by
  induction ks with
  | nil => intro t; simp [unfile]
  | cons k ks ih =>
    intro t
    rw [unfile, List.foldl_cons, ← unfile, ih, setOf_removeFrom, List.mem_cons]
    by_cases h : j = k
    · subst h
      rw [if_pos rfl, List.mem_filter, decide_eq_true_eq]
      tauto
    · rw [if_neg h]
      tauto

theorem nodup_setOf_file {t : List (κ × List α)} (ks : List κ) (a : α)
    (h : ∀ k, (setOf t k).Nodup) : ∀ k, (setOf (file t ks a) k).Nodup := by
  induction ks generalizing t with
  | nil => exact h
  | cons k ks ih =>
    refine ih (fun j => ?_)
    rw [setOf_addTo]
    split
    · exact (h k).insert
    · exact h j

theorem nodup_setOf_unfile {t : List (κ × List α)} (ks : List κ) (a : α)
    (h : ∀ k, (setOf t k).Nodup) : ∀ k, (setOf (unfile t ks a) k).Nodup := by
  induction ks generalizing t with
  | nil => exact h
  | cons k ks ih =>
    refine ih (fun j => ?_)
    rw [setOf_removeFrom]
    split
    · exact (h k).filter _
    · exact h j

theorem nodup_keys_file {t : List (κ × List α)} (ks : List κ) (a : α)
    (h : (t.map (·.1)).Nodup) : ((file t ks a).map (·.1)).Nodup := by
  induction ks generalizing t with
  | nil => exact h
  | cons k ks ih => exact ih (nodup_keys_put k _ h)

theorem keys_unfile (t : List (κ × List α)) (ks : List κ) (a : α) :
    (unfile t ks a).map (·.1) = t.map (·.1) := by
  induction ks generalizing t with
  | nil => rfl
  | cons k ks ih => exact (ih (removeFrom t k a)).trans (keys_modify t k _)

end Sets

end ScriptLint.Table
