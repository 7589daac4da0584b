import ScriptLint.Proofs.Registry.Table
import ScriptLint.Registry.Basic
import Mathlib.Data.List.Pairwise

/-!
# Sound registries

A registry keeps its rules in a table, their ranks in a second one, and three tables of sets that
say where each rule belongs.  It is **sound** if all of them tell the same story.

* `Indexes`: a table of sets files every rule under exactly the keys that it belongs to.
* `Registry.Sound`: the three indexes are right, and the ranks rise in the order of the rules.
* `Sound.ordered_eq_filter`: in a sound registry, sorting any set of identifiers by rank gives the
  rules in the order in which they stand in the table.
* `Sound.register`, `Sound.setEnabled`: every operation keeps a registry sound.
-/

namespace ScriptLint

variable {κ : Type} [DecidableEq κ]

/-! ### Indexes -/

/-- The table `t` files every rule under its keys, and nothing else. -/
structure Indexes (rules : List (Text × Rule)) (keysOf : Rule → List κ)
    (t : List (κ × List Text)) : Prop where
  keys : (t.map (·.1)).Nodup
  sets : ∀ k, (Table.setOf t k).Nodup
  mem : ∀ k id, id ∈ Table.setOf t k ↔ ∃ r, rules.lookup id = some r ∧ k ∈ keysOf r

namespace Indexes

variable {rules : List (Text × Rule)} {keysOf : Rule → List κ} {t : List (κ × List Text)}

theorem empty (keysOf : Rule → List κ) : Indexes [] keysOf [] where
  keys := List.nodup_nil
  sets := fun _ => List.nodup_nil
  mem := by simp [Table.setOf]

/-- A new rule is filed under its keys. -/
theorem add (h : Indexes rules keysOf t) (r : Rule) (hNew : rules.lookup r.id = none) :
    Indexes (Table.put rules r.id r) keysOf (Table.file t (keysOf r) r.id) where
  keys := Table.nodup_keys_file _ _ h.keys
  sets := Table.nodup_setOf_file _ _ h.sets
  mem := by
    intro k id
    rw [Table.mem_setOf_file, h.mem, Table.lookup_put]
    by_cases hid : id = r.id
    · subst hid
      simp [hNew]
    · simp [hid]

/-- A known rule leaves its old keys before it is filed under the new ones. -/
theorem replace (h : Indexes rules keysOf t) (r : Rule) {previous : Rule}
    (hOld : rules.lookup r.id = some previous) :
    Indexes (Table.put rules r.id r) keysOf
      (Table.file (Table.unfile t (keysOf previous) r.id) (keysOf r) r.id) where
  keys := by
    apply Table.nodup_keys_file
    rw [Table.keys_unfile]
    exact h.keys
  sets := Table.nodup_setOf_file _ _ (Table.nodup_setOf_unfile _ _ h.sets)
  mem := by
    intro k id
    rw [Table.mem_setOf_file, Table.mem_setOf_unfile, h.mem, Table.lookup_put]
    by_cases hid : id = r.id
    · subst hid
      simp [hOld]
    · simp [hid]

/-- A change that keeps the keys of every rule keeps the index. -/
theorem modify (h : Indexes rules keysOf t) (id : Text) {f : Rule → Rule}
    (hf : ∀ r, keysOf (f r) = keysOf r) : Indexes (Table.modify rules id f) keysOf t where
  keys := h.keys
  sets := h.sets
  mem := by
    intro k j
    rw [h.mem, Table.lookup_modify]
    by_cases hj : j = id
    · rw [if_pos hj]
      cases rules.lookup j <;> simp [hf]
    · rw [if_neg hj]

end Indexes

/-- The rule, switched on or off. -/
def Rule.switched (on : Bool) (r : Rule) : Rule := { r with enabled := on }

/-! ### Soundness -/

namespace Registry

/-- The pairs of language and category that a rule belongs to. -/
def pairsOf (r : Rule) : List (Language × Category) := r.languages.map fun l => (l, r.category)

/-- Rules, ranks and indexes **agree**. -/
structure Sound (g : Registry) : Prop where
  named : ∀ e ∈ g.rules, e.2.id = e.1
  distinct : (g.rules.map (·.1)).Nodup
  ranked : g.ranks.map (·.1) = g.rules.map (·.1)
  rising : g.ranks.Pairwise fun a b => a.2 < b.2
  below : ∀ e ∈ g.ranks, e.2 < g.next
  languages : Indexes g.rules Rule.languages g.byLanguage
  categories : Indexes g.rules (fun r => [r.category]) g.byCategory
  pairs : Indexes g.rules pairsOf g.byPair

/-- The rules in the order of their table. -/
def roster (g : Registry) : List Rule := g.rules.map (·.2)

namespace Sound

variable {g : Registry}

/-! ### Looking a rule up -/

theorem map_id_roster (h : g.Sound) : g.roster.map Rule.id = g.rules.map (·.1) := by
  rw [roster, List.map_map]
  exact List.map_congr_left h.named

theorem nodup_ids (h : g.Sound) : (g.roster.map Rule.id).Nodup := by
  rw [h.map_id_roster]
  exact h.distinct

theorem lookup_eq_some_iff (h : g.Sound) {id : Text} {r : Rule} :
    g.rules.lookup id = some r ↔ r ∈ g.roster ∧ r.id = id := by
  constructor
  · intro hl
    have he := Table.mem_of_lookup hl
    exact ⟨List.mem_map.mpr ⟨(id, r), he, rfl⟩, h.named _ he⟩
  · rintro ⟨hr, rfl⟩
    obtain ⟨⟨id, s⟩, he, rfl⟩ := List.mem_map.mp hr
    rw [h.named _ he]
    exact Table.lookup_of_mem h.distinct he

theorem lookup_eq_none_iff (h : g.Sound) {id : Text} :
    g.rules.lookup id = none ↔ ∀ r ∈ g.roster, r.id ≠ id := by
  rw [Table.lookup_eq_none_iff_not_mem, ← h.map_id_roster, List.mem_map]
  constructor
  · exact fun hn r hr hid => hn ⟨r, hr, hid⟩
  · rintro hn ⟨r, hr, hid⟩
    exact hn r hr hid

theorem mem_set_iff {keysOf : Rule → List κ} {t : List (κ × List Text)} (h : g.Sound)
    (hi : Indexes g.rules keysOf t) {k : κ} {id : Text} :
    id ∈ Table.setOf t k ↔ ∃ r ∈ g.roster, r.id = id ∧ k ∈ keysOf r := by
  rw [hi.mem]
  constructor
  · rintro ⟨r, hl, hk⟩
    obtain ⟨hr, hid⟩ := h.lookup_eq_some_iff.mp hl
    exact ⟨r, hr, hid, hk⟩
  · rintro ⟨r, hr, hid, hk⟩
    exact ⟨r, h.lookup_eq_some_iff.mpr ⟨hr, hid⟩, hk⟩

/-! ### Ranks -/

theorem rank_of_mem (h : g.Sound) {e : Text × Nat} (he : e ∈ g.ranks) : g.rank e.1 = e.2 := by
  have hKeys : (g.ranks.map (·.1)).Nodup := h.ranked ▸ h.distinct
  rw [rank, Table.lookup_of_mem hKeys he, Option.getD_some]

/-- **Ranks rise** along the table of rules. -/
theorem pairwise_rank (h : g.Sound) :
    (g.rules.map (·.1)).Pairwise fun a b => g.rank a < g.rank b := by
  rw [← h.ranked, List.pairwise_map]
  refine h.rising.imp_of_mem (fun {a b} ha hb hab => ?_)
  rw [h.rank_of_mem ha, h.rank_of_mem hb]
  exact hab

theorem pairwise_rank_roster (h : g.Sound) :
    g.roster.Pairwise fun r s => g.rank r.id < g.rank s.id := by
  have hp := h.pairwise_rank
  rw [← h.map_id_roster, List.pairwise_map] at hp
  exact hp

/-- Rules of the same rank are the same. -/
theorem eq_of_rank_eq (h : g.Sound) {a b : Text} (ha : a ∈ g.rules.map (·.1))
    (hb : b ∈ g.rules.map (·.1)) (hab : g.rank a = g.rank b) : a = b := by
  have : Std.Symm fun a b => g.rank a ≠ g.rank b := ⟨fun _ _ => Ne.symm⟩
  by_contra hne
  exact (h.pairwise_rank.imp Nat.ne_of_lt).forall ha hb hne hab

/-- The identifiers of a selection, **sorted by rank**, are those of the selected rules in the
order of the table. -/
theorem mergeSort_eq_filter (h : g.Sound) {ids : List Text} {p : Rule → Bool} (hIds : ids.Nodup)
    (hMem : ∀ id, id ∈ ids ↔ ∃ r ∈ g.roster, r.id = id ∧ p r) :
    (ids.mergeSort fun a b => g.rank a ≤ g.rank b) = (g.roster.filter p).map Rule.id := by
  have hRising : ((g.roster.filter p).map Rule.id).Pairwise fun a b => g.rank a < g.rank b := by
    rw [List.pairwise_map]
    exact h.pairwise_rank_roster.filter p
  have hSorted : (ids.mergeSort fun a b => g.rank a ≤ g.rank b).Pairwise
      fun a b => decide (g.rank a ≤ g.rank b) = true :=
    List.pairwise_mergeSort (fun a b c => by simp only [decide_eq_true_eq]; omega)
      (fun a b => by simp only [Bool.or_eq_true, decide_eq_true_eq]; omega) ids
  have hPerm : ids.Perm ((g.roster.filter p).map Rule.id) := by
    refine (List.perm_ext_iff_of_nodup hIds (hRising.imp ?_)).mpr (fun id => ?_)
    · rintro a b hab rfl
      omega
    · rw [hMem, List.mem_map]
      constructor
      · rintro ⟨r, hr, hid, hp⟩
        exact ⟨r, List.mem_filter.mpr ⟨hr, hp⟩, hid⟩
      · rintro ⟨r, hr, hid⟩
        obtain ⟨hr, hp⟩ := List.mem_filter.mp hr
        exact ⟨r, hr, hid, hp⟩
  have hKnown : ∀ id ∈ (g.roster.filter p).map Rule.id, id ∈ g.rules.map (·.1) := by
    intro id hid
    rw [← h.map_id_roster]
    exact List.map_subset _ (List.filter_subset_self _) hid
  refine ((List.mergeSort_perm ids _).trans hPerm).eq_of_pairwise ?_ hSorted
    (hRising.imp (fun hab => decide_eq_true (Nat.le_of_lt hab)))
  intro a b ha hb hab hba
  rw [decide_eq_true_eq] at hab hba
  exact h.eq_of_rank_eq (hKnown a (hPerm.subset (List.mem_mergeSort.mp ha))) (hKnown b hb)
    (Nat.le_antisymm hab hba)

/-- Looking up the identifiers of known rules gives the rules back. -/
theorem filterMap_lookup_ids (h : g.Sound) {rs : List Rule} (hrs : rs ⊆ g.roster) :
    (rs.map Rule.id).filterMap (fun id => g.rules.lookup id) = rs := by
  induction rs with
  | nil => rfl
  | cons r rs ih =>
    obtain ⟨hr, hrest⟩ := List.cons_subset.mp hrs
    have hl : g.rules.lookup r.id = some r := h.lookup_eq_some_iff.mpr ⟨hr, rfl⟩
    rw [List.map_cons, List.filterMap_cons, hl, ih hrest]

/-- **The rules of a set of identifiers**, by rank, are the selected rules in the order of the
table. -/
theorem ordered_eq_filter (h : g.Sound) {ids : List Text} {p : Rule → Bool} (hIds : ids.Nodup)
    (hMem : ∀ id, id ∈ ids ↔ ∃ r ∈ g.roster, r.id = id ∧ p r) :
    g.ordered ids = g.roster.filter p := by
  rw [ordered, h.mergeSort_eq_filter hIds hMem]
  exact h.filterMap_lookup_ids (List.filter_subset_self _)

/-! ### Operations -/

theorem empty : Registry.empty.Sound where
  named := by simp [Registry.empty]
  distinct := List.nodup_nil
  ranked := rfl
  rising := List.Pairwise.nil
  below := by simp [Registry.empty]
  languages := .empty _
  categories := .empty _
  pairs := .empty _

theorem clear (g : Registry) : g.clear.Sound where
  named := by simp [Registry.clear, Registry.empty]
  distinct := List.nodup_nil
  ranked := rfl
  rising := List.Pairwise.nil
  below := by simp [Registry.clear, Registry.empty]
  languages := .empty _
  categories := .empty _
  pairs := .empty _

/-- The registry after a **new** rule has come in. -/
theorem register_of_new (r : Rule) (hNew : g.rules.lookup r.id = none) :
    g.register r =
      { rules := Table.put g.rules r.id r
        ranks := Table.put g.ranks r.id g.next
        next := g.next + 1
        byLanguage := Table.file g.byLanguage r.languages r.id
        byCategory := Table.file g.byCategory [r.category] r.id
        byPair := Table.file g.byPair (pairsOf r) r.id } := by
  rw [Table.file, Table.file, Table.file, pairsOf, List.foldl_map]
  simp only [Registry.register, makeRoom, hNew, enter, List.foldl_cons, List.foldl_nil]

/-- The registry after a **known** rule has been replaced. -/
theorem register_of_known (h : g.Sound) (r : Rule) {previous : Rule}
    (hOld : g.rules.lookup r.id = some previous) :
    g.register r =
      { g with
        rules := Table.put g.rules r.id r
        byLanguage :=
          Table.file (Table.unfile g.byLanguage previous.languages r.id) r.languages r.id
        byCategory :=
          Table.file (Table.unfile g.byCategory [previous.category] r.id) [r.category] r.id
        byPair :=
          Table.file (Table.unfile g.byPair (pairsOf previous) r.id) (pairsOf r) r.id } := by
  have hId : previous.id = r.id := (h.lookup_eq_some_iff.mp hOld).2
  rw [Table.file, Table.file, Table.file, Table.unfile, Table.unfile, Table.unfile, pairsOf,
    pairsOf, List.foldl_map, List.foldl_map, ← hId]
  rw [← hId] at hOld
  simp only [Registry.register, makeRoom, ← hId, hOld, withdraw, enter, List.foldl_cons,
    List.foldl_nil]

theorem named_put (h : g.Sound) (r : Rule) : ∀ e ∈ Table.put g.rules r.id r, e.2.id = e.1 := by
  intro e he
  have hl := Table.lookup_of_mem (Table.nodup_keys_put _ _ h.distinct) he
  rw [Table.lookup_put] at hl
  by_cases hid : e.1 = r.id
  · rw [if_pos hid, Option.some.injEq] at hl
    rw [← hl, hid]
  · rw [if_neg hid] at hl
    exact h.named _ (Table.mem_of_lookup hl)

/-- Registering a rule keeps a registry sound. -/
theorem register (h : g.Sound) (r : Rule) : (g.register r).Sound := by
  cases hl : g.rules.lookup r.id with
  | none =>
    have hNew : r.id ∉ g.rules.map (·.1) := Table.lookup_eq_none_iff_not_mem.mp hl
    have hRank : r.id ∉ g.ranks.map (·.1) := h.ranked ▸ hNew
    have hRanks := Table.put_of_not_mem g.next hRank
    rw [register_of_new r hl]
    refine ⟨h.named_put r, Table.nodup_keys_put _ _ h.distinct, ?_, ?_, ?_, h.languages.add r hl,
      h.categories.add r hl, h.pairs.add r hl⟩
    · show (Table.put g.ranks r.id g.next).map _ = (Table.put g.rules r.id r).map _
      rw [hRanks, Table.put_of_not_mem r hNew, List.map_append, List.map_append, h.ranked]
      rfl
    · -- every rank given so far is below the next one
      show (Table.put g.ranks r.id g.next).Pairwise _
      rw [hRanks, List.pairwise_append]
      refine ⟨h.rising, List.pairwise_singleton _ _, fun e he f hf => ?_⟩
      rw [List.mem_singleton.mp hf]
      exact h.below e he
    · show ∀ e ∈ Table.put g.ranks r.id g.next, e.2 < g.next + 1
      rw [hRanks]
      intro e he
      rcases List.mem_append.mp he with he | he
      · exact Nat.lt_succ_of_lt (h.below e he)
      · rw [List.mem_singleton.mp he]
        exact Nat.lt_succ_self _
  | some previous =>
    have hKnown : r.id ∈ g.rules.map (·.1) := by
      by_contra hn
      rw [Table.lookup_eq_none_iff_not_mem.mpr hn] at hl
      simp at hl
    rw [h.register_of_known r hl]
    refine ⟨h.named_put r, Table.nodup_keys_put _ _ h.distinct, ?_, h.rising, h.below,
      h.languages.replace r hl, h.categories.replace r hl, h.pairs.replace r hl⟩
    show g.ranks.map _ = (Table.put g.rules r.id r).map _
    rw [Table.keys_put_of_mem r hKnown, h.ranked]

/-- The switch of an unknown rule is the switch of no rule. -/
theorem setEnabled_fst (g : Registry) (id : Text) (on : Bool) :
    (g.setEnabled id on).1 = { g with rules := Table.modify g.rules id (Rule.switched on) } := by
  rw [Registry.setEnabled]
  split
  · rfl
  · rename_i hc
    have hNone : g.rules.lookup id = none := Option.not_isSome_iff_eq_none.mp hc
    have hSame : Table.modify g.rules id (Rule.switched on) = g.rules := by
      rw [Table.lookup_eq_none_iff_not_mem] at hNone
      rw [Table.modify]
      conv_rhs => rw [← List.map_id g.rules]
      refine List.map_congr_left (fun e he => if_neg (fun hid => hNone ?_))
      exact List.mem_map.mpr ⟨e, he, hid⟩
    rw [hSame]

/-- Switching a rule keeps a registry sound. -/
theorem setEnabled (h : g.Sound) (id : Text) (on : Bool) : (g.setEnabled id on).1.Sound := by
  rw [setEnabled_fst]
  refine ⟨?_, ?_, ?_, h.rising, h.below, h.languages.modify id (fun _ => rfl),
    h.categories.modify id (fun _ => rfl), h.pairs.modify id (fun _ => rfl)⟩
  · show ∀ e ∈ Table.modify g.rules id (Rule.switched on), e.2.id = e.1
    intro e he
    rw [Table.modify] at he
    obtain ⟨f, hf, rfl⟩ := List.mem_map.mp he
    split
    · exact h.named f hf
    · exact h.named f hf
  · show ((Table.modify g.rules id (Rule.switched on)).map _).Nodup
    rw [Table.keys_modify]
    exact h.distinct
  · show g.ranks.map _ = (Table.modify g.rules id (Rule.switched on)).map _
    rw [Table.keys_modify]
    exact h.ranked

end Sound

end Registry

end ScriptLint
