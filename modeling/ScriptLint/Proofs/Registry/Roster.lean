import ScriptLint.Proofs.Registry.Sound

/-!
# A registry is a list of rules

All that a registry shows to the outside can be read off a **roster**: a plain list of rules in
which registering replaces the rule of the same identifier in its place or adds a new one at the
end, and switching goes through the whole list.

* `Registry.Call`, `Registry.perform`, `Roster.perform`: the calls that change a registry, what
  they do to it, and what they do to a roster.
* `Sound.perform`: one call on a sound registry does to its roster what the same call does to the
  roster alone, and gives the same answer.
* `Sound.rulesFor_eq`, `Sound.mem_byLanguage_iff`, ...: the questions to a sound registry, answered
  by going through its roster.
* `run_shows_roster`: after any calls, all answers are those of the roster.
-/

namespace ScriptLint

/-- A plain list of rules. -/
abbrev Roster := List Rule

/-! ### Calls -/

namespace Registry

/-- The calls that change a registry. -/
inductive Call where
  | register (r : Rule)
  | registerAll (rs : List Rule)
  | setEnabled (id : Text) (on : Bool)
  | setCategoryEnabled (c : Category) (on : Bool)
  | clear

/-- What a call gives back. -/
inductive Answer where
  | nothing
  | known (found : Bool)
  | touched (count : Nat)
deriving DecidableEq

/-- A call on a registry. -/
def perform (g : Registry) : Call → Registry × Answer
  | .register r => (g.register r, .nothing)
  | .registerAll rs => (g.registerAll rs, .nothing)
  | .setEnabled id on => ((g.setEnabled id on).1, .known (g.setEnabled id on).2)
  | .setCategoryEnabled c on =>
    ((g.setCategoryEnabled c on).1, .touched (g.setCategoryEnabled c on).2)
  | .clear => (g.clear, .nothing)

/-- One call after the other, with all answers. -/
def run (g : Registry) : List Call → Registry × List Answer
  | [] => (g, [])
  | c :: cs => (((g.perform c).1.run cs).1, (g.perform c).2 :: ((g.perform c).1.run cs).2)

end Registry

namespace Roster

/-- A rule takes the place of the one with its identifier, or comes last. -/
def register (L : Roster) (r : Rule) : Roster :=
  if L.any fun s => s.id == r.id then L.map fun s => if s.id = r.id then r else s else L ++ [r]

/-- Switches the rules that satisfy a condition. -/
def switch (L : Roster) (p : Rule → Bool) (on : Bool) : Roster :=
  L.map fun r => if p r then r.switched on else r

/-- A call on a roster. -/
def perform (L : Roster) : Registry.Call → Roster × Registry.Answer
  | .register r => (L.register r, .nothing)
  | .registerAll rs => (rs.foldl register L, .nothing)
  | .setEnabled id on => (L.switch (·.id == id) on, .known (L.any (·.id == id)))
  | .setCategoryEnabled c on =>
    (L.switch (·.category == c) on, .touched (L.countP (·.category == c)))
  | .clear => ([], .nothing)

/-- One call after the other, with all answers. -/
def run (L : Roster) : List Registry.Call → Roster × List Registry.Answer
  | [] => (L, [])
  | c :: cs => (((L.perform c).1.run cs).1, (L.perform c).2 :: ((L.perform c).1.run cs).2)

theorem mem_foldl_register {r : Rule} (rs : List Rule) :
    ∀ {L : Roster}, r ∈ rs.foldl register L → r ∈ L ∨ r ∈ rs := by
  induction rs with
  | nil => exact fun h => .inl h
  | cons s rs ih =>
    intro L h
    rcases ih h with h | h
    · rw [register] at h
      split at h
      · obtain ⟨t, ht, rfl⟩ := List.mem_map.mp h
        split <;> simp [ht]
      · rw [List.mem_append, List.mem_singleton] at h
        rcases h with h | rfl <;> simp [*]
    · exact .inr (List.mem_cons_of_mem _ h)

/-- Switching one rule after the other is switching them together. -/
theorem foldl_switch_id (ids : List Text) (on : Bool) :
    ∀ L : Roster, ids.foldl (fun L id => switch L (·.id == id) on) L
      = L.switch (fun r => ids.contains r.id) on := by
  induction ids with
  | nil => intro L; simp [switch]
  | cons id ids ih =>
    intro L
    rw [List.foldl_cons, ih, switch, switch, switch, List.map_map]
    refine List.map_congr_left (fun r _ => ?_)
    by_cases hid : r.id = id <;> by_cases hids : r.id ∈ ids <;>
      simp [Rule.switched, hid, hids]

end Roster

/-! ### Questions to a sound registry -/

namespace Registry.Sound

variable {g : Registry} {κ : Type} [DecidableEq κ]

theorem get?_eq (h : g.Sound) (id : Text) : g.get? id = g.roster.find? (·.id == id) := by
  rw [get?]
  cases hl : g.rules.lookup id with
  | none =>
    rw [eq_comm, List.find?_eq_none]
    intro r hr
    simpa using h.lookup_eq_none_iff.mp hl r hr
  | some r =>
    obtain ⟨hr, hid⟩ := h.lookup_eq_some_iff.mp hl
    cases hf : g.roster.find? (·.id == id) with
    | none =>
      have := List.find?_eq_none.mp hf r hr
      simp [hid] at this
    | some s =>
      have hs : s.id = id := by simpa using List.find?_some hf
      have hl' := h.lookup_eq_some_iff.mpr ⟨List.mem_of_find?_eq_some hf, hs⟩
      rw [← hl, hl']

theorem contains_eq (h : g.Sound) (id : Text) : g.contains id = g.roster.any (·.id == id) := by
  rw [contains, h.get?_eq, Bool.eq_iff_iff, List.find?_isSome, List.any_eq_true]

theorem size_eq (g : Registry) : g.size = g.roster.length := by
  rw [size, roster, List.length_map]

theorem all_eq (h : g.Sound) : g.all = g.roster := by
  have hAll : g.all = g.roster.filter fun _ => true := by
    refine h.ordered_eq_filter h.distinct (fun id => ?_)
    rw [← h.map_id_roster, List.mem_map]
    simp
  rw [hAll, List.filter_true]

/-- The set of a key lists the rules that belong to it. -/
theorem ordered_setOf (h : g.Sound) {keysOf : Rule → List κ} {t : List (κ × List Text)}
    (hi : Indexes g.rules keysOf t) (k : κ) :
    g.ordered (Table.setOf t k) = g.roster.filter fun r => (keysOf r).contains k := by
  refine h.ordered_eq_filter (hi.sets k) (fun id => ?_)
  rw [h.mem_set_iff hi]
  simp

theorem length_setOf (h : g.Sound) {keysOf : Rule → List κ} {t : List (κ × List Text)}
    (hi : Indexes g.rules keysOf t) (k : κ) :
    (Table.setOf t k).length = g.roster.countP fun r => (keysOf r).contains k := by
  have hSort := h.mergeSort_eq_filter (p := fun r => (keysOf r).contains k) (hi.sets k)
    (fun id => by rw [h.mem_set_iff hi]; simp)
  rw [List.countP_eq_length_filter, ← List.length_map (f := Rule.id), ← hSort,
    List.length_mergeSort]

theorem forLanguage_eq (h : g.Sound) (l : Language) :
    g.forLanguage l = g.roster.filter (·.appliesTo l) := h.ordered_setOf h.languages l

theorem contains_category (r : Rule) (c : Category) :
    [r.category].contains c = (r.category == c) := by
  rw [List.contains_cons, List.contains_nil, Bool.or_false, beq_eq_beq]
  exact eq_comm

theorem forCategory_eq (h : g.Sound) (c : Category) :
    g.forCategory c = g.roster.filter (·.category == c) := by
  rw [forCategory, h.ordered_setOf h.categories]
  exact List.filter_congr (fun r _ => contains_category r c)

/-- Collecting the sets of several keys gives their items, each once. -/
theorem mem_idsFor (l : Language) (cs : List Category) (id : Text) :
    id ∈ g.idsFor l cs ↔ ∃ c ∈ cs, id ∈ Table.setOf g.byPair (l, c) := by
  have hFold : ∀ ids : List Text,
      id ∈ cs.foldl (fun ids c => Table.merge ids (Table.setOf g.byPair (l, c))) ids ↔
        id ∈ ids ∨ ∃ c ∈ cs, id ∈ Table.setOf g.byPair (l, c) := by
    induction cs with
    | nil => intro ids; simp
    | cons c cs ih =>
      intro ids
      rw [List.foldl_cons, ih, Table.mem_merge, or_assoc]
      simp only [List.mem_cons, exists_eq_or_imp]
  rw [idsFor, hFold]
  simp

theorem nodup_idsFor (l : Language) (cs : List Category) : (g.idsFor l cs).Nodup := by
  have hFold : ∀ ids : List Text, ids.Nodup →
      (cs.foldl (fun ids c => Table.merge ids (Table.setOf g.byPair (l, c))) ids).Nodup := by
    induction cs with
    | nil => exact fun _ h => h
    | cons c cs ih => exact fun ids h => ih _ (Table.nodup_merge _ h)
  exact hFold [] List.nodup_nil

/-- Is the rule one of those to be tried for a language and some categories? -/
def selects (l : Language) (cs : List Category) (r : Rule) : Bool :=
  r.enabled && r.appliesTo l && (cs.isEmpty || cs.contains r.category)

theorem rulesFor_eq (h : g.Sound) (l : Language) (cs : List Category) :
    g.rulesFor l cs = g.roster.filter (selects l cs) := by
  rw [rulesFor]
  cases hcs : cs.isEmpty with
  | true =>
    rw [if_pos rfl]
    show (g.forLanguage l).filter _ = _
    rw [h.forLanguage_eq, List.filter_filter]
    refine List.filter_congr (fun r _ => ?_)
    simp [selects, hcs]
  | false =>
    rw [if_neg (by simp)]
    have hIds : ∀ id, id ∈ g.idsFor l cs ↔
        ∃ r ∈ g.roster, r.id = id ∧ (r.appliesTo l && cs.contains r.category) := by
      intro id
      rw [mem_idsFor]
      simp only [h.mem_set_iff h.pairs, pairsOf, List.mem_map, Prod.mk.injEq, Rule.appliesTo,
        Bool.and_eq_true, List.contains_iff_mem]
      constructor
      · rintro ⟨c, hc, r, hr, hid, l', hl', rfl, rfl⟩
        exact ⟨r, hr, hid, hl', hc⟩
      · rintro ⟨r, hr, hid, hl, hc⟩
        exact ⟨r.category, hc, r, hr, hid, l, hl, rfl, rfl⟩
    rw [h.ordered_eq_filter (nodup_idsFor l cs) hIds, List.filter_filter]
    refine List.filter_congr (fun r _ => ?_)
    simp [selects, hcs, Bool.and_assoc]

/-! ### Statistics -/

theorem nodup_statistics_byLanguage (h : g.Sound) :
    (g.statistics.byLanguage.map (·.1)).Nodup := by
  show (((g.byLanguage.filter _).map _).map _).Nodup
  rw [List.map_map]
  exact (List.filter_sublist.map _).nodup h.languages.keys

theorem mem_byLanguage_iff (h : g.Sound) (l : Language) (n : Nat) :
    (l, n) ∈ g.statistics.byLanguage ↔ n = g.roster.countP (·.appliesTo l) ∧ 0 < n := by
  have hCount : (Table.setOf g.byLanguage l).length = g.roster.countP (·.appliesTo l) :=
    h.length_setOf h.languages l
  show (l, n) ∈ (g.byLanguage.filter _).map _ ↔ _
  simp only [List.mem_map, List.mem_filter, Prod.mk.injEq]
  constructor
  · rintro ⟨⟨l', ids⟩, ⟨he, hne⟩, rfl, rfl⟩
    have hSet : Table.setOf g.byLanguage l' = ids := by
      rw [Table.setOf, Table.lookup_of_mem h.languages.keys he, Option.getD_some]
    rw [← hCount, hSet]
    refine ⟨rfl, List.length_pos_iff.mpr ?_⟩
    simpa using hne
  · rintro ⟨hn, hpos⟩
    rw [← hCount] at hn
    cases hl : g.byLanguage.lookup l with
    | none =>
      rw [Table.setOf, hl] at hn
      simp at hn
      omega
    | some ids =>
      rw [Table.setOf, hl, Option.getD_some] at hn
      refine ⟨(l, ids), ⟨Table.mem_of_lookup hl, ?_⟩, rfl, hn.symm⟩
      subst hn
      simpa using List.length_pos_iff.mp hpos

/-! ### One call -/

theorem roster_register (h : g.Sound) (r : Rule) :
    (g.register r).roster = Roster.register g.roster r := by
  have hRules : (g.register r).rules = Table.put g.rules r.id r := by
    cases hl : g.rules.lookup r.id with
    | none => rw [register_of_new r hl]
    | some previous => rw [h.register_of_known r hl]
  have hAny : (g.roster.any fun s => s.id == r.id) = true ↔ r.id ∈ g.rules.map (·.1) := by
    rw [← h.map_id_roster, List.any_eq_true, List.mem_map]
    simp
  rw [roster, hRules, Roster.register]
  by_cases hk : r.id ∈ g.rules.map (·.1)
  · rw [if_pos (hAny.mpr hk), Table.put_of_mem r h.distinct hk, roster, List.map_map,
      List.map_map]
    refine List.map_congr_left (fun e he => ?_)
    rw [Function.comp, Function.comp, h.named e he]
    split <;> rfl
  · rw [if_neg (fun ha => hk (hAny.mp ha)), Table.put_of_not_mem r hk, List.map_append]
    rfl

theorem registerAll (rs : List Rule) : ∀ {g : Registry}, g.Sound →
    (g.registerAll rs).Sound ∧ (g.registerAll rs).roster = rs.foldl Roster.register g.roster := by
  induction rs with
  | nil => exact fun h => ⟨h, rfl⟩
  | cons r rs ih =>
    intro g h
    rw [List.foldl_cons, ← h.roster_register r]
    exact ih (h.register r)

theorem roster_setEnabled (h : g.Sound) (id : Text) (on : Bool) :
    (g.setEnabled id on).1.roster = Roster.switch g.roster (·.id == id) on := by
  rw [setEnabled_fst, roster, Table.modify, roster, Roster.switch, List.map_map, List.map_map]
  refine List.map_congr_left (fun e he => ?_)
  rw [Function.comp, Function.comp]
  have hid := h.named e he
  by_cases he : e.1 = id <;> simp [hid, he]

theorem setEnabled_snd (g : Registry) (id : Text) (on : Bool) :
    (g.setEnabled id on).2 = g.contains id := by
  rw [Registry.setEnabled]
  split
  · rename_i hc
    exact hc.symm
  · rename_i hc
    exact (Bool.not_eq_true _ ▸ hc).symm

theorem foldl_setEnabled (on : Bool) (ids : List Text) : ∀ {g : Registry}, g.Sound →
    (ids.foldl (fun g id => (g.setEnabled id on).1) g).Sound ∧
      (ids.foldl (fun g id => (g.setEnabled id on).1) g).roster
        = ids.foldl (fun L id => Roster.switch L (·.id == id) on) g.roster := by
  induction ids with
  | nil => exact fun h => ⟨h, rfl⟩
  | cons id ids ih =>
    intro g h
    rw [List.foldl_cons, List.foldl_cons, ← h.roster_setEnabled id on]
    exact ih (h.setEnabled id on)

/-- Switching a category goes through the set of its rules, and no rule outside it is touched. -/
theorem setCategoryEnabled (h : g.Sound) (c : Category) (on : Bool) :
    (g.setCategoryEnabled c on).1.Sound ∧
      (g.setCategoryEnabled c on).1.roster = Roster.switch g.roster (·.category == c) on ∧
      (g.setCategoryEnabled c on).2 = g.roster.countP (·.category == c) := by
  obtain ⟨hSound, hRoster⟩ := foldl_setEnabled on (Table.setOf g.byCategory c) h
  refine ⟨hSound, ?_, ?_⟩
  · refine hRoster.trans ?_
    rw [Roster.foldl_switch_id, Roster.switch, Roster.switch]
    refine List.map_congr_left (fun r hr => ?_)
    have hMem : r.id ∈ Table.setOf g.byCategory c ↔ r.category = c := by
      rw [h.categories.mem, h.lookup_eq_some_iff.mpr ⟨hr, rfl⟩]
      simp [eq_comm]
    simp [hMem]
  · show (Table.setOf g.byCategory c).length = _
    rw [h.length_setOf h.categories]
    exact List.countP_congr (fun r _ => by rw [contains_category])

/-- **One call** keeps a registry sound, and does to its roster what it does to the roster
alone. -/
theorem perform (h : g.Sound) (c : Call) :
    (g.perform c).1.Sound ∧ (g.perform c).1.roster = (Roster.perform g.roster c).1 ∧
      (g.perform c).2 = (Roster.perform g.roster c).2 := by
  cases c with
  | register r => exact ⟨h.register r, h.roster_register r, rfl⟩
  | registerAll rs => exact ⟨(registerAll rs h).1, (registerAll rs h).2, rfl⟩
  | setEnabled id on =>
    refine ⟨h.setEnabled id on, h.roster_setEnabled id on, ?_⟩
    show Answer.known _ = Answer.known _
    rw [setEnabled_snd, h.contains_eq]
  | setCategoryEnabled c on =>
    obtain ⟨hSound, hRoster, hCount⟩ := h.setCategoryEnabled c on
    refine ⟨hSound, hRoster, ?_⟩
    show Answer.touched _ = Answer.touched _
    rw [hCount]
  | clear => exact ⟨clear g, rfl, rfl⟩

/-- **Any number of calls** keeps a registry sound and in step with its roster. -/
theorem run (calls : List Call) : ∀ {g : Registry}, g.Sound →
    (g.run calls).1.Sound ∧ (g.run calls).1.roster = (Roster.run g.roster calls).1 ∧
      (g.run calls).2 = (Roster.run g.roster calls).2 := by
  induction calls with
  | nil => exact fun h => ⟨h, rfl, rfl⟩
  | cons c cs ih =>
    intro g h
    obtain ⟨hSound, hRoster, hAnswer⟩ := h.perform c
    obtain ⟨hSound', hRoster', hAnswers⟩ := ih hSound
    rw [hRoster] at hRoster' hAnswers
    refine ⟨hSound', hRoster', ?_⟩
    rw [Registry.run, Roster.run, hAnswer, hAnswers]

end Registry.Sound

/-! ### All questions together -/

namespace Registry

/-- Every question to the registry is answered by going through the roster `L` in its order. -/
structure Shows (g : Registry) (L : Roster) : Prop where
  get? : ∀ id, g.get? id = L.find? (·.id == id)
  contains : ∀ id, g.contains id = L.any (·.id == id)
  size : g.size = L.length
  all : g.all = L
  enabled : g.enabled = L.filter Rule.enabled
  forLanguage : ∀ l, g.forLanguage l = L.filter (·.appliesTo l)
  forCategory : ∀ c, g.forCategory c = L.filter (·.category == c)
  rulesFor : ∀ l cs, g.rulesFor l cs = L.filter fun r =>
    r.enabled && r.appliesTo l && (cs.isEmpty || cs.contains r.category)
  /-- No rule is selected twice. -/
  unrepeated : ∀ l cs, ((g.rulesFor l cs).map Rule.id).Nodup
  /-- The order of the requested categories and their repetition do not matter. -/
  orderFree : ∀ l cs ds, (∀ c, c ∈ cs ↔ c ∈ ds) → g.rulesFor l cs = g.rulesFor l ds
  total : g.statistics.total = L.length
  enabledCount : g.statistics.enabled = L.countP Rule.enabled
  bySeverity : g.statistics.bySeverity = Severity.all.map fun s => (s, L.countP (·.severity == s))
  byCategory : g.statistics.byCategory = Category.all.map fun c => (c, L.countP (·.category == c))
  /-- No language is listed twice. -/
  languagesOnce : (g.statistics.byLanguage.map (·.1)).Nodup
  /-- A language is listed with the number of its rules, and only if it has some. -/
  byLanguage : ∀ l n, (l, n) ∈ g.statistics.byLanguage ↔ n = L.countP (·.appliesTo l) ∧ 0 < n

theorem Sound.shows {g : Registry} (h : g.Sound) : g.Shows g.roster where
  get? := h.get?_eq
  contains := h.contains_eq
  size := size_eq g
  all := h.all_eq
  enabled := by rw [Registry.enabled, h.all_eq]
  forLanguage := h.forLanguage_eq
  forCategory := h.forCategory_eq
  rulesFor := h.rulesFor_eq
  unrepeated := by
    intro l cs
    rw [h.rulesFor_eq]
    exact (List.filter_sublist.map _).nodup h.nodup_ids
  orderFree := by
    intro l cs ds hcd
    rw [h.rulesFor_eq, h.rulesFor_eq]
    refine List.filter_congr (fun r _ => ?_)
    have hEmpty : cs.isEmpty = ds.isEmpty := by
      rw [Bool.eq_iff_iff, List.isEmpty_iff, List.isEmpty_iff, List.eq_nil_iff_forall_not_mem,
        List.eq_nil_iff_forall_not_mem]
      simp only [hcd]
    have hContains : cs.contains r.category = ds.contains r.category := by
      rw [Bool.eq_iff_iff, List.contains_iff_mem, List.contains_iff_mem, hcd]
    rw [selects, selects, hEmpty, hContains]
  total := by rw [statistics, h.all_eq]
  enabledCount := by rw [statistics, h.all_eq]
  bySeverity := by rw [statistics, h.all_eq]
  byCategory := by rw [statistics, h.all_eq]
  languagesOnce := h.nodup_statistics_byLanguage
  byLanguage := h.mem_byLanguage_iff

/-- **A registry refines a plain list.**  Whatever calls are made from the beginning on, every
answer is the one that the same calls on a roster give, and so is the answer to every question
afterwards. -/
theorem run_shows_roster (calls : List Call) :
    (Registry.empty.run calls).2 = (Roster.run [] calls).2 ∧
      (Registry.empty.run calls).1.Shows (Roster.run [] calls).1 := by
  obtain ⟨hSound, hRoster, hAnswers⟩ := Sound.run calls Sound.empty
  exact ⟨hAnswers, hRoster ▸ hSound.shows⟩

end Registry

end ScriptLint
