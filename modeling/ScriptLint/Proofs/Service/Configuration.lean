import ScriptLint.Proofs.Registry.Sources
import ScriptLint.Service.Basic

/-!
# The registry of the settings

The settings are applied to the standard registry one switch after the other: first the categories
that are not wanted are switched off, then single rules.  A rule may be met several times on the
way, by its category and by its identifier.  As rules are only ever switched **off**, no switch
undoes another one, and what becomes of a rule can be read off the two lists of the settings.

* `Category.ofTag?_eq_some_iff`: which texts name a category.
* `Registry.SwitchedOff`: a registry with some rules switched off.  `SwitchedOff.setEnabled` and
  `SwitchedOff.setCategoryEnabled` say what one switch adds to them, `SwitchedOff.disable` and
  `SwitchedOff.keepCategories` what many switches add.
* `SwitchedOff.eq`: such a registry is known when the rules are known that are switched off.
* `Settings.keeps`: the rules that stay enabled, said by the two lists.
* `configured_closed_form`: the registry of any settings.
-/

namespace ScriptLint

/-! ### Names of categories -/

namespace Category

theorem ofTag?_eq_some_iff {t : Text} {c : Category} : ofTag? t = some c ↔ t = c.tag := by
  constructor
  · intro h
    have hFound := List.find?_some (p := fun c : Category => c.tag == t) h
    exact (beq_iff_eq.mp hFound).symm
  · rintro rfl
    cases c <;> decide

theorem tag_injective {c d : Category} (h : c.tag = d.tag) : c = d := by
  have hc : ofTag? c.tag = some c := ofTag?_eq_some_iff.mpr rfl
  rw [h, ofTag?_eq_some_iff.mpr rfl] at hc
  exact (Option.some.inj hc).symm

/-- A text is read as the category that it **names**. -/
theorem ofJson_eq_ok_iff {t : Text} {c : Category} : ofJson (.str t) = .ok c ↔ t = c.tag := by
  rw [← ofTag?_eq_some_iff, ofJson]
  cases ofTag? t with
  | none => simp
  | some d => simp

theorem ofJson_refused (t : Text) :
    Outcome.FailsWith (fun e => ∃ message, e = .refused message) (ofJson (.str t)) := by
  rw [ofJson]
  cases ofTag? t with
  | none => exact .error ⟨_, rfl⟩
  | some c => exact .ok c

/-- The categories that some texts name are **wanted** if their tags are among the texts. -/
theorem contains_of_mapM {ts : List Text} {wanted : List Category}
    (h : ts.mapM (fun t => ofJson (.str t)) = .ok wanted) (c : Category) :
    wanted.contains c = ts.contains c.tag := by
  have hAll := Outcome.mapM_eq_ok.mp h
  clear h
  induction hAll with
  | nil => rfl
  | @cons t d ts wanted ht _ ih =>
    rw [ofJson_eq_ok_iff] at ht
    have hHead : (c == d) = (c.tag == t) := by
      rw [ht, Bool.eq_iff_iff, beq_iff_eq, beq_iff_eq]
      exact ⟨congrArg tag, tag_injective⟩
    rw [List.contains_cons, List.contains_cons, ih, hHead]

end Category

/-! ### Switching off -/

theorem Roster.switch_switch (L : Roster) {p q : Rule → Bool}
    (hq : ∀ r : Rule, q (r.switched false) = q r) :
    (L.switch p false).switch q false = L.switch (fun r => p r || q r) false := by
  rw [switch, switch, switch, List.map_map]
  refine List.map_congr_left fun r _ => ?_
  rw [Function.comp]
  cases hp : p r with
  | false => simp
  | true =>
    simp only [if_true, Bool.true_or, hq]
    split <;> rfl

namespace Registry

/-- The registries may differ in their rules, and **in nothing else**. -/
def SameIndexes (g h : Registry) : Prop := ∃ rules, h = { g with rules }

theorem SameIndexes.setEnabled {g h : Registry} (hSame : SameIndexes g h) (id : Text) (on : Bool) :
    SameIndexes g (h.setEnabled id on).1 := by
  obtain ⟨rules, rfl⟩ := hSame
  rw [Sound.setEnabled_fst]
  exact ⟨_, rfl⟩

theorem SameIndexes.setCategoryEnabled {g h : Registry} (hSame : SameIndexes g h) (c : Category)
    (on : Bool) : SameIndexes g (h.setCategoryEnabled c on).1 := by
  show SameIndexes g ((Table.setOf h.byCategory c).foldl (fun h id => (h.setEnabled id on).1) h)
  generalize Table.setOf h.byCategory c = ids
  induction ids generalizing h with
  | nil => exact hSame
  | cons id ids ih => exact ih (hSame.setEnabled id on)

/-- The registry `h` is `g` with those rules **switched off** that satisfy `p`. -/
structure SwitchedOff (g : Registry) (p : Rule → Bool) (h : Registry) : Prop where
  sound : h.Sound
  roster : h.roster = Roster.switch g.roster p false
  indexes : SameIndexes g h

namespace SwitchedOff

variable {g h : Registry} {p : Rule → Bool}

theorem refl (hSound : g.Sound) : SwitchedOff g (fun _ => false) g where
  sound := hSound
  roster := by simp [Roster.switch]
  indexes := ⟨g.rules, rfl⟩

theorem congr {q : Rule → Bool} (hOff : SwitchedOff g p h) (hpq : ∀ r, p r = q r) :
    SwitchedOff g q h := by
  rwa [← funext hpq]

/-- **One rule** is switched off. -/
theorem setEnabled (hOff : SwitchedOff g p h) (id : Text) :
    SwitchedOff g (fun r => p r || r.id == id) (h.setEnabled id false).1 where
  sound := hOff.sound.setEnabled id false
  roster := by
    rw [hOff.sound.roster_setEnabled, hOff.roster, Roster.switch_switch _ fun _ => rfl]
  indexes := hOff.indexes.setEnabled id false

/-- **One category** is switched off. -/
theorem setCategoryEnabled (hOff : SwitchedOff g p h) (c : Category) :
    SwitchedOff g (fun r => p r || r.category == c) (h.setCategoryEnabled c false).1 where
  sound := (hOff.sound.setCategoryEnabled c false).1
  roster := by
    rw [(hOff.sound.setCategoryEnabled c false).2.1, hOff.roster,
      Roster.switch_switch _ fun _ => rfl]
  indexes := hOff.indexes.setCategoryEnabled c false

/-- **Any number of rules** is switched off; unknown identifiers do nothing. -/
theorem disable (ids : List Text) : ∀ {h : Registry} {p : Rule → Bool}, SwitchedOff g p h →
    SwitchedOff g (fun r => p r || ids.contains r.id) (Service.disable h ids) := by
  induction ids with
  | nil =>
    intro h p hOff
    exact hOff.congr fun r => by simp
  | cons id ids ih =>
    intro h p hOff
    refine (ih (hOff.setEnabled id)).congr fun r => ?_
    rw [List.contains_cons, Bool.or_assoc]

theorem foldl_setCategoryEnabled (cs : List Category) :
    ∀ {h : Registry} {p : Rule → Bool}, SwitchedOff g p h →
      SwitchedOff g (fun r => p r || cs.contains r.category)
        (cs.foldl (fun h c => (h.setCategoryEnabled c false).1) h) := by
  induction cs with
  | nil =>
    intro h p hOff
    exact hOff.congr fun r => by simp
  | cons c cs ih =>
    intro h p hOff
    refine (ih (hOff.setCategoryEnabled c)).congr fun r => ?_
    rw [List.contains_cons, Bool.or_assoc]

/-- All categories are switched off **but those that are wanted**. -/
theorem keepCategories (hOff : SwitchedOff g p h) (wanted : List Category) :
    SwitchedOff g (fun r => p r || !wanted.contains r.category)
      (Service.keepCategories h wanted) := by
  refine (foldl_setCategoryEnabled _ hOff).congr fun r => ?_
  have hAll : r.category ∈ Category.all := by cases r.category <;> decide
  congr 1
  rw [Bool.eq_iff_iff, List.contains_iff_mem, List.mem_filter]
  exact and_iff_right hAll

/-- Which rules are switched off is **all there is to know** about such a registry. -/
theorem eq (hOff : SwitchedOff g p h) :
    h = { g with rules := (Roster.switch g.roster p false).map fun r => (r.id, r) } := by
  have hRules : h.rules = h.roster.map fun r => (r.id, r) := by
    rw [Registry.roster, List.map_map]
    conv_lhs => rw [← List.map_id h.rules]
    refine List.map_congr_left fun e he => ?_
    exact Prod.ext (hOff.sound.named e he).symm rfl
  rw [← hOff.roster, ← hRules]
  obtain ⟨rules, rfl⟩ := hOff.indexes
  rfl

end SwitchedOff

end Registry

/-! ### The settings -/

/-- A rule **stays enabled** if its category is wanted and its identifier is not disabled.  Without
any category in the settings all of them are wanted. -/
def Settings.keeps (s : Settings) (r : Rule) : Bool :=
  (s.enabledCategories.isEmpty || s.enabledCategories.contains r.category.tag)
    && !s.disabledRules.contains r.id

theorem Settings.keeps_congr {s s' : Settings}
    (hCategories : ∀ t, t ∈ s'.enabledCategories ↔ t ∈ s.enabledCategories)
    (hRules : ∀ id, id ∈ s'.disabledRules ↔ id ∈ s.disabledRules) : s'.keeps = s.keeps := by
  funext r
  have hEmpty : s'.enabledCategories.isEmpty = s.enabledCategories.isEmpty := by
    rw [Bool.eq_iff_iff, List.isEmpty_iff, List.isEmpty_iff, List.eq_nil_iff_forall_not_mem,
      List.eq_nil_iff_forall_not_mem]
    simp only [hCategories]
  have hCategory : s'.enabledCategories.contains r.category.tag
      = s.enabledCategories.contains r.category.tag := by
    rw [Bool.eq_iff_iff, List.contains_iff_mem, List.contains_iff_mem, hCategories]
  have hRule : s'.disabledRules.contains r.id = s.disabledRules.contains r.id := by
    rw [Bool.eq_iff_iff, List.contains_iff_mem, List.contains_iff_mem, hRules]
  rw [keeps, keeps, hEmpty, hCategory, hRule]

theorem Rule.catalog_enabled : ∀ r ∈ Rule.catalog, r.enabled = true := by decide

/-- In the catalog all rules are enabled, so switching some off **leaves** the others on. -/
theorem Roster.switch_catalog_false (p : Rule → Bool) :
    Roster.switch Rule.catalog p false = Rule.catalog.map fun r => r.switched (!p r) := by
  refine List.map_congr_left fun r hr => ?_
  cases p r with
  | true => rfl
  | false =>
    have hOn := Rule.catalog_enabled r hr
    show r = { r with enabled := true }
    rw [← hOn]

namespace Service

open Registry (SwitchedOff)

/-- The settings name categories only. -/
def NamesCategories (s : Settings) : Prop :=
  ∀ t ∈ s.enabledCategories, ∃ c : Category, t = c.tag

/-- The settings switch off the rules that they **do not keep**. -/
theorem exists_configured {s : Settings} (h : NamesCategories s) :
    ∃ g, configured s = .ok g ∧ SwitchedOff Registry.standard (fun r => !s.keeps r) g := by
  have hNamed : ∀ t ∈ s.enabledCategories, ∃ c, Category.ofJson (.str t) = .ok c := by
    intro t ht
    obtain ⟨c, rfl⟩ := h t ht
    exact ⟨c, Category.ofJson_eq_ok_iff.mpr rfl⟩
  obtain ⟨wanted, hWanted⟩ := Outcome.exists_mapM_eq_ok.mpr hNamed
  have hStart := SwitchedOff.refl Registry.sound_standard
  have hEmpty : wanted.isEmpty = s.enabledCategories.isEmpty := by
    have hLength := (Outcome.mapM_eq_ok.mp hWanted).length_eq
    rw [Bool.eq_iff_iff, List.isEmpty_iff_length_eq_zero, List.isEmpty_iff_length_eq_zero, hLength]
  refine ⟨_, Outcome.bind_eq_ok.mpr ⟨wanted, hWanted, rfl⟩, ?_⟩
  rw [hEmpty]
  cases hAll : s.enabledCategories.isEmpty with
  | true =>
    refine (hStart.disable s.disabledRules).congr fun r => ?_
    rw [Settings.keeps, hAll, Bool.true_or, Bool.true_and, Bool.not_not, Bool.false_or]
  | false =>
    refine ((hStart.keepCategories wanted).disable s.disabledRules).congr fun r => ?_
    rw [Settings.keeps, hAll, Category.contains_of_mapM hWanted, Bool.false_or, Bool.false_or,
      Bool.not_and, Bool.not_not]

/-- A category that is none is the only reason to have **no registry**. -/
theorem exists_refused_iff (s : Settings) :
    (∃ message, configured s = .error (.refused message)) ↔ ¬ NamesCategories s := by
  constructor
  · rintro ⟨message, hRefused⟩ hNamed
    obtain ⟨g, hConfigured, -⟩ := exists_configured hNamed
    rw [hConfigured] at hRefused
    cases hRefused
  · intro hUnknown
    cases hWanted : s.enabledCategories.mapM fun t => Category.ofJson (.str t) with
    | ok wanted =>
      refine absurd (fun t ht => ?_) hUnknown
      obtain ⟨c, hc⟩ := Outcome.exists_ok_of_mapM_eq_ok hWanted t ht
      exact ⟨c, Category.ofJson_eq_ok_iff.mp hc⟩
    | error e =>
      obtain ⟨message, rfl⟩ :=
        Outcome.FailsWith.mapM (fun t _ => Category.ofJson_refused t) e hWanted
      refine ⟨message, ?_⟩
      rw [configured, hWanted]
      rfl

/-- Settings with the same categories and the same rules have the same registry. -/
theorem configured_of_same {s s' : Settings} {g : Registry}
    (hCategories : ∀ t, t ∈ s'.enabledCategories ↔ t ∈ s.enabledCategories)
    (hRules : ∀ id, id ∈ s'.disabledRules ↔ id ∈ s.disabledRules) (hg : configured s = .ok g) :
    configured s' = .ok g := by
  have hNamed : NamesCategories s := by
    by_contra hUnknown
    obtain ⟨message, hRefused⟩ := (exists_refused_iff s).mpr hUnknown
    rw [hRefused] at hg
    cases hg
  have hNamed' : NamesCategories s' := fun t ht => hNamed t ((hCategories t).mp ht)
  obtain ⟨k, hConfigured, hOff⟩ := exists_configured hNamed
  obtain ⟨k', hConfigured', hOff'⟩ := exists_configured hNamed'
  rw [hConfigured] at hg
  cases hg
  rw [Settings.keeps_congr hCategories hRules] at hOff'
  rw [hConfigured', hOff.eq, hOff'.eq]

/-- **The registry of the settings.**

* There is none, and the settings are refused, if and only if a text among the categories is no
  category.
* Otherwise it has the fourteen rules of the catalog in their order, and answers all questions as
  this list of rules does.  A rule is enabled if and only if its category is among the categories,
  or there are none, and its identifier is not among the disabled ones.
* Neither the order of the two lists nor what is repeated in them matters: settings with the same
  texts in them have the same registry. -/
theorem configured_closed_form (s : Settings) :
    ((∃ message, configured s = .error (.refused message)) ↔
      ∃ t ∈ s.enabledCategories, ∀ c : Category, t ≠ c.tag) ∧
    ((∀ t ∈ s.enabledCategories, ∃ c : Category, t = c.tag) →
      ∃ g, configured s = .ok g ∧ g.size = 14 ∧
        g.Shows (Rule.catalog.map fun r => r.switched (s.keeps r))) ∧
    ∀ s' : Settings, (∀ t, t ∈ s'.enabledCategories ↔ t ∈ s.enabledCategories) →
      (∀ id, id ∈ s'.disabledRules ↔ id ∈ s.disabledRules) →
      ∀ g, configured s' = .ok g ↔ configured s = .ok g := by
  refine ⟨?_, ?_, ?_⟩
  · rw [exists_refused_iff, NamesCategories]
    push Not
    rfl
  · intro hNamed
    obtain ⟨g, hConfigured, hOff⟩ := exists_configured hNamed
    have hRoster : g.roster = Rule.catalog.map fun r => r.switched (s.keeps r) := by
      rw [hOff.roster, Registry.roster_standard, Roster.switch_catalog_false]
      simp only [Bool.not_not]
    have hShows := hRoster ▸ hOff.sound.shows
    refine ⟨g, hConfigured, ?_, hShows⟩
    rw [hShows.size, List.length_map]
    rfl
  · intro s' hCategories hRules g
    constructor
    · exact configured_of_same (fun t => (hCategories t).symm) fun id => (hRules id).symm
    · exact configured_of_same hCategories hRules

end Service

end ScriptLint
