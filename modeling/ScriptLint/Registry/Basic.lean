import ScriptLint.Registry.Table
import ScriptLint.Rule.Catalog

/-!
# The registry of rules

The registry holds the rules of an analysis.  Besides the rules themselves it keeps, for every
language, for every category and for every pair of both, the set of the rules that belong there,
so that the rules for a file are found without looking at all of them.

A rule is known by its identifier.  Registering it again replaces it in its old place; a new rule
comes last.  The **rank** of a rule says when it was first registered.

* `Registry.register`, `Registry.setEnabled`, `Registry.setCategoryEnabled`, `Registry.clear`.
* `Registry.rulesFor`: the enabled rules for a language and some categories.
* `Registry.statistics`: how many rules there are of each sort.
-/

namespace ScriptLint

/-- The rules of an analysis. -/
structure Registry where
  rules : List (Text × Rule)
  ranks : List (Text × Nat)
  /-- The rank of the next new rule. -/
  next : Nat
  byLanguage : List (Language × List Text)
  byCategory : List (Category × List Text)
  byPair : List ((Language × Category) × List Text)

namespace Registry

/-- The registry without rules. -/
def empty : Registry := ⟨[], [], 0, [], [], []⟩

/-- Adds a rule to the sets that it belongs to. -/
def enter (g : Registry) (r : Rule) : Registry :=
  { g with
    byCategory := Table.addTo g.byCategory r.category r.id
    byLanguage := r.languages.foldl (fun t l => Table.addTo t l r.id) g.byLanguage
    byPair := r.languages.foldl (fun t l => Table.addTo t (l, r.category) r.id) g.byPair }

/-- Removes a rule from the sets that it belongs to. -/
def withdraw (g : Registry) (r : Rule) : Registry :=
  { g with
    byCategory := Table.removeFrom g.byCategory r.category r.id
    byLanguage := r.languages.foldl (fun t l => Table.removeFrom t l r.id) g.byLanguage
    byPair := r.languages.foldl (fun t l => Table.removeFrom t (l, r.category) r.id) g.byPair }

/-- Gives a new rule the next rank, and takes a known one out of its sets. -/
def makeRoom (g : Registry) (id : Text) : Registry :=
  match g.rules.lookup id with
  | some previous => g.withdraw previous
  | none => { g with ranks := Table.put g.ranks id g.next, next := g.next + 1 }

/-- Registers a rule; the last registration of an identifier counts. -/
def register (g : Registry) (r : Rule) : Registry :=
  let g := g.makeRoom r.id
  { g with rules := Table.put g.rules r.id r }.enter r

/-- Registers rules one after the other. -/
def registerAll (g : Registry) (rs : List Rule) : Registry := rs.foldl register g

/-- The registry that every analysis begins with. -/
def standard : Registry := empty.registerAll Rule.catalog

/-- Removes all rules.  Ranks are not given twice. -/
def clear (g : Registry) : Registry := { empty with next := g.next }

/-- The rank of a rule. -/
def rank (g : Registry) (id : Text) : Nat := (g.ranks.lookup id).getD 0

/-- The rules with the given identifiers, by rank. -/
def ordered (g : Registry) (ids : List Text) : List Rule :=
  (ids.mergeSort fun a b => g.rank a ≤ g.rank b).filterMap fun id => g.rules.lookup id

/-- The rule with a given identifier. -/
def get? (g : Registry) (id : Text) : Option Rule := g.rules.lookup id

def contains (g : Registry) (id : Text) : Bool := (g.get? id).isSome

def size (g : Registry) : Nat := g.rules.length

/-- All rules. -/
def all (g : Registry) : List Rule := g.ordered (g.rules.map (·.1))

/-- The rules that are enabled. -/
def enabled (g : Registry) : List Rule := g.all.filter Rule.enabled

/-- The rules for a language. -/
def forLanguage (g : Registry) (l : Language) : List Rule :=
  g.ordered (Table.setOf g.byLanguage l)

/-- The rules of a category. -/
def forCategory (g : Registry) (c : Category) : List Rule :=
  g.ordered (Table.setOf g.byCategory c)

/-- The identifiers of the rules for a language and some categories. -/
def idsFor (g : Registry) (l : Language) (categories : List Category) : List Text :=
  categories.foldl (fun ids c => Table.merge ids (Table.setOf g.byPair (l, c))) []

/-- The enabled rules for a language and some categories; no category means all of them. -/
def rulesFor (g : Registry) (l : Language) (categories : List Category) : List Rule :=
  let ids := if categories.isEmpty then Table.setOf g.byLanguage l else g.idsFor l categories
  (g.ordered ids).filter Rule.enabled

/-- Switches a rule on or off; says whether there is such a rule. -/
def setEnabled (g : Registry) (id : Text) (on : Bool) : Registry × Bool :=
  if g.contains id then
    ({ g with rules := Table.modify g.rules id fun r => { r with enabled := on } }, true)
  else (g, false)

/-- Switches all rules of a category on or off; says how many there are. -/
def setCategoryEnabled (g : Registry) (c : Category) (on : Bool) : Registry × Nat :=
  let ids := Table.setOf g.byCategory c
  (ids.foldl (fun g id => (g.setEnabled id on).1) g, ids.length)

/-! ### Statistics -/

/-- How many rules there are of each sort. -/
structure Statistics where
  total : Nat
  enabled : Nat
  /-- Only languages with rules are listed. -/
  byLanguage : List (Language × Nat)
  bySeverity : List (Severity × Nat)
  byCategory : List (Category × Nat)
deriving DecidableEq

/-- How many rules there are of each sort. -/
def statistics (g : Registry) : Statistics :=
  let rules := g.all
  { total := rules.length
    enabled := rules.countP Rule.enabled
    byLanguage :=
      (g.byLanguage.filter fun e => !e.2.isEmpty).map fun e => (e.1, e.2.length)
    bySeverity := Severity.all.map fun s => (s, rules.countP fun r => r.severity == s)
    byCategory := Category.all.map fun c => (c, rules.countP fun r => r.category == c) }

def Statistics.toJson (s : Statistics) : Json :=
  .object [("total_rules", s.total), ("enabled_rules", s.enabled),
    ("by_language", .obj (s.byLanguage.map fun e => (e.1.tag, .int e.2))),
    ("by_severity", .obj (s.bySeverity.map fun e => (e.1.tag, .int e.2))),
    ("by_category", .obj (s.byCategory.map fun e => (e.1.tag, .int e.2)))]

end Registry

end ScriptLint
