/-!
# Tables and sets of keys

A table is a list of keys with their values, in which no key occurs twice; a set is a list in
which nothing occurs twice.
-/

namespace ScriptLint.Table

variable {κ α : Type} [DecidableEq κ]

/-- Sets the value of a key: a known key keeps its place, and a new one comes last. -/
def put (t : List (κ × α)) (k : κ) (a : α) : List (κ × α) :=
  match t with
  | [] => [(k, a)]
  | e :: rest => if e.1 = k then (k, a) :: rest else e :: put rest k a

/-- Changes the value of a key, if it is known. -/
def modify (t : List (κ × α)) (k : κ) (f : α → α) : List (κ × α) :=
  t.map fun e => if e.1 = k then (e.1, f e.2) else e

/-- The items of two sets. -/
def merge [DecidableEq α] (as bs : List α) : List α := bs.foldl (fun s b => s.insert b) as

/-- Adds an item to the set of a key. -/
def addTo [DecidableEq α] (t : List (κ × List α)) (k : κ) (a : α) : List (κ × List α) :=
  put t k (((t.lookup k).getD []).insert a)

/-- Removes an item from the set of a key. -/
def removeFrom [DecidableEq α] (t : List (κ × List α)) (k : κ) (a : α) : List (κ × List α) :=
  modify t k fun as => as.filter (· ≠ a)

/-- The set of a key; an unknown key has the empty one. -/
def setOf (t : List (κ × List α)) (k : κ) : List α := (t.lookup k).getD []

end ScriptLint.Table
