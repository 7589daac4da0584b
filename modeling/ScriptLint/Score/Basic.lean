import ScriptLint.Match

/-!
# Scores

Every category begins with one hundred points and moves by the deltas of its matches; the four
scores are kept between zero and one hundred.  The total is their weighted sum, computed with
binary numbers from left to right, rounded to the nearest integer with halves upward, and kept in
the same bounds.

* `Breakdown.ofMatches`: the scores of the categories and the total.
* `Label.ofTotal`: the word for a total.
* `Score.ofMatches`: the total with its label and the scores that it comes from.
-/

namespace ScriptLint

/-- The scores of the four categories, and the total. -/
structure Breakdown where
  performance : Int
  security : Int
  maintainability : Int
  style : Int
  total : Int
deriving DecidableEq

/-- The word for a total. -/
inductive Label where
  | excellent
  | veryGood
  | good
  | fair
  | poor
  | critical
deriving DecidableEq

namespace Label

def tag : Label → Text
  | excellent => "excellent"
  | veryGood => "very good"
  | good => "good"
  | fair => "fair"
  | poor => "poor"
  | critical => "critical"

/-- The least totals of the labels, the highest first. -/
def thresholds : List (Int × Label) :=
  [(90, excellent), (80, veryGood), (70, good), (60, fair), (40, poor)]

/-- The first label whose threshold is reached. -/
def firstReached (reaches : Int → Bool) : Label :=
  match thresholds.find? fun t => reaches t.1 with
  | some t => t.2
  | none => critical

/-- The label of a total. -/
def ofTotal (total : Int) : Label := firstReached fun threshold => threshold ≤ total

/-- The label of a total that may be any number; what is no number has none. -/
def ofJson (total : Json) : Except Fault Label :=
  match total.number? with
  | some n => .ok (firstReached fun threshold => Number.atMost (.int threshold) n)
  | none => .error .mismatch

end Label

namespace Score

/-- The score that every category begins with, and the highest one. -/
def base : Int := 100

/-- A score between zero and one hundred. -/
def clamp (n : Int) : Int := max 0 (min base n)

/-- The weight of a category, in hundredths. -/
def weight : Category → Nat
  | .performance => 35
  | .security => 30
  | .maintainability => 25
  | .style => 10

/-- The weight of a category as a binary number. -/
def binaryWeight (c : Category) : Binary64 := .ofFraction false (weight c) 100

/-- Moves the scores of the categories by one match. -/
def step (scores : Category → Int) (m : Match) : Category → Int := fun c =>
  if c = m.category then scores c + m.severity.delta else scores c

/-- The score of a category. -/
def ofCategory (ms : List Match) (c : Category) : Int :=
  clamp (ms.foldl step (fun _ => base) c)

/-- The weighted sum of scores, added up from left to right. -/
def weighted (scores : Category → Int) : Binary64 :=
  let term c := (Binary64.ofInt (scores c)).mul (binaryWeight c)
  (((term .performance).add (term .security)).add (term .maintainability)).add (term .style)

/-- One half. -/
def half : Binary64 := .ofFraction false 1 2

/-- The nearest integer, halves upward. -/
def roundHalfUp (x : Binary64) : Int := ((x.add half).floor?).getD 0

end Score

/-- The scores of the categories, and the total. -/
def Breakdown.ofMatches (ms : List Match) : Breakdown :=
  let scores := Score.ofCategory ms
  { performance := scores .performance
    security := scores .security
    maintainability := scores .maintainability
    style := scores .style
    total := Score.clamp (Score.roundHalfUp (Score.weighted scores)) }

/-- The score of one category. -/
def Breakdown.get (b : Breakdown) : Category → Int
  | .performance => b.performance
  | .security => b.security
  | .maintainability => b.maintainability
  | .style => b.style

def Breakdown.toJson (b : Breakdown) : Json :=
  .object [("performance", b.performance), ("security", b.security),
    ("maintainability", b.maintainability), ("style", b.style), ("total", b.total)]

/-- Reads a breakdown, whose scores have to be in bounds. -/
def Breakdown.read (entries : Entries) : Checked Breakdown :=
  let score (name : Text) := Schema.required name (Schema.integerWithin 0 Score.base) entries
  Breakdown.mk <$> score "performance" <*> score "security" <*> score "maintainability"
    <*> score "style" <*> score "total"

/-- The score of a file. -/
structure Score where
  value : Int
  label : Label
  breakdown : Breakdown
deriving DecidableEq

/-- The score of a list of matches. -/
def Score.ofMatches (ms : List Match) : Score :=
  let b := Breakdown.ofMatches ms
  ⟨b.total, Label.ofTotal b.total, b⟩

def Score.toJson (s : Score) : Json :=
  .object [("value", s.value), ("label", s.label.tag), ("breakdown", s.breakdown.toJson)]

end ScriptLint
