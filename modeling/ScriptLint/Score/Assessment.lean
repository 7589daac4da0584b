import ScriptLint.Score.Basic

/-!
# Assessments and trends

An assessment adds to a score how many matches there are of each severity and category, and what
to do next.  A trend compares a score with an earlier one.

* `recommendations`: advice for each category with a low score, and a last word on the total.
* `Trend.between`: the change from one score to another; a change of one point is no change.
* `Trend.ofJson`: the same for scores that may be any values.
-/

namespace ScriptLint

/-- How often each item occurs, in the order of first occurrence. -/
def tally {α : Type} [BEq α] (items : List α) : List (α × Nat) :=
  items.eraseDups.map fun a => (a, items.count a)

/-- Categories with a lower score call for advice. -/
def adviceThreshold : Int := 70

/-- The advice for a category with a low score. -/
def Category.advice : Category → Text
  | performance => "Focus on performance optimizations"
  | security => "Review security vulnerabilities"
  | maintainability => "Improve code maintainability"
  | style => "Clean up code style issues"

/-- The last word on a total. -/
def verdict (total : Int) : Text :=
  if 90 ≤ total then "Excellent code quality! Keep it up!"
  else if 80 ≤ total then "Good code quality with room for minor improvements"
  else if 60 ≤ total then "Moderate code quality - focus on critical issues first"
  else "Code quality needs significant improvement"

/-- What to do about critical matches, when the number of them is written as `count`. -/
def urgentAdvice (count : Text) (isPlural : Bool) : Text :=
  ("Address " : Text) ++ count ++ (" critical issue" : Text)
    ++ (if isPlural then ("s" : Text) else []) ++ (" immediately" : Text)

/-- What to do about a number of critical matches; nothing if there are none. -/
def urgentAdviceFor (critical : Nat) : List Text :=
  if critical = 0 then [] else [urgentAdvice (Text.ofNat critical) (1 < critical)]

/-- What to do about critical matches whose number may be any value. -/
def urgentAdviceOf (critical : Json) : Except Fault (List Text) :=
  match critical.number? with
  | none => .error .mismatch
  | some n =>
    if n.greater (.int 0) then
      critical.inMessage.map fun count => [urgentAdvice count (n.greater (.int 1))]
    else .ok []

/-- What to do next, after what is urgent. -/
def recommendations (b : Breakdown) (urgent : List Text) : List Text :=
  urgent ++ (Category.all.filter fun c => b.get c < adviceThreshold).map Category.advice
    ++ [verdict b.total]

/-- A score with counts and recommendations. -/
structure Assessment where
  score : Score
  severityCounts : List (Severity × Nat)
  categoryCounts : List (Category × Nat)
  totalIssues : Nat
  criticalIssues : Nat
  recommendations : List Text

/-- The assessment of a list of matches. -/
def Assessment.ofMatches (ms : List Match) : Assessment :=
  let score := Score.ofMatches ms
  let severities := tally (ms.map Match.severity)
  let critical := (severities.lookup .critical).getD 0
  { score
    severityCounts := severities
    categoryCounts := tally (ms.map Match.category)
    totalIssues := ms.length
    criticalIssues := critical
    recommendations := ScriptLint.recommendations score.breakdown (urgentAdviceFor critical) }

def Assessment.toJson (a : Assessment) : Json :=
  .object [("score", a.score.toJson),
    ("severity_counts", .obj (a.severityCounts.map fun p => (p.1.tag, .int p.2))),
    ("category_counts", .obj (a.categoryCounts.map fun p => (p.1.tag, .int p.2))),
    ("total_issues", a.totalIssues), ("critical_issues", a.criticalIssues),
    ("recommendations", .arr (a.recommendations.map .str))]

/-- Where a score goes. -/
inductive Direction where
  | up
  | down
  | neutral
deriving DecidableEq

def Direction.tag : Direction → Text
  | up => "up"
  | down => "down"
  | neutral => "neutral"

/-- The change from an earlier score. -/
structure Trend where
  direction : Direction
  change : Int
  message : Text
deriving DecidableEq

/-- Changes below this many points do not count. -/
def Trend.noise : Int := 2

/-- The trend of a score that has no earlier one. -/
def Trend.initial : Trend := ⟨.neutral, 0, "Initial analysis"⟩

/-- Where a change leads, and what is said about it. -/
def Trend.reading (change : Number) : Except Fault (Direction × Text) :=
  if change.abs.less (.int Trend.noise) then .ok (.neutral, "No significant change")
  else if change.greater (.int 0) then
    (Json.ofNumber change).inMessage.map fun points =>
      (.up, ("Improved by " : Text) ++ points ++ (" points" : Text))
  else
    (Json.ofNumber change.abs).inMessage.map fun points =>
      (.down, ("Decreased by " : Text) ++ points ++ (" points" : Text))

/-- The trend from one score to another.  Scores may be any numbers, but the change between them
has to be whole. -/
def Trend.between (previous current : Number) : Except Fault Trend := do
  match current.sub? previous with
  | none => throw .overflow
  | some change =>
    let (direction, message) ← Trend.reading change
    let change ← ((Schema.integer (.ofNumber change)).below (.member "change")).toExcept
    return ⟨direction, change, message⟩

/-- The trend of scores that may be any values; an earlier score that is `null` is none. -/
def Trend.ofJson (current previous : Json) : Except Fault Trend :=
  if previous.isNull then .ok .initial
  else
    match previous.number?, current.number? with
    | some previous, some current => Trend.between previous current
    | _, _ => .error .mismatch

def Trend.toJson (t : Trend) : Json :=
  .object [("direction", t.direction.tag), ("change", t.change), ("message", t.message)]

end ScriptLint
