import ScriptLint.Audit.Entry
import ScriptLint.Json.Printer
import ScriptLint.Json.Reader

/-!
# The audit trail

The audit trail is a text file with one JSON value on every line.  Lines that are blank or are no
JSON are skipped.  A trail whose place cannot be written to keeps nothing, and nothing is said
about it.

* `Trail.log`, `Trail.tryLog`: append an entry.
* `Trail.readAll`, `Trail.readRecent`: the values on the lines, all of them or the last ones.
* `Trail.summary`: the number of entries, their average score and their issues.
-/

namespace ScriptLint.Audit

/-- The file of an audit trail. -/
inductive Trail where
  /-- There is no file yet. -/
  | absent
  /-- A file with its content. -/
  | file (content : Text)
  /-- Nothing can be written to this place or read from it. -/
  | unusable
deriving DecidableEq

namespace Trail

/-- Appends a text to the file. -/
def append (t : Trail) (text : Text) : Trail :=
  match t with
  | absent => file text
  | file content => file (content ++ text)
  | unusable => unusable

/-- Appends an entry as one line. -/
def log (t : Trail) (timestamp : Text) (e : Entry) : Trail :=
  t.append (Json.write (e.stamped timestamp) ++ ("\n" : Text))

/-- Appends an entry that may be of any sort; one that cannot be written is refused. -/
def tryLog (t : Trail) (timestamp : Text) (e : Entry) : Except Fault Trail :=
  if e.isWritable then .ok (t.log timestamp e) else .error Json.tooLongToWrite

/-! ### Reading -/

/-- The lines of a text.  A line feed, a carriage return, or both in this order end a line;
`line` is the line so far, backward. -/
def linesFrom (line : Text) : Text → List Text
  | [] => [line.reverse]
  | c :: rest =>
    if c.val = 10 then line.reverse :: linesFrom [] rest
    else if c.val = 13 then
      match rest with
      | [] => [line.reverse, []]
      | d :: tail =>
        if d.val = 10 then line.reverse :: linesFrom [] tail
        else line.reverse :: linesFrom [] (d :: tail)
    else linesFrom (c :: line) rest
termination_by t => t.length

/-- The lines of a text. -/
def lines (t : Text) : List Text := linesFrom [] t

/-- Why a value with a very long integer is refused. -/
def longIntegerMessage (digits : Nat) : Text :=
  ("Exceeds the limit (" : Text) ++ Text.ofNat Numeral.maxDigits
    ++ (" digits) for integer string conversion: value has " : Text) ++ Text.ofNat digits
    ++ (" digits; use sys.set_int_max_str_digits() to increase the limit" : Text)

/-- The value on a line, if there is one. -/
def readLine? (line : Text) : Except Fault (Option Json) :=
  let line := line.strip
  if line.isEmpty then .ok none
  else
    match Json.read line with
    | .ok j => .ok (some j)
    | .error .malformed => .ok none
    | .error (.longInteger digits) => .error (.refused (longIntegerMessage digits))

/-- The values on some lines. -/
def readLines : List Text → Except Fault (List Json)
  | [] => .ok []
  | line :: rest => do
    let value ← readLine? line
    let values ← readLines rest
    return value.toList ++ values

/-- The values on all lines. -/
def readAll : Trail → Except Fault (List Json)
  | file content => readLines (lines content)
  | _ => .ok []

/-- The last items of a list; all of them if there are not so many. -/
def lastItems {α : Type} (count : Int) (items : List α) : List α :=
  if count ≤ 0 then [] else items.drop (items.length - count.toNat)

/-- The last items of a list, when their number may be any value.  What is no number is no count,
and a number that is not whole is one only if it asks for nothing. -/
def lastItemsOf {α : Type} (count : Json) (items : List α) : Except Fault (List α) :=
  match count.number? with
  | some (.int n) => .ok (lastItems n items)
  | some (.float x) =>
    if Number.greater (.float x) (.int 0) then .error .mismatch else .ok []
  | none => .error .mismatch

/-- The values on the last lines, the oldest first. -/
def readRecent (t : Trail) (count : Json) : Except Fault (List Json) :=
  match count.number? with
  | none => .error .mismatch
  | some n =>
    if n.atMost (.int 0) then .ok []
    else if n.greater (.int 0) then (t.readAll).bind (lastItemsOf count)
    else .error .mismatch

/-! ### Summaries -/

/-- The entries of a trail taken together. -/
structure Summary where
  filesAnalyzed : Nat := 0
  averageScore : Binary64 := .zero
  totalIssues : Int := 0
  recent : List Json := []

/-- Adds a member of an entry to a sum; an entry without that member adds nothing. -/
def addMember (name : Text) (sum : Number) (entry : Json) : Except Fault Number :=
  match entry with
  | .obj members =>
    match ((Entries.get? members name).getD (.int 0)).number? with
    | none => .error .mismatch
    | some n =>
      match sum.add? n with
      | some sum => .ok sum
      | none => .error .overflow
  | _ => .error .noPart

/-- The sum of a member over the entries, from the first to the last. -/
def sumOf (name : Text) (entries : List Json) : Except Fault Number :=
  entries.foldlM (addMember name) (.int 0)

/-- The average of a sum, rounded to one place. -/
def average (sum : Number) (count : Nat) : Except Fault Binary64 :=
  match sum.div? (.int count) with
  | some x => .ok (x.roundToPlaces 1)
  | none => .error .overflow

/-- The entries taken together, with the most recent of them. -/
def summarize (entries : List Json) (count : Json) : Except Fault Summary := do
  if entries.isEmpty then return {}
  let averageScore ← average (← sumOf "score" entries) entries.length
  let issues ← sumOf "total_issues" entries
  let recent ← lastItemsOf count entries
  let totalIssues ←
    ((Schema.integer (Json.ofNumber issues)).below (.member "total_issues")).toExcept
  return { filesAnalyzed := entries.length, averageScore, totalIssues, recent }

/-- The summary of a trail. -/
def summary (t : Trail) (count : Json) : Except Fault Summary := do
  summarize (← t.readAll) count

def Summary.toJson (s : Summary) : Json :=
  .object [("files_analyzed", s.filesAnalyzed), ("average_score", .float s.averageScore),
    ("total_issues", s.totalIssues), ("recent", .arr s.recent)]

end Trail

end ScriptLint.Audit
