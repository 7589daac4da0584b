import ScriptLint.Concrete.Parse
import ScriptLint.Registry.Detection
import ScriptLint.Score.Assessment

/-!
# The analysis of a file

A file is parsed, the rules for its language are run over its tree, and the matches are assessed.
A file that cannot be parsed, or whose language is unknown or has no parser, is reported as a
**problem** and gets a score nevertheless.

* `Category.listOf`: the categories that a value names.
* `Registry.analyze`: the report on a file.
-/

namespace ScriptLint

/-- The category that a value names. -/
def Category.ofJson (j : Json) : Except Fault Category :=
  match j with
  | .str t =>
    match Category.ofTag? t with
    | some c => .ok c
    | none => .error (.refused (j.shown ++ (" is not a valid PatternCategory" : Text)))
  | _ => .error (.refused (j.shown ++ (" is not a valid PatternCategory" : Text)))

/-- The categories that the items of a list name; a value that is not set names none. -/
def Category.listOf (j : Json) : Except Fault (List Category) :=
  match j with
  | .arr items => items.mapM Category.ofJson
  | .str t => t.mapM fun c => Category.ofJson (.str [c])
  | .obj entries => entries.mapM fun e => Category.ofJson (.str e.1)
  | j => if j.truthy then .error .mismatch else .ok []

/-- What has kept a file from being analysed. -/
inductive Problem.Kind where
  | parse
  | runtime
  | timeout
deriving DecidableEq

namespace Problem.Kind

def all : List Problem.Kind := [parse, runtime, timeout]

def tag : Problem.Kind → Text
  | parse => "parse"
  | runtime => "runtime"
  | timeout => "timeout"

def ofTag? (t : Text) : Option Problem.Kind := all.find? fun k => k.tag == t

end Problem.Kind

/-- Something that has kept a file from being analysed. -/
structure Problem where
  kind : Problem.Kind
  message : Text
  line : Option Int := none
deriving DecidableEq

/-- A problem that is given as a record. -/
def Problem.read (entries : Entries) : Checked Problem :=
  Problem.mk
    <$> Schema.required "type" (Schema.plain (Coercion.literal Problem.Kind.ofTag?)) entries
    <*> Schema.required "message" Schema.text entries
    <*> Schema.optional "line" none (Schema.nullable Schema.integer) entries

/-- A value that may be missing. -/
def Json.ofOption {α : Type} (f : α → Json) : Option α → Json
  | some a => f a
  | none => .null

def Problem.toJson (p : Problem) : Json :=
  .object [("type", p.kind.tag), ("message", p.message), ("line", Json.ofOption .int p.line)]

/-- What is to be analysed. -/
structure Request where
  source : Text
  filePath : Text
  /-- The language, if it is not to be told from the path. -/
  language : Option Language
  /-- The categories to look at; none means all.  Names that are no categories matter only once
  there is a tree to look at. -/
  categories : Except Fault (List Category)

/-- The outcome of an analysis. -/
structure Report where
  filePath : Text
  language : Option Language
  found : List Match
  score : Score
  assessment : Option Assessment
  problems : List Problem

/-- The members of the object that a report is sent as. -/
def Report.members (r : Report) : Except Fault (List (String × Json)) := do
  let found ← r.found.mapM Match.toJson
  return [("file_path", r.filePath),
    ("language", Json.ofOption (fun l : Language => .str l.tag) r.language),
    ("matches", .arr found), ("score", r.score.toJson),
    ("analysis", Json.ofOption Assessment.toJson r.assessment),
    ("errors", .arr (r.problems.map Problem.toJson))]

/-- A report as it is sent. -/
def Report.toJson (r : Report) : Except Fault Json := r.members.map Json.object

/-- A parser gives the tree of a source in a language, or says why there is none. -/
abbrev Parser := Text → Language → Except Fault (Option Ast.Node)

/-- The parser that finds a given concrete tree for every source.  Without a concrete tree it finds
nothing, but it still refuses a language that it does not know. -/
def Parser.ofTree (root : Option Concrete.Tree) : Parser := fun source language =>
  match root with
  | some root => Concrete.parse source language root
  | none => do
    Concrete.checkLanguage language
    return none

/-- The problem that a fault of the parser stands for. -/
def Problem.ofFault? : Fault → Option Problem
  | .unparsed message line => some ⟨.parse, message, line.map Int.ofNat⟩
  | .unsupported message => some ⟨.runtime, message, none⟩
  | _ => none

/-- The report on matches and problems. -/
def Report.of (filePath : Text) (language : Option Language) (ms : List Match)
    (problems : List Problem) : Report :=
  let assessment := Assessment.ofMatches ms
  { filePath, language, problems
    found := ms
    score := assessment.score
    assessment := some assessment }

/-- The matches in a source that is not blank: its tree is the one given, or that of the
parser. -/
def Registry.inspect (g : Registry) (parser : Parser) (request : Request) (language : Language)
    (tree : Option Ast.Node) : Except Fault (List Match) := do
  let tree ←
    match tree with
    | some root => pure (some root)
    | none => parser request.source language
  let ctx : Context := { filePath := request.filePath, language, source := request.source }
  let categories ← request.categories
  g.detect tree ctx categories

/-- The report on a file. -/
def Registry.analyze (g : Registry) (parser : Parser) (request : Request)
    (tree : Option Ast.Node) : Except Fault Report :=
  let path := request.filePath
  let language := request.language <|> Language.ofPath? path
  match language with
  | none =>
    .ok (.of path none [] [⟨.runtime, ("Unsupported file type: " : Text) ++ path, none⟩])
  | some l =>
    if request.source.isBlank then .ok (.of path language [] [])
    else
      match g.inspect parser request l tree with
      | .ok ms => .ok (.of path language ms [])
      | .error fault =>
        match Problem.ofFault? fault with
        | some problem => .ok (.of path language [] [problem])
        | none => .error fault

end ScriptLint
