import ScriptLint.Fault
import ScriptLint.Json.Display
import ScriptLint.Text.Search

/-!
# Languages

The languages of the files under analysis.  A language is named by its tag, and the ending of a
path tells which one it is written in.

* `Language.ofTag?`, `Language.ofJson`: the language with a given tag.
* `Language.ofPath?`: the language of a file.
-/

namespace ScriptLint

/-- A language of the files under analysis. -/
inductive Language where
  | javascript
  | typescript
  | javascriptReact
  | typescriptReact
  | php
deriving DecidableEq

namespace Language

def all : List Language := [javascript, typescript, javascriptReact, typescriptReact, php]

/-- The tag of a language. -/
def tag : Language → Text
  | javascript => "javascript"
  | typescript => "typescript"
  | javascriptReact => "javascriptreact"
  | typescriptReact => "typescriptreact"
  | php => "php"

def ofTag? (t : Text) : Option Language := all.find? fun l => l.tag == t

/-- The language that a value names. -/
def ofJson (j : Json) : Except Fault Language :=
  match j with
  | .str t =>
    match ofTag? t with
    | some l => .ok l
    | none => .error (.refused (j.shown ++ (" is not a valid Language" : Text)))
  | _ => .error (.refused (j.shown ++ (" is not a valid Language" : Text)))

/-- The languages that all rules but one apply to. -/
def scripts : List Language := [javascript, typescript, javascriptReact, typescriptReact]

/-- The languages with markup in them. -/
def react : List Language := [javascriptReact, typescriptReact]

/-- Is there a parser for the language? -/
def hasParser (l : Language) : Bool := scripts.contains l

/-- The endings of file names, in small letters. -/
def endings : List (String × Language) :=
  [(".js", javascript), (".mjs", javascript), (".cjs", javascript), (".jsx", javascriptReact),
   (".ts", typescript), (".mts", typescript), (".cts", typescript), (".tsx", typescriptReact),
   (".php", php)]

/-- The last component of a path; empty components and single dots do not count. -/
def fileName (path : Text) : Text :=
  ((Text.splitAt '/' path).filter fun c => !(c.isEmpty || c == ("." : Text))).getLast?.getD []

/-- The ending of a file name, from its last dot on.  A dot at either end of the name does not
begin an ending. -/
def ending (name : Text) : Text :=
  match Text.lastIndex? "." name with
  | some i => if 0 < i ∧ i + 1 < name.length then name.drop i else []
  | none => []

/-- The language of a file, by the ending of its name in any case. -/
def ofPath? (path : Text) : Option Language :=
  let e := Text.lower (ending (fileName path))
  (endings.find? fun entry => (entry.1 : Text) == e).map fun entry => entry.2

end Language

end ScriptLint
