import ScriptLint.Fault
import ScriptLint.Json.Basic
import ScriptLint.Text.Blank
import ScriptLint.Text.Search
import ScriptLint.Text.Word

/-!
# Inside a loop, by the text

Without a tree around a node there is still the text before it.  For each word that opens a loop,
the last place where it occurs before the node opens a window that ends at the node; if the window
has more opening than closing braces, a loop is still open.

* `headers`: the places where named functions begin.
* `enclosingFunction`: the last named function that begins before an offset, if the offset lies
  inside its braces.
* `textual`: is a loop open at an offset?  With helpers as boundaries only loops after the beginning
  of the enclosing function count.
-/

namespace ScriptLint.Containment

/-- The words that open a loop. -/
def loopTokens : List Text :=
  ["for (", "for(", "while (", "while(", "do \x7b", ".forEach(", ".map(", ".filter(", ".reduce("]

def openingBrace : CodePoint := CodePoint.ofChar '{'

def closingBrace : CodePoint := CodePoint.ofChar '}'

/-! ### Headers of named functions -/

/-- The word that begins a function. -/
def functionWord : Text := "function"

/-- The length of a header at the beginning of a text: the word `function`, blanks, a name, blanks
and a parenthesis.  The word must not continue another one. -/
def headerLength? (previous : Option CodePoint) (t : Text) : Option Nat :=
  if previous.any CodePoint.isWord || !functionWord.isPrefixOf t then none
  else
    let (gap, rest) := (t.drop functionWord.length).span CodePoint.isBlank
    let (name, rest) := rest.span CodePoint.isWord
    let (space, rest) := rest.span CodePoint.isBlank
    if gap.isEmpty || name.isEmpty || rest.head? ≠ some (CodePoint.ofChar '(') then none
    else some (functionWord.length + gap.length + name.length + space.length + 1)

/-- The places of the headers in a text that begins at offset `i`, found from left to right
without overlap. -/
def headersFrom (i : Nat) (previous : Option CodePoint) : Text → List Nat
  | [] => []
  | c :: rest =>
    match headerLength? previous (c :: rest) with
    | some length => i :: headersFrom (i + length) (some '(') (rest.drop (length - 1))
    | none => headersFrom (i + 1) (some c) rest
termination_by t => t.length
decreasing_by all_goals simp only [List.length_drop, List.length_cons] <;> omega

/-- The places of the headers in a text. -/
def headers (t : Text) : List Nat := headersFrom 0 none t

/-- The place of the brace that closes the first block of a text that begins at offset `i`; `depth`
counts the blocks that are open.  Closing braces before the first block do not count. -/
def blockEnd? (i depth : Nat) : Text → Option Nat
  | [] => none
  | c :: rest =>
    if c = openingBrace then blockEnd? (i + 1) (depth + 1) rest
    else if c = closingBrace then
      match depth with
      | 0 => blockEnd? (i + 1) 0 rest
      | 1 => some i
      | depth + 2 => blockEnd? (i + 1) (depth + 1) rest
    else blockEnd? (i + 1) depth rest

/-- Beginning and closing brace of the last named function that begins before an offset, if the
offset is not past that brace.  A function that is never closed has no brace. -/
def enclosingFunction? (source : Text) (offset : Int) : Option (Nat × Option Nat) :=
  match (headers (source.take offset.toNat)).getLast? with
  | none => none
  | some start =>
    let stop := blockEnd? start 0 (source.drop start)
    if (start : Int) < offset ∧ stop.all (fun e => decide (offset < e)) then some (start, stop)
    else none

/-! ### Open loops -/

/-- Is the loop that a word opens last still open at the end of the text before a node?  Words
before `floor` do not count. -/
def isOpenAfter (before : Text) (floor : Nat) (token : Text) : Bool :=
  match Text.lastIndex? token before with
  | none => false
  | some i =>
    if i < floor then false
    else
      let window := before.drop i
      window.count closingBrace < window.count openingBrace

/-- Is a loop open at an offset? -/
def textual (source : Text) (offset : Int) (helpersAreBoundaries : Bool) : Bool :=
  if offset ≤ 0 then false
  else
    let floor :=
      if helpersAreBoundaries then ((enclosingFunction? source offset).map (·.1)).getD 0 else 0
    loopTokens.any (isOpenAfter (Text.before source offset) floor)

/-- The enclosing function at an offset that may be any value.  Only integers that fit into 64 bits
are offsets here. -/
def enclosingFunctionAt (source : Text) (offset : Json) :
    Except Fault (Option (Nat × Option Nat)) :=
  match offset.number? with
  | some (.int n) =>
    if -(twoTo 63 : Int) ≤ n ∧ n < (twoTo 63 : Int) then .ok (enclosingFunction? source n)
    else .error .overflow
  | _ => .error .mismatch

/-- Is a loop open at an offset that may be any value?  Only whole numbers are offsets; numbers
that are not positive lie before everything. -/
def textualAt (source : Text) (offset : Json) (helpersAreBoundaries : Bool) :
    Except Fault Bool :=
  match offset.number? with
  | none => .error .mismatch
  | some (.int n) =>
    if helpersAreBoundaries ∧ (twoTo 63 : Int) ≤ n then .error .overflow
    else .ok (textual source n helpersAreBoundaries)
  | some (.float x) =>
    if Number.atMost (.float x) (.int 0) then .ok false else .error .mismatch

end ScriptLint.Containment
