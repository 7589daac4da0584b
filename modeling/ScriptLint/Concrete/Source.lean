import ScriptLint.Ast.Node
import ScriptLint.Concrete.Tree
import ScriptLint.Fault
import ScriptLint.Text.Encoding
import ScriptLint.Text.Lines

/-!
# A source and its octets

A concrete tree counts octets, and everything else counts code points.  A `Source` is a text with
all that is needed to go from the one to the other.

* `Source.offset`: the code point of an octet.  If the text has as many octets as code points, the
  two numberings agree and no table is kept.
* `Source.textOf`, `Source.spanOf`: text and span of a concrete node.
* `Source.lineOf`: the line of an octet, by counting the line feeds before it.
-/

namespace ScriptLint.Concrete

/-- A text, its octets, the beginnings of its lines, and the code point of each octet if that is
not the octet's own number. -/
structure Source where
  text : Text
  octets : Array Nat
  lineStarts : Array Nat
  offsets : Option (Array Nat)

namespace Source

/-- The source of a text. -/
def ofText (t : Text) : Source :=
  let octets := (Text.encode t).toArray
  { text := t
    octets := octets
    lineStarts := Text.lineStarts t
    offsets := if octets.size = t.length then none else some (Text.charOffsets t).toArray }

/-- The code point that an octet belongs to. -/
def offset (src : Source) (octet : Nat) : Except Fault Nat :=
  match src.offsets with
  | none => .ok octet
  | some table =>
    match table[octet]? with
    | some i => .ok i
    | none => .error .outOfRange

/-- Line and column of an offset, as a mark. -/
def markOf (starts : Array Nat) (offset : Int) : Ast.Mark :=
  let place := Place.ofOffset starts offset
  ⟨.int place.line, .int place.column⟩

/-- The span of a concrete node. -/
def spanOf (src : Source) (t : Tree) : Except Fault Ast.Span := do
  let start ← src.offset t.start
  let stop ← src.offset t.stop
  return ⟨.int start, .int stop, markOf src.lineStarts start, markOf src.lineStarts stop⟩

/-- The text of a concrete node. -/
def textOf (src : Source) (t : Tree) : Text :=
  Text.decode (src.octets.extract t.start t.stop).toList

/-- The text of a concrete node that may be missing. -/
def textOf? (src : Source) : Option Tree → Text
  | some t => src.textOf t
  | none => []

/-- The line of an octet, counted from one. -/
def lineOf (src : Source) (octet : Nat) : Nat :=
  (src.octets.toList.take octet).count 10 + 1

end Source

end ScriptLint.Concrete
