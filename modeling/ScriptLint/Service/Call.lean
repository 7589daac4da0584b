import ScriptLint.Text.Encoding
import ScriptLint.Text.Search
import ScriptLint.Text.Wide

/-!
# Calls

A call has a method, a target and a body.  The target is a path, in which octets may be written
as a percent sign with two hexadecimal digits, and perhaps a query after a question mark.

* `Call.path`: the path of the target, resolved and with its octets decoded.
* `Call.parameter?`: a parameter of the query.
* `Call.document?`: the text of the body, whose octets may be a wide encoding of it.
-/

namespace ScriptLint

/-- A call of the service. -/
structure Call where
  method : Text
  target : Text
  body : Text
deriving DecidableEq

namespace Call

/-- The octets of a text in which some are written with a percent sign. -/
def octets : Text → List Nat
  | [] => []
  | c :: rest =>
    if c = CodePoint.ofChar '%' then
      match rest with
      | a :: b :: tail =>
        match a.digitIn? 16, b.digitIn? 16 with
        | some high, some low => (high * 16 + low) :: octets tail
        | _, _ => c.encode ++ octets (a :: b :: tail)
      | tail => c.encode ++ octets tail
    else c.encode ++ octets rest
termination_by t => t.length

/-- A text with its octets decoded. -/
def decoded (t : Text) : Text := Text.decode (octets t)

/-- The text before the first occurrence of a mark, and the text after it. -/
def cut (mark : CodePoint) (t : Text) : Text × Text :=
  let (before, rest) := t.span fun c => c ≠ mark
  (before, rest.tail)

/-! ### The target -/

/-- The target without what follows a number sign. -/
def resource (c : Call) : Text := (cut '#' c.target).1

/-- The segments of a path without those that mean the same level, `.`, or the level above, `..`;
`above` holds the segments so far, the last one first. -/
def resolveFrom (above : List Text) : List Text → List Text
  | [] => above.reverse
  | segment :: rest =>
    if segment = ("." : Text) then resolveFrom above rest
    else if segment = (".." : Text) then resolveFrom above.tail rest
    else resolveFrom (segment :: above) rest

/-- A path with all levels resolved.  It begins with one slash. -/
def resolved (path : Text) : Text :=
  let slash := CodePoint.ofChar '/'
  slash :: Text.join [slash] (resolveFrom [] (Text.splitAt slash (path.dropWhile (· = slash))))

/-- The path of the target. -/
def path (c : Call) : Text := decoded (resolved (cut '?' c.resource).1)

/-- The query of the target, which may be empty. -/
def query (c : Call) : Text := (cut '?' c.resource).2

/-- The same call of another path, whose query is that of the call. -/
def redirected (c : Call) (path : Text) : Call :=
  { c with target := if c.query.isEmpty then path else path ++ ("?" : Text) ++ c.query }

/-- A part of a query: a plus sign stands for a space. -/
def queryPart (t : Text) : Text :=
  decoded (t.map fun c => if c = CodePoint.ofChar '+' then CodePoint.ofChar ' ' else c)

/-- The parameters of the query, in order. -/
def parameters (c : Call) : List (Text × Text) :=
  ((Text.splitAt '&' c.query).filter fun p => !p.isEmpty).map fun p =>
    let (name, value) := cut '=' p
    (queryPart name, queryPart value)

/-- A parameter of the query; the last one of that name counts. -/
def parameter? (c : Call) (name : Text) : Option Text := c.parameters.reverse.lookup name

/-! ### The body -/

/-- How the octets of a body stand for its text. -/
inductive Encoding where
  /-- One to four octets for each code point. -/
  | narrow
  /-- Units of two octets. -/
  | pairs (order : OctetOrder)
  /-- Units of four octets. -/
  | quadruples (order : OctetOrder)
deriving DecidableEq

/-- The encoding of a body.  A document begins with ASCII characters, so that the places of the
zeros among its first octets tell how wide a unit is. -/
def Encoding.of : List Nat → Encoding
  | a :: b :: c :: d :: _ =>
    if a = 0 then if b = 0 then .quadruples .mostSignificantFirst else .pairs .mostSignificantFirst
    else if b = 0 then
      if c = 0 ∧ d = 0 then .quadruples .leastSignificantFirst else .pairs .leastSignificantFirst
    else .narrow
  | [a, b] =>
    if a = 0 then .pairs .mostSignificantFirst
    else if b = 0 then .pairs .leastSignificantFirst
    else .narrow
  | _ => .narrow

/-- A text without a mark of the octet order at its beginning. -/
def withoutMark : Text → Text
  | [] => []
  | c :: rest => if c.val = 0xFEFF then rest else c :: rest

/-- The text of the body; nothing if its octets do not make up units. -/
def document? (c : Call) : Option Text :=
  let octets := Text.encode c.body
  match Encoding.of octets with
  | .narrow => some (withoutMark c.body)
  | .pairs order => Text.decodePairs? order octets
  | .quadruples order => Text.decodeQuadruples? order octets

end Call

end ScriptLint
