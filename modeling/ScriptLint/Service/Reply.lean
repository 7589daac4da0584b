import ScriptLint.Json.Payload
import ScriptLint.Schema.Record

/-!
# Replies

A reply has a status and mostly a body.  A body can be sent only if all numbers in it are finite
and all texts are made of characters; otherwise the reply is that of a failure, without a body.
Successful replies have `null` where a number is not finite.

* `Reply.of`: the reply with a given status and body.
* `Reply.ok`: a successful reply.
* `Reply.invalid`: the reply to a call with broken fields.
-/

namespace ScriptLint

namespace Json

mutual

/-- Are all numbers finite, and all texts without surrogates? -/
def isPortable : Json → Bool
  | .float x => x.isFinite
  | .str t => !t.any CodePoint.isSurrogate
  | .arr items => arePortable items
  | .obj entries => havePortable entries
  | _ => true

/-- Can all items be sent? -/
def arePortable : List Json → Bool
  | [] => true
  | j :: rest => isPortable j && arePortable rest

/-- Can all names and members be sent? -/
def havePortable : Entries → Bool
  | [] => true
  | e :: rest => !e.1.any CodePoint.isSurrogate && isPortable e.2 && havePortable rest

end

/-- The value that a path leads to; a path that leads nowhere ends at the last value before. -/
def follow (j : Json) : List Issue.Step → Json
  | [] => j
  | .member name :: rest =>
    match j.get? name with
    | some v => follow v rest
    | none => j
  | .item i :: rest =>
    match j with
    | .arr items =>
      match items[i]? with
      | some v => follow v rest
      | none => j
    | _ => j

end Json

/-- What the service answers. -/
structure Reply where
  status : Nat
  body : Option Json

namespace Reply

/-- The reply of a failure. -/
def failure : Reply := ⟨500, none⟩

/-- The reply with a given status and body, if the body can be sent. -/
def of (status : Nat) (body : Json) : Reply :=
  if body.isPortable then ⟨status, some body⟩ else failure

/-- A successful reply. -/
def ok (body : Json) : Reply := of 200 body.finite

/-- A successful reply with a body that may be one that cannot be sent. -/
def ofExcept : Except Fault Json → Reply
  | .ok body => ok body
  | .error _ => failure

/-- A reply that says in words what is wrong. -/
def refusal (status : Nat) (detail : Text) : Reply := of status (.object [("detail", .str detail)])

/-- How many characters of the body of a call are repeated to the caller. -/
def echoLength : Nat := 100

/-- The reply to a call with broken fields, which comes with the values in these fields; it fails
if one of them cannot be sent. -/
def invalid (callBody : Text) (issues : List Issue) (offenders : List Json) : Reply :=
  if Json.arePortable offenders then
    of 422 (.object [("detail", .arr (issues.map Issue.toJson)),
      ("body", .str (callBody.take echoLength))])
  else failure

end Reply

end ScriptLint
