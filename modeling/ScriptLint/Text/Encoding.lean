import ScriptLint.Text.Basic

/-!
# Octets of a text

A text is written in octets by the UTF-8 scheme, applied to surrogates too: each of them takes
three octets.  Reading goes the other way and never fails.

* `Text.encode`: the octets of a text.
* `Text.decode`: the text of any sequence of octets.  Every maximal part that begins a well-formed
  sequence and does not complete it becomes one replacement character, and so does every octet
  that cannot begin one.  The octets of a surrogate are not well formed, so each of the three
  becomes a replacement character of its own.
* `Text.charOffsets`: for every octet the position of the code point that it belongs to, and at the
  end the length of the text.
-/

namespace ScriptLint

namespace CodePoint

/-- The octets of one code point. -/
def encode (c : CodePoint) : List Nat :=
  if c.val < 0x80 then [c.val]
  else if c.val < 0x800 then [0xC0 + c.val / 0x40, 0x80 + c.val % 0x40]
  else if c.val < 0x10000 then
    [0xE0 + c.val / 0x1000, 0x80 + c.val / 0x40 % 0x40, 0x80 + c.val % 0x40]
  else
    [0xF0 + c.val / 0x40000, 0x80 + c.val / 0x1000 % 0x40, 0x80 + c.val / 0x40 % 0x40,
     0x80 + c.val % 0x40]

/-- The number of octets of one code point. -/
def width (c : CodePoint) : Nat := c.encode.length

end CodePoint

namespace Text

/-- The octets of a text. -/
def encode (t : Text) : List Nat := t.flatMap CodePoint.encode

/-- What a reader of octets expects next: nothing in particular, or the rest of a sequence.  In
the second case `first` to `last` is the range of the next octet, `left` the number of octets
after it, and `value` what has been read so far. -/
inductive Pending where
  | none
  | rest (first last left value : Nat)

/-- What the first octet of a sequence calls for; `some` if the octet is complete by itself, or
if it cannot begin a sequence. -/
def begin (octet : Nat) : Option CodePoint × Pending :=
  if octet < 0x80 then (some (.ofNat octet), .none)
  else if octet < 0xC2 then (some .replacement, .none)
  else if octet < 0xE0 then (none, .rest 0x80 0xBF 0 (octet - 0xC0))
  else if octet = 0xE0 then (none, .rest 0xA0 0xBF 1 0)
  else if octet = 0xED then (none, .rest 0x80 0x9F 1 0xD)
  else if octet < 0xF0 then (none, .rest 0x80 0xBF 1 (octet - 0xE0))
  else if octet = 0xF0 then (none, .rest 0x90 0xBF 2 0)
  else if octet < 0xF4 then (none, .rest 0x80 0xBF 2 (octet - 0xF0))
  else if octet = 0xF4 then (none, .rest 0x80 0x8F 2 4)
  else (some .replacement, .none)

/-- The text of a sequence of octets, given what is still expected. -/
def decodeFrom : Pending → List Nat → Text
  | .none, [] => []
  | .rest .., [] => [.replacement]
  | .none, octet :: octets =>
    let step := begin octet
    step.1.toList ++ decodeFrom step.2 octets
  | .rest first last left value, octet :: octets =>
    if first ≤ octet ∧ octet ≤ last then
      let value := value * 0x40 + (octet - 0x80)
      match left with
      | 0 => .ofNat value :: decodeFrom .none octets
      | left + 1 => decodeFrom (.rest 0x80 0xBF left value) octets
    else
      let step := begin octet
      .replacement :: (step.1.toList ++ decodeFrom step.2 octets)

/-- The text of a sequence of octets. -/
def decode (octets : List Nat) : Text := decodeFrom .none octets

/-- The character positions of the octets of a text that begins at position `start`, followed by
the position after its end. -/
def charOffsetsFrom (start : Nat) : Text → List Nat
  | [] => [start]
  | c :: rest => List.replicate c.width start ++ charOffsetsFrom (start + 1) rest

/-- For every octet of the text the position of its code point, and the length at the end. -/
def charOffsets (t : Text) : List Nat := charOffsetsFrom 0 t

end Text

end ScriptLint
