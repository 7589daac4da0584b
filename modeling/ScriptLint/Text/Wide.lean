import ScriptLint.Text.Basic

/-!
# Wide encodings

A text may also be written in units of two octets, or of four.  A unit of four octets is a code
point; a unit of two octets is one too, unless it is the first of two surrogates that belong
together.  Surrogates without a partner stand for themselves.

* `Text.ofUnits`: the text of units of two octets.
* `Text.decodePairs?`, `Text.decodeQuadruples?`: the text of octets in a given order, if they can
  be divided into units and every unit is a code point.
-/

namespace ScriptLint

/-- Which octet of a unit comes first. -/
inductive OctetOrder where
  | mostSignificantFirst
  | leastSignificantFirst
deriving DecidableEq

/-- The unit that some octets make up. -/
def OctetOrder.unit (order : OctetOrder) (octets : List Nat) : Nat :=
  let octets :=
    match order with
    | mostSignificantFirst => octets
    | leastSignificantFirst => octets.reverse
  octets.foldl (fun value octet => value * 0x100 + octet) 0

namespace Text

/-- The text of units of two octets. -/
def ofUnits : List Nat → Text
  | [] => []
  | [unit] => [.ofNat unit]
  | unit :: next :: rest =>
    if CodePoint.isHighSurrogate unit && CodePoint.isLowSurrogate next then
      .ofSurrogates unit next :: ofUnits rest
    else .ofNat unit :: ofUnits (next :: rest)

/-- The units of two octets each. -/
def pairs? (order : OctetOrder) : List Nat → Option (List Nat)
  | [] => some []
  | [_] => none
  | a :: b :: rest => (pairs? order rest).map fun units => order.unit [a, b] :: units

/-- The text of octets of which every two are a unit. -/
def decodePairs? (order : OctetOrder) (octets : List Nat) : Option Text :=
  (pairs? order octets).map ofUnits

/-- The text of octets of which every four are a code point. -/
def decodeQuadruples? (order : OctetOrder) : List Nat → Option Text
  | [] => some []
  | a :: b :: c :: d :: rest =>
    let unit := order.unit [a, b, c, d]
    if unit < 0x110000 then (decodeQuadruples? order rest).map fun t => .ofNat unit :: t else none
  | _ => none

end Text

end ScriptLint
