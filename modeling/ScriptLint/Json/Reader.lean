import ScriptLint.Json.Basic
import ScriptLint.Number.Numeral

/-!
# Reading JSON

A text is read as one JSON value with blanks around it.  The grammar is the usual one, with three
additions: `NaN`, `Infinity` and `-Infinity` are numbers, a `\u` escape may leave a surrogate
without its partner, and a repeated member name is allowed.  An integer may have at most
`Numeral.maxDigits` digits.

* `Json.read`: the value of a text, or why there is none.
-/

namespace ScriptLint.Json

/-- Why a text is not a JSON value that can be held. -/
inductive ReadError where
  /-- The text does not follow the grammar. -/
  | malformed
  /-- An integer has too many digits. -/
  | longInteger (digits : Nat)
deriving DecidableEq

/-- Space, tab, line feed and carriage return may stand between the parts of a value. -/
def isGap (c : CodePoint) : Bool := c.val == 32 || c.val == 9 || c.val == 10 || c.val == 13

/-- The text without the gap at its beginning. -/
def skip (t : Text) : Text := t.dropWhile isGap

/-- What a one-letter escape stands for. -/
def escape? (c : CodePoint) : Option CodePoint :=
  match c.val with
  | 0x22 => some ⟨0x22, by decide⟩
  | 0x5C => some ⟨0x5C, by decide⟩
  | 0x2F => some ⟨0x2F, by decide⟩
  | 0x62 => some ⟨8, by decide⟩
  | 0x66 => some ⟨12, by decide⟩
  | 0x6E => some ⟨10, by decide⟩
  | 0x72 => some ⟨13, by decide⟩
  | 0x74 => some ⟨9, by decide⟩
  | _ => none

/-- Adds an escaped number to the reversed text read so far.  A low surrogate right after an
escaped high one completes it; the flag in the result says whether a low one may follow. -/
def pushEscaped (acc : Text) (highBefore : Bool) (n : Nat) : Text × Bool :=
  match acc with
  | high :: rest =>
    if highBefore && CodePoint.isLowSurrogate n then (.ofSurrogates high.val n :: rest, false)
    else (.ofNat n :: acc, CodePoint.isHighSurrogate n)
  | [] => ([.ofNat n], CodePoint.isHighSurrogate n)

/-- The rest of a quoted text after its opening quote.  `acc` holds what has been read, in
reverse, and `highBefore` says whether it ends in an escaped high surrogate. -/
def readQuoted (acc : Text) (highBefore : Bool) : Text → Except ReadError (Text × Text)
  | [] => .error .malformed
  | c :: rest =>
    if c.val = 0x22 then .ok (acc.reverse, rest)
    else if c.val < 0x20 then .error .malformed
    else if c.val = 0x5C then
      match rest with
      | [] => .error .malformed
      | e :: rest =>
        if e.val = 0x75 then
          match rest with
          | h₁ :: h₂ :: h₃ :: h₄ :: rest =>
            match Numeral.natural? 16 [h₁, h₂, h₃, h₄] with
            | some n =>
              let step := pushEscaped acc highBefore n
              readQuoted step.1 step.2 rest
            | none => .error .malformed
          | _ => .error .malformed
        else
          match escape? e with
          | some c => readQuoted (c :: acc) false rest
          | none => .error .malformed
    else readQuoted (c :: acc) false rest

/-- The digits after a point, if there are any; a point without digits is not part of the
number. -/
def readFraction (t : Text) : Text × Text :=
  match t with
  | c :: rest =>
    if c.val = 0x2E then
      let (digits, after) := Numeral.digits rest
      if digits.isEmpty then ([], t) else (digits, after)
    else ([], t)
  | [] => ([], t)

/-- An exponent, if there is one; a mark without digits is not part of the number. -/
def readExponent (t : Text) : Option Int × Text :=
  match t with
  | c :: rest =>
    if c.lower.val = 0x65 then
      let (isNegative, body) := Numeral.sign rest
      let (digits, after) := Numeral.digits body
      match Numeral.natural? 10 digits with
      | some n => (some (if isNegative then -(n : Int) else n), after)
      | none => (none, t)
    else (none, t)
  | [] => (none, t)

/-- A number after its sign.  Without a fraction and an exponent it is an integer. -/
def readUnsigned (isNegative : Bool) (t : Text) : Except ReadError (Json × Text) :=
  let (run, afterRun) := Numeral.digits t
  let (whole, rest) :=
    if run.head? = some (CodePoint.ofChar '0') then (run.take 1, run.drop 1 ++ afterRun)
    else (run, afterRun)
  if whole.isEmpty then .error .malformed
  else
    let (fraction, rest) := readFraction rest
    let (exponent, rest) := readExponent rest
    if fraction.isEmpty && exponent.isNone then
      if Numeral.maxDigits < whole.length then .error (.longInteger whole.length)
      else
        let n : Int := (Numeral.natural? 10 whole).getD 0
        .ok (.int (if isNegative then -n else n), rest)
    else
      let d := Numeral.decimal whole fraction (exponent.getD 0)
      .ok (.float (d.toBinary isNegative), rest)

/-- The words of the grammar and what they stand for. -/
def words : List (Text × Json) :=
  [("null", .null), ("true", .bool true), ("false", .bool false), ("NaN", .float .nan),
   ("Infinity", .float (.infinity false)), ("-Infinity", .float (.infinity true))]

/-- A word or a number. -/
def readScalar (t : Text) : Except ReadError (Json × Text) :=
  match words.find? fun w => w.1.isPrefixOf t with
  | some w => .ok (w.2, t.drop w.1.length)
  | none =>
    match t with
    | c :: rest =>
      if c.val = 0x2D then readUnsigned true rest else readUnsigned false (c :: rest)
    | [] => .error .malformed

/-- Expects one code point. -/
def expect (n : Nat) : Text → Except ReadError Text
  | c :: rest => if c.val = n then .ok rest else .error .malformed
  | [] => .error .malformed

mutual

/-- A value at the beginning of a text.  Each step uses up `fuel` and at least one code point. -/
def readValue : Nat → Text → Except ReadError (Json × Text)
  | 0, _ => .error .malformed
  | fuel + 1, t =>
    match t with
    | [] => .error .malformed
    | c :: rest =>
      if c.val = 0x22 then do
        let (s, rest) ← readQuoted [] false rest
        return (.str s, rest)
      else if c.val = 0x5B then
        match skip rest with
        | d :: after =>
          if d.val = 0x5D then .ok (.arr [], after)
          else do
            let (items, rest) ← readItems fuel (d :: after)
            return (.arr items, rest)
        | [] => .error .malformed
      else if c.val = 0x7B then
        match skip rest with
        | d :: after =>
          if d.val = 0x7D then .ok (.obj [], after)
          else do
            let (entries, rest) ← readEntries fuel [] (d :: after)
            return (.obj entries, rest)
        | [] => .error .malformed
      else readScalar (c :: rest)

/-- The items of a list up to its closing bracket. -/
def readItems : Nat → Text → Except ReadError (List Json × Text)
  | 0, _ => .error .malformed
  | fuel + 1, t => do
    let (item, rest) ← readValue fuel t
    match skip rest with
    | d :: after =>
      if d.val = 0x5D then return ([item], after)
      else if d.val = 0x2C then
        let (items, rest) ← readItems fuel (skip after)
        return (item :: items, rest)
      else throw .malformed
    | [] => throw .malformed

/-- The members of an object up to its closing brace, added to those already read. -/
def readEntries : Nat → Entries → Text → Except ReadError (Entries × Text)
  | 0, _, _ => .error .malformed
  | fuel + 1, entries, t => do
    let rest ← expect 0x22 t
    let (name, rest) ← readQuoted [] false rest
    let rest ← expect 0x3A (skip rest)
    let (value, rest) ← readValue fuel (skip rest)
    let entries := Entries.put entries name value
    match skip rest with
    | d :: after =>
      if d.val = 0x7D then return (entries, after)
      else if d.val = 0x2C then readEntries fuel entries (skip after)
      else throw .malformed
    | [] => throw .malformed

end

/-- The JSON value of a whole text. -/
def read (t : Text) : Except ReadError Json := do
  let (value, rest) ← readValue (2 * t.length + 2) (skip t)
  if (skip rest).isEmpty then return value else throw .malformed

end ScriptLint.Json
