import ScriptLint.Text.Basic

/-!
# What can go wrong

Trees, settings and requests come from outside and may hold any value in any place.  Every
operation that can meet a value it has no use for says so with a `Fault`; a value that breaks the
declared shape of a record is reported as a list of `Issue`s, one for each broken field.
-/

namespace ScriptLint

/-- What is wrong with one field of a record. -/
inductive Issue.Kind where
  | missing
  | stringType
  | stringTooShort
  | stringUnicode
  | intType
  | intParsing
  | intParsingSize
  | intFromFloat
  | finiteNumber
  | belowMinimum
  | aboveMaximum
  | floatType
  | floatParsing
  | boolType
  | boolParsing
  | notAMember
  | notALiteral
  | listType
  | objectType
  | setType
  | tooShort
  | notARecord
  | invalidJson
  | refusedValue
  | frozenField
deriving DecidableEq

/-- The code under which an issue is reported. -/
def Issue.Kind.code : Issue.Kind → Text
  | .missing => "missing"
  | .stringType => "string_type"
  | .stringTooShort => "string_too_short"
  | .stringUnicode => "string_unicode"
  | .intType => "int_type"
  | .intParsing => "int_parsing"
  | .intParsingSize => "int_parsing_size"
  | .intFromFloat => "int_from_float"
  | .finiteNumber => "finite_number"
  | .belowMinimum => "greater_than_equal"
  | .aboveMaximum => "less_than_equal"
  | .floatType => "float_type"
  | .floatParsing => "float_parsing"
  | .boolType => "bool_type"
  | .boolParsing => "bool_parsing"
  | .notAMember => "enum"
  | .notALiteral => "literal_error"
  | .listType => "list_type"
  | .objectType => "dict_type"
  | .setType => "frozen_set_type"
  | .tooShort => "too_short"
  | .notARecord => "model_attributes_type"
  | .invalidJson => "json_invalid"
  | .refusedValue => "value_error"
  | .frozenField => "frozen_field"

/-- One step on the way to a field: the name of a member or the number of an item. -/
inductive Issue.Step where
  | member (name : Text)
  | item (index : Nat)
deriving DecidableEq

/-- Something wrong at one place of a record. -/
structure Issue where
  kind : Issue.Kind
  path : List Issue.Step
deriving DecidableEq

/-- Why an operation has no result. -/
inductive Fault where
  /-- A value of the wrong sort for the operation. -/
  | mismatch
  /-- A value that has no such part. -/
  | noPart
  /-- An object without a member that has to be there. -/
  | missingMember
  /-- An index outside its list. -/
  | outOfRange
  /-- An integer too large for the operation. -/
  | overflow
  /-- A division by zero. -/
  | zeroDivision
  /-- A value that is refused, with the reason. -/
  | refused (message : Text)
  /-- A source that cannot be parsed, with the line of the first error if there is one. -/
  | unparsed (message : Text) (line : Option Nat)
  /-- A language without a parser. -/
  | unsupported (message : Text)
  /-- A record with broken fields. -/
  | invalid (issues : List Issue)
  /-- A setting that cannot be read at all. -/
  | unreadableSetting
deriving DecidableEq

end ScriptLint
