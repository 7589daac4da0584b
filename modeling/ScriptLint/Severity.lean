import ScriptLint.Json.Basic

/-!
# Severities and categories

Every rule has a severity and a category.  A match moves the score of its category by the
**delta** of its severity.
-/

namespace ScriptLint

/-- How much a match weighs. -/
inductive Severity where
  | critical
  | warning
  | info
  | good
deriving DecidableEq

namespace Severity

def all : List Severity := [critical, warning, info, good]

/-- The name of a severity. -/
def tag : Severity → Text
  | critical => "critical"
  | warning => "warning"
  | info => "info"
  | good => "good"

/-- What one match adds to the score of its category. -/
def delta : Severity → Int
  | critical => -15
  | warning => -8
  | info => -3
  | good => 2

def ofTag? (t : Text) : Option Severity := all.find? fun s => s.tag == t

end Severity

/-- What a rule is about. -/
inductive Category where
  | performance
  | security
  | maintainability
  | style
deriving DecidableEq

namespace Category

def all : List Category := [performance, security, maintainability, style]

/-- The name of a category. -/
def tag : Category → Text
  | performance => "performance"
  | security => "security"
  | maintainability => "maintainability"
  | style => "style"

def ofTag? (t : Text) : Option Category := all.find? fun c => c.tag == t

end Category

end ScriptLint
