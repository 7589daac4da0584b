import ScriptLint.Json.Reader
import ScriptLint.Schema.Record

/-!
# Settings

The settings come from the environment.  The name of a variable is that of the setting, in any
case; variables with other names are ignored.  A setting that is a list is written in JSON.

* `Settings.usual`: the settings when nothing is given.
* `Settings.ofEnvironment`: the settings of an environment.
-/

namespace ScriptLint

/-- What can be set. -/
structure Settings where
  /-- The categories to look at; none means all. -/
  enabledCategories : List Text := []
  /-- The rules that are switched off at the beginning. -/
  disabledRules : List Text := []
  /-- The limit for one analysis, in seconds. -/
  timeoutSeconds : Binary64 := .ofInt 10
  logLevel : Text := "INFO"
  port : Int := 5001
  host : Text := "0.0.0.0"
  corsOrigins : List Text := ["*"]
  auditEnabled : Bool := true
  auditLogPath : Text := "audit.jsonl"
deriving DecidableEq

namespace Settings

/-- The settings when nothing is given. -/
def usual : Settings := {}

/-- The settings that are lists. -/
def listNames : List Text := ["enabled_categories", "disabled_rules", "cors_origins"]

/-- The settings that are single values. -/
def plainNames : List Text :=
  ["analysis_timeout_seconds", "log_level", "port", "host", "audit_enabled", "audit_log_path"]

/-- The settings of a record. -/
def read (entries : Entries) : Checked Settings :=
  let texts := Schema.listOf Schema.text
  Settings.mk
    <$> Schema.optional "enabled_categories" usual.enabledCategories texts entries
    <*> Schema.optional "disabled_rules" usual.disabledRules texts entries
    <*> Schema.optional "analysis_timeout_seconds" usual.timeoutSeconds Schema.float entries
    <*> Schema.optional "log_level" usual.logLevel Schema.text entries
    <*> Schema.optional "port" usual.port Schema.integer entries
    <*> Schema.optional "host" usual.host Schema.text entries
    <*> Schema.optional "cors_origins" usual.corsOrigins texts entries
    <*> Schema.optional "audit_enabled" usual.auditEnabled Schema.bool entries
    <*> Schema.optional "audit_log_path" usual.auditLogPath Schema.text entries

/-- The last variable of an environment with a given name, in any case. -/
def lookup? (environment : List (Text × Text)) (name : Text) : Option Text :=
  (environment.reverse.find? fun v => v.1.lower == name).map fun v => v.2

/-- The list that a variable is written as; `null` is as good as nothing. -/
def listEntry (environment : List (Text × Text)) (name : Text) : Except Fault Entries :=
  match lookup? environment name with
  | none => .ok []
  | some t =>
    match Json.read t with
    | .ok .null => .ok []
    | .ok j => .ok [(name, j)]
    | .error _ => .error .unreadableSetting

/-- The value that a variable is written as. -/
def plainEntry (environment : List (Text × Text)) (name : Text) : Entries :=
  ((lookup? environment name).map fun t => (name, .str t)).toList

/-- The settings of an environment. -/
def ofEnvironment (environment : List (Text × Text)) : Except Fault Settings := do
  let lists ← listNames.mapM (listEntry environment)
  let plain := plainNames.map (plainEntry environment)
  (read (lists.flatten ++ plain.flatten)).toExcept

def toJson (s : Settings) : Json :=
  .object [("enabled_categories", .arr (s.enabledCategories.map .str)),
    ("disabled_rules", .arr (s.disabledRules.map .str)),
    ("analysis_timeout_seconds", .float s.timeoutSeconds), ("log_level", s.logLevel),
    ("port", s.port), ("host", s.host), ("cors_origins", .arr (s.corsOrigins.map .str)),
    ("audit_enabled", s.auditEnabled), ("audit_log_path", s.auditLogPath)]

end Settings

end ScriptLint
