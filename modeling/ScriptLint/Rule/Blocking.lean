import ScriptLint.Ast.Display
import ScriptLint.Rule.Basic

/-!
# Calls that block

Two rules look for calls that stop everything else until they return: the synchronous operations
of a server, and synchronous requests of a page.

* `syncOperation?`: the name of the synchronous operation that a call performs.
-/

namespace ScriptLint.Blocking

open Ast (Node Slot)

/-! ### Synchronous operations -/

def fileOperations : List Text :=
  ["readFileSync", "writeFileSync", "appendFileSync", "copyFileSync", "unlinkSync", "mkdirSync",
   "rmdirSync", "readdirSync", "statSync", "lstatSync", "existsSync", "accessSync", "chmodSync",
   "chownSync", "renameSync", "truncateSync", "readSync", "writeSync"]

def processOperations : List Text := ["execSync", "spawnSync"]

def cryptoOperations : List Text :=
  ["pbkdf2Sync", "scryptSync", "randomFillSync", "randomBytesSync"]

/-- All synchronous operations. -/
def operations : List Text := fileOperations ++ processOperations ++ cryptoOperations

/-- The operations of each module. -/
def modules : List (Text × List Text) :=
  [("fs", fileOperations), ("child_process", processOperations), ("crypto", cryptoOperations)]

/-- Estimates of how long an operation blocks, in milliseconds. -/
def estimates : List (Text × Nat) :=
  [("readFileSync", 50), ("writeFileSync", 100), ("execSync", 500), ("spawnSync", 1000),
   ("pbkdf2Sync", 200), ("scryptSync", 300), ("readdirSync", 30)]

/-- The estimate for all other operations. -/
def usualEstimate : Nat := 50

/-- What to use instead of an operation. -/
def alternatives : List (Text × Text) :=
  [("readFileSync", "fs.promises.readFile()"), ("writeFileSync", "fs.promises.writeFile()"),
   ("appendFileSync", "fs.promises.appendFile()"), ("readdirSync", "fs.promises.readdir()"),
   ("statSync", "fs.promises.stat()"), ("existsSync", "fs.promises.access()"),
   ("execSync", "child_process.exec() with a callback or promisify"),
   ("spawnSync", "child_process.spawn()"), ("pbkdf2Sync", "crypto.pbkdf2()"),
   ("scryptSync", "crypto.scrypt()")]

/-- The text in a slot, if it is one of these names. -/
def nameAmong? (s : Slot) (names : List Text) : Except Fault (Option Text) := do
  return if ← s.isOneOf names then s.text? else none

/-- The synchronous operation that a call performs, by its own name or as a member of its
module. -/
def syncOperation? (n : Node) : Except Fault (Option Text) := do
  if !n.is .callExpression then return none
  match (n.slot .callee).node? with
  | none => return none
  | some callee =>
    if callee.is .identifier then nameAmong? (callee.slot .name) operations
    else if callee.is .memberExpression then
      match (callee.slot .object).as? .identifier with
      | none => return none
      | some receiver =>
        let members := (← (receiver.slot .name).find? modules).getD []
        nameAmong? callee.memberName members
    else return none

def syncDetail (n : Node) : Except Fault Detail := do
  let name := (← syncOperation? n).getD []
  let estimate := (estimates.lookup name).getD usualEstimate
  let alternative :=
    (alternatives.lookup name).getD "the asynchronous (promise-based) variant"
  return {
    complexity := max 1 (min (estimate / 50) 10)
    impact := ("'" : Text) ++ name ++ ("' blocks the event loop for ~" : Text)
      ++ Text.ofNat estimate ++ ("ms per call" : Text)
    suggestion := ("Use " : Text) ++ alternative ++ (" instead" : Text)
    metadata := [("operation", name), ("estimated_block_ms", estimate)] }

/-- Synchronous operations. -/
def syncOperations : Rule :=
  .standard "blocking-sync-operations" "Blocking Sync Operations"
    "Detects synchronous file system, process and crypto calls that block the event loop"
    .performance .critical
    { test := fun n _ => (syncOperation? n).map Option.isSome
      describe := fun n _ => (syncDetail n).map some }

/-! ### Synchronous requests -/

/-- The third item of a list of arguments, if there are three; the third member of an object is
not reached by its number. -/
def thirdArgument? (s : Slot) : Except Fault (Option Node) := do
  let arguments ← s.items
  if arguments.length < 3 then return none
  match s with
  | .value (.obj _) => throw .missingMember
  | _ => return (arguments[2]?).join

/-- Does the call open a request that is not asynchronous? -/
def opensSynchronously (n : Node) : Except Fault Bool := do
  if !n.is .callExpression then return false
  match (n.slot .callee).as? .memberExpression with
  | none => return false
  | some callee =>
    if !callee.memberName.isText "open" then return false
    match ← thirdArgument? (n.slot .arguments) with
    | none => return false
    | some flag =>
      match flag.is .literal, flag.slot .value with
      | true, .value (.bool false) => return true
      | _, _ => return false

def requestDetail : Detail :=
  { complexity := 8
    impact := "Synchronous request freezes the main thread until the response arrives"
    suggestion := "Use fetch() with await, or pass true as the third argument to open()" }

/-- Synchronous requests. -/
def synchronousRequests : Rule :=
  .standard "synchronous-xhr" "Synchronous XHR" "Detects synchronous XMLHttpRequest usage"
    .performance .critical
    { test := fun n _ => opensSynchronously n
      describe := fun _ _ => .ok requestDetail }

end ScriptLint.Blocking
