import ScriptLint.Analysis
import ScriptLint.Ast.Display
import ScriptLint.Ast.Index
import ScriptLint.Ast.Kind
import ScriptLint.Ast.Node
import ScriptLint.Ast.Query
import ScriptLint.Ast.Slot
import ScriptLint.Ast.Walk
import ScriptLint.Audit.Entry
import ScriptLint.Audit.Trail
import ScriptLint.Concrete.Convert
import ScriptLint.Concrete.Form
import ScriptLint.Concrete.Parse
import ScriptLint.Concrete.Source
import ScriptLint.Concrete.Tree
import ScriptLint.Containment.Structural
import ScriptLint.Containment.Textual
import ScriptLint.Estree.Convert
import ScriptLint.Fault
import ScriptLint.Json.Basic
import ScriptLint.Json.Display
import ScriptLint.Json.Payload
import ScriptLint.Json.Printer
import ScriptLint.Json.Reader
import ScriptLint.Language
import ScriptLint.Match
import ScriptLint.Number.Basic
import ScriptLint.Number.Binary64
import ScriptLint.Number.Decimal
import ScriptLint.Number.Numeral
import ScriptLint.Number.Power
import ScriptLint.Proofs.Analysis
import ScriptLint.Proofs.Ast.Ancestry
import ScriptLint.Proofs.Ast.Grove
import ScriptLint.Proofs.Ast.Index
import ScriptLint.Proofs.Ast.Lineage
import ScriptLint.Proofs.Ast.Scope
import ScriptLint.Proofs.Ast.Typed
import ScriptLint.Proofs.Ast.Walk
import ScriptLint.Proofs.Audit.Entry
import ScriptLint.Proofs.Audit.Trail
import ScriptLint.Proofs.Concrete.Build
import ScriptLint.Proofs.Concrete.Integral
import ScriptLint.Proofs.Concrete.Nested
import ScriptLint.Proofs.Concrete.Parts
import ScriptLint.Proofs.Concrete.Recursion
import ScriptLint.Proofs.Concrete.Source
import ScriptLint.Proofs.Concrete.Tree
import ScriptLint.Proofs.Concrete.Worklist
import ScriptLint.Proofs.Containment.Block
import ScriptLint.Proofs.Containment.Enclosing
import ScriptLint.Proofs.Containment.Header
import ScriptLint.Proofs.Containment.Helper
import ScriptLint.Proofs.Containment.Structural
import ScriptLint.Proofs.Estree.Build
import ScriptLint.Proofs.Estree.Objects
import ScriptLint.Proofs.Estree.Proper
import ScriptLint.Proofs.Estree.Read
import ScriptLint.Proofs.Estree.Recursion
import ScriptLint.Proofs.Json.Member
import ScriptLint.Proofs.Json.OneLine
import ScriptLint.Proofs.Json.Quoted
import ScriptLint.Proofs.Json.RoundTrip
import ScriptLint.Proofs.Json.Scalar
import ScriptLint.Proofs.Number.Arithmetic
import ScriptLint.Proofs.Number.Binary64
import ScriptLint.Proofs.Number.Nearest
import ScriptLint.Proofs.Number.Numeral
import ScriptLint.Proofs.Outcome
import ScriptLint.Proofs.Registry.Enabled
import ScriptLint.Proofs.Registry.Isolation
import ScriptLint.Proofs.Registry.OnePass
import ScriptLint.Proofs.Registry.Places
import ScriptLint.Proofs.Registry.Roster
import ScriptLint.Proofs.Registry.Sound
import ScriptLint.Proofs.Registry.Sources
import ScriptLint.Proofs.Registry.Table
import ScriptLint.Proofs.Rule.LoopDepth
import ScriptLint.Proofs.Rule.Source
import ScriptLint.Proofs.Rule.View
import ScriptLint.Proofs.Score.Assessment
import ScriptLint.Proofs.Score.Category
import ScriptLint.Proofs.Score.Monotone
import ScriptLint.Proofs.Score.Total
import ScriptLint.Proofs.Service.GivenTree
import ScriptLint.Proofs.Service.Reply
import ScriptLint.Proofs.Service.Run
import ScriptLint.Proofs.Service.Turn
import ScriptLint.Proofs.Text.Decoding
import ScriptLint.Proofs.Text.Encoding
import ScriptLint.Proofs.Text.Lines
import ScriptLint.Proofs.Text.Search
import ScriptLint.Registry.Basic
import ScriptLint.Registry.Detection
import ScriptLint.Registry.Table
import ScriptLint.Rule.Access
import ScriptLint.Rule.ArrayChain
import ScriptLint.Rule.Basic
import ScriptLint.Rule.Blocking
import ScriptLint.Rule.Catalog
import ScriptLint.Rule.Context
import ScriptLint.Rule.Hygiene
import ScriptLint.Rule.Leak
import ScriptLint.Rule.Loop
import ScriptLint.Rule.LoopWork
import ScriptLint.Rule.Record
import ScriptLint.Rule.Recursion
import ScriptLint.Rule.StringBuilding
import ScriptLint.Schema.Coercion
import ScriptLint.Schema.Record
import ScriptLint.Schema.Wording
import ScriptLint.Score.Assessment
import ScriptLint.Score.Basic
import ScriptLint.Service.Basic
import ScriptLint.Service.Call
import ScriptLint.Service.Reply
import ScriptLint.Service.Route
import ScriptLint.Settings
import ScriptLint.Severity
import ScriptLint.Text.Basic
import ScriptLint.Text.Blank
import ScriptLint.Text.Digit
import ScriptLint.Text.Encoding
import ScriptLint.Text.Lines
import ScriptLint.Text.Printable
import ScriptLint.Text.Search
import ScriptLint.Text.Wide
import ScriptLint.Text.Word
import ScriptLint.Total
import ScriptLint.Proofs.Containment.Textual
import ScriptLint.Proofs.Rule.Recursion
import ScriptLint.Proofs.Rule.Parameters
import ScriptLint.Proofs.Ast.Swap
import ScriptLint.Proofs.Rule.BaseCase
import ScriptLint.Proofs.Concrete.Words
import ScriptLint.Proofs.Concrete.Errors
import ScriptLint.Proofs.Text.Octets
import ScriptLint.Proofs.Text.Places
import ScriptLint.Proofs.ProblemLine
import ScriptLint.Proofs.Rule.Length
import ScriptLint.Proofs.Rule.ArrayChain
import ScriptLint.Proofs.Service.Configuration
import ScriptLint.Proofs.Audit.Damage
import ScriptLint.Proofs.Concrete.Template
import ScriptLint.Proofs.Concrete.Offset
import ScriptLint.Proofs.Number.Literal
import ScriptLint.Proofs.Concrete.Extension
import ScriptLint.Proofs.Concrete.Sequence
import ScriptLint.Proofs.Text.Count
import ScriptLint.Proofs.Rule.Repetition
