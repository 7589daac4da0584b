import ScriptLint.Ast.Slot
import ScriptLint.Json.Display

/-!
# Nodes in messages and reports

Where a name is expected and a tree has a node instead, messages and reports show the whole node.

* `Slot.displayed`: the slot as part of a message, with the name of the class and all fields.
* `Slot.toJson`: the slot as part of a report, an object with all fields.
-/

namespace ScriptLint.Ast

/-- The name of the class of a node; all unknown constructs share one. -/
def Kind.className : Kind → Text
  | .known c => c.name
  | .other _ => "GenericNode"

/-- A mark in a message. -/
def Mark.shown (m : Mark) : Text :=
  ("Position(line=" : Text) ++ m.line.shown ++ (", column=" : Text) ++ m.column.shown
    ++ (")" : Text)

/-- A span in a message. -/
def Span.shown (s : Span) : Text :=
  ("start=" : Text) ++ s.start.shown ++ (", end=" : Text) ++ s.stop.shown
    ++ (", loc=Location(start=" : Text) ++ s.first.shown ++ (", end=" : Text) ++ s.last.shown
    ++ (")" : Text)

/-- A mark in a report. -/
def Mark.toJson (m : Mark) : Json := .object [("line", m.line), ("column", m.column)]

/-- A span in a report. -/
def Span.entries (s : Span) : Entries :=
  [("start", s.start), ("end", s.stop),
   ("loc", .object [("start", s.first.toJson), ("end", s.last.toJson)])]

mutual

/-- A node in a message. -/
def Node.shown : Node → Text
  | .mk _ kind span slots =>
    let tag : Text :=
      match kind with
      | .known _ => []
      | .other t => (", kind=" : Text) ++ t.shown
    kind.className ++ ("(" : Text) ++ span.shown ++ tag ++ slotsShown slots ++ (")" : Text)

/-- The fields of a node in a message. -/
def slotsShown : List (Field × Slot) → Text
  | [] => []
  | (f, s) :: rest =>
    (", " : Text) ++ f.label ++ ("=" : Text) ++ Slot.shown s ++ slotsShown rest

/-- A slot inside a message about a node. -/
def Slot.shown : Slot → Text
  | .node n => Node.shown n
  | .nodes ns => CodePoint.ofChar '[' :: nodesShown ns ++ [CodePoint.ofChar ']']
  | .value v => v.shown

/-- The nodes of a list, separated by commas. -/
def nodesShown : List Node → Text
  | [] => []
  | [n] => Node.shown n
  | n :: next :: rest => Node.shown n ++ (", " : Text) ++ nodesShown (next :: rest)

end

/-- A slot as part of a message: a text stands as it is. -/
def Slot.displayed : Slot → Text
  | .value v => v.displayed
  | s => s.shown

mutual

/-- A node in a report. -/
def Node.toJson : Node → Json
  | .mk _ kind span slots =>
    let tag : Entries :=
      match kind with
      | .known _ => []
      | .other t => [("kind", t)]
    .obj (span.entries ++ tag ++ slotsToJson slots)

/-- The fields of a node in a report. -/
def slotsToJson : List (Field × Slot) → Entries
  | [] => []
  | (f, s) :: rest => (f.label, Slot.toJson s) :: slotsToJson rest

/-- A slot in a report. -/
def Slot.toJson : Slot → Json
  | .node n => Node.toJson n
  | .nodes ns => .arr (nodesToJson ns)
  | .value v => v

/-- The nodes of a list in a report. -/
def nodesToJson : List Node → List Json
  | [] => []
  | n :: rest => Node.toJson n :: nodesToJson rest

end

end ScriptLint.Ast
