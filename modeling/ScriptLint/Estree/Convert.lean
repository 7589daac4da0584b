import ScriptLint.Ast.Slot
import ScriptLint.Concrete.Source
import ScriptLint.Json.Display
import Std.Data.HashMap

/-!
# From JSON to syntax trees

An editor may send the syntax tree of a file as JSON in the ESTree format, with the variants that
Babel writes.  Every object with a `type` becomes a node, whatever its other members hold.

Objects are identified by their **path** from the root: numbers of members and of list items.  All
objects of the tree are gathered first, and then built one after another, each after the objects
inside it; the results stand in a table under their paths.

* `gather`: the objects of a tree, every object after all objects inside it.
* `Reader.build`: the node of one object, given the nodes of the objects inside it.
* `read`: the syntax tree of a JSON value.
-/

namespace ScriptLint.Estree

open Ast (Node NodeId Slot Span Mark Field Construct Kind)

/-- The way from the root to an object, the last step first. -/
abbrev Path := List Nat

/-! ### Names of the format -/

/-- Members that hold no parts of the tree. -/
def detachedMembers : List Text :=
  ["loc", "range", "extra", "leadingComments", "trailingComments"]

/-- Names that stand for another construct. -/
def aliases : List (String × String) :=
  [("ClassExpression", "ClassDeclaration"), ("ObjectProperty", "Property"),
   ("OptionalMemberExpression", "MemberExpression"),
   ("OptionalCallExpression", "CallExpression")]

/-- The names of literals. -/
def literalNames : List Text :=
  ["Literal", "StringLiteral", "NumericLiteral", "BooleanLiteral", "NullLiteral",
   "RegExpLiteral", "BigIntLiteral", "DirectiveLiteral"]

/-- The names of objects that have no content. -/
def skippedNames : List Text := ["JSXText", "CommentBlock", "CommentLine", "EmptyStatement"]

/-- The construct that a name stands for. -/
def canonical (name : Text) : Text :=
  match aliases.find? fun a => (a.1 : Text) == name with
  | some a => a.2
  | none => name

/-- The member from which a field is read. -/
def memberName : Field → Text
  | .isAsync => "async"
  | .superclass => "superClass"
  | f => f.label

/-! ### Gathering the objects -/

/-- The objects among the items of a list, from item number `i` on. -/
def itemObjects (path : Path) (i : Nat) : List Json → List (Path × Entries)
  | [] => []
  | .obj entries :: rest => (i :: path, entries) :: itemObjects path (i + 1) rest
  | _ :: rest => itemObjects path (i + 1) rest

/-- The objects in a member, directly or in a list. -/
def memberObjects (path : Path) : Json → List (Path × Entries)
  | .obj entries => [(path, entries)]
  | .arr items => itemObjects path 0 items
  | _ => []

/-- The objects right inside an object, from member number `k` on. -/
def innerObjects (path : Path) (k : Nat) : Entries → List (Path × Entries)
  | [] => []
  | (name, value) :: rest =>
    (if detachedMembers.contains name then [] else memberObjects (k :: path) value)
      ++ innerObjects path (k + 1) rest

theorem total_itemObjects_le (path : Path) (items : List Json) : ∀ i,
    total (fun p => sizeOf p.2) (itemObjects path i items) ≤ sizeOf items := by
  induction items with
  | nil => intro i; simp [itemObjects]
  | cons item rest ih =>
    intro i
    have h := ih (i + 1)
    cases item with
    | obj entries =>
      simp only [itemObjects, total_cons, List.cons.sizeOf_spec,
        Json.obj.sizeOf_spec]
      omega
    | _ =>
      simp only [itemObjects, List.cons.sizeOf_spec]
      omega

theorem total_memberObjects_lt (path : Path) (value : Json) :
    total (fun p => sizeOf p.2) (memberObjects path value) < sizeOf value := by
  cases value with
  | obj entries => simp [memberObjects]
  | arr items =>
    have h := total_itemObjects_le path items 0
    simp only [memberObjects, Json.arr.sizeOf_spec]
    omega
  | null => simp [memberObjects]
  | bool b => simp [memberObjects]
  | int n => simp only [memberObjects, total_nil, Json.int.sizeOf_spec]; omega
  | float x => simp only [memberObjects, total_nil, Json.float.sizeOf_spec]; omega
  | str t => simp only [memberObjects, total_nil, Json.str.sizeOf_spec]; omega

theorem total_innerObjects_lt (path : Path) (entries : Entries) : ∀ k,
    total (fun p => sizeOf p.2) (innerObjects path k entries) < sizeOf entries := by
  induction entries with
  | nil => intro k; simp [innerObjects]
  | cons entry rest ih =>
    intro k
    obtain ⟨name, value⟩ := entry
    have h := ih (k + 1)
    have hv := total_memberObjects_lt (k :: path) value
    simp only [innerObjects, total_append, List.cons.sizeOf_spec,
      Prod.mk.sizeOf_spec]
    split
    · simp only [total_nil]
      omega
    · omega

/-- The objects of a stack, in front of those already gathered.  The object on top is put in front
and the objects inside it are pushed, the last one on top. -/
def gather : List (Path × Entries) → List (Path × Entries) → List (Path × Entries)
  | [], gathered => gathered
  | (path, entries) :: stack, gathered =>
    gather ((innerObjects path 0 entries).reverse ++ stack) ((path, entries) :: gathered)
termination_by stack => total (fun p => sizeOf p.2) stack
decreasing_by
  have h := total_innerObjects_lt path entries 0
  simp only [total_append, total_reverse, total_cons]
  omega

/-! ### Positions -/

/-- The mark of an offset that may be any value. -/
def markAt (starts : Array Nat) (offset : Json) : Except Fault Mark :=
  match offset.number? with
  | none => .error .mismatch
  | some (.int n) => .ok (Concrete.Source.markOf starts n)
  | some (.float x) =>
    let line := lastLine (fun i => Number.atMost (.int (starts.getD i 0)) (.float x)) 0
      (starts.size - 1)
    match Number.sub? (.float x) (.int (starts.getD line 0)) with
    | some column => .ok ⟨.int (line + 1), .ofNumber column⟩
    | none => .error .overflow

/-- The mark that a location object gives. -/
def markOf (loc : Json) : Except Fault Mark :=
  match loc with
  | .obj entries =>
    .ok ⟨(Entries.get? entries "line").getD (.int 1), (Entries.get? entries "column").getD (.int 0)⟩
  | _ => .error .noPart

/-- The offsets of an object: its own, or else those of its range.  A missing end is the start. -/
def offsets (entries : Entries) : Except Fault (Json × Json) := do
  let (start, stop) ←
    match Entries.get entries "start", Entries.get entries "range" with
    | .null, .arr (a :: b :: _) => pure (a, b)
    | .null, .arr _ => throw .outOfRange
    | start, _ => pure (start, Entries.get entries "end")
  let start := if start.truthy then start else .int 0
  return (start, if stop.isNull then start else stop)

/-- The span of an object.  A location goes before the offsets; without either a source the marks
stay at the beginning. -/
def spanOf (starts : Option (Array Nat)) (entries : Entries) : Except Fault Span := do
  let (start, stop) ← offsets entries
  let byOffsets : Except Fault Span :=
    match starts with
    | some starts => do
      let first ← markAt starts start
      let last ← markAt starts stop
      return ⟨start, stop, first, last⟩
    | none => .ok ⟨start, stop, ⟨.int 1, .int 0⟩, ⟨.int 1, .int 0⟩⟩
  match Entries.get entries "loc" with
  | .obj loc =>
    match Entries.get? loc "start" with
    | none => byOffsets
    | some first => do
      let first ← markOf first
      match Entries.get? loc "end" with
      | none => throw .missingMember
      | some last => do
        let last ← markOf last
        return ⟨start, stop, first, last⟩
  | _ => byOffsets

/-! ### Names of elements -/

mutual

/-- The name of an element or attribute; the parts of a compound name are joined. -/
def elementName : Json → Json
  | .obj entries =>
    let type := Entries.get entries "type"
    if type.isText "JSXMemberExpression" then
      .str ((elementNameIn entries "object").displayed ++ ("." : Text)
        ++ (elementNameIn entries "property").displayed)
    else if type.isText "JSXNamespacedName" then
      .str ((elementNameIn entries "namespace").displayed ++ (":" : Text)
        ++ (elementNameIn entries "name").displayed)
    else (Entries.get? entries "name").getD (.str [])
  | _ => .str []

/-- The name that a member of an object stands for. -/
def elementNameIn : List (Text × Json) → Text → Json
  | [], _ => .str []
  | (key, value) :: rest, name =>
    if key = name then elementName value else elementNameIn rest name

end

/-! ### Building the nodes -/

/-- What is at hand when an object is built. -/
structure Reader where
  /-- The line beginnings of the source, if there is one. -/
  starts : Option (Array Nat)
  /-- What the object at a path has become. -/
  find? : Path → Option Node

namespace Reader

/-- What an object has become. -/
def node? (r : Reader) (path : Path) : Json → Option Node
  | .obj _ => r.find? path
  | _ => none

/-- What the items of a list have become, from item number `i` on. -/
def itemNodes (r : Reader) (path : Path) (i : Nat) : List Json → List Node
  | [] => []
  | item :: rest => (r.node? (i :: path) item).toList ++ itemNodes r path (i + 1) rest

/-- The nodes of a member that should be a list.  A member that is not set has none, and neither
have texts and objects. -/
def nodes (r : Reader) (path : Path) (value : Json) : Except Fault (List Node) :=
  match value with
  | .arr items => .ok (r.itemNodes path 0 items)
  | .str _ | .obj _ => .ok []
  | v => if v.truthy then .error .mismatch else .ok []

/-- The number and the value of a member. -/
def member (entries : Entries) (name : Text) : Nat × Json :=
  match entries.findIdx? fun e => e.1 == name with
  | some k => (k, Entries.get entries name)
  | none => (entries.length, .null)

/-- What a member has become. -/
def memberNode? (r : Reader) (path : Path) (entries : Entries) (name : Text) : Option Node :=
  let (k, value) := member entries name
  r.node? (k :: path) value

/-- The slot of a member that should be a node. -/
def memberSlot (r : Reader) (path : Path) (entries : Entries) (name : Text) : Slot :=
  .ofOption (r.memberNode? path entries name)

/-- The nodes of a member that should be a list. -/
def memberNodes (r : Reader) (path : Path) (entries : Entries) (name : Text) :
    Except Fault (List Node) :=
  let (k, value) := member entries name
  r.nodes (k :: path) value

/-- The nodes in all members, in order. -/
def allNodes (r : Reader) (path : Path) (k : Nat) : Entries → List Node
  | [] => []
  | (name, value) :: rest =>
    let found :=
      if detachedMembers.contains name then []
      else
        match value with
        | .obj _ => (r.node? (k :: path) value).toList
        | .arr items => r.itemNodes (k :: path) 0 items
        | _ => []
    found ++ allNodes r path (k + 1) rest

/-- The slot of a field: nodes for objects and lists, any other value as it is. -/
def fieldSlot? (r : Reader) (path : Path) (entries : Entries) (f : Field) : Option Slot :=
  let (k, value) := member entries (memberName f)
  match value with
  | .obj _ => some (.ofOption (r.node? (k :: path) value))
  | .arr items => some (.nodes (r.itemNodes (k :: path) 0 items))
  | .null => none
  | v => some (.value v)

/-- The fields that an object gives for a construct. -/
def given (r : Reader) (path : Path) (entries : Entries) (c : Construct) :
    List (Field × Slot) :=
  c.fields.filterMap fun f => (r.fieldSlot? path entries f.1).map fun s => (f.1, s)

/-- The member of a value that should be an object; a value that is not set has no members. -/
def memberOf (value : Json) (name : Text) (otherwise : Json) : Except Fault Json :=
  match value with
  | .obj entries => .ok ((Entries.get? entries name).getD otherwise)
  | v => if v.truthy then .error .noPart else .ok otherwise

/-- The source text of a literal. -/
def rawOf (entries : Entries) : Except Fault Json :=
  let raw := Entries.get entries "raw"
  if raw.truthy then .ok raw else memberOf (Entries.get entries "extra") "raw" (.str [])

/-- The pattern of a literal that is a regular expression. -/
def patternOf (entries : Entries) : Json :=
  match Entries.get entries "regex" with
  | .obj regex => Entries.get regex "pattern"
  | _ => Entries.get entries "pattern"

/-- One piece of a template. -/
def quasi (piece : Json) : Except Fault Json :=
  match piece with
  | .obj entries => do
    let value := Entries.get entries "value"
    let cooked ← memberOf value "cooked" .null
    if cooked.truthy then return cooked else memberOf value "raw" (.str [])
  | _ => .error .noPart

/-- The pieces of a template. -/
def quasis (entries : Entries) : Except Fault (List Json) :=
  match Entries.get? entries "quasis" with
  | none => .ok []
  | some (.arr items) => items.mapM quasi
  | some (.obj members) => if members.isEmpty then .ok [] else .error .noPart
  | some (.str t) => if t.isEmpty then .ok [] else .error .noPart
  | some _ => .error .mismatch

/-- A method: its function is a node of its own in the same place. -/
def method (r : Reader) (path : Path) (entries : Entries) (span : Span) (inClass : Bool) :
    Except Fault Node := do
  let params ← r.memberNodes path entries "params"
  let flag := fun name : Text => Slot.value (.bool (Entries.get entries name).truthy)
  let function := Node.build ⟨path, 1⟩ (.known .functionExpression) span
    [(.params, .nodes params), (.body, r.memberSlot path entries "body"),
     (.isAsync, flag "async"), (.generator, flag "generator")]
  let key := r.memberSlot path entries "key"
  if inClass then
    return .build ⟨path, 0⟩ (.known .methodDefinition) span
      [(.key, key), (.value, .node function),
       (.kind, .value ((Entries.get? entries "kind").getD "method")),
       (.computed, flag "computed"), (.static, flag "static")]
  else
    return .build ⟨path, 0⟩ (.known .property) span [(.key, key), (.value, .node function)]

/-- The members of a class, which stand in the body of its body. -/
def classMembers (r : Reader) (path : Path) (entries : Entries) : Except Fault (List Node) :=
  let (k, body) := member entries "body"
  match body with
  | .obj inner => r.memberNodes (k :: path) inner "body"
  | _ => .ok []

/-- Name and attributes of an element, from its opening tag. -/
def elementParts (r : Reader) (path : Path) (entries : Entries) :
    Except Fault (Json × List Node) :=
  let (k, tag) := member entries "openingElement"
  match tag with
  | .obj inner => do
    let attributes ← r.memberNodes (k :: path) inner "attributes"
    return (elementName (Entries.get inner "name"), attributes)
  | t => if t.truthy then .error .noPart else .ok (.str [], [])

/-- The node of an object with a given name and span. -/
def buildNamed (r : Reader) (path : Path) (entries : Entries) (span : Span) (name : Text) :
    Except Fault (Option Node) := do
  let make := fun (c : Construct) (fields : List (Field × Slot)) =>
    some (Node.build ⟨path, 0⟩ (.known c) span fields)
  if literalNames.contains name then
    let raw ← rawOf entries
    return make .literal [(.value, .value (Entries.get entries "value")), (.raw, .value raw),
      (.regex, .value (patternOf entries))]
  else if name == ("TemplateLiteral" : Text) then
    let pieces ← quasis entries
    let expressions ← r.memberNodes path entries "expressions"
    return make .templateLiteral
      [(.quasis, .value (.arr pieces)), (.expressions, .nodes expressions)]
  else if name == ("ClassMethod" : Text) then
    let n ← r.method path entries span true
    return some n
  else if name == ("ObjectMethod" : Text) then
    let n ← r.method path entries span false
    return some n
  else if name == ("ClassDeclaration" : Text) then
    let members ← r.classMembers path entries
    return make .classDeclaration
      [(.id, r.memberSlot path entries "id"),
       (.superclass, r.memberSlot path entries "superClass"), (.body, .nodes members)]
  else if name == ("ChainExpression" : Text) then
    return r.memberNode? path entries "expression"
  else if name == ("JSXElement" : Text) || name == ("JSXFragment" : Text) then
    let (tagName, attributes) ← r.elementParts path entries
    let children ← r.memberNodes path entries "children"
    return make .jsxElement
      [(.name, .value tagName), (.attributes, .nodes attributes), (.children, .nodes children)]
  else if name == ("JSXAttribute" : Text) then
    return make .jsxAttribute
      [(.name, .value (elementName (Entries.get entries "name"))),
       (.value, r.memberSlot path entries "value")]
  else
    match Construct.ofName? name with
    | none =>
      return some (.build ⟨path, 0⟩ (.other (.str name)) span
        [(.children, .nodes (r.allNodes path 0 entries))])
    | some .arrowFunctionExpression =>
      let fields := r.given path entries .arrowFunctionExpression
      let isBlock := ((fields.lookup .body).bind fun s => s.as? .blockStatement).isSome
      return make .arrowFunctionExpression (fields ++ [(.expression, .value (.bool (!isBlock)))])
    | some c => return make c (r.given path entries c)

/-- What an object becomes: nothing if it has no `type` or no content. -/
def build (r : Reader) (path : Path) (entries : Entries) : Except Fault (Option Node) :=
  match Entries.get? entries "type" with
  | none => .ok none
  | some (.arr _) | some (.obj _) => .error .mismatch
  | some (.str type) => do
    let name := canonical type
    if skippedNames.contains name then return none
    let span ← spanOf r.starts entries
    r.buildNamed path entries span name
  | some tag => do
    let span ← spanOf r.starts entries
    return some (.build ⟨path, 0⟩ (.other tag) span
      [(.children, .nodes (r.allNodes path 0 entries))])

end Reader

/-! ### Whole trees -/

/-- What the objects built so far have become, by path. -/
abbrev Table := Std.HashMap Path (Option Node)

/-- What the object at a path has become, by a table. -/
def Table.find? (table : Table) (path : Path) : Option Node := (table[path]?).join

/-- Builds objects one after another. -/
def buildAll (starts : Option (Array Nat)) :
    List (Path × Entries) → Table → Except Fault Table
  | [], table => .ok table
  | (path, entries) :: rest, table =>
    match Reader.build ⟨starts, table.find?⟩ path entries with
    | .error e => .error e
    | .ok n => buildAll starts rest (table.insert path n)

/-- What the root object of a tree becomes. -/
def convert (starts : Option (Array Nat)) (root : Entries) : Except Fault (Option Node) := do
  let table ← buildAll starts (gather [([], root)] []) ∅
  return table.find? []

/-- The object that holds the program: a file stands for the program in it. -/
def programOf (root : Entries) : Entries :=
  if (Entries.get root "type").isText "File" then
    match Entries.get root "program" with
    | .obj program => program
    | _ => root
  else root

/-- **The syntax tree of a JSON value.**  With a source, marks that are not given are computed from
the offsets. -/
def read (tree : Json) (source : Option Text) : Except Fault Node :=
  match tree with
  | .obj root =>
    if (Entries.get? root "type").isNone then
      .error (.refused "ESTree input must be an object with a 'type' key")
    else do
      let program := programOf root
      let found ← convert (source.map Text.lineStarts) program
      match found with
      | some n => return n
      | none =>
        match Entries.get? program "type" with
        | none => throw .missingMember
        | some type =>
          throw (.refused (("ESTree root of type " : Text) ++ type.shown
            ++ (" has no syntax content" : Text)))
  | _ => .error (.refused "ESTree input must be an object with a 'type' key")

end ScriptLint.Estree
