import ScriptLint.Audit.Trail
import ScriptLint.Estree.Convert
import ScriptLint.Rule.Record
import ScriptLint.Service.Reply
import ScriptLint.Service.Route
import ScriptLint.Settings

/-!
# The service

The service answers calls: it analyses files, lists rules, switches them on and off, and sums up
its audit trail.  Its state is the registry of its rules and the trail.  A call that is refused
changes nothing.

* `Service.start`: the service with given settings.
* `Service.answer`: what a call does to the service, and the reply.

The reasons to refuse a call are looked for in a fixed order: the route, the grammar of the body,
the settings of the service, then the fields of path, query and body all together, and then what
the call asks for.
-/

namespace ScriptLint

/-- The service between two calls. -/
structure Service where
  settings : Settings
  /-- The rules; a fault if the settings name a category that is none. -/
  registry : Except Fault Registry
  trail : Audit.Trail

/-- What only the outside world can tell about an analysis: its name, when it took place and how
long it took. -/
structure Stamp where
  analysisId : Text
  timestamp : Text
  elapsedMs : Binary64

namespace Service

/-- The version of the service. -/
def version : Text := "1.0.0"

/-! ### The registry of the settings -/

/-- Switches off the categories that are not wanted. -/
def keepCategories (g : Registry) (wanted : List Category) : Registry :=
  (Category.all.filter fun c => !wanted.contains c).foldl
    (fun g c => (g.setCategoryEnabled c false).1) g

/-- Switches off rules; identifiers of no rule are ignored. -/
def disable (g : Registry) (ids : List Text) : Registry :=
  ids.foldl (fun g id => (g.setEnabled id false).1) g

/-- The standard registry with the settings applied. -/
def configured (s : Settings) : Except Fault Registry := do
  let wanted ← s.enabledCategories.mapM fun t => Category.ofJson (.str t)
  let g := if wanted.isEmpty then Registry.standard else keepCategories Registry.standard wanted
  return disable g s.disabledRules

/-- The service with given settings and a trail. -/
def start (settings : Settings) (trail : Audit.Trail) : Service :=
  ⟨settings, configured settings, trail⟩

/-! ### Fields of calls -/

/-- Reads the body of a call as a record. -/
def readBody {α : Type} (read : Entries → Checked α) (body : Option Json) : Checked α :=
  Checked.below (.member "body") <|
    match body with
    | none => .broken [⟨.missing, []⟩]
    | some (.obj entries) => read entries
    | some _ => .broken [⟨.notARecord, []⟩]

/-- What an analysis is asked to do. -/
structure AnalysisCall where
  request : Request
  tree : Option Entries
  previousScore : Option Int

/-- Reads what an analysis is asked to do. -/
def AnalysisCall.read (entries : Entries) : Checked AnalysisCall :=
  (fun source filePath language categories tree previousScore =>
    ⟨⟨source, filePath, language, .ok categories⟩, tree, previousScore⟩)
    <$> Schema.required "source" Schema.text entries
    <*> Schema.required "file_path" Schema.nonemptyText entries
    <*> Schema.optional "language" none
      (Schema.nullable (Schema.member Language.ofTag?)) entries
    <*> Schema.optional "categories" [] (Schema.listOf (Schema.member Category.ofTag?)) entries
    <*> Schema.optional "tree" none (Schema.nullable Schema.anyObject) entries
    <*> Schema.optional "previous_score" none
      (Schema.nullable (Schema.integerWithin 0 Score.base)) entries

/-- Reads the switch of a rule or a category. -/
def readSwitch (entries : Entries) : Checked Bool :=
  Schema.required "enabled" Schema.bool entries

/-- Reads the category of a path. -/
def readCategory (name : Text) : Checked Category :=
  ((Schema.member Category.ofTag? (.str name)).below (.member "category")).below (.member "path")

/-- The greatest number of entries that a summary shows. -/
def mostRecent : Int := 500

/-- Reads how many entries a summary shows. -/
def readRecent (c : Call) : Checked Int :=
  match c.parameter? "recent" with
  | none => .ok 10
  | some t =>
    ((Schema.integerWithin 0 mostRecent (.str t)).below (.member "recent")).below
      (.member "query")

/-- The value that an issue of the body is about. -/
def offender (body : Option Json) (i : Issue) : Json :=
  match i.path with
  | .member part :: rest =>
    if part = ("body" : Text) then (body.getD .null).follow rest else .null
  | _ => .null

/-- Goes on with what has been read, or reports what is wrong with it. -/
def withFields {α : Type} (svc : Service) (c : Call) (body : Option Json) (fields : Checked α)
    (run : α → Service × Reply) : Service × Reply :=
  match fields with
  | .ok a => run a
  | .broken issues => (svc, .invalid c.body issues (issues.map (offender body)))

/-- Goes on with the registry, or fails if the settings have none. -/
def withRegistry (svc : Service) (run : Registry → Service × Reply) : Service × Reply :=
  match svc.registry with
  | .ok g => run g
  | .error _ => (svc, .failure)

/-- The reply to a call whose body cannot be read at all. -/
def unreadable : Reply := .refusal 400 "There was an error parsing the body"

/-- Goes on with the value of the body; an empty body has none. -/
def withBody (svc : Service) (c : Call) (run : Option Json → Service × Reply) :
    Service × Reply :=
  if c.body.isEmpty then run none
  else
    match c.document?.map Json.read with
    | some (.ok j) => run (some j)
    | some (.error .malformed) => (svc, .invalid c.body [⟨.invalidJson, [.member "body"]⟩] [])
    | some (.error (.longInteger _)) => (svc, unreadable)
    | none => (svc, unreadable)

/-! ### Analyses -/

/-- Has an analysis no time at all? -/
def hasNoTime (s : Settings) : Bool := Number.atMost (.float s.timeoutSeconds) (.int 0)

/-- The report on an analysis that has run out of time. -/
def timedOut (s : Settings) (request : Request) : Report :=
  { filePath := request.filePath
    language := request.language
    found := []
    score := Score.ofMatches []
    assessment := none
    problems :=
      [{ kind := .timeout
         message := ("Analysis exceeded " : Text) ++ s.timeoutSeconds.toText ++ ("s" : Text) }] }

/-- The tree of a call; nothing if it comes without one. -/
def givenTree (a : AnalysisCall) : Except Fault (Option Ast.Node) :=
  match a.tree with
  | none => .ok none
  | some entries => (Estree.read (.obj entries) (some a.request.source)).map some

/-- The report on the file of a call. -/
def reportOn (svc : Service) (g : Registry) (parser : Parser) (a : AnalysisCall)
    (tree : Option Ast.Node) : Except Fault Report :=
  if hasNoTime svc.settings then .ok (timedOut svc.settings a.request)
  else g.analyze parser a.request tree

/-- Adds an analysis to the trail, unless that is switched off. -/
def record (svc : Service) (stamp : Stamp) (report : Report) : Service :=
  if svc.settings.auditEnabled then
    let entry := Audit.Entry.ofReport stamp.analysisId stamp.elapsedMs report
    { svc with trail := svc.trail.log stamp.timestamp entry }
  else svc

/-- The body of the reply to an analysis. -/
def analysisBody (stamp : Stamp) (report : Report) (previousScore : Option Int) :
    Except Fault Json := do
  let trend ← previousScore.mapM fun p => Trend.between (.int p) (.int report.score.value)
  let members ← report.members
  let result := Json.object (members ++ [("analysis_time_ms", .float stamp.elapsedMs)])
  return .object [("analysis_id", stamp.analysisId), ("result", result),
    ("trend", Json.ofOption Trend.toJson trend)]

/-- Analyses a file.  The analysis is in the trail even if its reply cannot be sent. -/
def analyze (svc : Service) (g : Registry) (parser : Parser) (stamp : Stamp)
    (a : AnalysisCall) : Service × Reply :=
  match givenTree a with
  | .error (.refused message) =>
    (svc, .refusal 422 (("Invalid syntax tree: " : Text) ++ message))
  | .error _ => (svc, .failure)
  | .ok tree =>
    match svc.reportOn g parser a tree with
    | .error _ => (svc, .failure)
    | .ok report =>
      (svc.record stamp report, .ofExcept (analysisBody stamp report a.previousScore))

/-! ### Rules and summaries -/

/-- Switches a rule on or off. -/
def toggleRule (svc : Service) (g : Registry) (id : Text) (on : Bool) : Service × Reply :=
  let (g, known) := g.setEnabled id on
  match known, g.get? id with
  | true, some r => ({ svc with registry := .ok g }, .ok r.toJson)
  | _, _ => (svc, .refusal 404 (("Unknown rule: " : Text) ++ id))

/-- Switches a category on or off. -/
def toggleCategory (svc : Service) (g : Registry) (c : Category) (on : Bool) :
    Service × Reply :=
  let (g, count) := g.setCategoryEnabled c on
  ({ svc with registry := .ok g },
    .ok (.object [("category", c.tag), ("enabled", on), ("toggled", count)]))

/-- An entry of the trail as it is sent. -/
def entryBody : Json → Except Fault Json
  | .obj entries => Entries.payload entries
  | j => .ok j

/-- The body of the reply that sums up the trail. -/
def summaryBody (s : Audit.Trail.Summary) : Except Fault Json := do
  let recent ← s.recent.mapM entryBody
  return { s with recent }.toJson

/-- Sums up the trail. -/
def summarize (svc : Service) (recent : Int) : Service × Reply :=
  (svc, .ofExcept ((svc.trail.summary (.int recent)).bind summaryBody))

/-- How the service is. -/
def health (g : Registry) : Json :=
  .object [("status", "ok"), ("version", version), ("rules", g.size),
    ("enabled_rules", g.enabled.length)]

/-! ### All calls -/

/-- What a call with a known route does to the service, and the reply. -/
def follow (svc : Service) (parser : Parser) (stamp : Stamp) (c : Call) :
    Route → Service × Reply
  | .analyze =>
    svc.withBody c fun body =>
      svc.withRegistry fun g =>
        svc.withFields c body (readBody AnalysisCall.read body) (svc.analyze g parser stamp)
  | .rules =>
    svc.withRegistry fun g => (svc, .ok (.arr (g.all.map Rule.toJson)))
  | .statistics => svc.withRegistry fun g => (svc, .ok g.statistics.toJson)
  | .toggleRule id =>
    svc.withBody c fun body =>
      svc.withRegistry fun g =>
        svc.withFields c body (readBody readSwitch body) (svc.toggleRule g id)
  | .toggleCategory name =>
    svc.withBody c fun body =>
      svc.withRegistry fun g =>
        svc.withFields c body (Prod.mk <$> readCategory name <*> readBody readSwitch body)
          fun p => svc.toggleCategory g p.1 p.2
  | .auditSummary => svc.withFields c none (readRecent c) svc.summarize
  | .health => svc.withRegistry fun g => (svc, .ok (health g))
  | .page => (svc, ⟨200, none⟩)

/-- What a call does to the service, and the reply. -/
def answer (svc : Service) (parser : Parser) (stamp : Stamp) (c : Call) : Service × Reply :=
  match Route.ofCall c with
  | .ok route => svc.follow parser stamp c route
  | .error .unknownPath => (svc, .refusal 404 "Not Found")
  | .error .wrongMethod => (svc, .refusal 405 "Method Not Allowed")

end Service

end ScriptLint
