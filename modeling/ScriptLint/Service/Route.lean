import ScriptLint.Service.Call

/-!
# Routes

The path of a call and its method decide what is asked for.  A line feed after a fixed path does
not count.  A path that ends in slashes and leads nowhere is called again without them, if it leads
somewhere then.

* `Route.withPath`: all routes with a given path, each with its method.
* `Route.ofCall`: the route of a call, or why there is none.
-/

namespace ScriptLint

/-- What a call can ask for. -/
inductive Route where
  | analyze
  | rules
  | statistics
  | toggleRule (id : Text)
  | toggleCategory (name : Text)
  | auditSummary
  | health
  /-- One of the pages that describe the service to a reader. -/
  | page
deriving DecidableEq

/-- Why a call has no route. -/
inductive Route.Miss where
  | unknownPath
  | wrongMethod
deriving DecidableEq

namespace Route

/-- The paths of the pages that describe the service. -/
def pages : List Text := ["/openapi.json", "/docs", "/docs/oauth2-redirect", "/redoc"]

/-- The routes of the pages, each with its path and its method. -/
def pageRoutes : List (Text × Text × Route) :=
  pages.flatMap fun path => [(path, "GET", page), (path, "HEAD", page)]

/-- The routes of calls whose path is fixed, each with its path and its method. -/
def callRoutes : List (Text × Text × Route) :=
  [("/analyze", "POST", analyze), ("/rules", "GET", rules),
   ("/rules/statistics", "GET", statistics), ("/audit/summary", "GET", auditSummary),
   ("/health", "GET", health)]

/-- The routes whose path is fixed. -/
def fixed : List (Text × Text × Route) := pageRoutes ++ callRoutes

/-- Is the path this one, perhaps with a line feed after it? -/
def isPath (path known : Text) : Bool := path == known || path == known ++ ("\n" : Text)

/-- The route whose path ends in a parameter. -/
def withParameter (path : Text) : List (Text × Route) :=
  match Text.splitAt '/' path with
  | [first, group, parameter] =>
    if !first.isEmpty || parameter.isEmpty then []
    else if group = ("rules" : Text) then [("PATCH", toggleRule parameter)]
    else if group = ("categories" : Text) then [("PATCH", toggleCategory parameter)]
    else []
  | _ => []

/-- All routes with a given path, each with its method. -/
def withPath (path : Text) : List (Text × Route) :=
  (fixed.filter fun r => isPath path r.1).map (fun r => r.2) ++ withParameter path

/-- A path without the slashes at its end. -/
def trimmed (path : Text) : Text :=
  (path.reverse.dropWhile fun c => c = CodePoint.ofChar '/').reverse

/-- The path that a call ends at. -/
def destination (c : Call) : Text :=
  let path := c.path
  if (withPath path).isEmpty && !(withPath (trimmed path)).isEmpty then
    (c.redirected (trimmed path)).path
  else path

/-- The route of a call. -/
def ofCall (c : Call) : Except Miss Route :=
  match withPath (destination c) with
  | [] => .error .unknownPath
  | routes =>
    match routes.lookup c.method.upper with
    | some route => .ok route
    | none => .error .wrongMethod

end Route

end ScriptLint
