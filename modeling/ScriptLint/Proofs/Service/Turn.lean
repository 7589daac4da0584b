import ScriptLint.Proofs.Registry.Sources
import ScriptLint.Proofs.Service.Reply

/-!
# One turn of the service

A call asks for an analysis, for a switch, or for nothing that changes the service.  What the
parser finds and the stamp of an analysis come from outside, so that a **turn** has all three.

* `Switch`: the switch of one rule or of all rules of a category.
* `Call.switch?`, `Call.analysis?`: what a call asks for.
* `Service.report?`: the report that a turn ends with.
* `Service.Effect`, `Service.turn_effect`: the three things that a turn can do.
-/

namespace ScriptLint

/-- A call with what the parser finds for it and with the stamp of its analysis. -/
structure Turn where
  parser : Parser
  stamp : Stamp
  call : Call

/-- The entry of an analysis that ends with a report. -/
def Turn.entry (t : Turn) (report : Report) : Audit.Entry :=
  .ofReport t.stamp.analysisId t.stamp.elapsedMs report

/-- The switch of one rule, or of all rules of a category. -/
inductive Switch where
  | rule (id : Text) (on : Bool)
  | category (c : Category) (on : Bool)
deriving DecidableEq

namespace Switch

def on : Switch → Bool
  | rule _ on => on
  | category _ on => on

/-- Does the switch name the rule or its category? -/
def names : Switch → Rule → Bool
  | rule id _, r => r.id == id
  | category c _, r => r.category == c

/-- Whether a rule is on after some switches: the last one that names it counts, and a rule that
has not been named is on. -/
def leaves (switches : List Switch) (r : Rule) : Bool :=
  ((switches.filter fun s => s.names r).getLast?.map on).getD true

theorem leaves_append (switches : List Switch) (s : Switch) (r : Rule) :
    leaves (switches ++ [s]) r = if s.names r then s.on else leaves switches r := by
  rw [leaves, List.filter_append, List.getLast?_append]
  by_cases hNames : s.names r = true
  · simp [hNames]
  · simp [hNames, leaves]

end Switch

/-! ### What a call asks for -/

/-- Does a call with this route only ask how things are? -/
def Route.isReading : Route → Bool
  | .rules | .statistics | .auditSummary | .health | .page => true
  | .analyze | .toggleRule _ | .toggleCategory _ => false

namespace Call

/-- The value of the body, if it can be read; an empty body has none. -/
def content? (c : Call) : Option (Option Json) :=
  if c.body.isEmpty then some none
  else
    match c.document?.map Json.read with
    | some (.ok j) => some (some j)
    | _ => none

/-- What is read from the body, if it is in order. -/
def fields? {α : Type} (c : Call) (read : Option Json → Checked α) : Option α :=
  c.content?.bind fun body => (read body).toExcept.toOption

/-- The switch that a call asks for. -/
def switch? (c : Call) : Option Switch :=
  match Route.ofCall c with
  | .ok (.toggleRule id) => (c.fields? (Service.readBody Service.readSwitch)).map (.rule id)
  | .ok (.toggleCategory name) =>
    (c.fields? fun body =>
      Prod.mk <$> Service.readCategory name <*> Service.readBody Service.readSwitch body).map
      fun p => .category p.1 p.2
  | _ => none

/-- The analysis that a call asks for. -/
def analysis? (c : Call) : Option Service.AnalysisCall :=
  match Route.ofCall c with
  | .ok .analyze => c.fields? (Service.readBody Service.AnalysisCall.read)
  | _ => none

theorem switch?_of_isReading {c : Call} {route : Route} (h : Route.ofCall c = .ok route)
    (hReading : route.isReading = true) : c.switch? = none := by
  rw [switch?, h]
  cases route with
  | toggleRule id => cases hReading
  | toggleCategory name => cases hReading
  | _ => rfl

theorem analysis?_of_isReading {c : Call} {route : Route} (h : Route.ofCall c = .ok route)
    (hReading : route.isReading = true) : c.analysis? = none := by
  rw [analysis?, h]
  cases route with
  | analyze => cases hReading
  | _ => rfl

end Call

namespace Service

/-- What a turn does to the service, and the reply. -/
def turn (svc : Service) (t : Turn) : Service × Reply := svc.answer t.parser t.stamp t.call

/-- The report that the analysis of a turn ends with, if it has a result. -/
def report? (svc : Service) (t : Turn) : Option Report := do
  let a ← t.call.analysis?
  let g ← svc.registry.toOption
  let tree ← (givenTree a).toOption
  (g.analyze t.parser a.request tree).toOption

variable {svc : Service} {g : Registry}

/-! ### The status of a reply -/

theorem status_of (status : Nat) (body : Json) :
    (Reply.of status body).status = status ∨ (Reply.of status body).status = 500 := by
  rw [Reply.of]
  split
  · exact .inl rfl
  · exact .inr rfl

theorem status_refusal {status : Nat} (h : status ≠ 200) (detail : Text) :
    (Reply.refusal status detail).status ≠ 200 := by
  rcases status_of status (.object [("detail", .str detail)]) with hStatus | hStatus
  · exact hStatus.trans_ne h
  · exact hStatus.trans_ne (by decide)

theorem status_invalid (text : Text) (issues : List Issue) (offenders : List Json) :
    (Reply.invalid text issues offenders).status ≠ 200 := by
  rw [Reply.invalid]
  split
  · rcases status_of 422 (.object [("detail", .arr (issues.map Issue.toJson)),
        ("body", .str (text.take Reply.echoLength))]) with hStatus | hStatus
    · exact hStatus.trans_ne (by decide)
    · exact hStatus.trans_ne (by decide)
  · decide

/-! ### Calls with a body -/

theorem withBody_cases (svc : Service) (c : Call) (run : Option Json → Service × Reply) :
    (∃ body, c.content? = some body ∧ svc.withBody c run = run body) ∨
      (c.content? = none ∧ ∃ reply, reply.status ≠ 200 ∧ svc.withBody c run = (svc, reply)) := by
  rw [withBody, Call.content?]
  by_cases hEmpty : c.body.isEmpty = true
  · rw [if_pos hEmpty, if_pos hEmpty]
    exact .inl ⟨none, rfl, rfl⟩
  · rw [if_neg hEmpty, if_neg hEmpty]
    cases hDocument : c.document?.map Json.read with
    | none => exact .inr ⟨rfl, _, status_refusal (by decide) _, rfl⟩
    | some read =>
      cases read with
      | ok j => exact .inl ⟨some j, rfl, rfl⟩
      | error problem =>
        cases problem with
        | malformed => exact .inr ⟨rfl, _, status_invalid _ _ _, rfl⟩
        | longInteger digits => exact .inr ⟨rfl, _, status_refusal (by decide) _, rfl⟩

/-- A call whose body holds fields goes on with them, or it is **refused** and changes nothing. -/
theorem fields_cases {α : Type} {outcome : Service × Reply} (hRegistry : svc.registry = .ok g)
    (c : Call) (read : Option Json → Checked α) (run : Registry → α → Service × Reply)
    (hOutcome : outcome = svc.withBody c fun body =>
      svc.withRegistry fun g => svc.withFields c body (read body) (run g)) :
    (∃ a, c.fields? read = some a ∧ outcome = run g a) ∨
      (c.fields? read = none ∧ ∃ reply, reply.status ≠ 200 ∧ outcome = (svc, reply)) := by
  rw [hOutcome, Call.fields?]
  rcases svc.withBody_cases c fun body =>
      svc.withRegistry fun g => svc.withFields c body (read body) (run g) with
    ⟨body, hContent, hRun⟩ | ⟨hContent, hRefused⟩
  · rw [hContent, Option.bind_some, hRun, withRegistry, hRegistry]
    cases read body with
    | ok a => exact .inl ⟨a, rfl, rfl⟩
    | broken issues => exact .inr ⟨rfl, _, status_invalid _ _ _, rfl⟩
  · rw [hContent, Option.bind_none]
    exact .inr ⟨rfl, hRefused⟩

/-! ### The three routes that may change the service -/

/-- What a turn **can do**: an analysis with a report adds an entry to the trail, a switch that
succeeds changes the rules, and everything else changes nothing, and succeeds only if nothing else
is asked for. -/
inductive Effect (svc : Service) (g : Registry) (t : Turn) : Service × Reply → Prop where
  | analysed {a : AnalysisCall} {report : Report} (hCall : t.call.analysis? = some a)
      (hReport : svc.report? t = some report) (hSwitch : t.call.switch? = none) :
      Effect svc g t
        (svc.record t.stamp report, .ofExcept (analysisBody t.stamp report a.previousScore))
  | switched {s : Switch} {g' : Registry} {body : Json} (hReport : svc.report? t = none)
      (hSwitch : t.call.switch? = some s) (hSound : g'.Sound)
      (hRoster : g'.roster = Roster.switch g.roster s.names s.on) :
      Effect svc g t ({ svc with registry := .ok g' }, ⟨200, some body⟩)
  | unchanged {reply : Reply} (hReport : svc.report? t = none)
      (hReading : reply.status = 200 →
        ∃ route, Route.ofCall t.call = .ok route ∧ route.isReading = true) :
      Effect svc g t (svc, reply)

theorem Effect.refused {t : Turn} {reply : Reply} (hReport : svc.report? t = none)
    (hStatus : reply.status ≠ 200) : Effect svc g t (svc, reply) :=
  .unchanged hReport fun hSent => absurd hSent hStatus

theorem report?_eq (hRegistry : svc.registry = .ok g) (t : Turn) :
    svc.report? t = t.call.analysis?.bind fun a =>
      (givenTree a).toOption.bind fun tree => (g.analyze t.parser a.request tree).toOption := by
  rw [report?, hRegistry]
  rfl

theorem report?_eq_none {t : Turn} (h : t.call.analysis? = none) : svc.report? t = none := by
  rw [report?, h]
  rfl

/-- An analysis adds an entry if it has a report, and otherwise it changes nothing. -/
theorem analyze_effect (hRegistry : svc.registry = .ok g) (hTime : hasNoTime svc.settings = false)
    {t : Turn} {a : AnalysisCall} (hCall : t.call.analysis? = some a)
    (hSwitch : t.call.switch? = none) :
    Effect svc g t (svc.analyze g t.parser t.stamp a) := by
  have hReport : svc.report? t = (givenTree a).toOption.bind fun tree =>
      (g.analyze t.parser a.request tree).toOption := by
    rw [report?_eq hRegistry, hCall, Option.bind_some]
  rw [analyze]
  cases hTree : givenTree a with
  | error fault =>
    have hNone : svc.report? t = none := by
      rw [hReport, hTree]
      rfl
    cases fault with
    | refused message => exact .refused hNone (status_refusal (by decide) _)
    | _ => exact .refused hNone (by decide)
  | ok tree =>
    have hReportOn : svc.reportOn g t.parser a tree = g.analyze t.parser a.request tree := by
      rw [reportOn, hTime]
      rfl
    rw [hTree] at hReport
    simp only [hReportOn]
    cases hResult : g.analyze t.parser a.request tree with
    | error fault =>
      refine .refused ?_ (by decide)
      rw [hReport, Except.toOption, Option.bind_some, hResult]
      rfl
    | ok report =>
      refine .analysed hCall ?_ hSwitch
      rw [hReport, Except.toOption, Option.bind_some, hResult]
      rfl

theorem ok_of_portable {body : Json} (h : body.finite.isPortable = true) :
    Reply.ok body = ⟨200, some body.finite⟩ := if_pos h

/-- The switch of a rule succeeds if the rule is known, and otherwise it changes nothing. -/
theorem toggleRule_effect (hSound : g.Sound)
    (hPortable : ∀ r ∈ g.roster, ∀ on, (r.switched on).toJson.finite.isPortable = true)
    {t : Turn} {id : Text} {on : Bool} (hReport : svc.report? t = none)
    (hSwitch : t.call.switch? = some (.rule id on)) :
    Effect svc g t (svc.toggleRule g id on) := by
  have hRoster := hSound.roster_setEnabled id on
  unfold toggleRule
  dsimp only
  rw [Registry.Sound.setEnabled_snd]
  cases hKnown : g.contains id with
  | false => exact .refused hReport (status_refusal (by decide) _)
  | true =>
    cases hGet : (g.setEnabled id on).1.get? id with
    | none => exact .refused hReport (status_refusal (by decide) _)
    | some r =>
      have hMem : r ∈ (g.setEnabled id on).1.roster := by
        rw [(hSound.setEnabled id on).get?_eq] at hGet
        exact List.mem_of_find?_eq_some hGet
      -- a switch whose reply could not be sent would succeed and look like a failure
      have hSent : r.toJson.finite.isPortable = true := by
        rw [hRoster, Roster.switch] at hMem
        obtain ⟨old, hOld, rfl⟩ := List.mem_map.mp hMem
        split
        · exact hPortable old hOld on
        · exact hPortable old hOld old.enabled
      simp only [ok_of_portable hSent]
      exact .switched hReport hSwitch (hSound.setEnabled id on) hRoster

/-- The switch of a category always **succeeds**. -/
theorem toggleCategory_eq (svc : Service) (g : Registry) (c : Category) (on : Bool) :
    ∃ body, svc.toggleCategory g c on
      = ({ svc with registry := .ok (g.setCategoryEnabled c on).1 }, ⟨200, some body⟩) := by
  have hTag : c.tag.any CodePoint.isSurrogate = false := by
    cases c <;> exact Text.any_isSurrogate_ofString _
  have hSent : (Json.object [("category", c.tag), ("enabled", on),
      ("toggled", (g.setCategoryEnabled c on).2)]).finite.isPortable = true := by
    rw [Json.isPortable_object]
    simp [Json.finite, Json.isPortable, hTag]
  exact ⟨_, Prod.ext rfl (ok_of_portable hSent)⟩

theorem toggleCategory_effect (hSound : g.Sound) {t : Turn} {c : Category} {on : Bool}
    (hReport : svc.report? t = none) (hSwitch : t.call.switch? = some (.category c on)) :
    Effect svc g t (svc.toggleCategory g c on) := by
  obtain ⟨hSound', hRoster, -⟩ := hSound.setCategoryEnabled c on
  obtain ⟨body, hToggle⟩ := svc.toggleCategory_eq g c on
  rw [hToggle]
  exact .switched hReport hSwitch hSound' hRoster

theorem turn_of_route (svc : Service) {t : Turn} {route : Route} (h : Route.ofCall t.call = .ok route) :
    svc.turn t = svc.follow t.parser t.stamp t.call route := by
  rw [turn, answer, h]

/-- The routes that only ask how things are change nothing. -/
theorem follow_reading (hRegistry : svc.registry = .ok g) (t : Turn) {route : Route}
    (hReading : route.isReading = true) :
    (svc.follow t.parser t.stamp t.call route).1 = svc := by
  cases route with
  | rules => rw [follow, withRegistry, hRegistry]
  | statistics => rw [follow, withRegistry, hRegistry]
  | auditSummary =>
    rw [follow]
    cases readRecent t.call <;> rfl
  | health => rw [follow, withRegistry, hRegistry]
  | page => rfl
  | _ => cases hReading

theorem reading_effect (hRegistry : svc.registry = .ok g) {t : Turn} {route : Route}
    (hRoute : Route.ofCall t.call = .ok route) (hReading : route.isReading = true) :
    Effect svc g t (svc.turn t) := by
  have hSame : svc.turn t = (svc, (svc.turn t).2) := by
    refine Prod.ext ?_ rfl
    rw [svc.turn_of_route hRoute]
    exact follow_reading hRegistry t hReading
  rw [hSame]
  exact .unchanged (report?_eq_none (Call.analysis?_of_isReading hRoute hReading))
    fun _ => ⟨route, hRoute, hReading⟩

/-- A call whose body holds fields has the effect that its fields have. -/
theorem fields_effect {α : Type} (hRegistry : svc.registry = .ok g) {t : Turn}
    (read : Option Json → Checked α) (run : Registry → α → Service × Reply)
    (hTurn : svc.turn t = svc.withBody t.call fun body =>
      svc.withRegistry fun g => svc.withFields t.call body (read body) (run g))
    (hBroken : t.call.fields? read = none → svc.report? t = none)
    (hRun : ∀ a, t.call.fields? read = some a → Effect svc g t (run g a)) :
    Effect svc g t (svc.turn t) := by
  rcases fields_cases hRegistry t.call read run hTurn with
    ⟨a, hFields, hOutcome⟩ | ⟨hFields, reply, hStatus, hOutcome⟩
  · rw [hOutcome]
    exact hRun a hFields
  · rw [hOutcome]
    exact .refused (hBroken hFields) hStatus

/-- **One turn** has one of the three effects, whatever the call is. -/
theorem turn_effect (hRegistry : svc.registry = .ok g) (hSound : g.Sound)
    (hPortable : ∀ r ∈ g.roster, ∀ on, (r.switched on).toJson.finite.isPortable = true)
    (hTime : hasNoTime svc.settings = false) (t : Turn) : Effect svc g t (svc.turn t) := by
  cases hRoute : Route.ofCall t.call with
  | error miss =>
    have hReport : svc.report? t = none := report?_eq_none (by rw [Call.analysis?, hRoute])
    rw [turn, answer, hRoute]
    cases miss with
    | unknownPath => exact .refused hReport (status_refusal (by decide) _)
    | wrongMethod => exact .refused hReport (status_refusal (by decide) _)
  | ok route =>
    have hTurn := svc.turn_of_route hRoute
    cases route with
    | analyze =>
      have hCall : t.call.analysis? = t.call.fields? (readBody AnalysisCall.read) := by
        rw [Call.analysis?, hRoute]
      refine fields_effect hRegistry _ (fun g => svc.analyze g t.parser t.stamp) hTurn ?_ ?_
      · intro hNone
        exact report?_eq_none (hCall.trans hNone)
      · intro a hFields
        refine analyze_effect hRegistry hTime (hCall.trans hFields) ?_
        rw [Call.switch?, hRoute]
    | toggleRule id =>
      have hReport : svc.report? t = none := report?_eq_none (by rw [Call.analysis?, hRoute])
      refine fields_effect hRegistry _ (fun g => svc.toggleRule g id) hTurn (fun _ => hReport) ?_
      intro on hFields
      refine toggleRule_effect hSound hPortable hReport ?_
      simp only [Call.switch?, hRoute, hFields, Option.map_some]
    | toggleCategory name =>
      have hReport : svc.report? t = none := report?_eq_none (by rw [Call.analysis?, hRoute])
      refine fields_effect hRegistry
        (fun body => Prod.mk <$> readCategory name <*> readBody readSwitch body)
        (fun g p => svc.toggleCategory g p.1 p.2) hTurn (fun _ => hReport) ?_
      intro p hFields
      refine toggleCategory_effect hSound hReport ?_
      simp only [Call.switch?, hRoute, hFields, Option.map_some]
    | _ => exact reading_effect hRegistry hRoute rfl

end Service

end ScriptLint
