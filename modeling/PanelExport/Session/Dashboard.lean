import PanelExport.Session.Fault

/-!
# The panel in a dashboard reply

From what the server says about a dashboard to the panel that was asked for.

* `panelIn_none`: a panel that is not there fails by its name.
* `dashboardIn_ok`: the dashboard is the object under its name.
-/

namespace PanelExport

/-- The dashboard in a reply. -/
def dashboardIn (uid : String) : Except CallFault Document → Except RunFault Fields
  | .error f => .error (.ofCall (fun f => .dashboardNotFound uid f.message) f)
  | .ok d =>
    match d.field "dashboard" with
    | .object dashboard => .ok dashboard
    | _ => .error (.failure (.dashboardInvalid uid))

theorem dashboardIn_ok (uid : String) (d : Document) (dashboard : Fields)
    (h : d.field "dashboard" = .object dashboard) :
    dashboardIn uid (.ok d) = .ok dashboard := by
  simp [dashboardIn, h]

/-- The event that a dashboard was fetched. -/
def fetchedEvent (uid : String) (dashboard : Fields) : Except ShapeFault Event := do
  let count ← ((dashboard.lookup "panels").getD .null).count
  return ⟨.info, "dashboard_fetched",
    [("dashboard_uid", .text uid), ("title", (dashboard.lookup "title").getD .null),
      ("top_level_panels", .int count)]⟩

/-- The panel that a located object is. -/
def panelIn (uid : String) (id : Int) : Option Fields → Logged RunFault Panel
  | none => do
    Logged.log ⟨.warning, "panel_not_found",
      [("dashboard_uid", .text uid), ("panel_id", .int id)]⟩
    Logged.throw (.failure (.panelNotFound uid id))
  | some node => .ofExcept ((Panel.ofNode node uid).mapError .shape)

theorem panelIn_none (uid : String) (id : Int) :
    (panelIn uid id none).outcome = .error (.failure (.panelNotFound uid id)) := rfl

/-- The panel with a number in the reply for a dashboard. -/
def fetchPanel (uid : String) (id : Int) (reply : Except CallFault Document) :
    Logged RunFault Panel := do
  let dashboard ← .ofExcept (dashboardIn uid reply)
  let event ← .ofExcept ((fetchedEvent uid dashboard).mapError .shape)
  Logged.log event
  let node? ← .ofExcept
    ((locatePanel id ((dashboard.lookup "panels").getD .null)).mapError .shape)
  panelIn uid id node?

end PanelExport
