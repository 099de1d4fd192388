import PanelExport.Document.Sequence

/-!
# The panels of a dashboard

A dashboard holds panels, and a panel may hold further panels in a list. The panels are gone through
depth first, each before the panels it holds; entries that are no objects are passed over.

* `findPanel_nil`: among no panels none is found.
* `findPanel_cons`: a panel goes before those it holds, and these before the panels behind it.
-/

namespace PanelExport

/-- An object is the panel with a number if its entry `id` is that whole number. -/
def hasNumber (id : Int) (panel : Fields) : Bool :=
  match panel.lookup "id" with
  | some (.int n) => n == id
  | _ => false

/-- The panels that a panel holds, if it holds a list. -/
def innerPanels (panel : Fields) : List Document :=
  match panel.lookup "panels" with
  | some (.list panels) => panels
  | _ => []

theorem sizeOf_innerPanels_lt (panel : Fields) :
    sizeOf (innerPanels panel) < sizeOf (Document.object panel) := by
  unfold innerPanels
  split
  · next panels h =>
    have := Fields.sizeOf_lookup_lt h
    simp at this ⊢
    omega
  · cases panel with
    | nil => simp only [List.nil.sizeOf_spec, Document.object.sizeOf_spec]; omega
    | cons field rest =>
      simp only [List.nil.sizeOf_spec, List.cons.sizeOf_spec, Document.object.sizeOf_spec]
      omega

/-- The first panel with a number. -/
def findPanel (id : Int) : List Document → Option Fields
  | [] => none
  | .object panel :: rest =>
    if hasNumber id panel then some panel
    else (findPanel id (innerPanels panel)).or (findPanel id rest)
  | _ :: rest => findPanel id rest
termination_by panels => sizeOf panels
decreasing_by
  · have := sizeOf_innerPanels_lt panel
    simp only [List.cons.sizeOf_spec]
    omega
  · simp only [List.cons.sizeOf_spec]
    omega
  · simp only [List.cons.sizeOf_spec]
    omega

theorem findPanel_nil (id : Int) : findPanel id [] = none := by
  rw [findPanel]

theorem findPanel_cons (id : Int) (panel : Fields) (rest : List Document) :
    findPanel id (.object panel :: rest) =
      if hasNumber id panel then some panel
      else (findPanel id (innerPanels panel)).or (findPanel id rest) := by
  rw [findPanel]

/-- The first panel with a number among the panels that a dashboard names. -/
def locatePanel (id : Int) (panels : Document) : Except ShapeFault (Option Fields) :=
  panels.elements.map (findPanel id)

end PanelExport
