import PanelExport.Proofs.Panel.Lookup

/-!
# The order of panels

The panels of a dashboard form a tree, in which each panel stands before those it holds, and these
stand before the panels behind it. A lookup finds the first panel of this order that has the number.
A subtree without such a panel can be put in anywhere, and nothing else comes of the lookup.

* `mem_preorder`, `preorder_append`: what the order goes through, and in which parts.
* `findPanel_eq_find?`: a lookup follows the order.
* `findPanel_of_inserted`: a lookup with a subtree put in.
* `findPanel_first`: which panel is found, and what makes no difference.
-/

namespace PanelExport

open Document

/-! ## The order -/

/-- The objects among some panels and inside them: each before those that it holds, and these before
those behind it. -/
def preorder : List Document → List Fields
  | [] => []
  | .object panel :: rest => panel :: (preorder (innerPanels panel) ++ preorder rest)
  | _ :: rest => preorder rest
termination_by panels => sizeOf panels
decreasing_by
  · have := sizeOf_innerPanels_lt panel
    simp only [List.cons.sizeOf_spec]
    omega
  all_goals
    simp only [List.cons.sizeOf_spec]
    omega

theorem preorder_nil : preorder [] = [] := by
  rw [preorder]

theorem preorder_object_cons (panel : Fields) (rest : List Document) :
    preorder (.object panel :: rest) =
      panel :: (preorder (innerPanels panel) ++ preorder rest) := by
  rw [preorder]

theorem preorder_cons_of_not_object {d : Document} (hd : ∀ fields, d ≠ .object fields)
    (rest : List Document) : preorder (d :: rest) = preorder rest := by
  rw [preorder]
  exact hd

/-- The order goes through the panels and those inside them. -/
theorem mem_preorder {node : Fields} {panels : List Document} :
    node ∈ preorder panels ↔ Among node panels := by
  induction panels using preorder.induct with
  | case1 => simp [preorder_nil, not_among_of_no_objects]
  | case2 panel rest inner outer =>
    rw [preorder_object_cons, List.mem_cons, List.mem_append, inner, outer, among_object_cons]
  | case3 d rest hd ih =>
    rw [preorder_cons_of_not_object hd, ih, among_cons_of_not_object hd]

theorem preorder_append (panels others : List Document) :
    preorder (panels ++ others) = preorder panels ++ preorder others := by
  induction panels with
  | nil => rw [preorder_nil, List.nil_append, List.nil_append]
  | cons d rest ih =>
    by_cases hd : ∃ fields, d = .object fields
    · obtain ⟨panel, rfl⟩ := hd
      rw [List.cons_append, preorder_object_cons, preorder_object_cons, ih, List.cons_append,
        List.append_assoc]
    · have hd := not_exists.1 hd
      rw [List.cons_append, preorder_cons_of_not_object hd, preorder_cons_of_not_object hd, ih]

/-- A lookup follows the order, and stops at the first panel with the number. -/
theorem findPanel_eq_find? (id : Int) (panels : List Document) :
    findPanel id panels = (preorder panels).find? (hasNumber id) := by
  induction panels using findPanel.induct id with
  | case1 => rw [findPanel_nil, preorder_nil, List.find?_nil]
  | case2 panel rest hp =>
    rw [findPanel_cons, if_pos hp, preorder_object_cons, List.find?_cons_of_pos hp]
  | case3 panel rest hp inner outer =>
    rw [findPanel_cons, if_neg hp, preorder_object_cons, List.find?_cons_of_neg hp,
      List.find?_append, inner, outer]
  | case4 d rest hd ih =>
    rw [findPanel, preorder_cons_of_not_object hd, ih]
    exact hd

/-- What is found first in a panel, and then behind it. -/
theorem findPanel_cons_eq_or (id : Int) (d : Document) (rest : List Document) :
    findPanel id (d :: rest) = (findPanel id [d]).or (findPanel id rest) := by
  rw [findPanel_eq_find?, findPanel_eq_find?, findPanel_eq_find?, ← List.find?_append,
    ← preorder_append, List.singleton_append]

/-- What is under a name that is no list of panels plays no part. -/
theorem preorder_of_not_list {panel : Fields}
    (h : ∀ inner, panel.lookup "panels" ≠ some (.list inner)) :
    preorder [.object panel] = [panel] := by
  have hnone : innerPanels panel = [] := by
    unfold innerPanels
    split
    · rename_i inner hinner
      exact absurd hinner (h inner)
    · rfl
  rw [preorder_object_cons, hnone, preorder_nil, List.append_nil]

/-! ## Subtrees put in -/

theorem lookup_put_self {α : Type} (name : String) (value : α) (entries : List (String × α)) :
    (put name value entries).lookup name = some value := by
  induction entries with
  | nil => simp [put]
  | cons entry rest ih =>
    obtain ⟨n, v⟩ := entry
    by_cases hn : n = name
    · subst hn
      rw [put_same, List.lookup_cons_self]
    · have hn' : (name == n) = false := beq_eq_false_iff_ne.2 (Ne.symm hn)
      rw [put, if_neg hn, List.lookup_cons, hn', ih]

theorem lookup_put_of_ne {α : Type} {name other : String} (h : other ≠ name) (value : α)
    (entries : List (String × α)) :
    (put name value entries).lookup other = entries.lookup other := by
  have hother : (other == name) = false := beq_eq_false_iff_ne.2 h
  induction entries with
  | nil => simp [put, List.lookup_cons, hother]
  | cons entry rest ih =>
    obtain ⟨n, v⟩ := entry
    by_cases hn : n = name
    · subst hn
      rw [put_same, List.lookup_cons, List.lookup_cons, hother]
    · rw [put, if_neg hn, List.lookup_cons, List.lookup_cons, ih]

/-- The panels with a subtree put in somewhere: among them, or inside one of them, which then has
the larger list in the place of its own. -/
inductive Inserted (subtree : Document) : List Document → List Document → Prop
  | here (panels : List Document) : Inserted subtree panels (subtree :: panels)
  | later (d : Document) {rest larger : List Document} :
      Inserted subtree rest larger → Inserted subtree (d :: rest) (d :: larger)
  | inside (panel : Fields) (rest : List Document) {larger : List Document} :
      Inserted subtree (innerPanels panel) larger →
        Inserted subtree (.object panel :: rest)
          (.object (put "panels" (.list larger) panel) :: rest)

/-- The same panel, or the one that it has become because a subtree was put in inside it. -/
inductive Grown (subtree : Document) (panel : Fields) : Fields → Prop
  | same : Grown subtree panel panel
  | inside {larger : List Document} : Inserted subtree (innerPanels panel) larger →
      Grown subtree panel (put "panels" (.list larger) panel)

theorem innerPanels_put (panel : Fields) (inner : List Document) :
    innerPanels (put "panels" (.list inner) panel) = inner := by
  rw [innerPanels, lookup_put_self]

theorem hasNumber_put (id : Int) (panel : Fields) (inner : List Document) :
    hasNumber id (put "panels" (.list inner) panel) = hasNumber id panel := by
  rw [hasNumber, hasNumber, lookup_put_of_ne (by decide)]

theorem Grown.rel_refl (subtree : Document) (found? : Option Fields) :
    Option.Rel (Grown subtree) found? found? := by
  cases found? with
  | none => exact .none
  | some panel => exact .some .same

theorem rel_or {α β : Type} {R : α → β → Prop} {a c : Option α} {b d : Option β}
    (h : Option.Rel R a b) (h' : Option.Rel R c d) : Option.Rel R (a.or c) (b.or d) := by
  cases h with
  | none => exact h'
  | some h => exact .some h

/-- A subtree without a panel that has the number makes no difference, except that what is found
may hold it. -/
theorem findPanel_of_inserted {id : Int} {subtree : Document} {panels larger : List Document}
    (h : Inserted subtree panels larger) (hsubtree : findPanel id [subtree] = none) :
    Option.Rel (Grown subtree) (findPanel id panels) (findPanel id larger) := by
  induction h with
  | here panels =>
    rw [findPanel_cons_eq_or, hsubtree, Option.none_or]
    exact Grown.rel_refl subtree _
  | @later d rest larger _ ih =>
    rw [findPanel_cons_eq_or id d rest, findPanel_cons_eq_or id d larger]
    exact rel_or (Grown.rel_refl subtree _) ih
  -- The panel around the subtree has the number it had, and if it is found it has grown.
  | inside panel rest hinner ih =>
    rw [findPanel_cons, findPanel_cons, hasNumber_put, innerPanels_put]
    split
    · exact .some (.inside hinner)
    · exact rel_or ih (Grown.rel_refl subtree _)

/-! ## What is found -/

theorem findPanel_eq_none_iff_preorder {id : Int} {panels : List Document} :
    findPanel id panels = none ↔
      ∀ panel ∈ preorder panels, panel.lookup "id" ≠ some (.int id) := by
  simp only [findPanel_eq_none_iff, mem_preorder, hasNumber_iff, ne_eq]

/-- Among panels the first one in their order is found that has the number, and nothing only if none
has it. A subtree without such a panel may be put in anywhere, and what is no object or no list of
panels is passed over with all that is in it. -/
theorem findPanel_first (id : Int) (panels : List Document) :
    locatePanel id (.list panels) = .ok (findPanel id panels) ∧
    (∀ panel, findPanel id panels = some panel ↔
      ∃ before after, preorder panels = before ++ panel :: after ∧
        panel.lookup "id" = some (.int id) ∧
        ∀ other ∈ before, other.lookup "id" ≠ some (.int id)) ∧
    (findPanel id panels = none ↔
      ∀ panel ∈ preorder panels, panel.lookup "id" ≠ some (.int id)) ∧
    (∀ subtree larger, Inserted subtree panels larger →
      (∀ panel ∈ preorder [subtree], panel.lookup "id" ≠ some (.int id)) →
      Option.Rel (Grown subtree) (findPanel id panels) (findPanel id larger)) ∧
    (∀ d, (∀ fields, d ≠ .object fields) → preorder [d] = []) ∧
    ∀ panel : Fields, (∀ inner, panel.lookup "panels" ≠ some (.list inner)) →
      preorder [.object panel] = [panel] := by
  refine ⟨?_, fun panel => ?_, findPanel_eq_none_iff_preorder,
    fun subtree larger h hsubtree => ?_, fun d hd => ?_, fun panel => preorder_of_not_list⟩
  · exact locatePanel_eq nofun
  · rw [findPanel_eq_find?, List.find?_eq_some_iff_append]
    simp only [hasNumber_iff, Bool.not_eq_true', ← Bool.not_eq_true]
    constructor
    · rintro ⟨hid, before, after, horder, hbefore⟩
      exact ⟨before, after, horder, hid, hbefore⟩
    · rintro ⟨before, after, horder, hid, hbefore⟩
      exact ⟨hid, before, after, horder, hbefore⟩
  · exact findPanel_of_inserted h (findPanel_eq_none_iff_preorder.2 hsubtree)
  · rw [preorder_cons_of_not_object hd, preorder_nil]

end PanelExport
