import PanelExport.Proofs.Document.Sequences
import PanelExport.Proofs.Result.Lines

/-!
# Cells that are put back

A reply lists apart, column by column, at which positions a cell is infinite or no number. Putting
these values back changes the cells that are listed, and no other one: a position that is negative,
past the end or no whole number names no cell, and neither does a listing for a column that is not
there.

* `Document.position?_eq_some_iff`: which values name a position.
* `getElem?_foldl_replaceAt`: one value at many positions.
* `cells_of_applyEntity`: the cells of one column.
* `cells_of_applyEntities`: every cell of every column.
-/

namespace PanelExport

namespace Document

/-! ## Listings -/

/-- A value names a position: the whole number itself, or the truth value that counts as it. -/
inductive Denotes : Document → Nat → Prop
  | int (n : Nat) : Denotes (.int n) n
  | bool (b : Bool) : Denotes (.bool b) b.toNat

theorem position?_eq_some_iff {d : Document} {k : Nat} :
    position? d = some (k : Int) ↔ d.Denotes k := by
  constructor
  · intro h
    cases d with
    | int n =>
      cases h
      exact .int k
    | bool b =>
      have hk : b.toNat = k := by cases b <;> simp [position?] at h <;> simp <;> omega
      rw [← hk]
      exact .bool b
    | _ => cases h
  · rintro (n | b)
    · rfl
    · cases b <;> rfl

instance (d : Document) (k : Nat) : Decidable (d.Denotes k) :=
  decidable_of_iff _ position?_eq_some_iff

/-- A position stands in the list under a word. -/
def ListsAt (entity : Document) (word : String) (k : Nat) : Prop :=
  ∃ d ∈ entity.itemsIn word, d.Denotes k

instance (entity : Document) (word : String) (k : Nat) : Decidable (entity.ListsAt word k) :=
  inferInstanceAs (Decidable (∃ d ∈ entity.itemsIn word, d.Denotes k))

/-- What is listed apart for a column; nothing where there is no list, or no such item in it. -/
def entityAt (entities : Document) (c : Nat) : Document :=
  ((entities.items?.getD [])[c]?).getD .null

/-- What a cell is in the end: minus infinity, infinity or no number, the first of them that its
position is listed for; or else what it was. -/
def restoredCell (entity : Document) (k : Nat) (cell : Document) : Document :=
  if entity.ListsAt "NegInf" k then .float (.infinite true)
  else if entity.ListsAt "Inf" k then .float (.infinite false)
  else if entity.ListsAt "NaN" k then .float .nan
  else cell

end Document

open Document

/-! ## One value -/

theorem getElem?_replaceAt (value : Document) (column : List Document) (position : Document)
    (k : Nat) :
    (replaceAt value column position)[k]? =
      column[k]?.map fun cell => if position.Denotes k then value else cell := by
  simp only [← position?_eq_some_iff]
  unfold replaceAt
  cases position? position with
  | none => simp
  | some n =>
    simp only [Option.some.injEq]
    by_cases hn : n = k
    · subst hn
      rw [if_pos (Int.natCast_nonneg k), Int.toNat_natCast, List.getElem?_set_self']
      simp only [if_true]
      rfl
    · have hcell : (if 0 ≤ n then column.set n.toNat value else column)[k]? = column[k]? := by
        split
        · exact List.getElem?_set_ne (by omega)
        · rfl
      simp [hn, hcell]

/-- A value stands at the positions that name it, however often they do, and nowhere else. -/
theorem getElem?_foldl_replaceAt (value : Document) (positions column : List Document) (k : Nat) :
    (positions.foldl (replaceAt value) column)[k]? =
      column[k]?.map fun cell => if ∃ d ∈ positions, d.Denotes k then value else cell := by
  induction positions generalizing column with
  | nil => simp
  | cons position positions ih =>
    rw [List.foldl_cons, ih, getElem?_replaceAt, Option.map_map]
    refine congrArg (column[k]?.map ·) (funext fun cell => ?_)
    by_cases hfirst : position.Denotes k <;> simp [hfirst]

/-! ## One column -/

/-- Only the items of a list name positions. -/
theorem exists_denotes_elements_iff {entity : Fields} {word : String} {elements : List Document}
    (h : ((entity.lookup word).getD .null).elements = .ok elements) (k : Nat) :
    (∃ d ∈ elements, d.Denotes k) ↔ (Document.object entity).ListsAt word k := by
  have hitems : (Document.object entity).itemsIn word =
      ((entity.lookup word).getD .null).items?.getD [] := by
    rw [itemsIn, field?_object]
    cases entity.lookup word <;> rfl
  rw [ListsAt, hitems]
  obtain hlist | ⟨hnone, htexts⟩ := items_of_elements h
  · rw [hlist, Option.getD_some]
  · rw [hnone, Option.getD_none]
    refine iff_of_false ?_ (by simp)
    rintro ⟨d, hd, hk⟩
    obtain ⟨s, rfl⟩ := htexts d hd
    cases hk

/-- A value that is put back later stands over one that was put back before. -/
theorem cells_of_foldlM {entity : Fields} (values : List (String × Double))
    {column restored : List Document}
    (h : values.foldlM (fun column (word, value) => do
      let positions ← ((entity.lookup word).getD .null).elements
      return positions.foldl (replaceAt (.float value)) column) column = .ok restored) (k : Nat) :
    restored[k]? = column[k]?.map fun cell => values.foldl (fun cell (word, value) =>
      if (Document.object entity).ListsAt word k then .float value else cell) cell := by
  induction values generalizing column with
  | nil =>
    cases h
    simp
  | cons value values ih =>
    rw [List.foldlM_cons] at h
    obtain ⟨next, hnext, h⟩ := bind_eq_ok.1 h
    obtain ⟨positions, hpositions, hnext⟩ := bind_eq_ok.1 hnext
    cases hnext
    rw [ih h, getElem?_foldl_replaceAt, Option.map_map]
    simp only [exists_denotes_elements_iff hpositions k]
    rfl

/-- What is no object lists nothing. -/
theorem restoredCell_of_not_object {entity : Document} (h : ∀ fields, entity ≠ .object fields)
    (k : Nat) : restoredCell entity k = id := by
  have hlists : ∀ word, ¬ entity.ListsAt word k := by
    rintro word ⟨d, hd, -⟩
    cases entity with
    | object fields => exact h fields rfl
    | _ => cases hd
  exact funext fun cell => by simp [restoredCell, hlists]

theorem cells_of_applyEntity {column restored : List Document} {entity : Document}
    (h : applyEntity column entity = .ok restored) (k : Nat) :
    restored[k]? = column[k]?.map (restoredCell entity k) := by
  unfold applyEntity at h
  split at h
  · exact cells_of_foldlM entityValues h k
  · rename_i hnone
    cases h
    rw [restoredCell_of_not_object hnone, Option.map_id_fun, id]

/-! ## All columns -/

/-- Putting values back keeps the columns and their lengths, gives every cell that is listed for its
column the value it is listed for, and leaves every other cell as it is. -/
theorem cells_of_applyEntities {columns restored : List (List Document)} {entities : Document}
    (h : applyEntities columns (entities.items?.getD []) = .ok restored) :
    restored.map List.length = columns.map List.length ∧
      ∀ c k, restored[c]?.bind (·[k]?) =
        (columns[c]?.bind (·[k]?)).map (restoredCell (entities.entityAt c) k) := by
  refine ⟨length_of_applyEntities h, ?_⟩
  unfold entityAt
  generalize entities.items?.getD [] = entities at h
  induction columns generalizing entities restored with
  | nil =>
    rw [applyEntities.eq_def] at h
    cases h
    intro c k
    rfl
  | cons column columns ih =>
    intro c k
    cases entities with
    | nil =>
      cases h
      have hkept : restoredCell .null k = id := restoredCell_of_not_object (by simp) k
      rw [List.getElem?_nil, Option.getD_none, hkept, Option.map_id_fun, id]
    | cons entity entities =>
      obtain ⟨first, hfirst, h⟩ := bind_eq_ok.1 h
      obtain ⟨others, hothers, h⟩ := bind_eq_ok.1 h
      cases h
      cases c with
      | zero => exact cells_of_applyEntity hfirst k
      | succ c => exact ih entities hothers c k

/-- A position that is listed twice, a truth value as a position, and positions that name no cell;
the second column has no object, and the third listing no column. -/
theorem cells_of_applyEntities_overlapping :
    let columns : List (List Document) :=
      [[.int 10, .int 11, .int 12, .int 13], [.int 20, .text "x"]]
    let entities : Document := .list [
      .object [("NaN", .list [.int 2, .int 0, .int (-1), .int 2]),
        ("Inf", .list [.bool true, .int 0]), ("NegInf", .list [.int 0, .int 4, .text "3", .null])],
      .text "NaN",
      .object [("NegInf", .list [.int 0])]]
    let restored : List (List Document) :=
      [[.float (.infinite true), .float (.infinite false), .float .nan, .int 13],
        [.int 20, .text "x"]]
    applyEntities columns (entities.items?.getD []) = .ok restored ∧
      restored.map List.length = columns.map List.length ∧
        ∀ c k, restored[c]?.bind (·[k]?) =
          (columns[c]?.bind (·[k]?)).map (restoredCell (entities.entityAt c) k) :=
  ⟨rfl, cells_of_applyEntities rfl⟩

end PanelExport
