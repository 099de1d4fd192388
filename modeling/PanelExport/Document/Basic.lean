import PanelExport.Double.Shortest

/-!
# Documents

A document is what a structured text denotes: nothing, a truth value, a whole number of any size, a
double, a text, a list or an object. An object keeps its entries in order, one entry per name.

* `Document.put_new`, `Document.put_same`: a new name goes to the end, a known one keeps its place.
* `Document.field?_object`: the field of an object is its first entry of that name.
-/

namespace PanelExport

/-- A structured value. -/
inductive Document where
  | null
  | bool (b : Bool)
  | int (n : Int)
  | float (x : Double)
  | text (s : String)
  | list (items : List Document)
  | object (entries : List (String × Document))
  deriving Inhabited

/-- Named values, such as the entries of an object. -/
abbrev Fields := List (String × Document)

/-- A value that is looked up is smaller than the entries that hold it. -/
theorem Fields.sizeOf_lookup_lt {fields : Fields} {name : String} {d : Document}
    (h : fields.lookup name = some d) : sizeOf d < sizeOf fields := by
  induction fields with
  | nil => cases h
  | cons e rest ih =>
    obtain ⟨n, v⟩ := e
    rw [List.lookup_cons] at h
    split at h
    · cases h
      simp
      omega
    · have := ih h
      simp
      omega

namespace Document

/-- The entries with a value put under a name: in its place if there is one, else at the end. -/
def put {α : Type} (name : String) (value : α) : List (String × α) → List (String × α)
  | [] => [(name, value)]
  | (n, v) :: rest => if n = name then (n, value) :: rest else (n, v) :: put name value rest

theorem put_new {α : Type} {name : String} {entries : List (String × α)}
    (h : entries.lookup name = none) (value : α) :
    put name value entries = entries ++ [(name, value)] := by
  induction entries with
  | nil => rfl
  | cons e rest ih =>
    obtain ⟨n, v⟩ := e
    rw [List.lookup_cons] at h
    split at h
    · cases h
    · next hn =>
      have : n ≠ name := fun hc => by simp [hc] at hn
      simp [put, this, ih h]

theorem put_same {α : Type} (name : String) (u v : α) (rest : List (String × α)) :
    put name v ((name, u) :: rest) = (name, v) :: rest := by
  simp [put]

/-- One entry per name: a repeated name keeps its first place and its last value. -/
def ofEntries {α : Type} (entries : List (String × α)) : List (String × α) :=
  entries.foldl (fun es e => put e.1 e.2 es) []

/-- The entry of an object under a name. -/
def field? (name : String) : Document → Option Document
  | .object entries => entries.lookup name
  | _ => none

theorem field?_object (name : String) (entries : List (String × Document)) :
    (Document.object entries).field? name = entries.lookup name := rfl

/-- The entry of an object under a name; nothing where there is none. -/
def field (name : String) (d : Document) : Document :=
  (d.field? name).getD .null

/-- A value that counts as present: neither nothing, false, zero nor empty. -/
def isTruthy : Document → Bool
  | .null => false
  | .bool b => b
  | .int n => n ≠ 0
  | .float x => x.isNonzero
  | .text s => s ≠ ""
  | .list items => !items.isEmpty
  | .object entries => !entries.isEmpty

/-- Nothing, or an empty text. -/
def isBlankValue : Document → Bool
  | .null => true
  | .text s => s == ""
  | _ => false

/-- The text that a document is. -/
def text? : Document → Option String
  | .text s => some s
  | _ => none

/-- The items of a list. -/
def items? : Document → Option (List Document)
  | .list items => some items
  | _ => none

/-- The entries of an object. -/
def entries? : Document → Option Fields
  | .object entries => some entries
  | _ => none

/-- A text, or nothing. -/
def ofText? : Option String → Document
  | none => .null
  | some s => .text s

/-- A list of texts. -/
def ofTexts (texts : List String) : Document :=
  .list (texts.map .text)

end Document

end PanelExport
