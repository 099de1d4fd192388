import PanelExport.Console.Markup

/-!
# Console items

What is printed for users: lines of markup, framed titles, tables, and a sign that something is
under way.
-/

namespace PanelExport

/-- One thing that is printed. -/
inductive Item where
  | line (markup : String)
  /-- A title in a frame. -/
  | panel (markup : String)
  | table (title : String) (columns : List String) (rows : List (List String))
      (showHeader : Bool)
  /-- A sign that something is under way, with a message. -/
  | spinner (message : String)
  deriving DecidableEq

namespace Item

/-- A text inside a tag. -/
def tagged (tag text : String) : String :=
  "[" ++ tag ++ "]" ++ text ++ "[/" ++ tag ++ "]"

/-- Something went well. -/
def success (message : String) : Item := .line (tagged "success" ("✓ " ++ message))

/-- Something went wrong. -/
def error (message : String) : Item := .line (tagged "error" ("✗ " ++ message))

/-- Something may be wrong. -/
def warning (message : String) : Item := .line (tagged "warning" ("⚠ " ++ message))

/-- Something to know. -/
def info (message : String) : Item := .line (tagged "info" ("ℹ " ++ message))

/-- A title in a frame below an empty line. -/
def header (title : String) : List Item := [.line "", .panel (tagged "bold" title)]

/-- A row with empty cells up to a width. -/
def padded (width : Nat) (row : List String) : List String :=
  row ++ List.replicate (width - row.length) ""

/-- A table in which all rows are as long as the longest of them. -/
def tableOf (title : String) (columns : List String) (rows : List (List String))
    (showHeader : Bool) : Item :=
  let width := (columns :: rows).foldl (fun n row => max n row.length) 0
  .table title (padded width columns) (rows.map (padded width)) showHeader

/-- Values by name, below a title unless it is empty. -/
def keyValues (values : List (String × String)) (title : String) : List Item :=
  (if title = "" then [] else [.line ("\n" ++ tagged "bold" title)]) ++
    values.map fun (name, value) => .line ("  [cyan]" ++ name ++ ":[/cyan] " ++ value)

/-- The lines of markup that stand for an item on a plain console. -/
def lines : Item → List String
  | .line markup => [markup]
  | .panel markup => [markup]
  | .table title columns rows showHeader =>
    title :: ((if showHeader then [columns] else []) ++ rows).map "  ".intercalate
  | .spinner message => [message]

end Item

end PanelExport
