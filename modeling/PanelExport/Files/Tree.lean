import PanelExport.Log.Event
import PanelExport.Panel.Record
import PanelExport.Text.CharClass

/-!
# Files

The files of a working directory as a value, and saving an export among them. An export is named
after its panel; characters that some file system forbids in names are replaced. A directory that a
path names is made if it is missing, with those above it.

* `FileTree.write_files`: a written file is among the files.
-/

namespace PanelExport

/-! ## Names of exports -/

/-- The name of an export whose panel gives none. -/
def defaultName : String := "panel-export.prom"

/-- What every export's name ends with. -/
def exportExtension : String := ".prom"

/-- A character that some file system forbids in names. -/
def isForbidden (c : Char) : Bool :=
  ['/', '\\', ':', '*', '?', '"', '<', '>', '|'].contains c

/-- The name with forbidden characters replaced; a name without any other visible character is
replaced by the fallback. -/
def sanitizeName (name fallback : String) : String :=
  if isBlankText name then fallback
  else if (name.toList.filter (!isForbidden ·)).all isBlank then fallback
  else String.ofList (name.toList.map fun c => if isForbidden c then '_' else c)

/-- The name of the export of a panel with this number and title. -/
def exportNameOf (id : Document) (title? : Option String) : String :=
  let title := trim (title?.getD "")
  if title = "" then "panel-" ++ id.shown ++ exportExtension
  else
    let stem := sanitizeName title ""
    if stem = "" then defaultName else stem ++ exportExtension

/-- The name of the export of a panel. -/
def Panel.exportName (p : Panel) : String :=
  exportNameOf p.id p.title?

/-! ## Paths -/

/-- A path as it is written: what it starts at, and its parts. -/
structure Path where
  root : String
  parts : List String
  deriving DecidableEq

namespace Path

/-- The stretches of a text between slashes. -/
def split : List Char → List (List Char)
  | [] => [[]]
  | c :: cs =>
    if c = '/' then [] :: split cs
    else match split cs with
      | part :: parts => (c :: part) :: parts
      | [] => [[c]]

/-- The parts of a text between slashes, without those that lead nowhere. -/
def partsOf (text : String) : List String :=
  ((split text.toList).map String.ofList).filter fun part => part != "" && part != "."

/-- The path that a text is. Exactly two slashes at the start are kept. -/
def ofText (text : String) : Path :=
  let slashes := (text.toList.takeWhile (· == '/')).length
  ⟨if slashes = 0 then "" else if slashes = 2 then "//" else "/", partsOf text⟩

/-- The path to an entry of the directory that a path leads to. -/
def entry (p : Path) (name : String) : Path :=
  ⟨p.root, p.parts ++ partsOf name⟩

/-- The text of a path. -/
def text (p : Path) : String :=
  if p.root = "" ∧ p.parts.isEmpty then "." else p.root ++ "/".intercalate p.parts

/-- Where some parts lead from a place: two points lead up, and above the top they are kept. -/
def walk (place : List String) : List String → List String
  | [] => place
  | part :: parts =>
    if part = ".." then
      match place.getLast? with
      | some last => if last = ".." then walk (place ++ [".."]) parts else walk place.dropLast parts
      | none => walk [".."] parts
    else walk (place ++ [part]) parts

/-- The place that a path leads to. A path from the root leads to a place apart. -/
def place (p : Path) : List String :=
  if p.root = "" then walk [] p.parts else "/" :: walk [] p.parts

/-- The path and the paths above it, the topmost first. -/
def chain (p : Path) : List Path :=
  (List.range p.parts.length).map fun n => ⟨p.root, p.parts.take (n + 1)⟩

end Path

/-- Why a file cannot be saved. -/
inductive FileFault where
  | nullByte
  | nameTooLong (path : String)
  | notADirectory (path : String)
  | exists (path : String)
  | isADirectory (path : String)
  deriving DecidableEq

/-- The wording of a fault. -/
def FileFault.message : FileFault → String
  | .nullByte => "embedded null byte"
  | .nameTooLong path => "[Errno 36] File name too long: " ++ quoted path
  | .notADirectory path => "[Errno 20] Not a directory: " ++ quoted path
  | .exists path => "[Errno 17] File exists: " ++ quoted path
  | .isADirectory path => "[Errno 21] Is a directory: " ++ quoted path

/-- The files and directories that exist, by place. The working directory itself always exists. -/
structure FileTree where
  files : List (List String × String)
  directories : List (List String)
  deriving DecidableEq

namespace FileTree

/-- An empty working directory. -/
def empty : FileTree := ⟨[], []⟩

/-- A file stands at a place. -/
def isFile (t : FileTree) (place : List String) : Bool :=
  (t.files.lookup place).isSome

/-- A directory stands at a place. -/
def isDirectory (t : FileTree) (place : List String) : Bool :=
  place.all (· == "..") || place == ["/"] || t.directories.contains place

/-- No file system takes longer names. -/
def nameLimit : Nat := 255

/-- What is wrong with a path whatever exists. -/
def pathFault? (p : Path) : Option FileFault :=
  if p.parts.any fun part => part.toList.contains '\x00' then some .nullByte
  else if p.parts.any fun part => nameLimit < part.utf8ByteSize then some (.nameTooLong p.text)
  else none

/-- The tree with the directory that a path names, and those above it. -/
def makeDirectory (t : FileTree) (p : Path) : Except FileFault FileTree :=
  match pathFault? p with
  | some fault => .error fault
  | none =>
    if p.chain.dropLast.any fun q => t.isFile q.place then .error (.notADirectory p.text)
    else if t.isFile p.place then .error (.exists p.text)
    else
      let new := (p.chain.map Path.place).filter fun place => !t.isDirectory place
      .ok { t with directories := t.directories ++ new }

/-- The tree with a file at a place. -/
def write (t : FileTree) (place : List String) (text : String) : FileTree :=
  { t with files := (place, text) :: t.files.filter (·.1 != place) }

theorem write_files (t : FileTree) (place : List String) (text : String) :
    (place, text) ∈ (t.write place text).files := by
  simp [write]

/-- The tree with a text saved under a name in a directory, and the path of the file. -/
def save (t : FileTree) (directory name text : String) : Except FileFault (Path × FileTree) := do
  let directory := Path.ofText directory
  let t ← t.makeDirectory directory
  let path := directory.entry (sanitizeName name defaultName)
  match pathFault? path with
  | some fault => throw fault
  | none =>
    if t.isDirectory path.place then throw (.isADirectory path.text)
    else return (path, t.write path.place text)

/-- The event that a file was saved. -/
def savedEvent (path : Path) (text : String) : Event :=
  ⟨.info, "export_saved", [("path", .text path.text), ("bytes", .int text.utf8ByteSize)]⟩

/-- The files in and below the working directory, with their paths, in the order of the paths. -/
def listed (t : FileTree) : List (String × String) :=
  let here := t.files.filter fun f => f.1.head? != some ".." && f.1.head? != some "/"
  (here.map fun f => ("/".intercalate f.1, f.2)).mergeSort fun a b => a.1 ≤ b.1

end FileTree

end PanelExport
