import PanelExport.Document.Basic
import PanelExport.Text.Wording

/-!
# Writing documents

A spelling fixes what a written document leaves open: the separators, and which characters of a text
stand for themselves. Quotes and backslashes are escaped in every spelling; a character that does
not stand for itself is written by number. For a web page more characters are written by number,
wherever they stand in the written document.
-/

namespace PanelExport

/-- What a written document leaves open. -/
structure Spelling where
  itemSeparator : String
  nameSeparator : String
  /-- A character that stands for itself inside a text. -/
  plain : Char → Bool

namespace Spelling

/-- The spelling for readers: spaces after separators, ASCII characters alone. -/
def spaced : Spelling := ⟨", ", ": ", fun c => ' ' ≤ c && c ≤ '~'⟩

/-- The spelling without spaces, in which all but the control characters are plain. -/
def compact : Spelling := ⟨",", ":", fun c => ' ' ≤ c⟩

end Spelling

namespace Document

/-- A number of 16 bits as an escape. -/
def unitEscape (n : Nat) : List Char :=
  '\\' :: 'u' :: hexPadded 4 n

/-- A character by number; past 16 bits it takes two halves. -/
def numberedChar (c : Char) : List Char :=
  if c.toNat < 0x10000 then unitEscape c.toNat
  else
    let n := c.toNat - 0x10000
    unitEscape (0xD800 + n / 0x400) ++ unitEscape (0xDC00 + n % 0x400)

/-- A character inside a written text. -/
def spellChar (plain : Char → Bool) (c : Char) : List Char :=
  if c == '"' || c == '\\' then ['\\', c]
  else if c == '\n' then ['\\', 'n']
  else if c == '\r' then ['\\', 'r']
  else if c == '\t' then ['\\', 't']
  else if c == '\x08' then ['\\', 'b']
  else if c == '\x0c' then ['\\', 'f']
  else if plain c then [c]
  else numberedChar c

/-- A text between quotes. -/
def spellText (plain : Char → Bool) (s : String) : String :=
  String.ofList ('"' :: s.toList.flatMap (spellChar plain) ++ ['"'])

/-- A double; those that are not finite are spelled as words. -/
def spellDouble : Double → String
  | .nan => "NaN"
  | .infinite true => "-Infinity"
  | .infinite false => "Infinity"
  | x => x.text

mutual

/-- The written form of a document. -/
def write (sp : Spelling) : Document → String
  | .null => "null"
  | .bool true => "true"
  | .bool false => "false"
  | .int n => toString n
  | .float x => spellDouble x
  | .text s => spellText sp.plain s
  | .list items => "[" ++ sp.itemSeparator.intercalate (writeItems sp items) ++ "]"
  | .object entries =>
    "\x7b" ++ sp.itemSeparator.intercalate (writeEntries sp entries) ++ "\x7d"

/-- The written forms of the items of a list. -/
def writeItems (sp : Spelling) : List Document → List String
  | [] => []
  | d :: ds => write sp d :: writeItems sp ds

/-- The written forms of the entries of an object. -/
def writeEntries (sp : Spelling) : List (String × Document) → List String
  | [] => []
  | (name, d) :: es =>
    (spellText sp.plain name ++ sp.nameSeparator ++ write sp d) :: writeEntries sp es

end

/-! ## Inside a web page -/

/-- The characters that could end a script or a line of a web page. -/
def pageMarks : List Char := ['<', '>', '&', '\u2028', '\u2029']

/-- A text with a character replaced wherever it stands. -/
def replaceChar (c : Char) (replacement : List Char) (s : String) : String :=
  String.ofList (s.toList.flatMap fun x => if x = c then replacement else [x])

/-- A written document for a web page: what could end a script or a line there is written by
number, one such character after the other. -/
def escapeMarks (written : String) : String :=
  pageMarks.foldl (fun text c => replaceChar c (unitEscape c.toNat) text) written

end Document

end PanelExport
