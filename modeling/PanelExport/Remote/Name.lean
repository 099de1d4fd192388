import PanelExport.Remote.NameChars
import PanelExport.Remote.Punycode
import PanelExport.Text.SmallLetter

/-!
# Names of hosts

The name of a host is a row of labels between points. A name that has characters of other scripts is
spelled in basic characters before it is used; then each label has to be well formed.

* `Host.spelledLabel?_basic`: a well-formed label of basic characters is spelled as it is.
-/

namespace PanelExport.Host

/-- Hyphens stand inside a label, and not at the place where those of spelled labels stand. -/
def hyphensFit (cs : List Char) : Bool :=
  cs.head? != some '-' && cs.getLast? != some '-' && (cs.drop 2).take 2 != ['-', '-']

/-- A label that is read from the right: letters stand at both ends, or a digit at the far one, and
no letters among them are read from the left. -/
def isRightLabel (cs : List Char) : Bool :=
  cs.head?.any isRightChar &&
    cs.all (fun c => isRightChar c || isMark c || c.isDigit || c == '-') &&
    (cs.reverse.dropWhile isMark).head?.any fun c => isRightChar c || c.isDigit

/-- A well-formed label. -/
def isLabel (cs : List Char) : Bool :=
  !cs.isEmpty && hyphensFit cs && !cs.head?.any isMark &&
    if cs.any isRightChar then isRightLabel cs else cs.all fun c => isLeftChar c || isMark c

/-- The longest label. -/
def labelLimit : Nat := 63

/-- The longest name without a point at its end. -/
def nameLimit : Nat := 253

/-- The label in basic characters, if it is well formed. -/
def spelledLabel? (cs : List Char) : Option (List Char) :=
  let spelled := if cs.all Punycode.isBasic then cs else "xn--".toList ++ Punycode.encode cs
  if isLabel cs && spelled.length ≤ labelLimit then some spelled else none

theorem spelledLabel?_basic {cs : List Char} (h : cs.all Punycode.isBasic = true)
    (hl : isLabel cs = true) (hn : cs.length ≤ labelLimit) : spelledLabel? cs = some cs := by
  simp [spelledLabel?, h, hl, hn]

/-- The points of several scripts. -/
def isPoint (c : Char) : Bool := ['.', '。', '．', '｡'].contains c

/-- The labels of a name, and whether a point stands at its end. -/
def labelsOf (cs : List Char) : List (List Char) × Bool :=
  let labels := (cs.map fun c => if isPoint c then '.' else c).splitOn '.'
  if labels.getLast? = some [] then (labels.dropLast, true) else (labels, false)

/-- The name in basic characters and small letters, if its labels are well formed. -/
def spelledName? (cs : List Char) : Option (List Char) := do
  let (labels, endsInPoint) := labelsOf (cs.map smallLetter)
  let spelled := ['.'].intercalate (← labels.mapM spelledLabel?)
  if labels.isEmpty || nameLimit < spelled.length || nameLimit + 1 < cs.length then none
  else some (if endsInPoint then spelled ++ ['.'] else spelled)

end PanelExport.Host
