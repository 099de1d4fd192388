/-!
# Path patterns

The path of a resource may have gaps. A gap is a name in braces, and after a colon it may say what
fits it: one segment of a path if nothing is said. A line break at the end of a path is ignored.

* `PathPattern.covers_plain`: a pattern without gaps covers its own text alone.
* `length_restsAfter_lt`: every way to read characters of a kind leaves less.
-/

namespace PanelExport.Service

/-- What fits a gap. -/
inductive Gap where
  /-- Characters other than a slash, at least one. -/
  | segment
  /-- The rest of a line. -/
  | line
  /-- Digits. -/
  | digits
  /-- Digits, and more of them after a point. -/
  | decimal
  /-- Thirty-two hexadecimal digits in five groups, with or without hyphens. -/
  | identifier
  deriving DecidableEq

/-- The gap with a name. -/
def Gap.ofName? (name : String) : Option Gap :=
  [("str", .segment), ("path", .line), ("int", .digits), ("float", .decimal),
    ("uuid", .identifier)].lookup name

/-- A part of a pattern. -/
inductive PathPart where
  | char (c : Char)
  | gap (name : String) (gap : Gap)
  deriving DecidableEq

/-- The path of a resource, with its gaps. -/
abbrev PathPattern := List PathPart

/-- Why a text is no pattern. -/
inductive PatternFault where
  /-- It does not start with a slash. -/
  | noSlash
  /-- Nothing is known to fit one of its gaps. -/
  | unknownGap (name : String)
  /-- These gaps share their names with others. -/
  | repeated (names : List String) (path : String)
  deriving DecidableEq

/-- The wording of a fault. -/
def PatternFault.message : PatternFault → String
  | .noSlash => "Routed paths must start with '/'"
  | .unknownGap name => "Unknown path convertor '" ++ name ++ "'"
  | .repeated names path =>
    "Duplicated param name" ++ (if names.length = 1 then "" else "s") ++ " " ++
      ", ".intercalate names ++ " at path " ++ path

/-! ## Reading -/

/-- A character of a name. -/
def isNameChar (c : Char) : Bool := c.isAlphanum || c == '_'

/-- A name at the front of a text: it does not start with a digit. -/
def spanName? (cs : List Char) : Option (String × List Char) :=
  match cs.takeWhile isNameChar with
  | [] => none
  | c :: name =>
    if c.isDigit then none else some (String.ofList (c :: name), cs.dropWhile isNameChar)

/-- The name of a gap, the name of what fits it, and the text behind its closing brace. -/
def spanGap? (cs : List Char) : Option (String × String × List Char) := do
  match ← spanName? cs with
  | (name, '\x7d' :: rest) => some (name, "str", rest)
  | (name, ':' :: rest) =>
    match ← spanName? rest with
    | (kind, '\x7d' :: rest) => some (name, kind, rest)
    | _ => none
  | _ => none

/-- The parts of a text behind its first `skipped` characters. A brace that opens no gap stands for
itself. -/
def readParts : Nat → List Char → Except PatternFault PathPattern
  | _, [] => .ok []
  | skipped + 1, _ :: cs => readParts skipped cs
  | 0, c :: cs =>
    match if c = '\x7b' then spanGap? cs else none with
    | none => return .char c :: (← readParts 0 cs)
    | some (name, kind, rest) =>
      match Gap.ofName? kind with
      | none => .error (.unknownGap kind)
      | some gap => return .gap name gap :: (← readParts (cs.length - rest.length) cs)

/-- The name of a gap. -/
def PathPart.name? : PathPart → Option String
  | .char _ => none
  | .gap name _ => some name

/-- The names that more than one gap has, in order. -/
def PathPattern.repeatedNames (p : PathPattern) : List String :=
  let names := p.filterMap PathPart.name?
  (names.filter fun name => names.count name ≠ 1).eraseDups.mergeSort

/-- The pattern that a text is. -/
def PathPattern.ofText (path : String) : Except PatternFault PathPattern := do
  if path.toList.head? ≠ some '/' then throw .noSlash
  let p ← readParts 0 path.toList
  match p.repeatedNames with
  | [] => return p
  | names => throw (.repeated names path)

/-! ## Covering -/

/-- What may be left of a text behind one or more characters of a kind. -/
def restsAfter (isFitting : Char → Bool) : List Char → List (List Char)
  | [] => []
  | c :: cs => if isFitting c then cs :: restsAfter isFitting cs else []

/-- What is left of a text behind some hexadecimal digits. -/
def dropHex? : Nat → List Char → Option (List Char)
  | 0, cs => some cs
  | _ + 1, [] => none
  | n + 1, c :: cs =>
    if c.isDigit || ('a' ≤ c && c ≤ 'f') || ('A' ≤ c && c ≤ 'F') then dropHex? n cs else none

/-- A text without a hyphen at its front. -/
def dropHyphen : List Char → List Char
  | '-' :: cs => cs
  | cs => cs

/-- What is left of a text behind groups of hexadecimal digits, with or without a hyphen between
two. -/
def dropGroups? : List Nat → List Char → Option (List Char)
  | [], cs => some cs
  | [n], cs => dropHex? n cs
  | n :: ns, cs => do dropGroups? ns (dropHyphen (← dropHex? n cs))

/-- What may be left of a text behind a gap. -/
def Gap.rests : Gap → List Char → List (List Char)
  | .segment, cs => restsAfter (· ≠ '/') cs
  | .line, cs => cs :: restsAfter (· ≠ '\n') cs
  | .digits, cs => restsAfter Char.isDigit cs
  | .decimal, cs =>
    (restsAfter Char.isDigit cs).flatMap fun
      | '.' :: rest => ('.' :: rest) :: restsAfter Char.isDigit rest
      | rest => [rest]
  | .identifier, cs => (dropGroups? [8, 4, 4, 4, 12] cs).toList

/-- The path that a text is matches the pattern. -/
def PathPattern.covers : PathPattern → List Char → Bool
  | [], cs => cs == [] || cs == ['\n']
  | .char _ :: _, [] => false
  | .char c :: p, d :: cs => c == d && covers p cs
  | .gap _ gap :: p, cs => (gap.rests cs).any (covers p)

theorem PathPattern.covers_plain (text cs : List Char) :
    covers (text.map .char) cs = true ↔ cs = text ∨ cs = text ++ ['\n'] := by
  induction text generalizing cs with
  | nil => simp [covers]
  | cons c text ih =>
    cases cs with
    | nil => simp [covers]
    | cons d cs =>
      simp only [List.map_cons, covers, Bool.and_eq_true, beq_iff_eq, ih, List.cons_append,
        List.cons.injEq]
      constructor
      · rintro ⟨rfl, h | h⟩
        · exact .inl ⟨rfl, h⟩
        · exact .inr ⟨rfl, h⟩
      · rintro (⟨rfl, h⟩ | ⟨rfl, h⟩)
        · exact ⟨rfl, .inl h⟩
        · exact ⟨rfl, .inr h⟩

theorem length_restsAfter_lt {isFitting : Char → Bool} {cs rest : List Char}
    (h : rest ∈ restsAfter isFitting cs) : rest.length < cs.length := by
  induction cs with
  | nil => simp [restsAfter] at h
  | cons c cs ih =>
    rw [restsAfter] at h
    split at h
    · rcases List.mem_cons.1 h with rfl | h
      · simp only [List.length_cons]
        omega
      · have := ih h
        simp only [List.length_cons]
        omega
    · cases h

end PanelExport.Service
