/-!
# Markup

Text for the console may hold tags in square brackets. A text that is to be shown as it is gets a
backslash in front of everything that would be read as a tag.
-/

namespace PanelExport

/-- A character with which the name of a tag may start. -/
def startsTag (c : Char) : Bool :=
  ('a' ≤ c && c ≤ 'z') || ['#', '/', '@'].contains c

/-- The length of the tag that a text starts with, if it starts with one. -/
def tagSize? : List Char → Option Nat
  | '[' :: c :: cs =>
    if startsTag c then
      match cs.span fun c => c ≠ '[' && c ≠ ']' with
      | (inside, ']' :: _) => some (inside.length + 3)
      | _ => none
    else none
  | _ => none

theorem tagSize?_pos {cs : List Char} {n : Nat} (h : tagSize? cs = some n) : 0 < n := by
  unfold tagSize? at h
  split at h
  · split at h
    · split at h
      · cases h
        omega
      · cases h
    · cases h
  · cases h

/-- The text with its tags escaped; some backslashes have just been read. -/
def escapeTags (backslashes : Nat) (cs : List Char) : List Char :=
  match cs with
  | [] => List.replicate backslashes '\\'
  | c :: rest =>
    if c = '\\' then escapeTags (backslashes + 1) rest
    else match _h : tagSize? (c :: rest) with
      | some size =>
        List.replicate (2 * backslashes + 1) '\\' ++ (c :: rest).take size ++
          escapeTags 0 ((c :: rest).drop size)
      | none => List.replicate backslashes '\\' ++ c :: escapeTags 0 rest
termination_by cs.length
decreasing_by
  · simp
  · have := tagSize?_pos _h
    simp
    omega
  · simp

/-- The text with one more backslash if it ends with exactly one. -/
def closeBackslash (cs : List Char) : List Char :=
  match cs.reverse with
  | ['\\'] => cs ++ ['\\']
  | '\\' :: c :: _ => if c = '\\' then cs else cs ++ ['\\']
  | _ => cs

/-- The markup that is shown as a text. -/
def escapeMarkup (s : String) : String :=
  String.ofList (closeBackslash (escapeTags 0 s.toList))

end PanelExport
