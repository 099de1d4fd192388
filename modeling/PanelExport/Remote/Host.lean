import PanelExport.Numeral

/-!
# Hosts

The host of an address is a name, or a number in one of two notations: four decimal parts between
points, or up to eight hexadecimal parts between colons, where one run of zeros may be left out.
-/

namespace PanelExport.Host

/-- One of four decimal parts: up to 255, without a zero in front. -/
def isOctet (part : List Char) : Bool :=
  !part.isEmpty && part.all Char.isDigit && part.length ≤ 3 &&
    (part.length = 1 || part.head? ≠ some '0') && ofDigits 10 (part.filterMap hexValue?) ≤ 255

/-- A number in four decimal parts. -/
def isQuad (text : List Char) : Bool :=
  let parts := text.splitOn '.'
  parts.length = 4 && parts.all isOctet

/-- A text looks like runs of digits with one character in each break between two of them. -/
def looksQuad (breaks : Nat) (inRun : Bool) : List Char → Bool
  | [] => inRun && breaks = 0
  | c :: cs =>
    (c.isDigit && looksQuad breaks true cs) ||
      (inRun && breaks ≠ 0 && looksQuad (breaks - 1) false cs)

/-- One of eight hexadecimal parts. -/
def isHextet (part : List Char) : Bool :=
  !part.isEmpty && part.length ≤ 4 && part.all fun c => (hexValue? c).isSome

/-- The parts between colons with four decimal parts at the end as the two that they stand for. -/
def groupParts? (parts : List (List Char)) : Option (List (List Char)) :=
  match parts.getLast? with
  | none => none
  | some last =>
    if !last.contains '.' then some parts
    else if isQuad last then some (parts.dropLast ++ [['0'], ['0']])
    else none

/-- The parts on one side of a gap in the zeros, the outermost one given. An empty one belongs to
the gap and stands alone. -/
def isSide (outer? : Option (List Char)) (parts : List (List Char)) : Bool :=
  if outer? = some [] then parts.length = 1 else parts.all isHextet

/-- A number in up to eight hexadecimal parts, without its zone. -/
def isPlainGroups (text : List Char) : Bool :=
  let written := text.splitOn ':'
  match groupParts? written with
  | none => false
  | some parts =>
    let inner := (parts.drop 1).dropLast
    match inner.count [] with
    | 0 => parts.length = 8 && parts.all isHextet
    | 1 =>
      let before := parts.take (1 + inner.idxOf [])
      let after := parts.drop (2 + inner.idxOf [])
      3 ≤ written.length && isSide before.head? before && isSide after.getLast? after &&
        (before ++ after).countP (· ≠ []) ≤ 7
    | _ => false

/-- A number in up to eight hexadecimal parts; a zone may follow it. -/
def isGroups (text : List Char) : Bool :=
  !text.contains '/' &&
    match text.splitOn '%' with
    | [number] => isPlainGroups number
    | [number, zone] => !zone.isEmpty && isPlainGroups number
    | _ => false

end PanelExport.Host
