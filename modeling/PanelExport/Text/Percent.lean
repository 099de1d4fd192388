import PanelExport.Numeral
import PanelExport.Text.Wording

/-!
# Percent encoding

Parts of addresses: some characters stand for themselves, every other one is written as its bytes.
In one segment of a path these are letters, digits and four marks.

* `percentChar_plain`: a plain character stands for itself.
* `percentBytes_nil`: the empty text is no bytes.
-/

namespace PanelExport

/-- A character that stands for itself in every part of an address. -/
def isUnreserved (c : Char) : Bool :=
  c.isAlphanum || ['_', '.', '-', '~'].contains c

/-- A byte by number. -/
def percentByte (b : UInt8) : List Char :=
  '%' :: (hexPadded 2 b.toNat).map Char.toUpper

/-- A character where those of a class stand for themselves. -/
def percentChar (isPlain : Char → Bool) (c : Char) : List Char :=
  if isPlain c then [c] else (String.utf8EncodeChar c).flatMap percentByte

/-- The text where the characters of a class stand for themselves. -/
def percentQuoted (isPlain : Char → Bool) (s : String) : String :=
  String.ofList (s.toList.flatMap (percentChar isPlain))

/-- The text as a segment. -/
def percentEncoded (s : String) : String := percentQuoted isUnreserved s

/-- The bytes that an encoded text stands for. -/
def percentBytes : List Char → List UInt8
  | [] => []
  | '%' :: a :: b :: cs =>
    match hexValue? a, hexValue? b with
    | some m, some n => UInt8.ofNat (16 * m + n) :: percentBytes cs
    | _, _ => 0x25 :: percentBytes (a :: b :: cs)
  | c :: cs => String.utf8EncodeChar c ++ percentBytes cs

theorem percentChar_plain {isPlain : Char → Bool} {c : Char} (h : isPlain c = true) :
    percentChar isPlain c = [c] := by
  simp [percentChar, h]

theorem percentBytes_nil : percentBytes [] = [] := by
  simp [percentBytes]

end PanelExport
