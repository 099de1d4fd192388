import PanelExport.Text.Utf8

/-!
# Encoded documents

The bytes of a document say themselves how they encode its text: by a mark in front, or else by
where zeros stand among the first bytes, since a document starts with basic characters. A half of a
character that stands alone is no fault.

* `Encoded.units2_length`: every two bytes make one unit.
-/

namespace PanelExport

/-- Which byte of a unit comes first. -/
inductive ByteOrder where
  | little
  | big
  deriving DecidableEq

/-- How bytes encode a text. -/
inductive Encoding where
  | utf8
  /-- In units of two bytes. -/
  | utf16 (order : ByteOrder)
  /-- In units of four bytes. -/
  | utf32 (order : ByteOrder)
  deriving DecidableEq

namespace Encoding

/-- The encoding that a mark in front names, and the length of the mark. -/
def marked? : List UInt8 → Option (Encoding × Nat)
  | 0x00 :: 0x00 :: 0xFE :: 0xFF :: _ => some (.utf32 .big, 4)
  | 0xFF :: 0xFE :: 0x00 :: 0x00 :: _ => some (.utf32 .little, 4)
  | 0xFE :: 0xFF :: _ => some (.utf16 .big, 2)
  | 0xFF :: 0xFE :: _ => some (.utf16 .little, 2)
  | 0xEF :: 0xBB :: 0xBF :: _ => some (.utf8, 3)
  | _ => none

/-- The encoding that the zeros among the first bytes show. -/
def shown : List UInt8 → Encoding
  | [a, b] => if a = 0 then .utf16 .big else if b = 0 then .utf16 .little else .utf8
  | a :: b :: c :: d :: _ =>
    if a = 0 then if b = 0 then .utf32 .big else .utf16 .big
    else if b = 0 then if c = 0 ∧ d = 0 then .utf32 .little else .utf16 .little
    else .utf8
  | _ => .utf8

/-- The encoding of some bytes, and the length of the mark in front of them. -/
def ofBytes (bytes : List UInt8) : Encoding × Nat :=
  (marked? bytes).getD (shown bytes, 0)

/-- The name of an encoding. -/
def name : Encoding → String
  | .utf8 => "utf-8"
  | .utf16 .little => "utf-16-le"
  | .utf16 .big => "utf-16-be"
  | .utf32 .little => "utf-32-le"
  | .utf32 .big => "utf-32-be"

end Encoding

/-- Why units are no text. -/
inductive UnitCause where
  /-- The last unit is not complete. -/
  | truncated
  /-- A number is past that of the last character. -/
  | range
  deriving DecidableEq

/-- The wording of a cause. -/
def UnitCause.message : UnitCause → String
  | .truncated => "truncated data"
  | .range => "code point not in range(0x110000)"

/-- Why bytes are no text. -/
inductive EncodingFault where
  | utf8 (fault : Utf8Fault)
  /-- A unit from a position on, with its first byte and how many follow. -/
  | unit (encoding : Encoding) (pos : Nat) (first : UInt8) (more : Nat) (cause : UnitCause)
  deriving DecidableEq

/-- The wording of a fault. -/
def EncodingFault.message : EncodingFault → String
  | .utf8 fault => fault.message
  | .unit encoding pos first more cause =>
    "'" ++ encoding.name ++ "' codec can't decode " ++ undecodedPlace pos first more ++ ": " ++
      cause.message

namespace Encoded

/-- The number that the bytes of a unit make. -/
def numberOf (order : ByteOrder) (bytes : List UInt8) : Nat :=
  let ordered := match order with
    | .little => bytes.reverse
    | .big => bytes
  ordered.foldl (fun n b => n * 256 + b.toNat) 0

/-- The units of two bytes, and what is left behind them. -/
def units2 (order : ByteOrder) : List UInt8 → List Nat × List UInt8
  | a :: b :: bytes =>
    let (units, left) := units2 order bytes
    (numberOf order [a, b] :: units, left)
  | left => ([], left)

theorem units2_length (order : ByteOrder) (bytes : List UInt8) :
    2 * (units2 order bytes).1.length + (units2 order bytes).2.length = bytes.length := by
  fun_induction units2 order bytes with
  | case1 a b bytes units left h ih =>
    simp only [h, List.length_cons] at ih ⊢
    omega
  | case2 => simp

/-- The numbers of the characters that units of two bytes stand for; halves that stand alone are
left as they are. -/
def joinUnits : List Nat → List Nat
  | [] => []
  | [n] => [n]
  | high :: low :: units =>
    if isHighHalf high && isLowHalf low then joinedNumber high low :: joinUnits units
    else high :: joinUnits (low :: units)

/-- The numbers of the characters in units of two bytes that start at a position. -/
def numbers2 (order : ByteOrder) (pos : Nat) (bytes : List UInt8) :
    Except EncodingFault (List Nat) :=
  match units2 order bytes with
  | (units, []) => .ok (joinUnits units)
  | (units, b :: left) =>
    .error (.unit (.utf16 order) (pos + 2 * units.length) b left.length .truncated)

/-- The numbers of the characters in units of four bytes that start at a position. -/
def numbers4 (order : ByteOrder) (pos : Nat) : List UInt8 → Except EncodingFault (List Nat)
  | [] => .ok []
  | a :: b :: c :: d :: bytes =>
    let n := numberOf order [a, b, c, d]
    if n < 0x110000 then return n :: (← numbers4 order (pos + 4) bytes)
    else .error (.unit (.utf32 order) pos a 3 .range)
  | a :: left => .error (.unit (.utf32 order) pos a left.length .truncated)

/-- The half of a character that three bytes spell the way UTF-8 spells characters. -/
def half? : UInt8 → List UInt8 → Option Nat
  | 0xED, b :: c :: _ =>
    if 0xA0 ≤ b ∧ b ≤ 0xBF ∧ 0x80 ≤ c ∧ c ≤ 0xBF then
      some (0xD000 + (b.toNat - 0x80) * 64 + (c.toNat - 0x80))
    else none
  | _, _ => none

/-- The numbers of the characters in bytes of UTF-8 that start at a position. Halves of characters
are let pass. -/
def numbers1 (pos : Nat) : List UInt8 → Except EncodingFault (List Nat)
  | [] => .ok []
  | b :: bs =>
    match half? b bs with
    | some n => do return n :: (← numbers1 (pos + 3) (bs.drop 2))
    | none =>
      let (used, item) := Utf8.readChar pos b bs
      do
        let c ← item.mapError .utf8
        return c.toNat :: (← numbers1 (pos + 1 + used) (bs.drop used))
termination_by bs => bs.length
decreasing_by all_goals (simp only [List.length_drop, List.length_cons]; omega)

/-- The numbers of the characters that some bytes encode. Positions in UTF-8 start behind the
mark. -/
def numbers (bytes : List UInt8) : Except EncodingFault (List Nat) :=
  let (encoding, mark) := Encoding.ofBytes bytes
  match encoding with
  | .utf8 => numbers1 0 (bytes.drop mark)
  | .utf16 order => numbers2 order mark (bytes.drop mark)
  | .utf32 order => numbers4 order mark (bytes.drop mark)

/-- The characters that some bytes encode. -/
def read (bytes : List UInt8) : Except EncodingFault (List Char) :=
  (numbers bytes).map (·.map unitChar)

end Encoded

end PanelExport
