import PanelExport.Text.Wording

/-!
# Text from bytes

Bytes are read as UTF-8, one character after another. Bytes that start no character make a fault,
which covers the bytes up to the first one that cannot follow; after it reading goes on.

Where the units of a text have sixteen bits, a character beyond the basic ones takes two of them: a
high half and a low half. A half that stands alone is no character and no text holds it, so the
replacement character stands in for it. What is said about the value of a text that is read leaves
out the texts that are spelled with such a half.

* `isHighHalf_disjoint`: no number is both halves.
* `Utf8.readFrom_nil`: no bytes are no characters.
* `Utf8.readFrom_ascii`: a byte below 128 is the character with its number.
-/

namespace PanelExport

/-! ## Halves of characters -/

/-- The number is the first half of a character. -/
def isHighHalf (n : Nat) : Bool := 0xD800 ≤ n && n < 0xDC00

/-- The number is the second half of a character. -/
def isLowHalf (n : Nat) : Bool := 0xDC00 ≤ n && n < 0xE000

/-- The number is a half of a character. -/
def isHalf (n : Nat) : Bool := isHighHalf n || isLowHalf n

/-- The number of the character that two halves stand for. -/
def joinedNumber (high low : Nat) : Nat :=
  0x10000 + (high - 0xD800) * 0x400 + (low - 0xDC00)

/-- The character that two halves stand for. -/
def joinHalves (high low : Nat) : Char :=
  Char.ofNat (joinedNumber high low)

/-- The character with this number; for a half on its own the replacement character stands in. -/
def unitChar (n : Nat) : Char :=
  if isHalf n then Char.ofNat 0xFFFD else Char.ofNat n

theorem isHighHalf_disjoint {n : Nat} (h : isHighHalf n = true) : isLowHalf n = false := by
  simp only [isHighHalf, isLowHalf, Bool.and_eq_true, decide_eq_true_eq, Bool.and_eq_false_iff,
    decide_eq_false_iff_not] at *
  omega

/-! ## Characters -/

/-- Why bytes are no character. -/
inductive Utf8Cause where
  | start
  | continuation
  | cutShort
  deriving DecidableEq

/-- The wording of a cause. -/
def Utf8Cause.message : Utf8Cause → String
  | .start => "invalid start byte"
  | .continuation => "invalid continuation byte"
  | .cutShort => "unexpected end of data"

/-- Some bytes that are no character: where they start, the first of them, and how many follow. -/
structure Utf8Fault where
  pos : Nat
  first : UInt8
  more : Nat
  cause : Utf8Cause
  deriving DecidableEq

/-- Where bytes stand that cannot be decoded: from a position on, the first of them, and how many
follow. -/
def undecodedPlace (pos : Nat) (first : UInt8) (more : Nat) : String :=
  if more = 0 then
    "byte 0x" ++ String.ofList (hexPadded 2 first.toNat) ++ " in position " ++ toString pos
  else "bytes in position " ++ toString pos ++ "-" ++ toString (pos + more)

/-- The wording of a fault. -/
def Utf8Fault.message (f : Utf8Fault) : String :=
  "'utf-8' codec can't decode " ++ undecodedPlace f.pos f.first f.more ++ ": " ++ f.cause.message

namespace Utf8

/-- What a first byte says about its character: the highest bits, how many bytes follow, and the
bounds of the next one. -/
structure Lead where
  bits : Nat
  tails : Nat
  low : Nat
  high : Nat

/-- The lead that a byte is. Bounds keep out longer spellings than needed, surrogates, and numbers
above the last character. -/
def lead? (b : Nat) : Option Lead :=
  if b < 0x80 then some ⟨b, 0, 0x80, 0xBF⟩
  else if b < 0xC2 then none
  else if b < 0xE0 then some ⟨b - 0xC0, 1, 0x80, 0xBF⟩
  else if b < 0xF0 then
    some ⟨b - 0xE0, 2, if b = 0xE0 then 0xA0 else 0x80, if b = 0xED then 0x9F else 0xBF⟩
  else if b < 0xF5 then
    some ⟨b - 0xF0, 3, if b = 0xF0 then 0x90 else 0x80, if b = 0xF4 then 0x8F else 0xBF⟩
  else none

/-- The bytes after a lead: how many were read, and the number of the character or the cause that
there is none. -/
def readTails (code low high : Nat) : Nat → List UInt8 → Nat × Except Utf8Cause Nat
  | 0, _ => (0, .ok code)
  | _ + 1, [] => (0, .error .cutShort)
  | tails + 1, b :: bs =>
    if low ≤ b.toNat ∧ b.toNat ≤ high then
      let (used, result) := readTails (code * 64 + (b.toNat - 0x80)) 0x80 0xBF tails bs
      (used + 1, result)
    else (0, .error .continuation)

/-- What the first byte and those after it are, and how many of those belong to it. -/
def readChar (pos : Nat) (b : UInt8) (bs : List UInt8) : Nat × Except Utf8Fault Char :=
  match lead? b.toNat with
  | none => (0, .error ⟨pos, b, 0, .start⟩)
  | some lead =>
    let (used, result) := readTails lead.bits lead.low lead.high lead.tails bs
    (used, match result with
      | .ok code => .ok (Char.ofNat code)
      | .error cause => .error ⟨pos, b, used, cause⟩)

/-- The characters and faults of some bytes that start at a position. -/
def readFrom (pos : Nat) : List UInt8 → List (Except Utf8Fault Char)
  | [] => []
  | b :: bs =>
    let (used, item) := readChar pos b bs
    item :: readFrom (pos + 1 + used) (bs.drop used)
  termination_by bs => bs.length
  decreasing_by simp only [List.length_drop, List.length_cons]; omega

theorem readFrom_nil (pos : Nat) : readFrom pos [] = [] := by
  simp [readFrom]

theorem readFrom_ascii (pos : Nat) {b : UInt8} (h : b.toNat < 0x80) (bs : List UInt8) :
    readFrom pos (b :: bs) = .ok (Char.ofNat b.toNat) :: readFrom (pos + 1) bs := by
  rw [readFrom]
  simp [readChar, lead?, h, readTails]

/-- The characters of some bytes, or the first fault. -/
def read (bytes : List UInt8) : Except Utf8Fault (List Char) :=
  (readFrom 0 bytes).mapM id

/-- The text of some bytes with each fault replaced by one character. -/
def lossy (bytes : List UInt8) : String :=
  String.ofList ((readFrom 0 bytes).map fun item => item.toOption.getD '\uFFFD')

end Utf8

end PanelExport
