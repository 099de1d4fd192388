import PanelExport.Proofs.Numeral
import PanelExport.Proofs.Text.Utf8
import PanelExport.Text.Percent

/-!
# Percent encoding read back

A byte is written as a percent sign and two digits, and no percent sign stands for itself. So what
was written is read back as the bytes of the text, and those as the text.

* `percentBytes_percentQuoted`: what is written is read back.
* `percentEncoded_injective`: different texts are written differently.
* `isSegment_percentEncoded`: what a segment is made of.
-/

namespace PanelExport

/-! ## Bytes -/

/-- A digit of a byte that is written as two of them. -/
def upperDigit (n : Nat) : Char :=
  (Nat.digitChar n).toUpper

/-- A byte is spelled with its two digits. -/
theorem percentByte_eq (b : UInt8) :
    percentByte b = ['%', upperDigit (b.toNat / 16), upperDigit (b.toNat % 16)] := by
  have hall : ∀ n : Fin 256, (hexPadded 2 n).map Char.toUpper =
      [upperDigit (n.val / 16), upperDigit (n.val % 16)] := by
    decide +kernel
  rw [percentByte, hall ⟨b.toNat, b.toNat_lt⟩]

theorem hexValue?_upperDigit {n : Nat} (h : n < 16) : hexValue? (upperDigit n) = some n := by
  have hall : ∀ n : Fin 16, hexValue? (upperDigit n.val) = some n.val := by decide
  exact hall ⟨n, h⟩

/-- A byte that is spelled is read as the byte. -/
theorem percentBytes_percentByte (b : UInt8) (cs : List Char) :
    percentBytes (percentByte b ++ cs) = b :: percentBytes cs := by
  have hvalue : 16 * (b.toNat / 16) + b.toNat % 16 = b.toNat := Nat.div_add_mod _ _
  rw [percentByte_eq, List.cons_append, List.cons_append, List.cons_append, List.nil_append,
    percentBytes, hexValue?_upperDigit (Nat.div_lt_of_lt_mul b.toNat_lt),
    hexValue?_upperDigit (Nat.mod_lt _ (by decide))]
  simp only [hvalue, UInt8.ofNat_toNat]

theorem percentBytes_flatMap (bs : List UInt8) (cs : List Char) :
    percentBytes (bs.flatMap percentByte ++ cs) = bs ++ percentBytes cs := by
  induction bs with
  | nil => rfl
  | cons b bs ih =>
    rw [List.flatMap_cons, List.append_assoc, percentBytes_percentByte, ih, List.cons_append]

/-- A character that is spelled plainly is read as its bytes. -/
theorem percentBytes_cons {c : Char} (h : c ≠ '%') (cs : List Char) :
    percentBytes (c :: cs) = String.utf8EncodeChar c ++ percentBytes cs := by
  rw [percentBytes]
  rintro _ _ _ rfl
  exact absurd rfl h

/-! ## Texts -/

/-- Where no percent sign stands for itself, the bytes of a text are read back. -/
theorem percentBytes_percentQuoted {isPlain : Char → Bool} (h : isPlain '%' = false) (s : String) :
    percentBytes (percentQuoted isPlain s).toList = Utf8.bytesOf s.toList := by
  rw [percentQuoted, String.toList_ofList]
  induction s.toList with
  | nil => exact percentBytes_nil
  | cons c cs ih =>
    rw [List.flatMap_cons, Utf8.bytesOf_cons, ← ih, percentChar]
    split
    · rename_i hplain
      have hc : c ≠ '%' := by
        rintro rfl
        rw [h] at hplain
        cases hplain
      exact percentBytes_cons hc _
    · exact percentBytes_flatMap _ _

/-- What is encoded is decoded as it was. -/
theorem read_percentBytes (s : String) :
    Utf8.read (percentBytes (percentEncoded s).toList) = .ok s.toList :=
  Utf8.read_eq_ok_iff.2 (percentBytes_percentQuoted (by decide) s)

/-- Different texts are encoded differently. -/
theorem percentEncoded_injective {s t : String} (h : percentEncoded s = percentEncoded t) :
    s = t := by
  have hread := read_percentBytes s
  rw [h, read_percentBytes t] at hread
  exact String.toList_inj.1 (Except.ok.inj hread).symm

/-! ## Segments -/

/-- Characters that stand for themselves, and bytes by number. -/
inductive IsSegment : List Char → Prop where
  | nil : IsSegment []
  | plain {c : Char} {cs : List Char} (unreserved : isUnreserved c = true) (rest : IsSegment cs) :
      IsSegment (c :: cs)
  | byte {a b : Char} {cs : List Char} (high : (hexValue? a).isSome = true)
      (low : (hexValue? b).isSome = true) (rest : IsSegment cs) : IsSegment ('%' :: a :: b :: cs)

/-- Segments put together are a segment. -/
theorem IsSegment.append {cs ds : List Char} (hc : IsSegment cs) (hd : IsSegment ds) :
    IsSegment (cs ++ ds) := by
  induction hc with
  | nil => exact hd
  | plain unreserved _ ih => exact .plain unreserved ih
  | byte high low _ ih => exact .byte high low ih

theorem isSegment_flatMap (bs : List UInt8) : IsSegment (bs.flatMap percentByte) := by
  induction bs with
  | nil => exact .nil
  | cons b bs ih =>
    rw [List.flatMap_cons, percentByte_eq]
    refine .byte ?_ ?_ ih
    · rw [hexValue?_upperDigit (Nat.div_lt_of_lt_mul b.toNat_lt)]
      rfl
    · rw [hexValue?_upperDigit (Nat.mod_lt _ (by decide))]
      rfl

/-- An encoded text is one segment. -/
theorem isSegment_percentEncoded (s : String) : IsSegment (percentEncoded s).toList := by
  rw [percentEncoded, percentQuoted, String.toList_ofList]
  induction s.toList with
  | nil => exact .nil
  | cons c cs ih =>
    rw [List.flatMap_cons]
    refine IsSegment.append ?_ ih
    rw [percentChar]
    split
    · rename_i hplain
      exact .plain hplain .nil
    · exact isSegment_flatMap _

/-- The characters of a segment. -/
def isSegmentChar (c : Char) : Bool :=
  isUnreserved c || c == '%'

theorem isUnreserved_of_hexValue? {c : Char} (h : (hexValue? c).isSome = true) :
    isUnreserved c = true := by
  simp [isUnreserved, isAlphanum_of_hexValue? h]

theorem IsSegment.mem {cs : List Char} (h : IsSegment cs) {c : Char} (hc : c ∈ cs) :
    isSegmentChar c = true := by
  have hplain : ∀ {c}, isUnreserved c = true → isSegmentChar c = true := fun h => by
    simp [isSegmentChar, h]
  induction h with
  | nil => cases hc
  | plain unreserved _ ih =>
    rcases List.mem_cons.1 hc with rfl | hc
    · exact hplain unreserved
    · exact ih hc
  | byte high low _ ih =>
    simp only [List.mem_cons] at hc
    rcases hc with rfl | rfl | rfl | hc
    · decide
    · exact hplain (isUnreserved_of_hexValue? high)
    · exact hplain (isUnreserved_of_hexValue? low)
    · exact ih hc

end PanelExport
