import PanelExport.Numeral
import PanelExport.Text.CharClass

/-!
# Numerals

How numbers are written and read back. The readers take the digits of any script; the writers use
the ASCII ones, whose values are known.

* `spanDigits_append`: digits are read up to the first character that is none.
* `ofDigits_toDigits`: the digits of a whole number have it as their value.
* `DecimalNumeral.readDecimal?_chars`: a decimal numeral is read as what it says.
-/

namespace PanelExport

/-! ## Digits -/

theorem digitValue?_of_isDigit {c : Char} (h : c.isDigit = true) :
    digitValue? c = some (c.toNat - 48) := by
  simp only [Char.isDigit, Bool.and_eq_true, decide_eq_true_eq, ge_iff_le,
    UInt32.le_iff_toNat_le] at h
  exact digitValue?_ascii c h.1 (Nat.lt_succ_of_le h.2)

theorem isDecimalDigit_of_isDigit {c : Char} (h : c.isDigit = true) : isDecimalDigit c = true := by
  simp [isDecimalDigit, digitValue?_of_isDigit h]

/-- The letters and digits of ASCII, by number. -/
theorem isAlphanum_iff {c : Char} : c.isAlphanum = true ↔
    ((65 ≤ c.toNat ∧ c.toNat ≤ 90) ∨ 97 ≤ c.toNat ∧ c.toNat ≤ 122) ∨
      48 ≤ c.toNat ∧ c.toNat ≤ 57 := by
  unfold Char.isAlphanum Char.isAlpha Char.isUpper Char.isLower Char.isDigit
  simp only [Bool.or_eq_true, Bool.and_eq_true, decide_eq_true_eq, ge_iff_le,
    UInt32.le_iff_toNat_le]
  exact Iff.rfl

theorem isAlphanum_of_isDigit {c : Char} (h : c.isDigit = true) : c.isAlphanum = true := by
  simp [Char.isAlphanum, h]

theorem isAlphanum_of_hexValue? {c : Char} (h : (hexValue? c).isSome = true) :
    c.isAlphanum = true := by
  simp only [hexValue?, Char.le_def, UInt32.le_iff_toNat_le] at h
  rw [isAlphanum_iff]
  split at h
  · rename_i hdigit
    exact .inr hdigit
  · split at h
    · rename_i hlower
      exact .inl (.inr ⟨hlower.1, Nat.le_trans hlower.2 (by decide)⟩)
    · split at h
      · rename_i hupper
        exact .inl (.inl ⟨hupper.1, Nat.le_trans hupper.2 (by decide)⟩)
      · cases h

/-- In a run without a change all characters are in a class, or none is. -/
theorem CharClass.contains_run {k : CharClass} {c : Char} {low high : Nat}
    (h : ∀ change ∈ k.changes, change ≤ low ∨ high ≤ change) (hlow : low ≤ c.toNat)
    (hhigh : c.toNat < high) :
    k.contains c = ((k.changes.takeWhile (· ≤ low)).length % 2 == 1) := by
  obtain ⟨changes⟩ := k
  have hsame : changes.takeWhile (· ≤ c.toNat) = changes.takeWhile (· ≤ low) := by
    induction changes with
    | nil => rfl
    | cons change changes ih =>
      obtain ⟨hchange, hchanges⟩ := List.forall_mem_cons.1 h
      have hiff : change ≤ c.toNat ↔ change ≤ low := by omega
      simp only [List.takeWhile_cons, hiff, ih hchanges]
  rw [CharClass.contains, hsame]

theorem isBlank_of_isDecimalDigit {c : Char} (h : isDecimalDigit c = true) : isBlank c = false := by
  obtain ⟨d, hd⟩ := Option.isSome_iff_exists.1 h
  obtain ⟨z, hz, -⟩ := Option.map_eq_some_iff.1 hd
  have hrange : z ≤ c.toNat ∧ c.toNat < z + 10 := by simpa using List.find?_some hz
  have hall : ∀ z ∈ decimalZeros, (∀ change ∈ blankChars.changes, change ≤ z ∨ z + 10 ≤ change) ∧
      ((blankChars.changes.takeWhile (· ≤ z)).length % 2 == 1) = false := by
    decide +kernel
  obtain ⟨hchanges, heven⟩ := hall z (List.mem_of_find?_eq_some hz)
  rw [isBlank, CharClass.contains_run hchanges hrange.1 hrange.2, heven]

/-- The values of ASCII digits. -/
def digitValues (ds : List Char) : List Nat :=
  ds.map fun c => c.toNat - 48

theorem ofDigits_digitValues (ds : List Char) :
    ofDigits 10 (digitValues ds) = Nat.ofDigitChars 10 ds 0 := by
  simp [ofDigits, digitValues, Nat.ofDigitChars_eq_foldl, List.foldl_map]

/-- The digits of a whole number have it as their value. -/
theorem ofDigits_toDigits (n : Nat) : ofDigits 10 (digitValues (Nat.toDigits 10 n)) = n := by
  rw [ofDigits_digitValues, Nat.ofDigitChars_ten_toDigits]

/-- A whole number is written as digits, perhaps behind a minus. -/
theorem eq_minus_or_isDigit_of_mem_toString {n : Int} {c : Char} (h : c ∈ (toString n).toList) :
    c = '-' ∨ c.isDigit = true := by
  have hdigits : ∀ {n}, c ∈ (Nat.repr n).toList → c.isDigit = true := by
    intro n hc
    rw [Nat.toList_repr] at hc
    exact Nat.isDigit_of_mem_toDigits (by decide) (by decide) hc
  cases n with
  | ofNat n => exact .inr (hdigits h)
  | negSucc n =>
    change c ∈ ("-" ++ Nat.repr (n + 1)).toList at h
    rw [String.toList_append, List.mem_append] at h
    exact h.imp List.mem_singleton.1 hdigits

/-- Nothing follows that would go on with a run of digits. -/
def EndsDigits (rest : List Char) : Prop :=
  ∀ c ∈ rest.head?, isDecimalDigit c = false

/-- A digit of any script is no sign. -/
theorem spanSign_of_isDecimalDigit {c : Char} (h : isDecimalDigit c = true) (cs : List Char) :
    spanSign (c :: cs) = (false, c :: cs) := by
  unfold spanSign
  split
  · rename_i heq
    rw [(List.cons.inj heq).1] at h
    cases h
  · rename_i heq
    rw [(List.cons.inj heq).1] at h
    cases h
  · rfl

section

variable {ds rest : List Char} (hds : ∀ c ∈ ds, c.isDigit = true)

include hds

theorem filterMap_digitValue? : ds.filterMap digitValue? = digitValues ds := by
  induction ds with
  | nil => rfl
  | cons c ds ih =>
    obtain ⟨hc, hds⟩ := List.forall_mem_cons.1 hds
    rw [List.filterMap_cons, digitValue?_of_isDigit hc, ih hds]
    rfl

theorem takeWhile_digits (hr : EndsDigits rest) :
    (ds ++ rest).takeWhile isDecimalDigit = ds := by
  rw [List.takeWhile_append_of_pos fun c hc => isDecimalDigit_of_isDigit (hds c hc)]
  cases rest with
  | nil => simp
  | cons c rest => simp [hr c rfl]

theorem dropWhile_digits (hr : EndsDigits rest) :
    (ds ++ rest).dropWhile isDecimalDigit = rest := by
  rw [List.dropWhile_append_of_pos fun c hc => isDecimalDigit_of_isDigit (hds c hc)]
  cases rest with
  | nil => rfl
  | cons c rest => simp [hr c rfl]

theorem runLength_digits (hr : EndsDigits rest) :
    runLength isDecimalDigit (ds ++ rest) = ds.length := by
  rw [runLength, takeWhile_digits hds hr]

/-- Digits are read up to the first character that is none. -/
theorem spanDigits_append (hr : EndsDigits rest) :
    spanDigits (ds ++ rest) = (digitValues ds, rest) := by
  rw [spanDigits, takeWhile_digits hds hr, dropWhile_digits hds hr, filterMap_digitValue? hds]

/-- There is no sign in front of digits. -/
theorem spanSign_digits (hne : ds ≠ []) (rest : List Char) :
    spanSign (ds ++ rest) = (false, ds ++ rest) := by
  cases ds with
  | nil => exact absurd rfl hne
  | cons c ds =>
    exact spanSign_of_isDecimalDigit (isDecimalDigit_of_isDigit (hds c (List.mem_cons_self ..))) _

end

theorem endsDigits_nil : EndsDigits [] := nofun

theorem endsDigits_cons {c : Char} {cs : List Char} (h : isDecimalDigit c = false) :
    EndsDigits (c :: cs) := by
  simpa [EndsDigits] using h

/-! ## Decimal numerals -/

/-- Digits, perhaps a point and more digits, and perhaps a power of ten with its sign. -/
structure DecimalNumeral where
  whole : List Char
  fraction : List Char
  power? : Option (Bool × List Char)

namespace DecimalNumeral

/-- The characters of a power of ten. -/
def powerChars : Option (Bool × List Char) → List Char
  | none => []
  | some (negative, ds) => 'e' :: (if negative then '-' else '+') :: ds

/-- The characters of a fraction. -/
def fractionChars (fraction : List Char) : List Char :=
  if fraction.isEmpty then [] else '.' :: fraction

/-- The characters of a numeral. -/
def chars (n : DecimalNumeral) : List Char :=
  n.whole ++ fractionChars n.fraction ++ powerChars n.power?

/-- A numeral of ASCII digits, with digits wherever it needs some. -/
structure IsProper (n : DecimalNumeral) : Prop where
  whole_ne_nil : n.whole ≠ []
  whole : ∀ c ∈ n.whole, c.isDigit = true
  fraction : ∀ c ∈ n.fraction, c.isDigit = true
  power : ∀ p ∈ n.power?, p.2 ≠ [] ∧ ∀ c ∈ p.2, c.isDigit = true

/-- The digits of a numeral without its point, as a whole number. -/
def digits (n : DecimalNumeral) : Nat :=
  Nat.ofDigitChars 10 (n.whole ++ n.fraction) 0

/-- The power of ten that a numeral says. -/
def power : Option (Bool × List Char) → Int
  | none => 0
  | some (negative, ds) =>
    if negative then -(Nat.ofDigitChars 10 ds 0 : Int) else Nat.ofDigitChars 10 ds 0

/-- The power of ten by which the digits are multiplied. -/
def exponent (n : DecimalNumeral) : Int :=
  power n.power? - n.fraction.length

/-- A numeral is digits, with points, signs and an `e` among them. -/
theorem mem_chars {n : DecimalNumeral} (h : n.IsProper) {c : Char} (hc : c ∈ n.chars) :
    c.isDigit = true ∨ c ∈ ['.', 'e', '+', '-'] := by
  rw [chars, List.mem_append, List.mem_append] at hc
  rcases hc with (hc | hc) | hc
  · exact .inl (h.whole c hc)
  · unfold fractionChars at hc
    split at hc
    · cases hc
    · rcases List.mem_cons.1 hc with rfl | hc
      · exact .inr (by decide)
      · exact .inl (h.fraction c hc)
  · cases hp : n.power? with
    | none => simp [hp, powerChars] at hc
    | some p =>
      rw [hp, powerChars, List.mem_cons, List.mem_cons] at hc
      rcases hc with rfl | rfl | hc
      · exact .inr (by decide)
      · exact .inr (by split <;> decide)
      · exact .inl ((h.power p hp).2 c hc)

theorem readPower?_chars {power? : Option (Bool × List Char)}
    (h : ∀ p ∈ power?, p.2 ≠ [] ∧ ∀ c ∈ p.2, c.isDigit = true) :
    readPower? (powerChars power?) = some (power power?) := by
  cases power? with
  | none => rfl
  | some p =>
    obtain ⟨negative, ds⟩ := p
    obtain ⟨hne, hds⟩ := h _ rfl
    have hspan := spanDigits_append hds endsDigits_nil
    rw [List.append_nil] at hspan
    cases ds with
    | nil => exact absurd rfl hne
    | cons d ds =>
      have hvalues : digitValues (d :: ds) = (d.toNat - 48) :: digitValues ds := rfl
      cases negative <;>
        simp [powerChars, readPower?, spanSign, hspan, hvalues, power, ← ofDigits_digitValues]

theorem endsDigits_powerChars (power? : Option (Bool × List Char)) :
    EndsDigits (powerChars power?) := by
  cases power? with
  | none => exact endsDigits_nil
  | some p => exact endsDigits_cons (by decide)

/-- The digits of the whole part end in front of a point, of a power or of nothing. -/
theorem endsDigits_fractionChars (fraction : List Char) (power? : Option (Bool × List Char)) :
    EndsDigits (fractionChars fraction ++ powerChars power?) := by
  cases fraction with
  | nil => exact endsDigits_powerChars power?
  | cons => exact endsDigits_cons (by decide)

/-- A decimal numeral is read as what it says. -/
theorem readDecimal?_chars {n : DecimalNumeral} (h : n.IsProper) :
    readDecimal? n.chars = some (Double.ofDecimal false n.digits n.exponent) := by
  obtain ⟨whole, fraction, power?⟩ := n
  obtain ⟨hne, hwhole, hfraction, hpower⟩ := h
  simp only at hne hwhole hfraction hpower
  have hsign : spanSign (whole ++ fractionChars fraction ++ powerChars power?) =
      (false, whole ++ (fractionChars fraction ++ powerChars power?)) := by
    rw [List.append_assoc, spanSign_digits hwhole hne]
  have hvalues : (digitValues whole).isEmpty = false := by
    simpa [digitValues] using hne
  have hends := endsDigits_fractionChars fraction power?
  have hdigits : ofDigits 10 (digitValues whole ++ digitValues fraction) =
      Nat.ofDigitChars 10 (whole ++ fraction) 0 := by
    rw [← ofDigits_digitValues, digitValues, digitValues, digitValues, List.map_append]
  have hpower := readPower?_chars hpower
  simp only [readDecimal?, chars, hsign, spanDigits_append hwhole hends]
  cases fraction with
  | nil =>
    have hnil : fractionChars [] ++ powerChars power? = powerChars power? := rfl
    rw [hnil]
    cases power? with
    | none => simp [powerChars, hvalues, readPower?, digits, exponent, power, ofDigits_digitValues]
    | some p =>
      simp only [powerChars] at hpower ⊢
      simp [hvalues, hpower, digits, exponent, ofDigits_digitValues]
  | cons d fraction =>
    have hcons : fractionChars (d :: fraction) ++ powerChars power? =
        '.' :: (d :: fraction ++ powerChars power?) := rfl
    rw [hcons]
    simp only [spanDigits_append hfraction (endsDigits_powerChars power?), hvalues, hpower,
      hdigits, Bool.false_and, Bool.false_eq_true, if_false, Option.map_some]
    simp only [digits, exponent, digitValues, List.length_map]

end DecimalNumeral

end PanelExport
