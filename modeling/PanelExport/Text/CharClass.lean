/-!
# Character classes

A class of characters is kept as the ascending list of code points at which membership changes,
starting from "outside". A character is in the class when an odd number of changes are at or below
its code point.

Two classes are used all over. Blank characters are the white space of every script, with the four
information separators; texts are trimmed of them, and asked whether they have anything else. Every
script with a decimal system has its ten digits in one run of code points, so a digit is known by
the zero of its run. Superscripts, circled and dotted digits are digits too, but they have no place
in a decimal number.

* `CharClass.contains_two`: a class with two changes is one run of code points.
* `isBlank_of_isWhitespace`: every character of the ASCII class is blank.
* `trimStart_eq_self`: a text that starts with a visible character has nothing to trim there.
* `mem_trimStart`, `isBlankText_trim`: no visible character is trimmed.
* `digitValue?_lt`: the value of a decimal digit is below ten.
* `digitValue?_ascii`: the ASCII digits have their own values.
-/

namespace PanelExport

/-- A set of characters, given by the code points at which membership changes. -/
structure CharClass where
  changes : List Nat

namespace CharClass

/-- A character is inside after an odd number of changes. -/
def contains (k : CharClass) (c : Char) : Bool :=
  (k.changes.takeWhile (· ≤ c.toNat)).length % 2 == 1

theorem contains_two (lo hi : Nat) (c : Char) :
    contains ⟨[lo, hi]⟩ c = (decide (lo ≤ c.toNat) && decide (c.toNat < hi)) := by
  by_cases h₁ : lo ≤ c.toNat
  · by_cases h₂ : hi ≤ c.toNat
    · simp [contains, List.takeWhile, h₁, h₂]
    · simp [contains, List.takeWhile, h₁, h₂]
      omega
  · simp [contains, List.takeWhile, h₁]

end CharClass

/-! ## Blank characters -/

/-- White space of every script. -/
def blankChars : CharClass := ⟨[
  9, 14, 28, 33, 133, 134, 160, 161, 5760, 5761, 8192, 8203, 8232, 8234, 8239, 8240, 8287, 8288,
  12288, 12289]⟩

/-- White space of any script. -/
def isBlank (c : Char) : Bool :=
  blankChars.contains c

/-- The text without the blank characters at its start. -/
def trimStart (cs : List Char) : List Char :=
  cs.dropWhile isBlank

/-- The text without the blank characters at both ends. -/
def trim (s : String) : String :=
  String.ofList (trimStart (trimStart s.toList).reverse).reverse

/-- A text of blank characters alone, or of none. -/
def isBlankText (s : String) : Bool :=
  s.toList.all isBlank

theorem isBlank_of_isWhitespace {c : Char} (h : c.isWhitespace) : isBlank c := by
  simp only [Char.isWhitespace, Bool.or_eq_true, decide_eq_true_eq] at h
  rcases h with ((rfl | rfl) | rfl) | rfl <;> decide

theorem trimStart_eq_self {c : Char} {cs : List Char} (h : isBlank c = false) :
    trimStart (c :: cs) = c :: cs := by
  simp [trimStart, h]

theorem mem_trimStart {c : Char} {cs : List Char} (hc : isBlank c = false) :
    c ∈ trimStart cs ↔ c ∈ cs := by
  constructor
  · exact fun h => (List.dropWhile_sublist _).subset h
  · intro h
    rw [← List.takeWhile_append_dropWhile (p := isBlank) (l := cs)] at h
    rcases List.mem_append.1 h with h | h
    · have hblank := List.all_eq_true.1 (List.all_takeWhile (l := cs)) c h
      simp [hc] at hblank
    · exact h

theorem isBlankText_eq_false_iff {s : String} :
    isBlankText s = false ↔ ∃ c ∈ s.toList, isBlank c = false := by
  simp [isBlankText]

theorem isBlankText_trim {s : String} (h : isBlankText s = false) :
    isBlankText (trim s) = false := by
  obtain ⟨c, hc, hvisible⟩ := isBlankText_eq_false_iff.1 h
  refine isBlankText_eq_false_iff.2 ⟨c, ?_, hvisible⟩
  simpa [trim, mem_trimStart hvisible] using hc

/-! ## Digits -/

/-- The zeros of the decimal systems. -/
def decimalZeros : List Nat := [
  48, 1632, 1776, 1984, 2406, 2534, 2662, 2790, 2918, 3046, 3174, 3302, 3430, 3558, 3664, 3792,
  3872, 4160, 4240, 6112, 6160, 6470, 6608, 6784, 6800, 6992, 7088, 7232, 7248, 42528, 43216,
  43264, 43472, 43504, 43600, 44016, 65296, 66720, 68912, 69734, 69872, 69942, 70096, 70384,
  70736, 70864, 71248, 71360, 71472, 71904, 72016, 72784, 73040, 73120, 92768, 92864, 93008,
  120782, 120792, 120802, 120812, 120822, 123200, 123632, 125264, 130032]

/-- The value of a decimal digit of any script. -/
def digitValue? (c : Char) : Option Nat :=
  (decimalZeros.find? fun z => z ≤ c.toNat && c.toNat < z + 10).map (c.toNat - ·)

/-- A digit that can stand in a decimal number. -/
def isDecimalDigit (c : Char) : Bool :=
  (digitValue? c).isSome

/-- Digits outside the decimal systems, such as superscripts. -/
def ornamentalDigits : CharClass := ⟨[
  178, 180, 185, 186, 4969, 4978, 6618, 6619, 8304, 8305, 8308, 8314, 8320, 8330, 9312, 9321,
  9332, 9341, 9352, 9361, 9450, 9451, 9461, 9470, 9471, 9472, 10102, 10111, 10112, 10121, 10122,
  10131, 68160, 68164, 69216, 69225, 69714, 69723, 127232, 127243]⟩

/-- A digit of any kind. -/
def isDigit (c : Char) : Bool :=
  isDecimalDigit c || ornamentalDigits.contains c

theorem digitValue?_lt {c : Char} {d : Nat} (h : digitValue? c = some d) : d < 10 := by
  obtain ⟨z, hz, rfl⟩ := Option.map_eq_some_iff.1 h
  have := List.find?_some hz
  simp at this
  omega

theorem digitValue?_ascii (c : Char) (h : 48 ≤ c.toNat) (h' : c.toNat < 58) :
    digitValue? c = some (c.toNat - 48) := by
  simp [digitValue?, decimalZeros, h, h']

end PanelExport
