import PanelExport.Proofs.Query.Words

/-!
# The values of printed numbers

The words for a number are read as that number: the shortest decimal of a double as the double, a
whole number of seconds as the whole number, and a number behind a minus as the number with the
other sign.

* `numberValue_double`, `numberValue_seconds`: a number and a duration have the value they were
  written for.
* `signed_neg`: a minus in front of the number without its sign gives the number back.
-/

namespace PanelExport.Query

theorem hexDigits?_eq_none {cs : List Char} (h : ∀ d ∈ cs.tail.head?, d ≠ 'x' ∧ d ≠ 'X') :
    hexDigits? cs = none := by
  unfold hexDigits?
  split
  · exact absurd rfl (h 'x' rfl).1
  · exact absurd rfl (h 'X' rfl).2
  · rfl

/-- The shortest decimal of a double has it as its value. -/
theorem numberValue_double {n : DecimalNumeral} {x : Double} (h : Double.Spells n x) :
    numberValue x.text.toList = .ok (.double x) := by
  have hhex : hexDigits? n.chars = none := by
    refine hexDigits?_eq_none fun d hd => ?_
    cases hcs : n.chars with
    | nil => simp [hcs] at hd
    | cons c cs =>
      rw [hcs, List.tail_cons, Option.mem_def, List.head?_eq_some_iff] at hd
      obtain ⟨ds, rfl⟩ := hd
      exact not_hexadecimal h.proper hcs
  rw [← h.chars, numberValue, hhex, h.value]

theorem readDecimal?_seconds (n : Nat) : readDecimal? (Nat.toDigits 10 n ++ ['s']) = none := by
  have hspan : spanDigits (Nat.toDigits 10 n ++ ['s']) = (digitValues (Nat.toDigits 10 n), ['s']) :=
    spanDigits_append Double.isDigit_of_mem_toDigits (endsDigits_cons (by decide))
  have hsign := spanSign_digits (Double.isDigit_of_mem_toDigits (n := n)) Nat.toDigits_ne_nil ['s']
  simp [readDecimal?, hsign, hspan, readPower?]

/-- So many seconds have their number as the value. -/
theorem numberValue_seconds {n : Nat} (h : (toString n).length ≤ digitLimit) :
    numberValue (toString n ++ "s").toList = .ok (.whole n) := by
  have hhex : hexDigits? (Nat.toDigits 10 n ++ ['s']) = none := by
    refine hexDigits?_eq_none fun d hd => ?_
    have hm : d ∈ Nat.toDigits 10 n ++ ['s'] :=
      List.mem_of_mem_tail (List.mem_of_mem_head? hd)
    rcases List.mem_append.1 hm with hm | hm
    · have hdigit := Double.isDigit_of_mem_toDigits d hm
      constructor <;> rintro rfl <;> cases hdigit
    · rw [List.mem_singleton.1 hm]
      decide
  have hlength : (digitValues (Nat.toDigits 10 n)).length ≤ digitLimit := by
    rw [← String.length_toList] at h
    simpa [digitValues] using h
  rw [toList_seconds, numberValue, hhex, readDecimal?_seconds, spanChunks_seconds]
  simp [sumChunks, Chunk.value, wholeNumber_of_le hlength, ofDigits_toDigits, TimeUnit.seconds?,
    Number.add, bind, Except.bind, pure, Except.pure]

/-- A minus in front of the number without its sign gives the number back. -/
theorem signed_neg {x : Double} (h : x.isNegative = true) :
    (Number.double x.neg).signed true = .ok (.double x) := by
  have hneg : x.neg.isNegative = false := by
    cases x <;> simp_all [Double.isNegative, Double.neg]
  simp [Number.signed, Number.toDouble, Double.neg_one_mul _ hneg, Double.neg_neg, bind,
    Except.bind, pure, Except.pure]

end PanelExport.Query
